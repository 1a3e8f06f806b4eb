import FirstMatch.Value
import Mathlib

/-!
# Equality and order of values

Equality of values is no equivalence, since what is no number does not equal itself, but it is symmetric and transitive. Numbers
compare as their ranks do in a linear order, and what is no number has no rank. So equal values compare alike with any other.
-/

namespace FirstMatch

/-! ## Ranks -/

/-- Where a number stands among the numbers: the kind and sign first, then the exponent, then the digits. -/
abbrev Rank : Type := Int ×ₗ Int ×ₗ Int

namespace Rank

/-- The rank of a number taken apart; what is no number has none. -/
def ofUnpacked? : Float.Model.UnpackedFloat → Option Rank
  | .infinity .negative => some (toLex (-2, toLex (0, 0)))
  | .finite .negative digits exponent _ => some (toLex (-1, toLex (-exponent, -digits)))
  | .zero _ => some (toLex (0, toLex (0, 0)))
  | .finite .positive digits exponent _ => some (toLex (1, toLex (exponent, digits)))
  | .infinity .positive => some (toLex (2, toLex (0, 0)))
  | .notANumber => none

/-- The rank of a number. -/
def ofFloat? (x : Float) : Option Rank := ofUnpacked? x.toModel.unpack

/-- Pairs are compared by their first parts, and where these are equal by their second. -/
theorem compare_toLex {α β : Type} [Ord α] [Ord β] (a a' : α) (b b' : β) :
    compare (toLex (a, b)) (toLex (a', b')) = (compare a a').then (compare b b') := by
  rw [Prod.Lex.compare_def]
  rfl

theorem compare_neg (a b : Int) : compare (-a) (-b) = (compare a b).swap := by
  rcases Int.lt_trichotomy a b with h | h | h
  · rw [compare_lt_iff_lt.2 h, compare_gt_iff_gt.2 (by omega), Ordering.swap_lt]
  · simp [h]
  · rw [compare_gt_iff_gt.2 h, compare_lt_iff_lt.2 (by omega), Ordering.swap_gt]

theorem compare_natCast (a b : Nat) : compare (a : Int) (b : Int) = compare a b := by
  rcases Nat.lt_trichotomy a b with h | h | h
  · rw [compare_lt_iff_lt.2 h, compare_lt_iff_lt.2 (by omega)]
  · simp [h]
  · rw [compare_gt_iff_gt.2 h, compare_gt_iff_gt.2 (by omega)]

/-- Numbers taken apart compare as their ranks. -/
theorem compare_unpacked (x y : Float.Model.UnpackedFloat) :
    x.compare y = (ofUnpacked? x).bind fun r => (ofUnpacked? y).map fun s => compare r s := by
  rcases x with (_ | _) | _ | _ | ⟨_ | _, m, e, _⟩ <;> rcases y with (_ | _) | _ | _ | ⟨_ | _, m', e', _⟩ <;>
    simp [Float.Model.UnpackedFloat.compare, ofUnpacked?, compare_toLex, compare_neg, compare_natCast, Ordering.swap_then] <;>
    rfl

/-- Numbers are equal if they have a rank, and the same. -/
theorem beq_iff {x y : Float} : (x == y) = true ↔ ∃ r, ofFloat? x = some r ∧ ofFloat? y = some r := by
  have hbeq : (x == y) = (x.toModel.unpack.compare y.toModel.unpack == some .eq) := rfl
  rw [hbeq, compare_unpacked, beq_iff_eq, Option.bind_eq_some_iff]
  simp only [Option.map_eq_some_iff, compare_eq_iff_eq]
  constructor
  · rintro ⟨r, hr, s, hs, rfl⟩
    exact ⟨r, hr, hs⟩
  · rintro ⟨r, hr, hs⟩
    exact ⟨r, hr, r, hs, rfl⟩

/-- What equals itself is what is a number. -/
theorem beq_self_iff {x : Float} : (x == x) = true ↔ x.isNaN = false := by
  have hnan : x.isNaN = x.toModel.unpack.isNaN := rfl
  rw [beq_iff, hnan]
  unfold ofFloat?
  generalize x.toModel.unpack = u
  rcases u with (_ | _) | _ | _ | ⟨_ | _, m, e, _⟩ <;> simp [ofUnpacked?, Float.Model.UnpackedFloat.isNaN]

/-- Numbers are in order if they have ranks that are. -/
theorem le_iff {x y : Float} : x ≤ y ↔ ∃ r s, ofFloat? x = some r ∧ ofFloat? y = some s ∧ r ≤ s := by
  have hle : x ≤ y ↔ (x.toModel.unpack.compare y.toModel.unpack).any (·.isLE) = true := by
    show decide _ = true ↔ _
    rw [decide_eq_true_iff]
    rfl
  rw [hle, compare_unpacked, Option.any_eq_true]
  simp only [Option.bind_eq_some_iff, Option.map_eq_some_iff]
  constructor
  · rintro ⟨o, ⟨r, hr, s, hs, rfl⟩, ho⟩
    exact ⟨r, s, hr, hs, compare_le_iff_le.1 (Ordering.isLE_iff_ne_gt.1 ho)⟩
  · rintro ⟨r, s, hr, hs, hrs⟩
    exact ⟨_, ⟨r, hr, s, hs, rfl⟩, Ordering.isLE_iff_ne_gt.2 (compare_le_iff_le.2 hrs)⟩

/-- Numbers are in strict order if they have ranks that are. -/
theorem lt_iff {x y : Float} : x < y ↔ ∃ r s, ofFloat? x = some r ∧ ofFloat? y = some s ∧ r < s := by
  have hlt : x < y ↔ (x.toModel.unpack.compare y.toModel.unpack == some .lt) = true := by
    show decide _ = true ↔ _
    rw [decide_eq_true_iff]
    rfl
  rw [hlt, compare_unpacked, beq_iff_eq, Option.bind_eq_some_iff]
  simp only [Option.map_eq_some_iff, compare_lt_iff_lt]
  constructor
  · rintro ⟨r, hr, s, hs, hrs⟩
    exact ⟨r, s, hr, hs, hrs⟩
  · rintro ⟨r, s, hr, hs, hrs⟩
    exact ⟨r, hr, s, hs, hrs⟩

protected theorem le_trans {x y z : Float} (hxy : x ≤ y) (hyz : y ≤ z) : x ≤ z := by
  obtain ⟨r, s, hx, hy, hrs⟩ := le_iff.1 hxy
  obtain ⟨s', t, hy', hz, hst⟩ := le_iff.1 hyz
  obtain rfl := Option.some.inj (hy.symm.trans hy')
  exact le_iff.2 ⟨r, t, hx, hz, hrs.trans hst⟩

protected theorem lt_of_le_of_lt {x y z : Float} (hxy : x ≤ y) (hyz : y < z) : x < z := by
  obtain ⟨r, s, hx, hy, hrs⟩ := le_iff.1 hxy
  obtain ⟨s', t, hy', hz, hst⟩ := lt_iff.1 hyz
  obtain rfl := Option.some.inj (hy.symm.trans hy')
  exact lt_iff.2 ⟨r, t, hx, hz, hrs.trans_lt hst⟩

protected theorem lt_of_lt_of_le {x y z : Float} (hxy : x < y) (hyz : y ≤ z) : x < z := by
  obtain ⟨r, s, hx, hy, hrs⟩ := lt_iff.1 hxy
  obtain ⟨s', t, hy', hz, hst⟩ := le_iff.1 hyz
  obtain rfl := Option.some.inj (hy.symm.trans hy')
  exact lt_iff.2 ⟨r, t, hx, hz, hrs.trans_le hst⟩

protected theorem le_of_lt {x y : Float} (h : x < y) : x ≤ y := by
  obtain ⟨r, s, hx, hy, hrs⟩ := lt_iff.1 h
  exact le_iff.2 ⟨r, s, hx, hy, hrs.le⟩

protected theorem le_total {x y : Float} (hx : (x == x) = true) (hy : (y == y) = true) : x ≤ y ∨ y ≤ x := by
  obtain ⟨r, hr, -⟩ := beq_iff.1 hx
  obtain ⟨s, hs, -⟩ := beq_iff.1 hy
  rcases le_total r s with h | h
  · exact Or.inl (le_iff.2 ⟨r, s, hr, hs, h⟩)
  · exact Or.inr (le_iff.2 ⟨s, r, hs, hr, h⟩)

protected theorem le_of_not_lt {x y : Float} (hx : (x == x) = true) (hy : (y == y) = true) (h : ¬y < x) : x ≤ y := by
  obtain ⟨r, hr, -⟩ := beq_iff.1 hx
  obtain ⟨s, hs, -⟩ := beq_iff.1 hy
  refine le_iff.2 ⟨r, s, hr, hs, le_of_not_gt fun hlt => h ?_⟩
  exact lt_iff.2 ⟨s, r, hs, hr, hlt⟩

/-- What is ordered with anything is a number. -/
theorem beq_self_of_le {x y : Float} (h : x ≤ y) : (x == x) = true ∧ (y == y) = true := by
  obtain ⟨r, s, hx, hy, -⟩ := le_iff.1 h
  exact ⟨beq_iff.2 ⟨r, hx, hx⟩, beq_iff.2 ⟨s, hy, hy⟩⟩

/-- A number is not equal to a greater one. -/
theorem beq_of_lt {x y : Float} (h : x < y) : (x == y) = false := by
  obtain ⟨r, s, hx, hy, hrs⟩ := lt_iff.1 h
  refine Bool.eq_false_iff.2 fun hxy => ?_
  obtain ⟨t, hx', hy'⟩ := beq_iff.1 hxy
  obtain rfl := Option.some.inj (hx.symm.trans hx')
  obtain rfl := Option.some.inj (hy.symm.trans hy')
  exact lt_irrefl _ hrs

protected theorem not_le_of_lt {x y : Float} (h : x < y) : ¬y ≤ x := by
  intro hle
  have hself : (x == x) = false := beq_of_lt (Rank.lt_of_lt_of_le h hle)
  rw [(beq_self_of_le hle).2] at hself
  cases hself

/-- Numbers that are at most each other are equal. -/
theorem beq_of_le_of_le {x y : Float} (hxy : x ≤ y) (hyx : y ≤ x) : (x == y) = true := by
  obtain ⟨r, s, hr, hs, hrs⟩ := le_iff.1 hxy
  obtain ⟨s', r', hs', hr', hsr⟩ := le_iff.1 hyx
  obtain rfl := Option.some.inj (hr.symm.trans hr')
  obtain rfl := Option.some.inj (hs.symm.trans hs')
  exact beq_iff.2 ⟨r, hr, le_antisymm hrs hsr ▸ hs⟩

/-- Equal numbers are at most each other. -/
theorem le_of_beq {x y : Float} (h : (x == y) = true) : x ≤ y := by
  obtain ⟨r, hx, hy⟩ := beq_iff.1 h
  exact le_iff.2 ⟨r, r, hx, hy, le_rfl⟩

/-- Numbers compare as their ranks. -/
theorem order_eq (x y : Float) :
    order? x y = (ofFloat? x).bind fun r => (ofFloat? y).map fun s => compare r s := by
  unfold order?
  cases hx : ofFloat? x with
  | none => simp [lt_iff, beq_iff, hx]
  | some r =>
    cases hy : ofFloat? y with
    | none => simp [lt_iff, beq_iff, hx, hy]
    | some s =>
      rcases lt_trichotomy r s with h | h | h
      · simp [lt_iff, hx, hy, h, compare_lt_iff_lt.2 h]
      · simp [lt_iff, beq_iff, hx, hy, h]
      · simp [lt_iff, beq_iff, hx, hy, h, h.not_gt, h.ne, compare_gt_iff_gt.2 h]

/-- Equal numbers are ordered alike with any other. -/
theorem order_congr {x y : Float} (h : (x == y) = true) (z : Float) : order? x z = order? y z := by
  obtain ⟨r, hx, hy⟩ := beq_iff.1 h
  rw [order_eq, order_eq, hx, hy]

end Rank

/-! ## Equality -/

instance partialEquivFloat : PartialEquivBEq Float where
  symm {x y} h := by
    obtain ⟨r, hx, hy⟩ := Rank.beq_iff.1 h
    exact Rank.beq_iff.2 ⟨r, hy, hx⟩
  trans {x y z} hxy hyz := by
    obtain ⟨r, hx, hy⟩ := Rank.beq_iff.1 hxy
    obtain ⟨s, hy', hz⟩ := Rank.beq_iff.1 hyz
    obtain rfl := Option.some.inj (hy.symm.trans hy')
    exact Rank.beq_iff.2 ⟨r, hx, hz⟩

/-- One more element joins the different ones unless it equals one of them. -/
theorem eraseDups_concat {α : Type} [BEq α] [PartialEquivBEq α] (l : List α) (a : α) :
    (l ++ [a]).eraseDups = l.eraseDups ++ if l.any (· == a) then [] else [a] := by
  induction hn : l.length using Nat.strongRecOn generalizing l with
  | ind n ih =>
    cases l with
    | nil => simp [List.eraseDups_cons]
    | cons b l =>
      have hlt : (l.filter fun x => !x == b).length < n := by
        have hle := List.length_filter_le (fun x => !x == b) l
        rw [List.length_cons] at hn
        omega
      have hrest := ih _ hlt (l.filter fun x => !x == b) rfl
      rw [List.cons_append, List.eraseDups_cons, List.eraseDups_cons, List.filter_append, List.cons_append, List.any_cons]
      congr 1
      cases hab : a == b with
      | true => simp [hab, BEq.comm (a := b) (b := a)]
      | false =>
        have hother : ∀ x, (!x == b && x == a) = (x == a) := by
          intro x
          cases hxa : x == a with
          | false => simp
          | true =>
            have hxb : (x == b) = false := by
              rw [Bool.eq_false_iff]
              intro hxb
              rw [PartialEquivBEq.trans (PartialEquivBEq.symm hxa) hxb] at hab
              cases hab
            simp [hxb]
        have hany : (l.filter fun x => !x == b).any (· == a) = l.any (· == a) := by
          rw [List.any_filter]
          exact congrArg _ (funext hother)
        rw [hany] at hrest
        simp [hab, BEq.comm (a := b) (b := a), hrest]

/-- An element that stood before leaves the different ones as they are. -/
theorem eraseDups_concat_of_mem {α : Type} [BEq α] [LawfulBEq α] {l : List α} {a : α} (h : a ∈ l) :
    (l ++ [a]).eraseDups = l.eraseDups := by
  have hany : l.any (· == a) = true := List.any_eq_true.2 ⟨a, h, beq_self_eq_true a⟩
  rw [eraseDups_concat, if_pos hany, List.append_nil]

/-- A new element stands after the different ones. -/
theorem eraseDups_concat_of_notMem {α : Type} [BEq α] [LawfulBEq α] {l : List α} {a : α} (h : a ∉ l) :
    (l ++ [a]).eraseDups = l.eraseDups ++ [a] := by
  have hany : l.any (· == a) = false := by
    rw [List.any_eq_false]
    intro x hx hxa
    exact h (eq_of_beq hxa ▸ hx)
  rw [eraseDups_concat, hany]
  rfl

/-- An element equals one of the different ones if it equals any. -/
theorem any_eraseDups {α : Type} [BEq α] [PartialEquivBEq α] (l : List α) (a : α) :
    l.eraseDups.any (· == a) = l.any (· == a) := by
  induction l using List.reverseRecOn with
  | nil => rfl
  | append_singleton l b ih =>
    rw [eraseDups_concat, List.any_append, List.any_append, ih]
    cases hb : l.any (· == b) with
    | false => rfl
    | true =>
      obtain ⟨u, hu, hub⟩ := List.any_eq_true.1 hb
      cases hba : b == a with
      | false => simp [hba]
      | true =>
        have hua : l.any (· == a) = true := List.any_eq_true.2 ⟨u, hu, PartialEquivBEq.trans hub hba⟩
        simp [hua]

namespace Value

@[simp] theorem number_beq_number (x y : Float) : (number x == number y) = (x == y) := rfl

@[simp] theorem text_beq_text (s t : String) : (text s == text t) = (s == t) := rfl

@[simp] theorem number_beq_text (x : Float) (t : String) : (number x == text t) = false := rfl

@[simp] theorem text_beq_number (s : String) (y : Float) : (text s == number y) = false := rfl

/-- A value that equals a number is an equal number. -/
theorem beq_number_iff {a : Value} {y : Float} : (a == number y) = true ↔ ∃ x, a = number x ∧ (x == y) = true := by
  cases a with
  | number x => simp
  | text s => simp

/-- A value that equals a text is that text. -/
theorem beq_text_iff {a : Value} {t : String} : (a == text t) = true ↔ a = text t := by
  cases a with
  | number x => simp
  | text s => simp

instance partialEquivValue : PartialEquivBEq Value where
  symm {a b} h := by
    cases b with
    | number y =>
      obtain ⟨x, rfl, hxy⟩ := beq_number_iff.1 h
      exact beq_number_iff.2 ⟨y, rfl, PartialEquivBEq.symm hxy⟩
    | text t =>
      obtain rfl := beq_text_iff.1 h
      exact h
  trans {a b c} hab hbc := by
    cases c with
    | number z =>
      obtain ⟨y, rfl, hyz⟩ := beq_number_iff.1 hbc
      obtain ⟨x, rfl, hxy⟩ := beq_number_iff.1 hab
      exact beq_number_iff.2 ⟨x, rfl, PartialEquivBEq.trans hxy hyz⟩
    | text t =>
      obtain rfl := beq_text_iff.1 hbc
      exact hab

/-- Equal values are of one kind. -/
theorem isNumber_congr {a b : Value} (h : (a == b) = true) : a.isNumber = b.isNumber := by
  cases b with
  | number y =>
    obtain ⟨x, rfl, -⟩ := beq_number_iff.1 h
    rfl
  | text t => rw [beq_text_iff.1 h]

/-- An operator that orders compares numbers by their order, and nothing else. -/
theorem compare_of_ordering {op : Operator} (hop : op.isOrdering = true) (a b : Value) :
    a.compare op b = (a.number?.bind fun x => b.number?.bind (order? x)).map op.accepts := by
  cases op with
  | eq => cases hop
  | ne => cases hop
  | _ => cases a <;> cases b <;> rfl

/-- Equal values compare alike with any other. -/
theorem compare_congr {a b : Value} (h : (a == b) = true) (op : Operator) (c : Value) : a.compare op c = b.compare op c := by
  have heq : (a == c) = (b == c) := BEq.congr_left h
  cases hop : op.isOrdering with
  | true =>
    rw [compare_of_ordering hop, compare_of_ordering hop]
    cases b with
    | number y =>
      obtain ⟨x, rfl, hxy⟩ := beq_number_iff.1 h
      simp only [number?, Option.bind_some, funext (Rank.order_congr hxy)]
    | text t => rw [beq_text_iff.1 h]
  | false =>
    cases op with
    | eq => exact congrArg some heq
    | ne => exact congrArg (fun e => some !e) heq
    | _ => cases hop

/-- A value that equals any equals itself. -/
theorem beq_self_of_beq {a b : Value} (h : (a == b) = true) : (a == a) = true :=
  PartialEquivBEq.trans h (PartialEquivBEq.symm h)

end Value

end FirstMatch
