import FirstMatch.Proofs.Binary64
import FirstMatch.Proofs.Ranking

/-!
# The order of the ranking

Before the label, a ranking holds the columns tested, each with the strengths of the rules that test it added from the left
(`Ranking.strength_tested`). Where the counts of a rule add up to a machine word, its strength is the share of the rows counted that
it predicted rightly (`ReportedCounts.strength_eq`). Strengths have no minus sign and are numbers, so sorting puts them in descending
order and leaves equal ones in the order in which their columns are first tested (`Accepted.ranking_sorted`).
-/

namespace FirstMatch

/-- A rule tests the columns of its conditions. -/
theorem Rule.references_iff {r : Rule} {f : Nat} : r.references f = true ↔ f ∈ r.conditions.map (·.feature) := by
  simp [references, conditionOn?, List.find?_isSome]

/-- Where the counts add up to a machine word, the strength of a rule is the share of the rows counted as predicted rightly, and zero
where no row was counted. -/
theorem ReportedCounts.strength_eq {r : ReportedCounts} (h : r.trueCount.toNat + r.falseCount.toNat < 2 ^ 64) :
    r.strength = if r.trueCount = 0 ∧ r.falseCount = 0 then 0
      else Float.ofNat r.trueCount.toNat / Float.ofNat (r.trueCount.toNat + r.falseCount.toNat) := by
  have htotal : (r.trueCount + r.falseCount).toNat = r.trueCount.toNat + r.falseCount.toNat := by
    rw [UInt64.toNat_add, Nat.mod_eq_of_lt h]
  have hzero : r.trueCount + r.falseCount = 0 ↔ r.trueCount = 0 ∧ r.falseCount = 0 := by
    rw [← UInt64.toNat_inj, ← UInt64.toNat_inj, ← UInt64.toNat_inj, htotal]
    exact Nat.add_eq_zero_iff
  unfold strength
  simp only [htotal, hzero]

/-- The strength of a rule has no minus sign. -/
theorem ReportedCounts.unsigned_strength {r : ReportedCounts} (h : r.trueCount.toNat + r.falseCount.toNat < 2 ^ 64) :
    Binary64.Unsigned r.strength.toModel.unpack := by
  rw [strength_eq h]
  split
  · exact .zero
  · next hcounted =>
    have hpos : 0 < r.trueCount.toNat + r.falseCount.toNat := by
      rw [Nat.pos_iff_ne_zero, Ne, Nat.add_eq_zero_iff]
      exact fun hnone => hcounted ⟨UInt64.toNat_inj.1 hnone.1, UInt64.toNat_inj.1 hnone.2⟩
    have htrue : r.trueCount.toNat < 2 ^ 64 := Nat.lt_of_le_of_lt (Nat.le_add_right _ _) h
    exact ((Binary64.unsigned_natCast htrue).div (Binary64.normal_natCast hpos h)).unpack_pack

namespace Ranking

/-! ## Sums -/

/-- The sum of some numbers, added from the left; none have no sum. -/
def sum? : List Float → Option Float
  | [] => none
  | x :: rest => some (rest.foldl (· + ·) x)

/-- One more number is added last. -/
theorem sum_concat (xs : List Float) (x : Float) : sum? (xs ++ [x]) = some ((sum? xs).elim x (· + x)) := by
  cases xs with
  | nil => rfl
  | cons y rest => simp [sum?]

/-- Sums of numbers without a minus sign have none. -/
theorem unsigned_sum {xs : List Float} (h : ∀ x ∈ xs, Binary64.Unsigned x.toModel.unpack) {s : Float} (hs : sum? xs = some s) :
    Binary64.Unsigned s.toModel.unpack := by
  induction xs using List.reverseRecOn generalizing s with
  | nil => cases hs
  | append_singleton xs x ih =>
    have hx := h x (by simp)
    rw [sum_concat, Option.some.injEq] at hs
    subst hs
    cases hrest : sum? xs with
    | none => exact hx
    | some t =>
      have ht := ih (fun y hy => h y (List.mem_append_left _ hy)) hrest
      exact (ht.add hx).unpack_pack

/-! ## Strengths of columns -/

/-- The strength of a column among ranked features. -/
def strength? (ranked : List RankedFeature) (f : Nat) : Option Float := (ranked.find? (·.feature = f)).map (·.strength)

/-- The strength of a column is that of its feature, where no column is ranked twice. -/
theorem strength_of_mem {ranked : List RankedFeature} (hnodup : (columns ranked).Nodup) {x : RankedFeature} (hx : x ∈ ranked) :
    strength? ranked x.feature = some x.strength := by
  cases hf : ranked.find? (·.feature = x.feature) with
  | none => simpa using List.find?_eq_none.1 hf x hx
  | some y =>
    have hfeature : y.feature = x.feature := by simpa using List.find?_some hf
    obtain rfl := List.inj_on_of_nodup_map hnodup (List.mem_of_find?_eq_some hf) hx hfeature
    rw [strength?, hf, Option.map_some]

/-- A credit adds to the strength of its column, or begins it. -/
theorem strength_credit (c : Catalog) (strength : Float) (ranked : List RankedFeature) (g f : Nat) :
    strength? (credit c strength ranked g) f =
      if f = g then some ((strength? ranked f).elim strength (· + strength)) else strength? ranked f := by
  unfold credit strength?
  by_cases hany : ranked.any (·.feature = g) = true
  · rw [if_pos hany, List.find?_map]
    have hsame : ((fun x : RankedFeature => decide (x.feature = f)) ∘ fun r =>
        if r.feature = g then { r with strength := r.strength + strength } else r) = fun r => decide (r.feature = f) := by
      funext r
      simp only [Function.comp_apply]
      split <;> rfl
    rw [hsame]
    cases hf : ranked.find? (·.feature = f) with
    | none =>
      rw [if_neg]
      · rfl
      · rintro rfl
        obtain ⟨x, hx, hxf⟩ := List.any_eq_true.1 hany
        exact List.find?_eq_none.1 hf x hx hxf
    | some y =>
      have hy : y.feature = f := by simpa using List.find?_some hf
      simp only [Option.map_some, hy]
      split <;> rfl
  · rw [if_neg hany, List.find?_append]
    by_cases hfg : f = g
    · subst hfg
      have hnone : ranked.find? (·.feature = f) = none := by
        rw [List.find?_eq_none]
        intro x hx hxf
        exact hany (List.any_eq_true.2 ⟨x, hx, hxf⟩)
      rw [if_pos rfl, hnone]
      simp
    · rw [if_neg hfg]
      simp [Ne.symm hfg]

/-- A rule that tests each of its columns once credits each of them once. -/
theorem strength_creditRule (c : Catalog) {r : Rule} (distinct : (r.conditions.map (·.feature)).Nodup)
    (ranked : List RankedFeature) (f : Nat) : strength? (creditRule c ranked r) f =
      if r.references f then some ((strength? ranked f).elim r.reported.strength (· + r.reported.strength))
      else strength? ranked f := by
  simp only [Rule.references_iff]
  unfold creditRule
  generalize r.conditions.map (·.feature) = tests at distinct ⊢
  induction tests generalizing ranked with
  | nil => simp
  | cons g rest ih =>
    obtain ⟨hg, hrest⟩ := List.nodup_cons.1 distinct
    rw [List.foldl_cons, ih _ hrest, strength_credit]
    by_cases hfg : f = g
    · subst hfg
      simp [hg]
    · simp [hfg]

/-- The strengths of the rules that test a column, in the order of the list. -/
def strengthsOn (rules : List Rule) (f : Nat) : List Float := (rules.filter (·.references f)).map (·.reported.strength)

/-- The strength of a column tested is the sum of those of the rules that test it. -/
theorem strength_tested {l : DecisionList} (distinct : ∀ r ∈ l.rules, (r.conditions.map (·.feature)).Nodup) (c : Catalog)
    (f : Nat) : strength? (tested l c) f = sum? (strengthsOn l.rules f) := by
  unfold tested
  generalize l.rules = rules at distinct ⊢
  induction rules using List.reverseRecOn with
  | nil => rfl
  | append_singleton rules r ih =>
    have hrules := ih fun q hq => distinct q (List.mem_append_left _ hq)
    rw [List.foldl_append, List.foldl_cons, List.foldl_nil, strength_creditRule c (distinct r (by simp)), hrules, strengthsOn,
      strengthsOn, List.filter_append, List.map_append]
    by_cases hr : r.references f = true
    · simp [hr, sum_concat]
    · simp [hr]

/-- Each feature ranked goes by the name of its column. -/
theorem name_tested (l : DecisionList) (c : Catalog) : ∀ x ∈ tested l c, x.name = c.nameOf x.feature := by
  have hcredit : ∀ (strength : Float) (ranked : List RankedFeature) (f : Nat), (∀ x ∈ ranked, x.name = c.nameOf x.feature) →
      ∀ x ∈ credit c strength ranked f, x.name = c.nameOf x.feature := by
    intro strength ranked f h x hx
    unfold credit at hx
    split at hx
    · obtain ⟨y, hy, rfl⟩ := List.mem_map.1 hx
      have hname := h y hy
      split <;> exact hname
    · rcases List.mem_append.1 hx with hx | hx
      · exact h x hx
      · rw [List.mem_singleton.1 hx]
  have hrule : ∀ (ranked : List RankedFeature) (r : Rule), (∀ x ∈ ranked, x.name = c.nameOf x.feature) →
      ∀ x ∈ creditRule c ranked r, x.name = c.nameOf x.feature :=
    fun ranked r h => List.foldlRecOn _ _ h fun ranked h f _ => hcredit _ ranked f h
  exact List.foldlRecOn _ _ (by simp) fun ranked h r _ => hrule ranked r h

/-! ## The order of first sight -/

/-- The columns that rules test, rule by rule and in the order written. -/
def testedBy (rules : List Rule) : List Nat := rules.flatMap fun r => r.conditions.map (·.feature)

/-- Crediting a rule adds its columns in the order written, without repeats. -/
theorem columns_creditRule {c : Catalog} {seen : List Nat} {ranked : List RankedFeature} (h : columns ranked = seen.eraseDups)
    (r : Rule) : columns (creditRule c ranked r) = (seen ++ r.conditions.map (·.feature)).eraseDups := by
  unfold creditRule
  induction r.conditions.map (·.feature) generalizing seen ranked with
  | nil => rwa [List.append_nil]
  | cons f rest ih =>
    rw [List.foldl_cons, List.append_cons]
    refine ih ?_
    rw [columns_credit, h]
    by_cases hf : f ∈ seen
    · rw [if_pos (List.mem_eraseDups.2 hf), eraseDups_concat_of_mem hf]
    · rw [if_neg fun hmem => hf (List.mem_eraseDups.1 hmem), eraseDups_concat_of_notMem hf]

/-- The columns tested stand in the order of first sight. -/
theorem columns_tested (l : DecisionList) (c : Catalog) : columns (tested l c) = (testedBy l.rules).eraseDups := by
  unfold tested
  induction l.rules using List.reverseRecOn with
  | nil => rfl
  | append_singleton rules r ih =>
    rw [List.foldl_append, List.foldl_cons, List.foldl_nil, columns_creditRule ih]
    simp [testedBy]

/-- Without repeats, elements stand in the order in which they are first seen. -/
theorem pairwise_idxOf_eraseDups (xs : List Nat) : xs.eraseDups.Pairwise fun a b => xs.idxOf a < xs.idxOf b := by
  induction xs using List.reverseRecOn with
  | nil => exact List.Pairwise.nil
  | append_singleton xs x ih =>
    have hold : xs.eraseDups.Pairwise fun a b => (xs ++ [x]).idxOf a < (xs ++ [x]).idxOf b := by
      refine ih.imp_of_mem fun ha hb hab => ?_
      rwa [List.idxOf_append_of_mem (List.mem_eraseDups.1 ha), List.idxOf_append_of_mem (List.mem_eraseDups.1 hb)]
    by_cases hnew : x ∈ xs
    · rwa [eraseDups_concat_of_mem hnew]
    · rw [eraseDups_concat_of_notMem hnew]
      refine List.pairwise_append.2 ⟨hold, List.pairwise_singleton _ _, fun a ha b hb => ?_⟩
      obtain rfl := List.mem_singleton.1 hb
      have hmem := List.mem_eraseDups.1 ha
      rw [List.idxOf_append_of_mem hmem, List.idxOf_append_of_notMem hnew]
      exact Nat.lt_add_right _ (List.idxOf_lt_length_of_mem hmem)

/-! ## Sorting -/

section Stability

variable {α : Type} {le : α → α → Bool} (trans : ∀ a b c, le a b = true → le b c = true → le a c = true)
  (total : ∀ a b, (le a b || le b a) = true)

include trans total

/-- Sorting leaves what is equal to something in the order in which it stood. -/
theorem filter_mergeSort (a : α) (l : List α) :
    (l.mergeSort le).filter (fun x => le a x && le x a) = l.filter fun x => le a x && le x a := by
  symm
  have hpairwise : (l.filter fun x => le a x && le x a).Pairwise fun x y => le x y = true := by
    refine List.pairwise_of_forall_mem_list fun x hx y hy => ?_
    have hxa := (Bool.and_eq_true_iff.1 (List.mem_filter.1 hx).2).2
    have hay := (Bool.and_eq_true_iff.1 (List.mem_filter.1 hy).2).1
    exact trans x a y hxa hay
  have hsub := (List.sublist_mergeSort trans total hpairwise List.filter_sublist).filter fun x => le a x && le x a
  rw [List.filter_filter] at hsub
  simp only [Bool.and_self] at hsub
  exact hsub.eq_of_length (((List.mergeSort_perm l le).filter _).length_eq).symm

/-- What stands equal after sorting stands as it stood before. -/
theorem pairwise_mergeSort_of_ties {R : α → α → Prop} {l : List α} (h : l.Pairwise R) :
    (l.mergeSort le).Pairwise fun a b => le b a = true → R a b := by
  rw [List.pairwise_iff_forall_sublist]
  intro a b hab hba
  have hle : le a b = true := List.pairwise_iff_forall_sublist.1 (List.pairwise_mergeSort trans total l) hab
  have haa : le a a = true := by simpa using total a a
  have hties := hab.filter fun x => le a x && le x a
  rw [filter_mergeSort trans total a l] at hties
  have hpair : [a, b].filter (fun x => le a x && le x a) = [a, b] := by simp [haa, hle, hba]
  rw [hpair] at hties
  exact List.pairwise_iff_forall_sublist.1 h (hties.trans List.filter_sublist)

end Stability

/-- Where the strength of a feature stands among the numbers; what is no number counts as nothing. -/
def weight (x : RankedFeature) : Rank := (Rank.ofFloat? x.strength).getD (toLex (0, toLex (0, 0)))

/-- Whether a feature is as strong as another. -/
def atLeast (a b : RankedFeature) : Bool := decide (weight b ≤ weight a)

theorem atLeast_trans (a b c : RankedFeature) (hab : atLeast a b = true) (hbc : atLeast b c = true) : atLeast a c = true := by
  unfold atLeast at *
  rw [decide_eq_true_eq] at *
  exact hbc.trans hab

theorem atLeast_total (a b : RankedFeature) : (atLeast a b || atLeast b a) = true := by
  unfold atLeast
  rw [Bool.or_eq_true, decide_eq_true_eq, decide_eq_true_eq]
  exact le_total _ _

section Numbers

variable {a b : RankedFeature} (ha : (a.strength == a.strength) = true) (hb : (b.strength == b.strength) = true)

include ha hb

/-- A feature is as strong as another if its strength is not lower. -/
theorem atLeast_iff : atLeast a b = true ↔ b.strength ≤ a.strength := by
  obtain ⟨r, hr, -⟩ := Rank.beq_iff.1 ha
  obtain ⟨s, hs, -⟩ := Rank.beq_iff.1 hb
  unfold atLeast weight
  rw [decide_eq_true_eq, Rank.le_iff, hr, hs]
  simp

/-- Features whose strengths are numbers precede others that they are as strong as. -/
theorem precedes_eq : precedes a b = atLeast a b := by
  rw [Bool.eq_iff_iff, atLeast_iff ha hb, precedes, Bool.not_eq_true', decide_eq_false_iff_not]
  constructor
  · exact fun hnot => Rank.le_of_not_lt hb ha hnot
  · intro hle hlt
    have hself := Rank.beq_of_lt (Rank.lt_of_le_of_lt hle hlt)
    rw [hb] at hself
    cases hself

end Numbers

/-- Numbers are sorted as their ranks. -/
theorem mergeSort_precedes {ranked : List RankedFeature} (h : ∀ x ∈ ranked, (x.strength == x.strength) = true) :
    ranked.mergeSort precedes = ranked.mergeSort atLeast := by
  have hsort := List.map_mergeSort (f := id) fun a ha b hb => precedes_eq (h a ha) (h b hb)
  rwa [List.map_id, List.map_id] at hsort

/-- Features are ranked in one way only: of two that are as strong as each other, one is tested first. -/
theorem eq_of_perm_of_sorted {ranked ranked' : List RankedFeature} (first : Nat → Nat) (hperm : ranked.Perm ranked')
    (hsorted : ranked.Pairwise fun a b => b.strength ≤ a.strength)
    (hties : ranked.Pairwise fun a b => (a.strength == b.strength) = true → first a.feature < first b.feature)
    (hsorted' : ranked'.Pairwise fun a b => b.strength ≤ a.strength)
    (hties' : ranked'.Pairwise fun a b => (a.strength == b.strength) = true → first a.feature < first b.feature) :
    ranked = ranked' := by
  refine List.Perm.eq_of_pairwise ?_ (hsorted.and hties) (hsorted'.and hties') hperm
  rintro a b - - ⟨hba, hab⟩ ⟨hle, hlt⟩
  have heq : (a.strength == b.strength) = true := Rank.beq_of_le_of_le hle hba
  have hab := hab heq
  have hba := hlt (BEq.symm heq)
  omega

end Ranking

namespace DecisionList

open Ranking

section Counted

variable {l : DecisionList} {c : Catalog} (accepted : l.Accepted c)
  (hcounts : ∀ r ∈ l.rules, r.reported.trueCount.toNat + r.reported.falseCount.toNat < 2 ^ 64)

include accepted

theorem Accepted.distinct {r : Rule} (hr : r ∈ l.rules) : (r.conditions.map (·.feature)).Nodup := (accepted.fits r hr).distinct

/-- The strength of a column tested is the sum of those of the rules that test it. -/
theorem Accepted.sum_of_mem_tested {x : RankedFeature} (hx : x ∈ tested l c) :
    sum? (strengthsOn l.rules x.feature) = some x.strength := by
  rw [← strength_tested (fun r hr => accepted.distinct hr) c]
  exact strength_of_mem (nodup_columns_tested l c) hx

include hcounts

/-- A column tested is as strong as the shares of the rules that test it, added from the left in the order of the list. -/
theorem Accepted.sum_of_shares {x : RankedFeature} (hx : x ∈ tested l c) :
    sum? ((l.rules.filter fun r => x.feature ∈ r.conditions.map (·.feature)).map fun r =>
      if r.reported.trueCount = 0 ∧ r.reported.falseCount = 0 then 0
      else Float.ofNat r.reported.trueCount.toNat /
        Float.ofNat (r.reported.trueCount.toNat + r.reported.falseCount.toNat)) = some x.strength := by
  rw [← accepted.sum_of_mem_tested hx]
  have hrules : (l.rules.filter fun r => x.feature ∈ r.conditions.map (·.feature)) = l.rules.filter (·.references x.feature) := by
    refine List.filter_congr fun r _ => ?_
    rw [Bool.eq_iff_iff, decide_eq_true_iff, Rule.references_iff]
  rw [hrules, strengthsOn]
  refine congrArg sum? (List.map_congr_left fun r hr => ?_)
  exact (ReportedCounts.strength_eq (hcounts r (List.mem_filter.1 hr).1)).symm

/-- The strength of a column tested is a number. -/
theorem Accepted.strength_beq_self {x : RankedFeature} (hx : x ∈ tested l c) : (x.strength == x.strength) = true := by
  have hunsigned : ∀ s ∈ strengthsOn l.rules x.feature, Binary64.Unsigned s.toModel.unpack := by
    intro s hs
    obtain ⟨r, hr, rfl⟩ := List.mem_map.1 hs
    exact ReportedCounts.unsigned_strength (hcounts r (List.mem_filter.1 hr).1)
  obtain ⟨r, hr, -⟩ := (unsigned_sum hunsigned (accepted.sum_of_mem_tested hx)).rank
  exact Rank.beq_iff.2 ⟨r, hr, hr⟩

/-- The ranking of an accepted list whose rules report counts that add up to a machine word, in four parts.
1. The label comes last, with strength zero; before it stands each column that a rule tests, and no column stands twice.
2. The strength of a column is a sum over the rules that test it, added from the left in the order of the list: of the rows counted
   by a rule, the share predicted rightly, and zero where it counts none.
3. Strengths never rise before the label.
4. Columns of equal strength stand in the order in which the rules first test them. -/
theorem Accepted.ranking_sorted : ∃ ranked, l.ranking c = ranked ++ [⟨c.label, c.labelFeature.name, 0⟩] ∧
    ((columns (l.ranking c)).Nodup ∧ ∀ f, f ∈ columns ranked ↔ f ∈ testedBy l.rules) ∧
    (∀ x ∈ ranked, x.name = c.nameOf x.feature ∧
      sum? ((l.rules.filter fun r => x.feature ∈ r.conditions.map (·.feature)).map fun r =>
        if r.reported.trueCount = 0 ∧ r.reported.falseCount = 0 then 0
        else Float.ofNat r.reported.trueCount.toNat /
          Float.ofNat (r.reported.trueCount.toNat + r.reported.falseCount.toNat)) = some x.strength) ∧
    (ranked.Pairwise fun a b => b.strength ≤ a.strength) ∧
    ranked.Pairwise fun a b => (a.strength == b.strength) = true →
      (testedBy l.rules).idxOf a.feature < (testedBy l.rules).idxOf b.feature := by
  have hself : ∀ x ∈ tested l c, (x.strength == x.strength) = true := fun x hx => accepted.strength_beq_self hcounts hx
  have hperm := List.mergeSort_perm (tested l c) precedes
  have hmem : ∀ x ∈ (tested l c).mergeSort precedes, (x.strength == x.strength) = true := fun x hx =>
    hself x (hperm.mem_iff.1 hx)
  have hfirst : (tested l c).Pairwise fun a b =>
      (testedBy l.rules).idxOf a.feature < (testedBy l.rules).idxOf b.feature := by
    have hcolumns := pairwise_idxOf_eraseDups (testedBy l.rules)
    rwa [← columns_tested l c, columns, List.pairwise_map] at hcolumns
  refine ⟨(tested l c).mergeSort precedes, rfl, ⟨accepted.nodup_ranking, fun f => ?_⟩, fun x hx => ?_, ?_, ?_⟩
  · rw [columns, (hperm.map _).mem_iff, ← columns, columns_tested, List.mem_eraseDups]
  · have hx' := hperm.mem_iff.1 hx
    exact ⟨name_tested l c x hx', accepted.sum_of_shares hcounts hx'⟩
  · rw [mergeSort_precedes hself] at hmem ⊢
    refine (List.pairwise_mergeSort atLeast_trans atLeast_total _).imp_of_mem fun ha hb hab => ?_
    exact (atLeast_iff (hmem _ ha) (hmem _ hb)).1 hab
  · rw [mergeSort_precedes hself] at hmem ⊢
    refine (pairwise_mergeSort_of_ties atLeast_trans atLeast_total hfirst).imp_of_mem fun ha hb hab heq => hab ?_
    exact (atLeast_iff (hmem _ hb) (hmem _ ha)).2 (Rank.le_of_beq heq)

end Counted

/-- Fruit by three columns, and whether it is ripe. -/
def fruit : Catalog where
  features := [⟨"color", false, [.text "red", .text "green"], false, none, none⟩,
    ⟨"size", false, [.text "big", .text "small"], false, none, none⟩,
    ⟨"smell", false, [.text "sweet"], false, none, none⟩, ⟨"ripe", true, [.text "yes", .text "no"], false, none, none⟩]
  label := 3
  label_lt := by decide

/-- The first rule tests the size before the color; the second adds nothing to the color, and the third makes the smell strongest. -/
def fruitDrafts : List RuleDraft :=
  [⟨[⟨"size", .eq, .text "big"⟩, ⟨"color", .eq, .text "red"⟩], some (.text "yes"), ⟨3, 1⟩⟩,
    ⟨[⟨"color", .eq, .text "green"⟩], some (.text "no"), ⟨0, 0⟩⟩, ⟨[⟨"smell", .eq, .text "sweet"⟩], some (.text "yes"), ⟨9, 1⟩⟩,
    ⟨[], some (.text "no"), ⟨5, 0⟩⟩]

/-- What fruit are ranked by: nine rows of ten for the smell, three of four for the size and for the color. -/
def fruitRanked (f : Nat) : RankedFeature := ⟨f, fruit.nameOf f, if f = 2 then 9 / 10 else 3 / 4⟩

/-- Smell is the strongest; size stands before color, which is as strong but tested later. -/
theorem ranking_sorted_fruit : ∃ l, ofDrafts fruit fruitDrafts = .ok l ∧
    (∀ r ∈ l.rules, r.reported.trueCount.toNat + r.reported.falseCount.toNat < 2 ^ 64) ∧
    l.ranking fruit = [⟨2, "smell", 9 / 10⟩, ⟨1, "size", 3 / 4⟩, ⟨0, "color", 3 / 4⟩, ⟨3, "ripe", 0⟩] := by
  obtain ⟨l, hl, hcounts, htested, hshares⟩ : ∃ l, ofDrafts fruit fruitDrafts = .ok l ∧
      (∀ r ∈ l.rules, r.reported.trueCount.toNat + r.reported.falseCount.toNat < 2 ^ 64) ∧
      testedBy l.rules = [1, 0, 0, 2] ∧
      ∀ f ∈ [2, 1, 0], sum? ((l.rules.filter fun r => f ∈ r.conditions.map (·.feature)).map fun r =>
        if r.reported.trueCount = 0 ∧ r.reported.falseCount = 0 then 0
        else Float.ofNat r.reported.trueCount.toNat /
          Float.ofNat (r.reported.trueCount.toNat + r.reported.falseCount.toNat)) = some (fruitRanked f).strength := by
    refine ⟨_, rfl, by decide, rfl, ?_⟩
    intro f hf
    fin_cases hf <;> rfl
  obtain ⟨ranked, hranked, ⟨hnodup, hcolumns⟩, hstrengths, hsorted, hties⟩ :=
    Accepted.ranking_sorted (.ofDrafts fruitDrafts hl) hcounts
  rw [htested] at hcolumns hties
  have hmem : ∀ f, f ∈ columns ranked ↔ f ∈ [2, 1, 0] := by
    intro f
    rw [hcolumns]
    simp only [List.mem_cons, List.not_mem_nil, or_false]
    omega
  have hfruit : ∀ x ∈ ranked, x = fruitRanked x.feature := by
    intro x hx
    obtain ⟨hname, hsum⟩ := hstrengths x hx
    rw [hshares x.feature ((hmem _).1 (List.mem_map_of_mem hx)), Option.some.injEq] at hsum
    obtain ⟨f, name, strength⟩ := x
    obtain rfl : name = fruit.nameOf f := hname
    obtain rfl : (fruitRanked f).strength = strength := hsum
    rfl
  have hperm : ranked.Perm ([2, 1, 0].map fruitRanked) := by
    rw [hranked, columns, List.map_append] at hnodup
    have hcolumns := (List.perm_ext_iff_of_nodup (List.nodup_append.1 hnodup).1 (by decide)).2 hmem
    have hlist : (columns ranked).map fruitRanked = ranked := by
      rw [columns, List.map_map]
      exact (List.map_congr_left fun x hx => (hfruit x hx).symm).trans (List.map_id ranked)
    exact hlist ▸ hcolumns.map fruitRanked
  refine ⟨l, hl, hcounts, ?_⟩
  rw [hranked, eq_of_perm_of_sorted [1, 0, 0, 2].idxOf hperm hsorted hties (by decide +kernel) (by decide +kernel)]
  rfl

end DecisionList

end FirstMatch
