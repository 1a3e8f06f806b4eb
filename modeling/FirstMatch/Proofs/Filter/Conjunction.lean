import FirstMatch.Proofs.Filter.Compatibility

/-!
# Criteria together

Joining criteria adds the predicates of a name to those it has, so whatever holds of joined predicates exactly when it holds of each
part holds of joined criteria exactly when it holds of both (`Criteria.forall_and`). Looking a name up, passing a row and agreeing
with a rule are of that kind. So criteria together keep the rows, and leave visible the rules, that each of them does
(`Criteria.apply_and`).
-/

namespace FirstMatch

namespace Criteria

/-! ## Joined entries -/

section Entries

variable {R : String → List Predicate → Prop} (hR : ∀ name ps qs, R name (ps ++ qs) ↔ R name ps ∧ R name qs)

include hR

/-- What holds of each entry, however the predicates are split among them, holds of further predicates too. -/
theorem forall_extendEntries (name : String) (ps : List Predicate) (entries : List CriteriaEntry) :
    (∀ e ∈ extendEntries name ps entries, R e.1 e.2) ↔ R name ps ∧ ∀ e ∈ entries, R e.1 e.2 := by
  induction entries with
  | nil => simp [extendEntries]
  | cons e rest ih =>
    rw [extendEntries]
    split
    · rw [List.forall_mem_cons]
    · split
      · next hname =>
        rw [List.forall_mem_cons, List.forall_mem_cons, hR, hname]
        exact and_assoc.trans and_left_comm
      · rw [List.forall_mem_cons, List.forall_mem_cons, ih]
        exact and_left_comm

/-- What holds of joined predicates exactly when it holds of each part does so of joined criteria. -/
theorem forall_and (a b : Criteria) : (∀ e ∈ (a.and b).entries, R e.1 e.2) ↔
    (∀ e ∈ a.entries, R e.1 e.2) ∧ ∀ e ∈ b.entries, R e.1 e.2 := by
  rw [Criteria.and]
  induction b.entries generalizing a with
  | nil => simp
  | cons e rest ih =>
    rw [List.foldl_cons, ih, List.forall_mem_cons]
    have hextend := forall_extendEntries hR e.1 e.2 a.entries
    rw [extend, hextend]
    exact and_assoc.trans and_left_comm

end Entries

/-- Two lists of predicates resolve together if each does. -/
theorem resolvable_append (c : Catalog) (name : String) (ps qs : List Predicate) :
    Resolvable c name (ps ++ qs) ↔ Resolvable c name ps ∧ Resolvable c name qs := by
  simp only [Resolvable, List.any_append, Bool.or_eq_true]
  constructor
  · rintro ⟨i, hi, h⟩
    exact ⟨⟨i, hi, fun hps => h (Or.inl hps)⟩, i, hi, fun hqs => h (Or.inr hqs)⟩
  · rintro ⟨⟨i, hi, hps⟩, j, hj, hqs⟩
    obtain rfl := Option.some.inj (hi.symm.trans hj)
    exact ⟨i, hi, fun h => h.elim hps hqs⟩

section Tests

variable {a b : Criteria} {c : Catalog}

/-- Criteria resolve together if and only if each of them resolves. -/
theorem resolve_and_iff : (∃ tests, (a.and b).resolve c = .ok tests) ↔
    (∃ tests, a.resolve c = .ok tests) ∧ ∃ tests, b.resolve c = .ok tests := by
  simp only [resolve_ok_iff]
  exact forall_and (resolvable_append c) a b

variable {ta tb tests : List (Nat × List Predicate)}

/-- What holds of joined predicates exactly when it holds of each part does so of the tests that criteria resolve to. -/
theorem forall_tests_and (hab : (a.and b).resolve c = .ok tests) (ha : a.resolve c = .ok ta) (hb : b.resolve c = .ok tb)
    {R : Nat → List Predicate → Prop} (hR : ∀ i ps qs, R i (ps ++ qs) ↔ R i ps ∧ R i qs) :
    (∀ t ∈ tests, R t.1 t.2) ↔ (∀ t ∈ ta, R t.1 t.2) ∧ ∀ t ∈ tb, R t.1 t.2 := by
  rw [forall_tests hab, forall_tests ha, forall_tests hb]
  refine forall_and (R := fun name ps => ∃ i, c.column? name = some i ∧ R i ps) (fun name ps qs => ?_) a b
  constructor
  · rintro ⟨i, hi, h⟩
    exact ⟨⟨i, hi, ((hR i ps qs).1 h).1⟩, i, hi, ((hR i ps qs).1 h).2⟩
  · rintro ⟨⟨i, hi, hps⟩, j, hj, hqs⟩
    obtain rfl := Option.some.inj (hi.symm.trans hj)
    exact ⟨i, hi, (hR i ps qs).2 ⟨hps, hqs⟩⟩

theorem passes_iff {r : Row} : passes tests r = true ↔ ∀ t ∈ tests, ∀ p ∈ t.2, p.admits (r.cell t.1) = true := by
  simp [passes]

/-- A row passes criteria together if and only if it passes each of them. -/
theorem passes_and (hab : (a.and b).resolve c = .ok tests) (ha : a.resolve c = .ok ta) (hb : b.resolve c = .ok tb) (r : Row) :
    passes tests r = (passes ta r && passes tb r) := by
  rw [Bool.eq_iff_iff, Bool.and_eq_true]
  simp only [passes_iff]
  exact forall_tests_and hab ha hb (R := fun i ps => ∀ p ∈ ps, p.admits (r.cell i) = true) fun _ _ _ => List.forall_mem_append

/-- A rule agrees with criteria together if and only if it agrees with each of them. -/
theorem agrees_and (hab : (a.and b).resolve c = .ok tests) (ha : a.resolve c = .ok ta) (hb : b.resolve c = .ok tb) (r : Rule) :
    RuleFilter.agrees tests r = (RuleFilter.agrees ta r && RuleFilter.agrees tb r) := by
  have hagrees : ∀ tests : List (Nat × List Predicate), RuleFilter.agrees tests r = true ↔
      ∀ t ∈ tests, ∀ x, r.conditionOn? t.1 = some x → ∀ p ∈ t.2, p.compatible x = true := fun tests => by
    rw [RuleFilter.agrees_iff, Prod.forall]
  rw [Bool.eq_iff_iff, Bool.and_eq_true, hagrees, hagrees, hagrees]
  refine forall_tests_and hab ha hb
    (R := fun i ps => ∀ x, r.conditionOn? i = some x → ∀ p ∈ ps, p.compatible x = true) fun i ps qs => ?_
  simp only [List.forall_mem_append]
  exact ⟨fun h => ⟨fun x hx => (h x hx).1, fun x hx => (h x hx).2⟩, fun h x hx => ⟨h.1 x hx, h.2 x hx⟩⟩

end Tests

/-! ## Rows -/

/-- Every predicate admits the row's cell in the column of its feature. -/
def PassedBy (criteria : Criteria) (c : Catalog) (r : Row) : Prop :=
  ∀ e ∈ criteria.entries, ∃ i, c.column? e.1 = some i ∧ ∀ p ∈ e.2, p.admits (r.cell i) = true

section Rows

variable {a b : Criteria} {d : Dataset} {rows kept : List Nat}

/-- Criteria keep the rows that pass every predicate, in the order given and as often as given. -/
theorem exists_keep_of_apply (h : a.apply d rows = .ok kept) : ∃ keep : Nat → Bool, kept = rows.filter keep ∧
    ∀ i, keep i = true ↔ ∃ r, d.row? i = some r ∧ a.PassedBy d.catalog r := by
  obtain ⟨tests, htests, rfl⟩ := apply_eq_ok_iff.1 h
  refine ⟨_, rfl, fun i => ?_⟩
  rw [Option.any_eq_true]
  refine exists_congr fun r => and_congr_right fun _ => ?_
  rw [passes_iff]
  exact forall_tests htests (R := fun i ps => ∀ p ∈ ps, p.admits (r.cell i) = true)

/-- Criteria apply to rows if they resolve. -/
theorem apply_ok_iff : (∃ kept, a.apply d rows = .ok kept) ↔ ∃ tests, a.resolve d.catalog = .ok tests := by
  simp only [apply_eq_ok_iff]
  exact ⟨fun ⟨_, tests, htests, _⟩ => ⟨tests, htests⟩, fun ⟨tests, htests⟩ => ⟨_, tests, htests, rfl⟩⟩

/-- Criteria together keep the rows that pass each of them. -/
theorem apply_and_of_resolve {ta tb : List (Nat × List Predicate)} (ha : a.resolve d.catalog = .ok ta)
    (hb : b.resolve d.catalog = .ok tb) (rows : List Nat) :
    (a.and b).apply d rows = .ok (rows.filter fun i => (d.row? i).any fun r => passes ta r && passes tb r) := by
  obtain ⟨tests, htests⟩ := resolve_and_iff.2 ⟨⟨ta, ha⟩, tb, hb⟩
  have hpasses : passes tests = fun r => passes ta r && passes tb r := funext (passes_and htests ha hb)
  exact apply_eq_ok_iff.2 ⟨tests, htests, by rw [hpasses]⟩

/-- What criteria keep together, the second keep of what the first keep, and both keep in the other order. -/
theorem exists_apply_of_and (h : (a.and b).apply d rows = .ok kept) : (b.and a).apply d rows = .ok kept ∧
    ∃ first, a.apply d rows = .ok first ∧ b.apply d first = .ok kept := by
  obtain ⟨⟨ta, ha⟩, tb, hb⟩ := resolve_and_iff.1 (resolve_of_apply h)
  obtain rfl := Except.ok.inj ((apply_and_of_resolve ha hb rows).symm.trans h)
  constructor
  · rw [apply_and_of_resolve hb ha]
    simp only [Bool.and_comm]
  · refine ⟨_, apply_eq_ok_iff.2 ⟨ta, ha, rfl⟩, apply_eq_ok_iff.2 ⟨tb, hb, ?_⟩⟩
    rw [List.filter_filter]
    refine List.filter_congr fun i _ => ?_
    cases d.row? i with
    | none => rfl
    | some r => exact Bool.and_comm _ _

/-- What criteria keep, they keep again, one time after the other or joined to themselves. -/
theorem apply_again (h : a.apply d rows = .ok kept) : a.apply d kept = .ok kept ∧ (a.and a).apply d rows = .ok kept := by
  obtain ⟨tests, htests, rfl⟩ := apply_eq_ok_iff.1 h
  constructor
  · refine apply_eq_ok_iff.2 ⟨tests, htests, ?_⟩
    rw [List.filter_filter]
    simp only [Bool.and_self]
  · rw [apply_and_of_resolve htests htests]
    simp only [Bool.and_self]

end Rows

end Criteria

/-! ## Rules -/

/-- Of numbered elements, a number is left when its element is. -/
theorem contains_map_filter_zipIdx {α : Type} {xs : List α} {p : α → Bool} {x : α × Nat} (hx : x ∈ xs.zipIdx) :
    ((xs.zipIdx.filter fun y => p y.1).map (·.2)).contains x.2 = p x.1 := by
  rw [Bool.eq_iff_iff, List.contains_iff_mem, List.mem_map]
  constructor
  · rintro ⟨y, hy, hyx⟩
    obtain ⟨hy, hp⟩ := List.mem_filter.1 hy
    have hplace := List.mem_zipIdx_iff_getElem?.1 hy
    rw [hyx, List.mem_zipIdx_iff_getElem?.1 hx] at hplace
    rwa [Option.some.inj hplace]
  · intro hp
    exact ⟨x, List.mem_filter.2 ⟨hx, hp⟩, rfl⟩

namespace RuleFilter

variable {f : RuleFilter} {l : DecisionList} {figures : List (RuleStats Float)} {c : Catalog}

/-- Criteria together leave visible the rules that each of them does. -/
theorem exists_apply_of_and {a b : Criteria} {visible : List Nat} (h : f.apply l figures c (a.and b) = .ok visible) :
    ∃ va vb, f.apply l figures c a = .ok va ∧ f.apply l figures c b = .ok vb ∧ visible = va.filter (vb.contains ·) := by
  obtain ⟨tests, interest, htests, hinterest, rfl⟩ := apply_eq_ok_iff.1 h
  obtain ⟨⟨ta, ha⟩, tb, hb⟩ := Criteria.resolve_and_iff.1 ⟨tests, htests⟩
  refine ⟨_, _, apply_eq_ok_iff.2 ⟨ta, interest, ha, hinterest, rfl⟩, apply_eq_ok_iff.2 ⟨tb, interest, hb, hinterest, rfl⟩, ?_⟩
  rw [List.filter_map, List.filter_filter]
  refine congrArg (List.map Prod.snd) (List.filter_congr fun x hx => ?_)
  rw [Function.comp_apply, contains_map_filter_zipIdx hx]
  simp only [shows, Criteria.agrees_and htests ha hb]
  cases f.reaches x.1.2 <;> cases testsAll interest x.1.1 <;> simp [Bool.and_comm]

end RuleFilter

/-- Criteria together are the conjunction of both, for rows and for rules, in five parts.
1. They can be applied if and only if each can. Then they keep what the second keep of what the first keep, and so they do in the
   other order.
2. Criteria keep the rows of the dataset that pass every predicate, in the order given and as often as given.
3. Applied again, or joined to themselves, they keep the same.
4. No criteria keep the numbers that the dataset has a row for.
5. A rule filter can be applied with both together if and only if it can with each, and leaves visible the rules that it does with
   the one and with the other. -/
theorem Criteria.apply_and (a b : Criteria) :
    (∀ (d : Dataset) (rows : List Nat),
      (((∃ kept, (a.and b).apply d rows = .ok kept) ↔ (∃ kept, a.apply d rows = .ok kept) ∧ ∃ kept, b.apply d rows = .ok kept) ∧
        ∀ kept, (a.and b).apply d rows = .ok kept → (b.and a).apply d rows = .ok kept ∧
          ∃ first, a.apply d rows = .ok first ∧ b.apply d first = .ok kept) ∧
      (∀ kept, a.apply d rows = .ok kept →
        (∃ keep : Nat → Bool, kept = rows.filter keep ∧
          ∀ i, keep i = true ↔ ∃ r, d.row? i = some r ∧ a.PassedBy d.catalog r) ∧
        a.apply d kept = .ok kept ∧ (a.and a).apply d rows = .ok kept) ∧
      empty.apply d rows = .ok (rows.filter (· < d.size))) ∧
    ∀ (f : RuleFilter) (l : DecisionList) (figures : List (RuleStats Float)) (c : Catalog),
      ((∃ visible, f.apply l figures c (a.and b) = .ok visible) ↔
        (∃ visible, f.apply l figures c a = .ok visible) ∧ ∃ visible, f.apply l figures c b = .ok visible) ∧
      ∀ visible, f.apply l figures c (a.and b) = .ok visible → ∃ va vb, f.apply l figures c a = .ok va ∧
        f.apply l figures c b = .ok vb ∧ visible = va.filter (vb.contains ·) := by
  refine ⟨fun d rows => ⟨⟨?_, fun kept => exists_apply_of_and⟩, fun kept h => ⟨exists_keep_of_apply h, apply_again h⟩,
    apply_empty d rows⟩, fun f l figures c => ⟨?_, fun visible => RuleFilter.exists_apply_of_and⟩⟩
  · simp only [apply_ok_iff]
    exact resolve_and_iff
  · simp only [RuleFilter.apply_ok_iff, resolve_and_iff]
    exact ⟨fun ⟨⟨ha, hb⟩, hinterest⟩ => ⟨⟨ha, hinterest⟩, hb, hinterest⟩,
      fun ⟨⟨ha, hinterest⟩, hb, _⟩ => ⟨⟨ha, hb⟩, hinterest⟩⟩

/-- Houses by their rent, and whether they have a garden; the rent of the last is not known. -/
def houses : List Row :=
  [⟨[some (.number 700), some (.text "yes")]⟩, ⟨[some (.number 900), some (.text "no")]⟩, ⟨[none, some (.text "no")]⟩]

/-- Houses at most at the first rent have a garden. -/
def byRent : List RuleDraft := [⟨[⟨"rent", .le, .number 700⟩], some (.text "yes"), {}⟩, ⟨[], some (.text "no"), {}⟩]

/-- A rent of at least eight hundred. -/
def dear : Criteria := Criteria.empty.atLeast "rent" 800

/-- One of the rents known. -/
def known : Criteria := Criteria.empty.oneOf "rent" [.number 700, .text "900"]

/-- Of rows that repeat, come in any order or do not exist, the dear ones are kept, and the rule on houses that are not is hidden. -/
theorem Criteria.apply_and_houses : ∃ d l, Dataset.ofRows ["rent", "garden"] houses "garden" = .ok d ∧
    DecisionList.ofDrafts d.catalog byRent = .ok l ∧
    (dear.and known).apply d [2, 1, 7, 0, 1] = .ok [1, 1] ∧
    (∃ first, dear.apply d [2, 1, 7, 0, 1] = .ok first ∧ known.apply d first = .ok [1, 1]) ∧
    RuleFilter.apply {} l l.unevaluated d.catalog (dear.and known) = .ok [1] ∧
    ∃ va vb, RuleFilter.apply {} l l.unevaluated d.catalog dear = .ok va ∧
      RuleFilter.apply {} l l.unevaluated d.catalog known = .ok vb ∧ [1] = va.filter (vb.contains ·) := by
  obtain ⟨d, hd⟩ : ∃ d, Dataset.ofRows ["rent", "garden"] houses "garden" = .ok d := ⟨_, rfl⟩
  obtain ⟨l, hl, hkept, hvisible⟩ : ∃ l, DecisionList.ofDrafts d.catalog byRent = .ok l ∧
      (dear.and known).apply d [2, 1, 7, 0, 1] = .ok [1, 1] ∧
      RuleFilter.apply {} l l.unevaluated d.catalog (dear.and known) = .ok [1] := by
    cases hd
    exact ⟨_, rfl, rfl, rfl⟩
  obtain ⟨hrows, hrules⟩ := Criteria.apply_and dear known
  exact ⟨d, l, hd, hl, hkept, ((hrows d _).1.2 _ hkept).2, hvisible, (hrules {} l _ d.catalog).2 _ hvisible⟩

end FirstMatch
