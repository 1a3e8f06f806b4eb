import FirstMatch.Filter.RuleFilter
import FirstMatch.Proofs.DecisionList

/-!
# Looking filters up in a catalog

Criteria resolve in a catalog when it knows each name and the bounded features are numeric (`Criteria.resolve_ok_iff`), and then
what holds of the tests by column is what holds of the entries by name (`Criteria.forall_tests`). Features of interest resolve when
none of them is unknown (`RuleFilter.interestIn_ok_iff`). Whether filters can be applied is decided by that alone, and then they keep
the rows that pass (`Criteria.apply_eq_ok_iff`) and the rules that are to be shown (`RuleFilter.apply_eq_ok_iff`).
-/

namespace FirstMatch

/-! ## Checks one by one -/

section Checks

variable {ε α β : Type} {f : α → Except ε β} {xs : List α} {ys : List β}

/-- Checks succeed when each does, with what each gives. -/
theorem mapM_eq_ok_iff : xs.mapM f = .ok ys ↔ xs.map f = ys.map .ok := by
  induction xs generalizing ys with
  | nil =>
    rw [List.mapM_nil, List.map_nil]
    constructor
    · intro h
      cases h
      rfl
    · intro h
      rw [List.map_eq_nil_iff.1 h.symm]
      rfl
  | cons x rest ih =>
    rw [List.mapM_cons, bind_eq_ok, List.map_cons]
    constructor
    · rintro ⟨y, hy, h⟩
      obtain ⟨more, hmore, h⟩ := bind_eq_ok.1 h
      cases h
      rw [hy, ih.1 hmore, List.map_cons]
    · intro h
      obtain ⟨y, more, rfl, hy, hmore⟩ := List.map_eq_cons_iff.1 h.symm
      exact ⟨y, hy.symm, bind_eq_ok.2 ⟨more, ih.2 hmore.symm, rfl⟩⟩

theorem exists_mapM_ok_iff : (∃ ys, xs.mapM f = .ok ys) ↔ ∀ x ∈ xs, ∃ y, f x = .ok y := by
  induction xs with
  | nil => simp [pure, Except.pure]
  | cons x rest ih =>
    rw [List.forall_mem_cons, ← ih]
    simp only [mapM_eq_ok_iff, List.map_cons]
    constructor
    · rintro ⟨ys, h⟩
      obtain ⟨y, more, -, hy, hmore⟩ := List.map_eq_cons_iff.1 h.symm
      exact ⟨⟨y, hy.symm⟩, more, hmore.symm⟩
    · rintro ⟨⟨y, hy⟩, more, hmore⟩
      exact ⟨y :: more, by rw [hy, hmore, List.map_cons]⟩

end Checks

/-- A name resolves to the column that has it. -/
theorem Catalog.resolve_eq_ok_iff {c : Catalog} {name : String} {i : Nat} : c.resolve name = .ok i ↔ c.column? name = some i := by
  rw [Catalog.resolve]
  cases c.column? name <;> simp

/-! ## Criteria -/

namespace Criteria

variable {criteria : Criteria} {c : Catalog} {tests : List (Nat × List Predicate)}

/-- An entry resolves to the column of its name, which is numeric if there are bounds on it. -/
theorem resolveEntry_eq_ok_iff {e : CriteriaEntry} {t : Nat × List Predicate} : resolveEntry c e = .ok t ↔
    c.column? e.1 = some t.1 ∧ (e.2.any (·.isRange) = true → c.isNumeric t.1 = true) ∧ t.2 = e.2 := by
  rw [resolveEntry, bind_eq_ok]
  simp only [Catalog.resolve_eq_ok_iff]
  constructor
  · rintro ⟨i, hi, h⟩
    split at h
    · cases h
    · next hrange =>
      cases h
      exact ⟨hi, fun hany => by simpa [hany] using hrange, rfl⟩
  · rintro ⟨hi, hrange, hps⟩
    refine ⟨t.1, hi, ?_⟩
    rw [if_neg (by simpa using hrange)]
    exact congrArg Except.ok (Prod.ext rfl hps.symm)

/-- A catalog knows a name, and has it for a numeric feature if there are bounds on it. -/
def Resolvable (c : Catalog) (name : String) (ps : List Predicate) : Prop :=
  ∃ i, c.column? name = some i ∧ (ps.any (·.isRange) = true → c.isNumeric i = true)

/-- Criteria resolve if each of their entries does. -/
theorem resolve_ok_iff : (∃ tests, criteria.resolve c = .ok tests) ↔ ∀ e ∈ criteria.entries, Resolvable c e.1 e.2 := by
  simp only [resolve, exists_mapM_ok_iff, resolveEntry_eq_ok_iff, Resolvable]
  refine forall₂_congr fun e _ => ⟨?_, ?_⟩
  · rintro ⟨t, hi, hrange, -⟩
    exact ⟨t.1, hi, hrange⟩
  · rintro ⟨i, hi, hrange⟩
    exact ⟨(i, e.2), hi, hrange, rfl⟩

/-- What holds of the tests by column holds of the entries, each at the column of its name. -/
theorem forall_tests (h : criteria.resolve c = .ok tests) {R : Nat → List Predicate → Prop} :
    (∀ t ∈ tests, R t.1 t.2) ↔ ∀ e ∈ criteria.entries, ∃ i, c.column? e.1 = some i ∧ R i e.2 := by
  have hmap := mapM_eq_ok_iff.1 h
  constructor
  · intro hR e he
    obtain ⟨t, ht, hresolve⟩ := List.mem_map.1 (hmap ▸ List.mem_map_of_mem he)
    obtain ⟨hi, -, hps⟩ := resolveEntry_eq_ok_iff.1 hresolve.symm
    exact ⟨t.1, hi, hps ▸ hR t ht⟩
  · intro hR t ht
    obtain ⟨e, he, hresolve⟩ := List.mem_map.1 (hmap.symm ▸ List.mem_map_of_mem ht)
    obtain ⟨hi, -, hps⟩ := resolveEntry_eq_ok_iff.1 hresolve
    obtain ⟨i, hi', hRi⟩ := hR e he
    obtain rfl := Option.some.inj (hi.symm.trans hi')
    exact hps ▸ hRi

/-- Criteria that resolve test the column of each name that they know. -/
theorem mem_of_resolve (h : criteria.resolve c = .ok tests) {name : String} {ps : List Predicate}
    (hentry : (name, ps) ∈ criteria.entries) {i : Nat} (hi : c.column? name = some i) : (i, ps) ∈ tests := by
  obtain ⟨i', hi', hmem⟩ := (forall_tests h (R := fun i ps => (i, ps) ∈ tests)).1 (fun _ ht => ht) _ hentry
  obtain rfl := Option.some.inj (hi.symm.trans hi')
  exact hmem

/-- What criteria keep passes what they resolve to. -/
theorem apply_eq_ok_iff {d : Dataset} {rows kept : List Nat} : criteria.apply d rows = .ok kept ↔
    ∃ tests, criteria.resolve d.catalog = .ok tests ∧ kept = rows.filter fun i => (d.row? i).any (passes tests) := by
  rw [apply, bind_eq_ok]
  refine exists_congr fun tests => and_congr_right fun _ => ?_
  exact ⟨fun h => (Except.ok.inj h).symm, fun h => congrArg Except.ok h.symm⟩

/-- Criteria that apply to rows resolve. -/
theorem resolve_of_apply {d : Dataset} {rows kept : List Nat} (h : criteria.apply d rows = .ok kept) :
    ∃ tests, criteria.resolve d.catalog = .ok tests := by
  obtain ⟨tests, htests, -⟩ := apply_eq_ok_iff.1 h
  exact ⟨tests, htests⟩

/-- No criteria keep the rows that the dataset has. -/
theorem apply_empty (d : Dataset) (rows : List Nat) : empty.apply d rows = .ok (rows.filter (· < d.size)) := by
  refine apply_eq_ok_iff.2 ⟨[], rfl, List.filter_congr fun i _ => ?_⟩
  rw [Dataset.row?, Dataset.size]
  cases hrow : d.rows[i]? with
  | none => simpa using hrow
  | some r => simpa [passes] using (List.getElem?_eq_some_iff.1 hrow).1

end Criteria

/-! ## Features of interest -/

namespace RuleFilter

variable {f : RuleFilter} {c : Catalog} {l : DecisionList} {figures : List (RuleStats Float)} {criteria : Criteria}

/-- The first feature of interest that a catalog does not know. -/
def unknown? (f : RuleFilter) (c : Catalog) : Option String := f.interest.find? fun name => (c.column? name).isNone

/-- The first feature of interest that is unknown is the one reported. -/
theorem interestIn_of_unknown {name : String} (h : f.unknown? c = some name) :
    f.interestIn c = .error (.unknownFeature name) := by
  rw [unknown?] at h
  rw [interestIn]
  generalize f.interest = names at h ⊢
  induction names with
  | nil => cases h
  | cons first rest ih =>
    rw [List.mapM_cons]
    rw [List.find?_cons] at h
    cases hfirst : c.column? first with
    | none =>
      simp only [hfirst, Option.isNone_none] at h
      cases h
      exact bind_eq_error.2 (Or.inl (by rw [Catalog.resolve, hfirst]))
    | some i =>
      simp only [hfirst, Option.isNone_some] at h
      exact bind_eq_error.2 (Or.inr ⟨i, Catalog.resolve_eq_ok_iff.2 hfirst, bind_eq_error.2 (Or.inl (ih h))⟩)

/-- Features of interest are looked up with success if and only if none is unknown. -/
theorem interestIn_ok_iff : (∃ interest, f.interestIn c = .ok interest) ↔ f.unknown? c = none := by
  simp only [interestIn, exists_mapM_ok_iff, Catalog.resolve_eq_ok_iff, unknown?, List.find?_eq_none,
    Option.isNone_iff_eq_none, ← Option.ne_none_iff_exists']

/-! ## Visible rules -/

/-- Whether a rule, with its figures, is visible. -/
def shows (f : RuleFilter) (tests : List (Nat × List Predicate)) (interest : List Nat) (x : Rule × RuleStats Float) : Bool :=
  f.reaches x.2 && agrees tests x.1 && testsAll interest x.1

/-- Where the criteria and the features of interest resolve, the visible rules are those that the filter shows. -/
theorem apply_eq_ok_iff {visible : List Nat} : f.apply l figures c criteria = .ok visible ↔
    ∃ tests interest, criteria.resolve c = .ok tests ∧ f.interestIn c = .ok interest ∧
      visible = ((l.rules.zip figures).zipIdx.filter fun x => f.shows tests interest x.1).map (·.2) := by
  rw [apply, bind_eq_ok]
  constructor
  · rintro ⟨tests, htests, h⟩
    obtain ⟨interest, hinterest, h⟩ := bind_eq_ok.1 h
    cases h
    exact ⟨tests, interest, htests, hinterest, rfl⟩
  · rintro ⟨tests, interest, htests, hinterest, rfl⟩
    exact ⟨tests, htests, bind_eq_ok.2 ⟨interest, hinterest, rfl⟩⟩

/-- A rule filter is refused for its names and those of the criteria, whatever the list and its figures. -/
theorem apply_ok_iff : (∃ visible, f.apply l figures c criteria = .ok visible) ↔
    (∃ tests, criteria.resolve c = .ok tests) ∧ ∃ interest, f.interestIn c = .ok interest := by
  simp only [apply_eq_ok_iff]
  constructor
  · rintro ⟨visible, tests, interest, htests, hinterest, -⟩
    exact ⟨⟨tests, htests⟩, interest, hinterest⟩
  · rintro ⟨⟨tests, htests⟩, interest, hinterest⟩
    exact ⟨_, tests, interest, htests, hinterest, rfl⟩

end RuleFilter

end FirstMatch
