import FirstMatch.Proofs.Filter.Resolution

/-!
# Two readings of a predicate

A predicate is read on cells and on conditions. A value that passes it and meets a condition shows that the two are compatible
(`Predicate.compatible_of_admits`), so the conditions that a kept row meets are compatible with the criteria
(`RuleFilter.agrees_of_passes`). Equal values pass and meet alike, and only numbers pass bounds.
-/

namespace FirstMatch

/-! ## Comparisons -/

/-- How two numbers must stand for an operator to accept them. -/
def Operator.Relates : Operator → Float → Float → Prop
  | eq, x, y => (x == y) = true
  | ne, x, y => (x != y) = true
  | gt, x, y => y < x
  | ge, x, y => y ≤ x
  | lt, x, y => x < y
  | le, x, y => x ≤ y

/-- Numbers are compared as the operator relates them. -/
theorem Value.compare_numbers_iff (op : Operator) (x y : Float) :
    (number x).compare op (number y) = some true ↔ op.Relates x y := by
  cases op with
  | eq => simp [Value.compare, Operator.Relates]
  | ne => simp [Value.compare, Operator.Relates, bne]
  | _ =>
    simp only [Value.compare, Rank.order_eq, Operator.Relates, Rank.lt_iff, Rank.le_iff]
    cases Rank.ofFloat? x with
    | none => simp
    | some r =>
      cases Rank.ofFloat? y with
      | none => simp
      | some s =>
        rcases lt_trichotomy r s with h | rfl | h
        · simp [Operator.accepts, compare_lt_iff_lt.2 h, h.le, h, h.not_gt]
        · simp [Operator.accepts]
        · simp [Operator.accepts, compare_gt_iff_gt.2 h, h.le, h, h.not_gt]

/-- What a number compares with, other than by being different, is a number. -/
theorem Value.compare_number_iff {op : Operator} (hop : op ≠ .ne) {x : Float} {v : Value} :
    (number x).compare op v = some true ↔ ∃ y, v = number y ∧ op.Relates x y := by
  cases v with
  | text t => cases op <;> simp [Value.compare] at hop ⊢
  | number y => simp [compare_numbers_iff]

theorem Value.any_number_iff {v : Value} {p : Float → Prop} [DecidablePred p] :
    (v.number?.any fun x => p x) = true ↔ ∃ x, v = number x ∧ p x := by
  cases v <;> simp [number?]

theorem Condition.meets_some {c : Condition} {v : Value} :
    c.meets (some v) = true ↔ v.compare c.op c.value = some true := by
  rw [Condition.meets, Option.bind_some]
  cases v.compare c.op c.value with
  | none => simp
  | some b => simp

/-- A number that meets a condition, other than by being different, does so beside a number. -/
theorem Condition.exists_of_meets {c : Condition} (hop : c.op ≠ .ne) {x : Float} (hc : c.meets (some (.number x)) = true) :
    ∃ y, c.value = .number y ∧ c.op.Relates x y := (Value.compare_number_iff hop).1 (meets_some.1 hc)

/-- Equal values meet alike. -/
theorem Condition.meets_congr {v w : Value} (h : (v == w) = true) (c : Condition) : c.meets (some v) = c.meets (some w) := by
  simp only [Condition.meets, Option.bind_some, Value.compare_congr h]

/-! ## Cells and conditions -/

namespace Predicate

/-- A lower bound admits the numbers from it on. -/
theorem admits_atLeast_iff {b : Float} {v : Value} :
    (atLeast b).admits (some v) = true ↔ ∃ x, v = .number x ∧ b ≤ x := by
  simp [admits, Value.any_number_iff]

/-- An upper bound admits the numbers up to it. -/
theorem admits_atMost_iff {b : Float} {v : Value} :
    (atMost b).admits (some v) = true ↔ ∃ x, v = .number x ∧ x ≤ b := by
  simp [admits, Value.any_number_iff]

/-- A list admits what equals one of its values. -/
theorem admits_oneOf_iff {values : List Value} {v : Value} :
    (oneOf values).admits (some v) = true ↔ ∃ w ∈ values, (v == w) = true := List.contains_iff_exists_mem_beq

/-- A missing cell passes nothing. -/
theorem exists_of_admits {p : Predicate} {cell : Cell} (h : p.admits cell = true) : ∃ v, cell = some v := by
  cases cell with
  | none => cases h
  | some v => exact ⟨v, rfl⟩

/-- A list is compatible with a condition that one of its values meets. -/
theorem compatible_oneOf_iff {values : List Value} {c : Condition} :
    (oneOf values).compatible c = true ↔ ∃ v ∈ values, c.meets (some v) = true := by
  rw [compatible, List.any_eq_true]
  rfl

/-- A value that passes a predicate and meets a condition makes the two compatible. -/
theorem compatible_of_admits {p : Predicate} {c : Condition} {v : Value} (hp : p.admits (some v) = true)
    (hc : c.meets (some v) = true) : p.compatible c = true := by
  cases p with
  | oneOf values =>
    obtain ⟨w, hw, hvw⟩ := admits_oneOf_iff.1 hp
    exact compatible_oneOf_iff.2 ⟨w, hw, Condition.meets_congr hvw c ▸ hc⟩
  | atLeast b =>
    obtain ⟨x, rfl, hbx⟩ := admits_atLeast_iff.1 hp
    obtain ⟨f, op, lit⟩ := c
    by_cases hop : op = .ne
    · subst hop
      rfl
    obtain ⟨y, rfl, hxy⟩ := Condition.exists_of_meets hop hc
    -- an operator that could leave out what is above the bound wants a literal that is no lower than the value
    cases op with
    | eq => exact decide_eq_true (Rank.le_trans hbx (Rank.le_of_beq hxy))
    | le => exact decide_eq_true (Rank.le_trans hbx hxy)
    | lt => exact decide_eq_true (Rank.lt_of_le_of_lt hbx hxy)
    | _ => rfl
  | atMost b =>
    obtain ⟨x, rfl, hxb⟩ := admits_atMost_iff.1 hp
    obtain ⟨f, op, lit⟩ := c
    by_cases hop : op = .ne
    · subst hop
      rfl
    obtain ⟨y, rfl, hxy⟩ := Condition.exists_of_meets hop hc
    cases op with
    | eq => exact decide_eq_true (Rank.le_trans (Rank.le_of_beq (PartialEquivBEq.symm hxy)) hxb)
    | ge => exact decide_eq_true (Rank.le_trans hxy hxb)
    | gt => exact decide_eq_true (Rank.lt_of_lt_of_le hxy hxb)
    | _ => rfl

end Predicate

/-! ## Criteria and rules -/

namespace RuleFilter

/-- A rule agrees with predicates if each on a column is compatible with its condition there. -/
theorem agrees_iff {tests : List (Nat × List Predicate)} {r : Rule} : agrees tests r = true ↔
    ∀ i ps, (i, ps) ∈ tests → ∀ x, r.conditionOn? i = some x → ∀ p ∈ ps, p.compatible x = true := by
  simp [agrees, Option.all_eq_true]

/-- A rule whose conditions a row meets agrees with every test that the row passes. -/
theorem agrees_of_passes {tests : List (Nat × List Predicate)} {r : Rule} {row : Row}
    (hpasses : Criteria.passes tests row = true) (hmeets : ∀ x ∈ r.conditions, x.meets (row.cell x.feature) = true) :
    agrees tests r = true := by
  refine agrees_iff.2 fun i ps htest x hx p hp => ?_
  have hadmits : p.admits (row.cell i) = true := List.all_eq_true.1 (List.all_eq_true.1 hpasses _ htest) p hp
  obtain rfl := Rule.feature_of_conditionOn hx
  obtain ⟨v, hv⟩ := Predicate.exists_of_admits hadmits
  have hmet := hmeets x (List.mem_of_find?_eq_some hx)
  rw [hv] at hadmits hmet
  exact Predicate.compatible_of_admits hadmits hmet

/-- A rule is visible if its figures reach the thresholds, it agrees with the criteria and it tests what is of interest. -/
theorem mem_apply_iff {f : RuleFilter} {l : DecisionList} {figures : List (RuleStats Float)} {c : Catalog}
    {criteria : Criteria} {visible : List Nat} (h : f.apply l figures c criteria = .ok visible) {k : Nat} :
    k ∈ visible ↔ ∃ tests interest r s, criteria.resolve c = .ok tests ∧ f.interestIn c = .ok interest ∧
      l.rules[k]? = some r ∧ figures[k]? = some s ∧ f.reaches s = true ∧ agrees tests r = true ∧
        testsAll interest r = true := by
  obtain ⟨tests, interest, htests, hinterest, rfl⟩ := apply_eq_ok_iff.1 h
  rw [List.mem_map]
  constructor
  · rintro ⟨⟨⟨r, s⟩, k'⟩, hmem, rfl⟩
    obtain ⟨hplace, hkept⟩ := List.mem_filter.1 hmem
    obtain ⟨hr, hs⟩ := List.getElem?_zip_eq_some.1 (List.mem_zipIdx_iff_getElem?.1 hplace)
    simp only [shows, Bool.and_eq_true] at hkept
    exact ⟨tests, interest, r, s, htests, hinterest, hr, hs, hkept.1.1, hkept.1.2, hkept.2⟩
  · rintro ⟨tests', interest', r, s, htests', hinterest', hr, hs, hreaches, hagrees, htestsAll⟩
    obtain rfl := Except.ok.inj (htests.symm.trans htests')
    obtain rfl := Except.ok.inj (hinterest.symm.trans hinterest')
    refine ⟨((r, s), k), List.mem_filter.2 ⟨?_, ?_⟩, rfl⟩
    · exact List.mem_zipIdx_iff_getElem?.2 (List.getElem?_zip_eq_some.2 ⟨hr, hs⟩)
    · simp only [shows, hreaches, hagrees, htestsAll, Bool.and_self]

end RuleFilter

end FirstMatch
