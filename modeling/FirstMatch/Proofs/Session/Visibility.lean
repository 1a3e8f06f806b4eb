import FirstMatch.Proofs.Evaluation
import FirstMatch.Proofs.Evaluation.Percent
import FirstMatch.Proofs.Filter.Compatibility
import FirstMatch.Proofs.Session.Run

/-!
# Rules that claim rows are visible

The rows of a coherent session have passed its criteria, so a rule whose conditions one of them meets agrees with the criteria
(`Session.Coherent.exists_tests`). Its figures are no less than zero, so only thresholds above zero or features of interest can hide
it (`Session.Coherent.visible_of_claimed`).
-/

namespace FirstMatch

/-! ## Rows kept -/

/-- Criteria keep some of the rows, each of which passes. -/
theorem Criteria.kept_of_apply {criteria : Criteria} {d : Dataset} {rows kept : List Nat} (h : criteria.apply d rows = .ok kept)
    {tests : List (Nat × List Predicate)} (htests : criteria.resolve d.catalog = .ok tests) :
    kept.Sublist rows ∧ ∀ i ∈ kept, ∃ row, d.row? i = some row ∧ passes tests row = true := by
  obtain ⟨tests', htests', rfl⟩ := apply_eq_ok_iff.1 h
  obtain rfl := Except.ok.inj (htests.symm.trans htests')
  refine ⟨List.filter_sublist, fun i hi => ?_⟩
  exact (Option.any_eq_true _ _).1 (List.mem_filter.1 hi).2

/-- Patterns keep some of the rows. -/
theorem PatternFilter.kept_of_apply {patterns : PatternFilter} {d : Dataset} {rows kept : List Nat}
    (h : patterns.apply d rows = .ok kept) : kept.Sublist rows := by
  obtain ⟨tests, -, h⟩ := bind_eq_ok.1 h
  cases h
  exact List.filter_sublist

/-- The rows of a coherent session are rows of its dataset, in order and none of them twice, that pass the criteria. -/
theorem Session.Coherent.kept_rows {s : Session} (h : s.Coherent) {d : Dataset} (hd : s.dataset? = some d)
    {tests : List (Nat × List Predicate)} (htests : s.criteria.resolve d.catalog = .ok tests) :
    s.filtered.Sublist d.indices ∧ ∀ i ∈ s.filtered, ∃ row, d.row? i = some row ∧ Criteria.passes tests row = true := by
  obtain ⟨rows, hrows, hfiltered⟩ := h.kept d hd
  obtain ⟨hsub, hpass⟩ := Criteria.kept_of_apply hrows htests
  have hkept := PatternFilter.kept_of_apply hfiltered
  exact ⟨hkept.trans hsub, fun i hi => hpass i (hkept.subset hi)⟩

/-! ## Figures of a rule -/

namespace DecisionList

/-- The figures of an evaluation are those of the tally, rule by rule. -/
theorem getElem_rules_evaluate (l : DecisionList) (d : Dataset) (rows : List Nat) (k : Nat) :
    (l.evaluate d rows).rules[k]? =
      (l.rules[k]?).map fun r => (l.tally d rows).ruleStats k (d.catalog.labelFeature.position? r.label) := by
  show ((l.predictions d).mapIdx fun i p? => (l.tally d rows).ruleStats i p?)[k]? = _
  rw [List.getElem?_mapIdx, predictions, List.getElem?_map, Option.map_map]
  rfl

/-- A rule that claims a row of some has its conditions met by one of them. -/
theorem exists_claimed_of_pos {l : DecisionList} {d : Dataset} {rows : List Nat} {k : Nat} {r : Rule}
    (hr : l.rules[k]? = some r) (hpos : 0 < (l.claimed d rows).countP fun p => p.2 == k) :
    ∃ i ∈ rows, ∃ row, d.row? i = some row ∧ ∀ x ∈ r.conditions, x.meets (row.cell x.feature) = true := by
  obtain ⟨p, hp, hk⟩ := List.countP_pos_iff.1 hpos
  rw [claimed_eq] at hp
  obtain ⟨row, hrow, rfl⟩ := List.mem_map.1 hp
  obtain ⟨i, hi, hrow⟩ := List.mem_filterMap.1 hrow
  obtain ⟨r', hr', hmeets, -⟩ := l.claims_claimant row.cell
  obtain rfl : l.claimant row.cell = k := by simpa using hk
  obtain rfl := Option.some.inj (hr.symm.trans hr')
  exact ⟨i, hi, row, hrow, hmeets⟩

theorem length_claimed_le (l : DecisionList) (d : Dataset) (rows : List Nat) : (l.claimed d rows).length ≤ rows.length := by
  rw [claimed_eq, List.length_map]
  exact List.length_filterMap_le _ _

/-- Over no more rows than fit a machine word, the figures of a rule reach thresholds that are no greater than zero. -/
theorem reaches_of_le_zero {header : List String} {table : List Row} {label : String} {d : Dataset}
    (hd : Dataset.ofRows header table label = .ok d) {l : DecisionList} {rows : List Nat} (hrows : rows.length < 2 ^ 64)
    {f : RuleFilter} (hsupport : f.minSupport ≤ 0) (hconfidence : f.minConfidence ≤ 0) {k : Nat} {s : RuleStats Float}
    (hs : (l.evaluate d rows).rules[k]? = some s) : f.reaches s = true := by
  rw [getElem_rules_evaluate] at hs
  obtain ⟨r, hr, rfl⟩ := Option.map_eq_some_iff.1 hs
  have hcounts := ruleStats_counts (α := Float) hd l rows hr
  have hclaimed : ((l.tally d rows).ruleStats k (d.catalog.labelFeature.position? r.label) : RuleStats Float).claimed ≤
      rows.length := hcounts.claimed_eq ▸ List.countP_le_length.trans (l.length_claimed_le d rows)
  have htally : (l.tally d rows).rows ≤ rows.length := by
    rw [tally, Tally.rows_ofScores, scores_eq_claimed, List.length_map]
    exact l.length_claimed_le d rows
  rw [RuleFilter.reaches, Bool.and_eq_true, decide_eq_true_iff, decide_eq_true_iff]
  constructor
  · exact Rank.le_trans hsupport (Binary64.zero_le_percent (hclaimed.trans_lt hrows) (htally.trans_lt hrows))
  · exact Rank.le_trans hconfidence
      (Binary64.zero_le_percent ((hcounts.trueCount_le.trans hclaimed).trans_lt hrows) (hclaimed.trans_lt hrows))

end DecisionList

/-! ## Coherent sessions -/

namespace Session.Coherent

variable {s : Session} {d : Dataset}

/-- The criteria of a coherent session with a dataset resolve, and a rule whose conditions a row kept meets agrees with them. -/
theorem exists_tests (h : s.Coherent) (hd : s.dataset? = some d) : ∃ tests, s.criteria.resolve d.catalog = .ok tests ∧
    ∀ i ∈ s.filtered, ∃ row, d.row? i = some row ∧
      ∀ r : Rule, (∀ x ∈ r.conditions, x.meets (row.cell x.feature) = true) → RuleFilter.agrees tests r = true := by
  obtain ⟨tests, htests⟩ := h.exists_resolve hd
  refine ⟨tests, htests, fun i hi => ?_⟩
  obtain ⟨row, hrow, hpasses⟩ := (h.kept_rows hd htests).2 i hi
  exact ⟨row, hrow, fun r hmeets => RuleFilter.agrees_of_passes hpasses hmeets⟩

/-- With thresholds of at most zero and no features of interest, every rule that claims a row of a coherent session is visible. -/
theorem visible_of_claimed (h : s.Coherent) (hd : s.dataset? = some d) {header : List String} {table : List Row}
    {label : String} (hofRows : Dataset.ofRows header table label = .ok d) (hsize : d.size < 2 ^ 64)
    (hsupport : s.ruleFilter.minSupport ≤ 0) (hconfidence : s.ruleFilter.minConfidence ≤ 0)
    (hinterest : s.ruleFilter.interest = []) {a : Analysis} (ha : s.analysis? = some a) {k : Nat} {stats : RuleStats Float}
    (hstats : a.evaluation.rules[k]? = some stats) (hpos : 0 < stats.claimed) : k ∈ a.visible := by
  have hfresh := h.fresh d a hd ha
  obtain ⟨tests, htests, hagrees⟩ := h.exists_tests hd
  have hlength : s.filtered.length < 2 ^ 64 :=
    ((h.kept_rows hd htests).1.length_le.trans_eq List.length_range).trans_lt hsize
  have hfigures := hfresh.evaluation_eq ▸ hstats
  have hreaches := DecisionList.reaches_of_le_zero hofRows hlength hsupport hconfidence hfigures
  rw [DecisionList.getElem_rules_evaluate] at hfigures
  obtain ⟨r, hr, rfl⟩ := Option.map_eq_some_iff.1 hfigures
  rw [(DecisionList.ruleStats_counts hofRows a.list s.filtered hr).claimed_eq] at hpos
  obtain ⟨i, hi, row, hrow, hmeets⟩ := DecisionList.exists_claimed_of_pos hr hpos
  obtain ⟨row', hrow', hagrees⟩ := hagrees i hi
  obtain rfl := Option.some.inj (hrow.symm.trans hrow')
  have hinterestIn : s.ruleFilter.interestIn d.catalog = .ok [] := by
    rw [RuleFilter.interestIn, hinterest]
    rfl
  exact (RuleFilter.mem_apply_iff hfresh.filtered).2
    ⟨tests, [], r, _, htests, hinterestIn, hr, hstats, hreaches, hagrees r hmeets, rfl⟩

end Session.Coherent

/-! ## Every run -/

/-- The dataset that a text writes is that of the rows of its table. -/
theorem Dataset.exists_rows_of_read {text : String} {delimiter : Char} {label : String} {d : Dataset}
    (h : Dataset.read text delimiter label = .ok d) : ∃ header table, Dataset.ofRows header table label = .ok d := by
  obtain ⟨t, -, hd⟩ := exists_table_of_read h
  exact ⟨t.header, t.rows, hd⟩

namespace Run

/-- A dataset of a run was read from a text. -/
theorem InForce.exists_read {config : Config} {r : Run} (h : r.InForce config) {d : Dataset}
    (hd : r.session.dataset? = some d) : ∃ text, Dataset.read text config.delimiter config.labelColumn = .ok d := by
  cases htext : r.accepted.findSome? Call.datasetText? with
  | none =>
    rw [h.no_dataset htext] at hd
    cases hd
  | some text =>
    obtain ⟨d', hread, hd'⟩ := h.dataset text htext
    obtain rfl := Option.some.inj (hd.symm.trans hd')
    exact ⟨text, hread⟩

/-- The criteria hide no rule that claims a row. After any calls that leave a list, there is a dataset, and:
1. The criteria resolve, and each row kept is a row of the dataset. A rule of the list whose conditions it meets, and so the one
   that claims it, agrees with the criteria.
2. With thresholds of at most zero and no features of interest, every rule that claims a row is visible; the rows of the dataset
   are to be counted in a machine word. -/
theorem ofCalls_claiming_visible (config : Config) (calls : List Call) {a : Analysis}
    (ha : (ofCalls config calls).session.analysis? = some a) :
    let s := (ofCalls config calls).session
    ∃ d, s.dataset? = some d ∧
      (∃ tests, s.criteria.resolve d.catalog = .ok tests ∧ ∀ i ∈ s.filtered, ∃ row, d.row? i = some row ∧
        ∀ r ∈ a.list.rules, (∀ x ∈ r.conditions, x.meets (row.cell x.feature) = true) →
          RuleFilter.agrees tests r = true) ∧
      (s.ruleFilter.minSupport ≤ 0 → s.ruleFilter.minConfidence ≤ 0 → s.ruleFilter.interest = [] → d.size < 2 ^ 64 →
        ∀ k stats, a.evaluation.rules[k]? = some stats → 0 < stats.claimed → k ∈ a.visible) := by
  intro s
  obtain ⟨hcoherent, hforce⟩ := ofCalls_inOrder config calls
  cases hd : s.dataset? with
  | none =>
    rw [(hcoherent.blank hd).1] at ha
    cases ha
  | some d =>
    obtain ⟨tests, htests, hagrees⟩ := hcoherent.exists_tests hd
    refine ⟨d, rfl, ⟨tests, htests, fun i hi => ?_⟩, fun hsupport hconfidence hinterest hsize k stats hstats hpos => ?_⟩
    · obtain ⟨row, hrow, hrules⟩ := hagrees i hi
      exact ⟨row, hrow, fun r _ hmeets => hrules r hmeets⟩
    · obtain ⟨text, hread⟩ := hforce.exists_read hd
      obtain ⟨header, table, hofRows⟩ := Dataset.exists_rows_of_read hread
      exact hcoherent.visible_of_claimed hd hofRows hsize hsupport hconfidence hinterest ha hstats hpos

/-- Calls that leave a list and then keep the day of strong wind alone. -/
def windyOuting : List Call := outing ++ [.setCriteria (Criteria.empty.oneOf "wind" [.text "strong"])]

/-- The rule on strong wind claims the one day kept, and is visible. -/
theorem ofCalls_claiming_visible_outing : ∃ a, (ofCalls {} windyOuting).session.analysis? = some a ∧
    (ofCalls {} windyOuting).session.filtered = [1] ∧ 0 ∈ a.visible := by
  have hclaimed : (ofCalls {} windyOuting).session.analysis?.map (fun a => a.evaluation.rules.map (·.claimed)) =
      some [1, 0] := by decide +kernel
  obtain ⟨a, ha, hcounts⟩ := Option.map_eq_some_iff.1 hclaimed
  obtain ⟨d, hd, -, hvisible⟩ := ofCalls_claiming_visible {} windyOuting ha
  have hsize : (ofCalls {} windyOuting).session.dataset?.map (·.size) = some 2 := by decide +kernel
  rw [hd, Option.map_some, Option.some.injEq] at hsize
  have hfirst : (a.evaluation.rules.map (·.claimed))[0]? = some 1 := by rw [hcounts]; rfl
  rw [List.getElem?_map, Option.map_eq_some_iff] at hfirst
  obtain ⟨stats, hstats, hone⟩ := hfirst
  refine ⟨a, ha, by decide +kernel, ?_⟩
  exact hvisible (by decide +kernel) (by decide +kernel) (by decide +kernel) (by omega) 0 stats hstats (by omega)

end Run

end FirstMatch
