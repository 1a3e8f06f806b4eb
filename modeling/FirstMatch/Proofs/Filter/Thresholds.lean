import FirstMatch.Proofs.Evaluation.Percent
import FirstMatch.Proofs.Evaluation.Ratios
import FirstMatch.Proofs.Filter.Compatibility

/-!
# Thresholds in whole percent

A threshold is inclusive, but what it is compared with is a percentage rounded twice. A rule that exceeds a whole threshold is
visible, one that falls short of it is not, and one that is exactly at it is visible unless the threshold is 29, 57 or 58
(`RuleFilter.visible_threshold_iff`).
-/

namespace FirstMatch

open Binary64

namespace RuleFilter

section Visible

variable {f : RuleFilter} {l : DecisionList} {figures : List (RuleStats Float)} {c : Catalog} {criteria : Criteria} {k : Nat}

/-- The rule at a place is visible. -/
def Visible (f : RuleFilter) (l : DecisionList) (figures : List (RuleStats Float)) (c : Catalog) (criteria : Criteria) (k : Nat) :
    Prop := ∃ visible, f.apply l figures c criteria = .ok visible ∧ k ∈ visible

/-- A rule is visible if its figures reach the thresholds, it agrees with the criteria and it tests the features of interest. -/
theorem visible_iff : f.Visible l figures c criteria k ↔
    ∃ tests interest r s, criteria.resolve c = .ok tests ∧ f.interestIn c = .ok interest ∧ l.rules[k]? = some r ∧
      figures[k]? = some s ∧ f.reaches s = true ∧ agrees tests r = true ∧ testsAll interest r = true := by
  constructor
  · rintro ⟨visible, happly, hk⟩
    exact (mem_apply_iff happly).1 hk
  · rintro ⟨tests, interest, r, s, htests, hinterest, hrest⟩
    obtain ⟨visible, happly⟩ := apply_ok_iff.2 ⟨⟨tests, htests⟩, interest, hinterest⟩
    exact ⟨visible, happly, (mem_apply_iff happly).2 ⟨tests, interest, r, s, htests, hinterest, hrest⟩⟩

/-- Of two filters with the same features of interest, what one asks of the figures of a rule beyond the other decides whether the
rule stays visible. -/
theorem visible_iff_of_reaches {f g : RuleFilter} {s : RuleStats Float} {p : Prop} (hinterest : f.interest = g.interest)
    (hs : figures[k]? = some s) (h : f.reaches s = true ↔ g.reaches s = true ∧ p) :
    f.Visible l figures c criteria k ↔ g.Visible l figures c criteria k ∧ p := by
  have hsame : f.interestIn c = g.interestIn c := by rw [interestIn, interestIn, hinterest]
  rw [visible_iff, visible_iff, hsame]
  constructor
  · rintro ⟨tests, interest, r, s', htests, hin, hr, hs', hreaches, hrest⟩
    obtain rfl := Option.some.inj (hs.symm.trans hs')
    obtain ⟨hreaches, hp⟩ := h.1 hreaches
    exact ⟨⟨tests, interest, r, s, htests, hin, hr, hs, hreaches, hrest⟩, hp⟩
  · rintro ⟨⟨tests, interest, r, s', htests, hin, hr, hs', hreaches, hrest⟩, hp⟩
    obtain rfl := Option.some.inj (hs.symm.trans hs')
    exact ⟨tests, interest, r, s, htests, hin, hr, hs, h.2 ⟨hreaches, hp⟩, hrest⟩

theorem reaches_iff {s : RuleStats Float} :
    f.reaches s = true ↔ f.minSupport ≤ s.support ∧ f.minConfidence ≤ s.confidence := by
  rw [reaches, Bool.and_eq_true, decide_eq_true_iff, decide_eq_true_iff]

end Visible

/-- What a threshold in whole percent takes away: of the rules visible with a threshold of zero, those whose counts do not reach it.
1. A threshold on the support is compared with the rows claimed, of all.
2. A threshold on the confidence is compared with the rows claimed rightly, of those claimed. -/
theorem visible_threshold_iff (f : RuleFilter) (l : DecisionList) (d : Dataset) (rows : List Nat) (c : Catalog)
    (criteria : Criteria) {t : Nat} (ht : t ≤ 100) (hrows : (d.entries rows).length < 2 ^ 32) {k : Nat} {s : RuleStats Float}
    (hs : (l.evaluate d rows).rules[k]? = some s) :
    (({ f with minSupport := t } : RuleFilter).Visible l (l.evaluate d rows).rules c criteria k ↔
      ({ f with minSupport := 0 } : RuleFilter).Visible l (l.evaluate d rows).rules c criteria k ∧
        Reached t s.claimed (d.entries rows).length) ∧
    (({ f with minConfidence := t } : RuleFilter).Visible l (l.evaluate d rows).rules c criteria k ↔
      ({ f with minConfidence := 0 } : RuleFilter).Visible l (l.evaluate d rows).rules c criteria k ∧
        Reached t s.trueCount s.claimed) := by
  obtain ⟨hsupport, hconfidence, htrue, hclaimed⟩ := l.ratios_of_mem_rules d rows (List.mem_of_getElem? hs)
  rw [l.rows_evaluateIn d rows] at hsupport hclaimed
  constructor
  · refine visible_iff_of_reaches rfl hs ?_
    have hzero : (0 : Float) ≤ s.support := hsupport ▸ zero_le_percent (by omega) (by omega)
    rw [reaches_iff, reaches_iff, hsupport, natCast_le_percent_iff ht (by omega) (by omega), ← hsupport]
    simp only [hzero, true_and, and_comm]
  · refine visible_iff_of_reaches rfl hs ?_
    have hzero : (0 : Float) ≤ s.confidence := hconfidence ▸ zero_le_percent (by omega) (by omega)
    rw [reaches_iff, reaches_iff, hconfidence, natCast_le_percent_iff ht (by omega) (by omega), ← hconfidence]
    simp only [hzero, and_true]

/-- A hundred days, on some of which the wind is strong. -/
def windyDays (strong : Nat) : List Nat := List.replicate strong 1 ++ List.replicate (100 - strong) 0

/-- A rule that claims thirty of a hundred days has the support of thirty that is asked for. -/
theorem visible_threshold_windy : ∃ d s, Dataset.ofRows ["wind", "label"] DecisionList.windyDays "label" = .ok d ∧
    (DecisionList.windy.evaluate d (windyDays 30)).rules[0]? = some s ∧ 100 * s.claimed = 30 * (d.entries (windyDays 30)).length ∧
    ({ minSupport := (30 : Nat) } : RuleFilter).Visible DecisionList.windy
      (DecisionList.windy.evaluate d (windyDays 30)).rules d.catalog .empty 0 := by
  obtain ⟨d, hd⟩ : ∃ d, Dataset.ofRows ["wind", "label"] DecisionList.windyDays "label" = .ok d := ⟨_, rfl⟩
  obtain ⟨hfigures, hrows⟩ : ((DecisionList.windy.evaluate d (windyDays 30)).rules[0]?).map
        (fun s => (s.claimed, ({} : RuleFilter).reaches s)) = some (30, true) ∧
      (d.entries (windyDays 30)).length = 100 := by
    cases hd
    exact ⟨by decide +kernel, by decide +kernel⟩
  obtain ⟨s, hs, hfigures⟩ := Option.map_eq_some_iff.1 hfigures
  obtain ⟨hclaimed, hreaches⟩ := Prod.mk.inj hfigures
  have hvisible : ({ minSupport := 0 } : RuleFilter).Visible DecisionList.windy
      (DecisionList.windy.evaluate d (windyDays 30)).rules d.catalog .empty 0 :=
    visible_iff.2 ⟨[], [], _, s, rfl, rfl, rfl, hs, hreaches, rfl, rfl⟩
  have hreached : Reached 30 s.claimed (d.entries (windyDays 30)).length := by
    rw [hclaimed, hrows]
    exact Or.inr (by decide)
  refine ⟨d, s, hd, hs, by rw [hclaimed, hrows], ?_⟩
  exact (visible_threshold_iff {} DecisionList.windy d (windyDays 30) d.catalog .empty (by decide) (by rw [hrows]; decide) hs).1.2
    ⟨hvisible, hreached⟩

/-- A rule that claims 29 days of a hundred is visible, and is hidden by a threshold of 29 percent on its support. -/
theorem hidden_at_threshold : ∃ d s, Dataset.ofRows ["wind", "label"] DecisionList.windyDays "label" = .ok d ∧
    (DecisionList.windy.evaluate d (windyDays 29)).rules[0]? = some s ∧ 100 * s.claimed = 29 * (d.entries (windyDays 29)).length ∧
    ({ minSupport := 0 } : RuleFilter).Visible DecisionList.windy
      (DecisionList.windy.evaluate d (windyDays 29)).rules d.catalog .empty 0 ∧
    ¬({ minSupport := (29 : Nat) } : RuleFilter).Visible DecisionList.windy
      (DecisionList.windy.evaluate d (windyDays 29)).rules d.catalog .empty 0 := by
  obtain ⟨d, hd⟩ : ∃ d, Dataset.ofRows ["wind", "label"] DecisionList.windyDays "label" = .ok d := ⟨_, rfl⟩
  obtain ⟨hfigures, hrows⟩ : ((DecisionList.windy.evaluate d (windyDays 29)).rules[0]?).map (fun s => (s.claimed,
        ({} : RuleFilter).reaches s, ({ minSupport := (29 : Nat) } : RuleFilter).reaches s)) = some (29, true, false) ∧
      (d.entries (windyDays 29)).length = 100 := by
    cases hd
    exact ⟨by decide +kernel, by decide +kernel⟩
  obtain ⟨s, hs, hfigures⟩ := Option.map_eq_some_iff.1 hfigures
  simp only [Prod.mk.injEq] at hfigures
  obtain ⟨hclaimed, hreaches, hhidden⟩ := hfigures
  refine ⟨d, s, hd, hs, by rw [hclaimed, hrows], visible_iff.2 ⟨[], [], _, s, rfl, rfl, rfl, hs, hreaches, rfl, rfl⟩, fun h => ?_⟩
  obtain ⟨tests, interest, r, s', -, -, -, hs', hreaches', -⟩ := visible_iff.1 h
  obtain rfl := Option.some.inj (hs.symm.trans hs')
  rw [hhidden] at hreaches'
  cases hreaches'

end RuleFilter

end FirstMatch
