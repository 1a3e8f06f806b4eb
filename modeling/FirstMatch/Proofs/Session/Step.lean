import FirstMatch.Proofs.Filter.Resolution
import FirstMatch.Session.Run

/-!
# One call of a session

A session is coherent when every view it holds is the one derived afresh from its dataset, its list and its filters. In a coherent
session a call either is refused and changes nothing, or takes the one step of its kind (`Session.Coherent.perform_cases`), and
the session is coherent after it (`Session.Step.coherent`). What a change of rows could be refused for after the new evaluation is
refused before: the criteria resolve when they kept the rows, and the features of interest because the rules are visible by them.
-/

namespace FirstMatch

/-! ## Filters -/

/-- Every row number has its row. -/
theorem Dataset.row_of_mem_indices {d : Dataset} {i : Nat} (h : i ∈ d.indices) : ∃ r, d.row? i = some r :=
  ⟨_, List.getElem?_eq_getElem (List.mem_range.1 h)⟩

/-- No criteria keep every row. -/
theorem Criteria.empty_apply (d : Dataset) : Criteria.empty.apply d d.indices = .ok d.indices := by
  rw [Criteria.apply_empty]
  exact congrArg Except.ok (List.filter_eq_self.2 fun i hi => decide_eq_true (List.mem_range.1 hi))

/-- No patterns keep every row. -/
theorem PatternFilter.empty_apply (d : Dataset) : PatternFilter.apply {} d d.indices = .ok d.indices := by
  refine bind_eq_ok.2 ⟨[], rfl, congrArg Except.ok (List.filter_eq_self.2 fun i hi => ?_)⟩
  obtain ⟨r, hr⟩ := Dataset.row_of_mem_indices hi
  rw [hr]
  rfl

/-! ## Coherence -/

/-- The views of a list are those derived afresh from the dataset, and from the rows and the filters of the session. -/
structure Analysis.Fresh (d : Dataset) (s : Session) (a : Analysis) : Prop where
  ranked_eq : a.ranked = a.list.ranking d.catalog
  compiled : a.list.compile d.catalog (a.ranked.map (·.feature)) = .ok a.graph
  evaluation_eq : a.evaluation = a.list.evaluate d s.filtered
  filtered : s.ruleFilter.apply a.list a.evaluation.rules d.catalog s.criteria = .ok a.visible

namespace Session

/-- Without a dataset there is no list and no row. With one, the rows are those that the criteria and then the patterns keep of
all rows, and the views of the list are fresh. -/
structure Coherent (s : Session) : Prop where
  blank : s.dataset? = none → s.analysis? = none ∧ s.filtered = []
  kept : ∀ d, s.dataset? = some d →
    ∃ rows, s.criteria.apply d d.indices = .ok rows ∧ s.patterns.apply d rows = .ok s.filtered
  fresh : ∀ d a, s.dataset? = some d → s.analysis? = some a → a.Fresh d s

/-- A new session is coherent. -/
theorem coherent_new (config : Config) : (new config).Coherent where
  blank _ := ⟨rfl, rfl⟩
  kept d h := by cases h
  fresh d a h := by cases h

/-- The criteria of a coherent session with a dataset resolve. -/
theorem Coherent.exists_resolve {s : Session} (h : s.Coherent) {d : Dataset} (hd : s.dataset? = some d) :
    ∃ tests, s.criteria.resolve d.catalog = .ok tests := by
  obtain ⟨rows, hrows, -⟩ := h.kept d hd
  exact Criteria.resolve_of_apply hrows

/-- A session after another has the same list, if it has one, and every view of it is fresh. -/
def Keeps (s s' : Session) : Prop :=
  s'.analysis?.map (·.list) = s.analysis?.map (·.list) ∧
    ∀ d a, s'.dataset? = some d → s'.analysis? = some a → a.Fresh d s'

/-- Without a list, there are no views to keep fresh. -/
theorem keeps_of_no_analysis {s s' : Session} (hs : s.analysis? = none) (hs' : s'.analysis? = none) : Keeps s s' := by
  refine ⟨by rw [hs, hs'], fun d a _ ha => ?_⟩
  rw [hs'] at ha
  cases ha

/-- What a call does to a session that accepts it. -/
inductive Step (s : Session) : Call → Session → Prop where
  /-- Another dataset takes the place of everything. -/
  | dataset {c : Call} {text : String} {d : Dataset} : c.datasetText? = some text →
      Dataset.read text s.config.delimiter s.config.labelColumn = .ok d → Step s c (s.replaceDataset d)
  /-- Another list comes with its views. -/
  | rules {c : Call} {text : String} {d : Dataset} {a : Analysis} : c.rulesText? = some text → s.dataset? = some d →
      DecisionList.read text d.catalog = .ok a.list → a.Fresh d s → Step s c { s with analysis? := some a }
  /-- Other criteria keep other rows. -/
  | criteria {criteria : Criteria} {rows : List Nat} {a? : Option Analysis} : s.keptRows criteria s.patterns = .ok rows →
      Keeps s { s.withRows criteria s.patterns rows with analysis? := a? } →
      Step s (.setCriteria criteria) { s.withRows criteria s.patterns rows with analysis? := a? }
  /-- Other patterns keep other rows. -/
  | patterns {patterns : PatternFilter} {rows : List Nat} {a? : Option Analysis} : s.keptRows s.criteria patterns = .ok rows →
      Keeps s { s.withRows s.criteria patterns rows with analysis? := a? } →
      Step s (.setPatterns patterns) { s.withRows s.criteria patterns rows with analysis? := a? }
  /-- Another rule filter makes other rules visible. -/
  | ruleFilter {f : RuleFilter} {a? : Option Analysis} : Keeps s { s with ruleFilter := f, analysis? := a? } →
      Step s (.setRuleFilter f) { s with ruleFilter := f, analysis? := a? }

/-- Rows are kept if there is a dataset to whose rows the criteria and then the patterns apply. -/
theorem keptRows_ok_iff {s : Session} {criteria : Criteria} {patterns : PatternFilter} {kept : List Nat} :
    s.keptRows criteria patterns = .ok kept ↔ ∃ d, s.dataset? = some d ∧
      ∃ rows, criteria.apply d d.indices = .ok rows ∧ patterns.apply d rows = .ok kept := by
  unfold keptRows
  cases hd : s.dataset? with
  | none =>
    constructor
    · intro h
      cases h
    · rintro ⟨d, h, -⟩
      cases h
  | some d =>
    constructor
    · intro h
      exact ⟨d, rfl, bind_eq_ok.1 h⟩
    · rintro ⟨d', h, hrows⟩
      cases h
      exact bind_eq_ok.2 hrows

/-! ## Imports -/

/-- What becomes of a call: it is refused and changes nothing, or it takes a step. -/
def Settles (s : Session) (c : Call) (r : Reply) : Prop :=
  (∃ e, r.outcome = .error e ∧ r.session = s) ∨ (r.outcome = .ok () ∧ Step s c r.session)

/-- Importing a dataset is refused or takes a step. -/
theorem importDataset_settles (s : Session) {c : Call} {text : String} (hc : c.datasetText? = some text) :
    Settles s c (s.importDataset text) := by
  unfold importDataset
  cases ht : Table.read s.config.delimiter text with
  | error e => exact Or.inl ⟨_, rfl, rfl⟩
  | ok t =>
    cases hd : Dataset.ofTable t s.config.labelColumn with
    | error e =>
      simp only [hd]
      exact Or.inl ⟨_, rfl, rfl⟩
    | ok d =>
      simp only [hd]
      refine Or.inr ⟨rfl, .dataset hc ?_⟩
      rw [Dataset.read, ht]
      simp only [hd]

theorem importDatasetFile_settles (s : Session) (file : Option ByteArray) :
    Settles s (.importDatasetFile file) (s.importDatasetFile file) := by
  unfold importDatasetFile
  cases ht : textOf? file with
  | none => exact Or.inl ⟨_, rfl, rfl⟩
  | some text => exact s.importDataset_settles ht

/-- The views of an analysis are fresh. -/
theorem fresh_of_analyze {s : Session} {d : Dataset} {l : DecisionList} {a : Analysis} (h : (s.analyze d l).2 = .ok a) :
    a.list = l ∧ a.Fresh d s := by
  unfold analyze at h
  cases hg : l.compile d.catalog ((l.ranking d.catalog).map (·.feature)) with
  | error e =>
    simp only [hg] at h
    cases h
  | ok g =>
    simp only [hg] at h
    cases hv : s.ruleFilter.apply l (l.evaluate d s.filtered).rules d.catalog s.criteria with
    | error e =>
      simp only [hv] at h
      cases h
    | ok visible =>
      simp only [hv] at h
      cases h
      exact ⟨rfl, rfl, hg, rfl, hv⟩

/-- A list that is analyzed is read from its text, and its views are fresh. -/
theorem fresh_of_analyzeText {s : Session} {text : String} {a : Analysis} (h : (s.analyzeText text).2 = .ok a) :
    ∃ d, s.dataset? = some d ∧ DecisionList.read text d.catalog = .ok a.list ∧ a.Fresh d s := by
  unfold analyzeText at h
  cases hd : s.dataset? with
  | none =>
    simp only [hd] at h
    cases h
  | some d =>
    simp only [hd] at h
    cases hl : DecisionList.read text d.catalog with
    | error e =>
      simp only [hl] at h
      cases h
    | ok l =>
      simp only [hl] at h
      obtain ⟨rfl, hfresh⟩ := fresh_of_analyze h
      exact ⟨d, rfl, hl, hfresh⟩

/-- Importing rules is refused or takes a step. -/
theorem importRules_settles (s : Session) {c : Call} {text : String} (hc : c.rulesText? = some text) :
    Settles s c (s.importRules text) := by
  unfold importRules
  cases ha : s.analyzeText text with
  | mk stages result =>
    cases result with
    | error e => exact Or.inl ⟨_, rfl, rfl⟩
    | ok a =>
      obtain ⟨d, hd, hl, hfresh⟩ := fresh_of_analyzeText (congrArg Prod.snd ha)
      exact Or.inr ⟨rfl, .rules hc hd hl hfresh⟩

theorem importRulesFile_settles (s : Session) (file : Option ByteArray) :
    Settles s (.importRulesFile file) (s.importRulesFile file) := by
  unfold importRulesFile
  cases ht : textOf? file with
  | none => exact Or.inl ⟨_, rfl, rfl⟩
  | some text => exact s.importRules_settles ht

/-! ## Filters of rows -/

namespace Coherent

variable {s : Session} (h : s.Coherent)

include h

/-- The rule filter in force can be applied again, whatever the rows, when the criteria have kept rows. -/
theorem ruleFilter_applies {d : Dataset} {a : Analysis} (hd : s.dataset? = some d) (ha : s.analysis? = some a)
    {criteria : Criteria} {patterns : PatternFilter} {rows : List Nat} (hrows : s.keptRows criteria patterns = .ok rows)
    (figures : List (RuleStats Float)) : ∃ visible, s.ruleFilter.apply a.list figures d.catalog criteria = .ok visible := by
  obtain ⟨d', hd', kept, hkept, -⟩ := keptRows_ok_iff.1 hrows
  obtain rfl := Option.some.inj (hd.symm.trans hd')
  obtain ⟨-, hinterest⟩ := RuleFilter.apply_ok_iff.1 ⟨_, (h.fresh d a hd ha).filtered⟩
  exact RuleFilter.apply_ok_iff.2 ⟨Criteria.resolve_of_apply hkept, hinterest⟩

/-- Rows that were kept are adopted. -/
theorem adoptRows_ok {criteria : Criteria} {patterns : PatternFilter} {rows : List Nat}
    (hrows : s.keptRows criteria patterns = .ok rows) : (s.adoptRows criteria patterns rows).outcome = .ok () ∧
      ∃ a?, (s.adoptRows criteria patterns rows).session = { s.withRows criteria patterns rows with analysis? := a? } ∧
        Keeps s { s.withRows criteria patterns rows with analysis? := a? } := by
  obtain ⟨d, hd, -⟩ := keptRows_ok_iff.1 hrows
  cases ha : s.analysis? with
  | none =>
    refine ⟨?_, none, ?_, congrArg _ ha.symm, fun d a _ h' => by cases h'⟩
    · simp only [adoptRows, hd, ha]
    · rw [← ha]
      simp only [adoptRows, hd, ha, withRows]
  | some a =>
    obtain ⟨visible, hv⟩ := h.ruleFilter_applies hd ha hrows (a.list.evaluate d rows).rules
    refine ⟨?_, some { a with evaluation := a.list.evaluate d rows, visible }, ?_, ?_, fun d' a' hd' ha' => ?_⟩
    · simp only [adoptRows, hd, ha, hv]
    · simp only [adoptRows, hd, ha, hv]
    · rw [ha]
      rfl
    · have hfresh := h.fresh d a hd ha
      obtain rfl := Option.some.inj (hd.symm.trans hd')
      obtain rfl := Option.some.inj ha'
      exact ⟨hfresh.ranked_eq, hfresh.compiled, rfl, hv⟩

/-- Other filters of rows are refused, or their rows are adopted. -/
theorem setRows_settles {c : Call} {criteria : Criteria} {patterns : PatternFilter}
    (step : ∀ rows a?, s.keptRows criteria patterns = .ok rows →
      Keeps s { s.withRows criteria patterns rows with analysis? := a? } →
      Step s c { s.withRows criteria patterns rows with analysis? := a? }) :
    Settles s c (s.setRows criteria patterns) := by
  unfold setRows
  cases hrows : s.keptRows criteria patterns with
  | error e => exact Or.inl ⟨_, rfl, rfl⟩
  | ok rows =>
    obtain ⟨hok, a?, hs, hkeeps⟩ := h.adoptRows_ok hrows
    refine Or.inr ⟨hok, ?_⟩
    show Step s c (s.adoptRows criteria patterns rows).session
    rw [hs]
    exact step rows a? hrows hkeeps

/-! ## Filters of rules -/

/-- Setting the rule filter is refused or takes a step. -/
theorem setRuleFilter_settles (f : RuleFilter) : Settles s (.setRuleFilter f) (s.setRuleFilter f) := by
  cases hd : s.dataset? with
  | none =>
    have hs : s.setRuleFilter f = ⟨{ s with ruleFilter := f }, [], .ok ()⟩ := by simp only [setRuleFilter, hd]
    rw [hs]
    exact Or.inr ⟨rfl, .ruleFilter (keeps_of_no_analysis (h.blank hd).1 (h.blank hd).1)⟩
  | some d =>
    cases ha : s.analysis? with
    | none =>
      cases hi : f.interestIn d.catalog with
      | error e =>
        simp only [setRuleFilter, hd, ha, hi]
        exact Or.inl ⟨_, rfl, rfl⟩
      | ok interest =>
        have hs : s.setRuleFilter f = ⟨{ s with ruleFilter := f }, [], .ok ()⟩ := by simp only [setRuleFilter, hd, ha, hi]
        rw [hs]
        exact Or.inr ⟨rfl, .ruleFilter (keeps_of_no_analysis ha ha)⟩
    | some a =>
      cases hv : f.apply a.list a.evaluation.rules d.catalog s.criteria with
      | error e =>
        simp only [setRuleFilter, hd, ha, hv]
        exact Or.inl ⟨_, rfl, rfl⟩
      | ok visible =>
        have hs : s.setRuleFilter f = ⟨{ s with analysis? := some { a with visible }, ruleFilter := f },
            [.appliedRuleFilter visible.length], .ok ()⟩ := by simp only [setRuleFilter, hd, ha, hv]
        rw [hs]
        refine Or.inr ⟨rfl, .ruleFilter ⟨?_, fun d' a' hd' ha' => ?_⟩⟩
        · rw [ha]
          rfl
        · have hfresh := h.fresh d a hd ha
          obtain rfl := Option.some.inj (hd.symm.trans hd')
          obtain rfl := Option.some.inj ha'
          exact ⟨hfresh.ranked_eq, hfresh.compiled, hfresh.evaluation_eq, hv⟩

/-! ## Every call -/

/-- A call is refused and changes nothing, or takes the step of its kind. -/
theorem perform_settles (c : Call) : Settles s c (s.perform c) := by
  cases c with
  | importDataset text => exact s.importDataset_settles rfl
  | importDatasetFile file => exact s.importDatasetFile_settles file
  | importRules text => exact s.importRules_settles rfl
  | importRulesFile file => exact s.importRulesFile_settles file
  | setCriteria criteria => exact h.setRows_settles fun _ _ => .criteria
  | setPatterns patterns => exact h.setRows_settles fun _ _ => .patterns
  | setRuleFilter f => exact h.setRuleFilter_settles f

end Coherent

/-- A session whose dataset is replaced is coherent. -/
theorem coherent_replaceDataset (s : Session) (d : Dataset) : (s.replaceDataset d).Coherent where
  blank h := by cases h
  kept d' h := by
    cases h
    exact ⟨d.indices, Criteria.empty_apply d, PatternFilter.empty_apply d⟩
  fresh d' a _ h := by cases h

/-- A session that adopts other rows is coherent if its views are kept fresh. -/
theorem coherent_withRows {s : Session} {criteria : Criteria} {patterns : PatternFilter} {rows : List Nat}
    {a? : Option Analysis} (hrows : s.keptRows criteria patterns = .ok rows)
    (hkeeps : Keeps s { s.withRows criteria patterns rows with analysis? := a? }) :
    Coherent { s.withRows criteria patterns rows with analysis? := a? } := by
  obtain ⟨d, hd, hkept⟩ := keptRows_ok_iff.1 hrows
  refine ⟨fun hn => ?_, fun d' hd' => ?_, hkeeps.2⟩
  · cases hd.symm.trans hn
  · obtain rfl := Option.some.inj (hd.symm.trans hd')
    exact hkept

/-- A step leads from a coherent session to a coherent session. -/
theorem Step.coherent {s s' : Session} {c : Call} (hstep : Step s c s') (h : s.Coherent) : s'.Coherent := by
  cases hstep with
  | dataset => exact coherent_replaceDataset s _
  | rules _ hd _ hfresh =>
    refine ⟨fun hn => ?_, h.kept, fun d' a' hd' ha' => ?_⟩
    · cases hd.symm.trans hn
    · obtain rfl := Option.some.inj (hd.symm.trans hd')
      obtain rfl := Option.some.inj ha'
      exact ⟨hfresh.ranked_eq, hfresh.compiled, hfresh.evaluation_eq, hfresh.filtered⟩
  | criteria hrows hkeeps => exact coherent_withRows hrows hkeeps
  | patterns hrows hkeeps => exact coherent_withRows hrows hkeeps
  | ruleFilter hkeeps =>
    refine ⟨fun hn => ⟨?_, (h.blank hn).2⟩, h.kept, hkeeps.2⟩
    have hlist := hkeeps.1
    rw [(h.blank hn).1] at hlist
    exact Option.map_eq_none_iff.1 hlist

end Session

end FirstMatch
