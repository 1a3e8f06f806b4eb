import FirstMatch.Proofs.Session.Step

/-!
# Runs of a session

Whatever calls are made, and in whatever order, the session stays coherent, the arguments in force are those of the calls that it
accepted, and a call that is refused leaves no trace.
-/

namespace FirstMatch

namespace Call

/-- Nothing from before an import of a dataset is in force. -/
theorem last_of_dataset {α : Type} {argument? : Call → Option α} {c : Call} {text : String} {calls : List Call}
    (hc : c.datasetText? = some text) : last? argument? (c :: calls) = none := by
  rw [last?, List.takeWhile_cons_of_neg (by simp [hc])]
  rfl

/-- Another call brings its argument, if it has one of the kind. -/
theorem last_of_other {α : Type} {argument? : Call → Option α} {c : Call} {calls : List Call} (hc : c.datasetText? = none) :
    last? argument? (c :: calls) = (argument? c).or (last? argument? calls) := by
  rw [last?, List.takeWhile_cons_of_pos (by simp [hc]), List.findSome?_cons]
  cases argument? c <;> rfl

/-- A call that imports rules has no other argument. -/
theorem only_rules {c : Call} {text : String} (hc : c.rulesText? = some text) :
    c.datasetText? = none ∧ c.criteria? = none ∧ c.patterns? = none ∧ c.ruleFilter? = none := by
  cases c
  all_goals first | exact ⟨rfl, rfl, rfl, rfl⟩ | cases hc

end Call

namespace Run

/-! ## The arguments in force -/

/-- The arguments in force are those of the calls accepted: the dataset is the one imported last, and the filters and the list are
those that came last since then. -/
structure InForce (config : Config) (r : Run) : Prop where
  config_eq : r.session.config = config
  no_dataset : r.accepted.findSome? Call.datasetText? = none → r.session.dataset? = none
  dataset : ∀ text, r.accepted.findSome? Call.datasetText? = some text →
    ∃ d, Dataset.read text config.delimiter config.labelColumn = .ok d ∧ r.session.dataset? = some d
  criteria_eq : r.session.criteria = (Call.last? Call.criteria? r.accepted).getD .empty
  patterns_eq : r.session.patterns = (Call.last? Call.patterns? r.accepted).getD {}
  ruleFilter_eq : r.session.ruleFilter = (Call.last? Call.ruleFilter? r.accepted).getD config.ruleFilter
  no_rules : Call.last? Call.rulesText? r.accepted = none → r.session.analysis? = none
  rules : ∀ text, Call.last? Call.rulesText? r.accepted = some text → ∃ d a, r.session.dataset? = some d ∧
    r.session.analysis? = some a ∧ DecisionList.read text d.catalog = .ok a.list

theorem inForce_start (config : Config) : (start config).InForce config where
  config_eq := rfl
  no_dataset _ := rfl
  dataset _ h := by cases h
  criteria_eq := rfl
  patterns_eq := rfl
  ruleFilter_eq := rfl
  no_rules _ := rfl
  rules _ h := by cases h

namespace InForce

variable {config : Config} {s s' : Session} {calls : List Call} {c : Call}

/-- An accepted call that imports no dataset keeps the dataset; what it says of the list is told apart. -/
theorem of_other (h : InForce config ⟨s, calls⟩) (hdata : c.datasetText? = none)
    (hconfig : s'.config = s.config) (hdataset : s'.dataset? = s.dataset?)
    (hcriteria : s'.criteria = c.criteria?.getD s.criteria) (hpatterns : s'.patterns = c.patterns?.getD s.patterns)
    (hfilter : s'.ruleFilter = c.ruleFilter?.getD s.ruleFilter)
    (hnone : c.rulesText?.or (Call.last? Call.rulesText? calls) = none → s'.analysis? = none)
    (hsome : ∀ text, c.rulesText?.or (Call.last? Call.rulesText? calls) = some text → ∃ d a, s'.dataset? = some d ∧
      s'.analysis? = some a ∧ DecisionList.read text d.catalog = .ok a.list) : InForce config ⟨s', c :: calls⟩ where
  config_eq := hconfig.trans h.config_eq
  no_dataset hn := by
    rw [List.findSome?_cons, hdata] at hn
    exact hdataset.trans (h.no_dataset hn)
  dataset text ht := by
    rw [List.findSome?_cons, hdata] at ht
    obtain ⟨d, hread, hd⟩ := h.dataset text ht
    exact ⟨d, hread, hdataset.trans hd⟩
  criteria_eq := by
    rw [hcriteria, Call.last_of_other hdata, h.criteria_eq]
    cases c.criteria? <;> rfl
  patterns_eq := by
    rw [hpatterns, Call.last_of_other hdata, h.patterns_eq]
    cases c.patterns? <;> rfl
  ruleFilter_eq := by
    rw [hfilter, Call.last_of_other hdata, h.ruleFilter_eq]
    cases c.ruleFilter? <;> rfl
  no_rules hn := hnone (Call.last_of_other hdata ▸ hn)
  rules text ht := hsome text (Call.last_of_other hdata ▸ ht)

/-- An accepted call that imports nothing keeps the list as well. -/
theorem of_keeps (h : InForce config ⟨s, calls⟩) (hdata : c.datasetText? = none) (hrules : c.rulesText? = none)
    (hconfig : s'.config = s.config) (hdataset : s'.dataset? = s.dataset?)
    (hcriteria : s'.criteria = c.criteria?.getD s.criteria) (hpatterns : s'.patterns = c.patterns?.getD s.patterns)
    (hfilter : s'.ruleFilter = c.ruleFilter?.getD s.ruleFilter)
    (hlist : s'.analysis?.map (·.list) = s.analysis?.map (·.list)) : InForce config ⟨s', c :: calls⟩ := by
  refine h.of_other hdata hconfig hdataset hcriteria hpatterns hfilter (fun hn => ?_) fun text ht => ?_
  · rw [hrules, Option.none_or] at hn
    rw [h.no_rules hn] at hlist
    exact Option.map_eq_none_iff.1 hlist
  · rw [hrules, Option.none_or] at ht
    obtain ⟨d, a, hd, ha, hread⟩ := h.rules text ht
    rw [ha] at hlist
    obtain ⟨a', ha', hl⟩ := Option.map_eq_some_iff.1 hlist
    exact ⟨d, a', hdataset.trans hd, ha', hl ▸ hread⟩

/-- An imported dataset leaves no argument of an earlier call in force. -/
theorem of_dataset (h : InForce config ⟨s, calls⟩) {text : String} {d : Dataset} (hc : c.datasetText? = some text)
    (hd : Dataset.read text s.config.delimiter s.config.labelColumn = .ok d) :
    InForce config ⟨s.replaceDataset d, c :: calls⟩ where
  config_eq := h.config_eq
  no_dataset hn := by
    rw [List.findSome?_cons, hc] at hn
    cases hn
  dataset text' ht := by
    rw [List.findSome?_cons, hc] at ht
    cases ht
    have hconfig : s.config = config := h.config_eq
    exact ⟨d, hconfig ▸ hd, rfl⟩
  criteria_eq := by
    rw [Call.last_of_dataset hc]
    rfl
  patterns_eq := by
    rw [Call.last_of_dataset hc]
    rfl
  ruleFilter_eq := by
    rw [Call.last_of_dataset hc, ← h.config_eq]
    rfl
  no_rules _ := rfl
  rules text' ht := by
    rw [Call.last_of_dataset hc] at ht
    cases ht

/-- A step puts the arguments of its call in force. -/
theorem of_step (h : InForce config ⟨s, calls⟩) (hstep : s.Step c s') : InForce config ⟨s', c :: calls⟩ := by
  cases hstep with
  | dataset hc hd => exact h.of_dataset hc hd
  | rules hc hd hread _ =>
    obtain ⟨hdata, hcriteria, hpatterns, hfilter⟩ := Call.only_rules hc
    refine h.of_other hdata rfl rfl (by rw [hcriteria]; rfl) (by rw [hpatterns]; rfl) (by rw [hfilter]; rfl) (fun hn => ?_)
      fun text ht => ?_
    · rw [hc, Option.some_or] at hn
      cases hn
    · rw [hc, Option.some_or] at ht
      cases ht
      exact ⟨_, _, hd, rfl, hread⟩
  | criteria _ hkeeps => exact h.of_keeps rfl rfl rfl rfl rfl rfl rfl hkeeps.1
  | patterns _ hkeeps => exact h.of_keeps rfl rfl rfl rfl rfl rfl rfl hkeeps.1
  | ruleFilter hkeeps => exact h.of_keeps rfl rfl rfl rfl rfl rfl rfl hkeeps.1

end InForce

/-! ## Every run -/

/-- One more call keeps the session coherent and the arguments in force. -/
theorem next_inOrder {config : Config} {r : Run} (hcoherent : r.session.Coherent) (hforce : r.InForce config) (c : Call) :
    (r.next c).session.Coherent ∧ (r.next c).InForce config := by
  rcases hcoherent.perform_settles c with ⟨e, he, hs⟩ | ⟨hok, hstep⟩
  · have hnext : r.next c = r := by simp only [next, he, hs]
    rw [hnext]
    exact ⟨hcoherent, hforce⟩
  · have hnext : r.next c = ⟨(r.session.perform c).session, c :: r.accepted⟩ := by simp only [next, hok]
    rw [hnext]
    exact ⟨hstep.coherent hcoherent, hforce.of_step hstep⟩

/-- After any calls a session is coherent, and the arguments in force are those of the calls accepted. -/
theorem ofCalls_inOrder (config : Config) (calls : List Call) :
    (ofCalls config calls).session.Coherent ∧ (ofCalls config calls).InForce config := by
  unfold ofCalls
  have hstart : (start config).session.Coherent ∧ (start config).InForce config :=
    ⟨Session.coherent_new config, inForce_start config⟩
  generalize start config = r at hstart
  induction calls generalizing r with
  | nil => exact hstart
  | cons c rest ih => exact ih (r.next c) (next_inOrder hstart.1 hstart.2 c)

/-- The session after any calls is coherent, in four parts.
1. Without an accepted import there is no dataset, and without a dataset no list and no row. After one, the dataset is that of the
   text imported last.
2. The filters are those accepted last since the dataset came, or else no criteria, no patterns and the rule filter of the
   settings.
3. The rows are those that the criteria and then the patterns keep of all rows of the dataset.
4. There is a list if one was accepted since the dataset came; it is that of the text imported last, and its ranking, its graph, its
   evaluation and its visible rules are those derived afresh from the dataset, the rows and the filters. -/
theorem ofCalls_coherent (config : Config) (calls : List Call) :
    let r := ofCalls config calls
    let s := r.session
    ((r.accepted.findSome? Call.datasetText? = none → s.dataset? = none) ∧
      (s.dataset? = none → s.analysis? = none ∧ s.filtered = []) ∧
      ∀ text, r.accepted.findSome? Call.datasetText? = some text →
        ∃ d, Dataset.read text config.delimiter config.labelColumn = .ok d ∧ s.dataset? = some d) ∧
    (s.criteria = (Call.last? Call.criteria? r.accepted).getD .empty ∧
      s.patterns = (Call.last? Call.patterns? r.accepted).getD {} ∧
      s.ruleFilter = (Call.last? Call.ruleFilter? r.accepted).getD config.ruleFilter) ∧
    (∀ d, s.dataset? = some d →
      ∃ rows, s.criteria.apply d d.indices = .ok rows ∧ s.patterns.apply d rows = .ok s.filtered) ∧
    (Call.last? Call.rulesText? r.accepted = none → s.analysis? = none) ∧
      ∀ text, Call.last? Call.rulesText? r.accepted = some text → ∃ d a, s.dataset? = some d ∧ s.analysis? = some a ∧
        DecisionList.read text d.catalog = .ok a.list ∧
        a.ranked = a.list.ranking d.catalog ∧
        a.list.compile d.catalog (a.ranked.map (·.feature)) = .ok a.graph ∧
        a.evaluation = a.list.evaluate d s.filtered ∧
        s.ruleFilter.apply a.list a.evaluation.rules d.catalog s.criteria = .ok a.visible := by
  obtain ⟨hcoherent, hforce⟩ := ofCalls_inOrder config calls
  refine ⟨⟨hforce.no_dataset, hcoherent.blank, hforce.dataset⟩,
    ⟨hforce.criteria_eq, hforce.patterns_eq, hforce.ruleFilter_eq⟩, hcoherent.kept, hforce.no_rules, fun text ht => ?_⟩
  obtain ⟨d, a, hd, ha, hread⟩ := hforce.rules text ht
  have hfresh := hcoherent.fresh d a hd ha
  exact ⟨d, a, hd, ha, hread, hfresh.ranked_eq, hfresh.compiled, hfresh.evaluation_eq, hfresh.filtered⟩

/-- Calls that leave a dataset and a list: whether to go out in the wind. -/
def outing : List Call :=
  [.importDataset "wind,label\nweak,yes\nstrong,no\n", .importRules "if wind = strong then no (1/0)\nelse yes (1/0)"]

theorem last_rulesText_outing : Call.last? Call.rulesText? (ofCalls {} outing).accepted =
    some "if wind = strong then no (1/0)\nelse yes (1/0)" := by decide +kernel

/-- After the calls that leave a dataset and a list, the views are those of the list and the dataset. -/
theorem ofCalls_coherent_outing : ∃ d a, (ofCalls {} outing).session.dataset? = some d ∧
    (ofCalls {} outing).session.analysis? = some a ∧ a.ranked = a.list.ranking d.catalog ∧
    a.evaluation = a.list.evaluate d (ofCalls {} outing).session.filtered := by
  obtain ⟨d, a, hd, ha, -, hranked, -, hevaluation, -⟩ := (ofCalls_coherent {} outing).2.2.2.2 _ last_rulesText_outing
  exact ⟨d, a, hd, ha, hranked, hevaluation⟩

/-! ## Refusals -/

/-- A refused call leaves no trace, in two parts.
1. After any calls, a call that is refused leaves the session as it was.
2. When other criteria and patterns keep rows, the rule filter can be applied to the new evaluation, so rows are never adopted
   halfway. -/
theorem session_of_refused (config : Config) (calls : List Call) :
    let s := (ofCalls config calls).session
    (∀ c e, (s.perform c).outcome = .error e → (s.perform c).session = s) ∧
    ∀ criteria patterns rows, s.keptRows criteria patterns = .ok rows →
      (s.adoptRows criteria patterns rows).outcome = .ok () ∧
      ∀ d a, s.dataset? = some d → s.analysis? = some a →
        ∃ visible, s.ruleFilter.apply a.list (a.list.evaluate d rows).rules d.catalog criteria = .ok visible := by
  obtain ⟨hcoherent, -⟩ := ofCalls_inOrder config calls
  refine ⟨fun c e he => ?_, fun criteria patterns rows hrows => ⟨(hcoherent.adoptRows_ok hrows).1, fun d a hd ha => ?_⟩⟩
  · rcases hcoherent.perform_settles c with ⟨-, -, hs⟩ | ⟨hok, -⟩
    · exact hs
    · cases hok.symm.trans he
  · exact hcoherent.ruleFilter_applies hd ha hrows _

/-- Calls that the session refuses leave it as it was. -/
theorem session_of_refused_outing :
    let s := (ofCalls {} outing).session
    let c := Call.setRuleFilter { interest := ["rain"] }
    (∃ e, (s.perform c).outcome = .error e ∧ (s.perform c).session = s) ∧
    ∃ d a visible, s.dataset? = some d ∧ s.analysis? = some a ∧ s.keptRows .empty {} = .ok d.indices ∧
      (s.adoptRows .empty {} d.indices).outcome = .ok () ∧
      s.ruleFilter.apply a.list (a.list.evaluate d d.indices).rules d.catalog .empty = .ok visible := by
  intro s c
  obtain ⟨hrefused, hadopted⟩ := session_of_refused {} outing
  constructor
  · have hc : (s.perform c).outcome.isOk = false := by decide +kernel
    cases he : (s.perform c).outcome with
    | error e => exact ⟨e, rfl, hrefused c e he⟩
    | ok u =>
      rw [he] at hc
      cases hc
  · obtain ⟨d, a, hd, ha, -⟩ := (ofCalls_inOrder {} outing).2.rules _ last_rulesText_outing
    have hrows : s.keptRows .empty {} = .ok d.indices :=
      Session.keptRows_ok_iff.2 ⟨d, hd, d.indices, Criteria.empty_apply d, PatternFilter.empty_apply d⟩
    obtain ⟨hok, happly⟩ := hadopted .empty {} d.indices hrows
    obtain ⟨visible, hv⟩ := happly d a hd ha
    exact ⟨d, a, visible, hd, ha, hrows, hok, hv⟩

end Run

end FirstMatch
