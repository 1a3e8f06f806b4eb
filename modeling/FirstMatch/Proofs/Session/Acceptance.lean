import FirstMatch.Proofs.Graph.AnyOrder
import FirstMatch.Proofs.Session.Run

/-!
# Which rule texts a session accepts

Ranking, compiling and evaluating refuse no list, and the criteria of a coherent session resolve, so a text that is read can only
be refused for the features of interest (`Session.Coherent.importRules_of_unknown`). A rule filter is looked up in the catalog when
it is set (`Run.Vetted`), but not when a new dataset brings back that of the settings: the rules of a dataset that lacks one of its
features are refused, whatever they say, until another rule filter is set (`Run.importRules_ok_iff`).
-/

namespace FirstMatch

/-! ## One import -/

namespace Session

variable {s : Session} {d : Dataset} {text : String}

/-- A text that is refused against the catalog is refused for the same reason. -/
theorem importRules_of_error (hd : s.dataset? = some d) {e : Error} (hread : DecisionList.read text d.catalog = .error e) :
    (s.importRules text).outcome = .error e := by
  simp only [importRules, analyzeText, hd, hread]

/-- What becomes of a list that is read is what becomes of its analysis. -/
theorem importRules_of_analyze (hd : s.dataset? = some d) {l : DecisionList} (hread : DecisionList.read text d.catalog = .ok l) :
    (∀ a, (s.analyze d l).2 = .ok a → (s.importRules text).outcome = .ok ()) ∧
      ∀ e, (s.analyze d l).2 = .error e → (s.importRules text).outcome = .error e := by
  cases hanalysis : s.analyze d l with
  | mk stages result =>
    cases result with
    | ok a =>
      have hok : (s.importRules text).outcome = .ok () := by simp only [importRules, analyzeText, hd, hread, hanalysis]
      refine ⟨fun _ _ => hok, fun e he => ?_⟩
      cases he
    | error e =>
      have herror : (s.importRules text).outcome = .error e := by simp only [importRules, analyzeText, hd, hread, hanalysis]
      constructor
      · intro a ha
        cases ha
      · intro e' he
        cases he
        exact herror

/-- The analysis of a list gets as far as its rule filter, and no further than that. -/
theorem analyze_eq (s : Session) (d : Dataset) (l : DecisionList) : ∃ g : Graph,
    (∀ visible, s.ruleFilter.apply l (l.evaluate d s.filtered).rules d.catalog s.criteria = .ok visible →
      (s.analyze d l).2 = .ok ⟨l, l.ranking d.catalog, g, l.evaluate d s.filtered, visible⟩) ∧
    ∀ e, s.ruleFilter.apply l (l.evaluate d s.filtered).rules d.catalog s.criteria = .error e →
      (s.analyze d l).2 = .error (.schema e) := by
  obtain ⟨g, hg⟩ : ∃ g, l.compile d.catalog ((l.ranking d.catalog).map (·.feature)) = .ok g :=
    Graph.exists_compile l.ends.ne_nil d.catalog (l.covers_ranking d.catalog)
  exact ⟨g, fun visible hv => by simp only [analyze, hg, hv], fun e he => by simp only [analyze, hg, he]⟩

namespace Coherent

variable (h : s.Coherent) (hd : s.dataset? = some d)

include h hd

/-- A list that is read is accepted where the features of interest are known. -/
theorem importRules_of_known {l : DecisionList} (hread : DecisionList.read text d.catalog = .ok l)
    (hknown : s.ruleFilter.unknown? d.catalog = none) : (s.importRules text).outcome = .ok () := by
  obtain ⟨g, hok, -⟩ := s.analyze_eq d l
  obtain ⟨visible, hv⟩ := RuleFilter.apply_ok_iff.2 ⟨h.exists_resolve hd, RuleFilter.interestIn_ok_iff.2 hknown⟩
  exact (importRules_of_analyze hd hread).1 _ (hok visible hv)

/-- It is refused for the first feature of interest that is unknown. -/
theorem importRules_of_unknown {l : DecisionList} (hread : DecisionList.read text d.catalog = .ok l) {name : String}
    (hname : s.ruleFilter.unknown? d.catalog = some name) :
    (s.importRules text).outcome = .error (.schema (.unknownFeature name)) := by
  obtain ⟨g, -, herror⟩ := s.analyze_eq d l
  obtain ⟨tests, htests⟩ := h.exists_resolve hd
  have happly : s.ruleFilter.apply l (l.evaluate d s.filtered).rules d.catalog s.criteria = .error (.unknownFeature name) :=
    bind_eq_error.2 (Or.inr ⟨tests, htests, bind_eq_error.2 (Or.inl (RuleFilter.interestIn_of_unknown hname))⟩)
  exact (importRules_of_analyze hd hread).2 _ (herror _ happly)

end Coherent

/-- With a dataset, a rule filter is set only where its features of interest are known. -/
theorem known_of_setRuleFilter {f : RuleFilter} (hd : s.dataset? = some d) (hok : (s.setRuleFilter f).outcome = .ok ()) :
    f.unknown? d.catalog = none := by
  rw [← RuleFilter.interestIn_ok_iff]
  cases ha : s.analysis? with
  | none =>
    cases hi : f.interestIn d.catalog with
    | error e =>
      simp only [setRuleFilter, hd, ha, hi] at hok
      cases hok
    | ok interest => exact ⟨interest, rfl⟩
  | some a =>
    cases hv : f.apply a.list a.evaluation.rules d.catalog s.criteria with
    | error e =>
      simp only [setRuleFilter, hd, ha, hv] at hok
      cases hok
    | ok visible => exact (RuleFilter.apply_ok_iff.1 ⟨visible, hv⟩).2

end Session

/-! ## Every run -/

namespace Run

/-- The rule filter that was set since the dataset came, if any was, asks for known features only. -/
def Vetted (r : Run) : Prop := ∀ d f, r.session.dataset? = some d → Call.last? Call.ruleFilter? r.accepted = some f →
  f.unknown? d.catalog = none

/-- A new session has no dataset whose features could be unknown. -/
theorem vetted_start (config : Config) : (start config).Vetted := by
  intro d f hd
  cases hd

/-- An accepted call keeps the rule filter vetted. -/
theorem Vetted.of_step {s s' : Session} {calls : List Call} {c : Call} (h : Vetted ⟨s, calls⟩) (hstep : s.Step c s')
    (hok : (s.perform c).outcome = .ok ()) : Vetted ⟨s', c :: calls⟩ := by
  have hother : c.datasetText? = none → c.ruleFilter? = none → s'.dataset? = s.dataset? → Vetted ⟨s', c :: calls⟩ := by
    intro hdata hfilter hdataset d f hd hf
    rw [Call.last_of_other hdata, hfilter, Option.none_or] at hf
    exact h d f (hdataset ▸ hd) hf
  cases hstep with
  | dataset hc _ =>
    intro d f _ hf
    rw [Call.last_of_dataset hc] at hf
    cases hf
  | rules hc _ _ _ =>
    obtain ⟨hdata, -, -, hfilter⟩ := Call.only_rules hc
    exact hother hdata hfilter rfl
  | criteria _ _ => exact hother rfl rfl rfl
  | patterns _ _ => exact hother rfl rfl rfl
  | ruleFilter _ =>
    intro d f hd hf
    rw [Call.last_of_other rfl] at hf
    cases hf
    have hdataset : s.dataset? = some d := hd
    exact Session.known_of_setRuleFilter hdataset hok

/-- One more call keeps the rule filter vetted. -/
theorem Vetted.next {r : Run} (h : r.Vetted) (hcoherent : r.session.Coherent) (c : Call) : (r.next c).Vetted := by
  rcases hcoherent.perform_settles c with ⟨e, he, hs⟩ | ⟨hok, hstep⟩
  · have hnext : r.next c = r := by simp only [Run.next, he, hs]
    rwa [hnext]
  · have hnext : r.next c = ⟨(r.session.perform c).session, c :: r.accepted⟩ := by simp only [Run.next, hok]
    rw [hnext]
    exact h.of_step hstep hok

/-- After any calls, the rule filter is vetted. -/
theorem ofCalls_vetted (config : Config) (calls : List Call) : (ofCalls config calls).Vetted := by
  unfold ofCalls
  have hstart := ofCalls_inOrder config []
  have hvetted := vetted_start config
  change (start config).session.Coherent ∧ (start config).InForce config at hstart
  generalize start config = r at hstart hvetted
  induction calls generalizing r with
  | nil => exact hvetted
  | cons c rest ih => exact ih (r.next c) (next_inOrder hstart.1 hstart.2 c) (hvetted.next hstart.1 c)

/-- Which rule texts a session accepts, after any calls that leave a dataset, in three parts.
1. A text that is refused against the catalog is refused for the same reason.
2. A text that is read is accepted if and only if a rule filter was set since the dataset came, or that of the settings asks for
   known features only.
3. Otherwise the reason is the first feature of the settings that is unknown. -/
theorem importRules_ok_iff (config : Config) (calls : List Call) {d : Dataset}
    (hd : (ofCalls config calls).session.dataset? = some d) (text : String) :
    let r := ofCalls config calls
    let outcome := (r.session.importRules text).outcome
    (∀ e, DecisionList.read text d.catalog = .error e → outcome = .error e) ∧
    ∀ l, DecisionList.read text d.catalog = .ok l →
      (outcome = .ok () ↔
        (∃ f, Call.last? Call.ruleFilter? r.accepted = some f) ∨ config.ruleFilter.unknown? d.catalog = none) ∧
      ∀ e, outcome = .error e →
        ∃ name, config.ruleFilter.unknown? d.catalog = some name ∧ e = .schema (.unknownFeature name) := by
  intro r outcome
  obtain ⟨hcoherent, hforce⟩ := ofCalls_inOrder config calls
  refine ⟨fun e hread => Session.importRules_of_error hd hread, fun l hread => ?_⟩
  have hfilter := hforce.ruleFilter_eq
  cases hlast : Call.last? Call.ruleFilter? r.accepted with
  | some f =>
    rw [hlast, Option.getD_some] at hfilter
    have hok : outcome = .ok () :=
      hcoherent.importRules_of_known hd hread (hfilter ▸ ofCalls_vetted config calls d f hd hlast)
    refine ⟨⟨fun _ => Or.inl ⟨f, rfl⟩, fun _ => hok⟩, fun e he => ?_⟩
    cases hok.symm.trans he
  | none =>
    rw [hlast, Option.getD_none] at hfilter
    cases hunknown : config.ruleFilter.unknown? d.catalog with
    | none =>
      have hok : outcome = .ok () := hcoherent.importRules_of_known hd hread (hfilter ▸ hunknown)
      refine ⟨⟨fun _ => Or.inr rfl, fun _ => hok⟩, fun e he => ?_⟩
      cases hok.symm.trans he
    | some name =>
      have herror : outcome = .error (.schema (.unknownFeature name)) :=
        hcoherent.importRules_of_unknown hd hread (hfilter ▸ hunknown)
      constructor
      · constructor
        · intro hok
          cases herror.symm.trans hok
        · rintro (⟨f, hf⟩ | hnone)
          · cases hf
          · cases hnone
      · intro e he
        exact ⟨name, rfl, Except.error.inj (he.symm.trans herror)⟩

/-- Settings that ask for rules on the rain. -/
def rainy : Config := { ruleFilter := { interest := ["rain"] } }

/-- The days of a dataset without rain. -/
def dryDays : Call := .importDataset "wind,label\nweak,yes\nstrong,no\n"

/-- Rules on the wind alone. -/
def windRules : String := "if wind = strong then no (1/0)\nelse yes (1/0)"

/-- A list is read against the dataset of a session, if a check says so. -/
theorem exists_read (s : Session) (text : String) (p : Dataset → Bool)
    (h : (s.dataset?.any fun d => (DecisionList.read text d.catalog).isOk && p d) = true) :
    ∃ d l, s.dataset? = some d ∧ DecisionList.read text d.catalog = .ok l ∧ p d = true := by
  obtain ⟨d, hd, hread⟩ := (Option.any_eq_true _ _).1 h
  rw [Bool.and_eq_true] at hread
  cases hl : DecisionList.read text d.catalog with
  | error e =>
    rw [hl] at hread
    cases hread.1
  | ok l => exact ⟨d, l, hd, hl, hread.2⟩

/-- Another rule filter lifts what the settings ask for. -/
theorem importRules_ok_iff_rainy : ∃ d l,
    (ofCalls rainy [dryDays, .setRuleFilter {}]).session.dataset? = some d ∧
    DecisionList.read windRules d.catalog = .ok l ∧ rainy.ruleFilter.unknown? d.catalog = some "rain" ∧
    ((ofCalls rainy [dryDays, .setRuleFilter {}]).session.importRules windRules).outcome = .ok () := by
  obtain ⟨d, l, hd, hl, hunknown⟩ := exists_read (ofCalls rainy [dryDays, .setRuleFilter {}]).session windRules
    (fun d => rainy.ruleFilter.unknown? d.catalog == some "rain") (by decide +kernel)
  obtain ⟨hok, -⟩ := (importRules_ok_iff rainy [dryDays, .setRuleFilter {}] hd windRules).2 l hl
  have hset : (Call.last? Call.ruleFilter? (ofCalls rainy [dryDays, .setRuleFilter {}]).accepted).isSome = true := by
    decide +kernel
  exact ⟨d, l, hd, hl, beq_iff_eq.1 hunknown, hok.2 (Or.inl (Option.isSome_iff_exists.1 hset))⟩

/-- Rules on the wind are refused, since the dataset says nothing of the rain that the settings ask for. -/
theorem importRules_refuses_read : ∃ d l, (ofCalls rainy [dryDays]).session.dataset? = some d ∧
    DecisionList.read windRules d.catalog = .ok l ∧
    ((ofCalls rainy [dryDays]).session.importRules windRules).outcome = .error (.schema (.unknownFeature "rain")) := by
  obtain ⟨d, l, hd, hl, hunknown⟩ := exists_read (ofCalls rainy [dryDays]).session windRules
    (fun d => (ofCalls rainy [dryDays]).session.ruleFilter.unknown? d.catalog == some "rain") (by decide +kernel)
  obtain ⟨hcoherent, -⟩ := ofCalls_inOrder rainy [dryDays]
  exact ⟨d, l, hd, hl, hcoherent.importRules_of_unknown hd hl (beq_iff_eq.1 hunknown)⟩

end Run

end FirstMatch
