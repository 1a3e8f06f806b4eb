import FirstMatch.Evaluation
import FirstMatch.Proofs.Dataset
import FirstMatch.Proofs.Evaluation.Tally

/-!
# What an evaluation counts

A row is claimed by the first rule whose conditions it meets. Every figure of an evaluation is a number of rows claimed, told apart
by the claiming rule and the label cell.
-/

namespace FirstMatch

namespace Dataset

/-- The rows that some numbers name. Numbers may repeat, and those that there is no row for are passed over. -/
def entries (d : Dataset) (rows : List Nat) : List Row := rows.filterMap d.row?

/-- The label cell of a row equals a value. -/
def hasLabel (d : Dataset) (v : Value) (r : Row) : Bool := (r.cell d.catalog.label).any (· == v)

theorem mem_of_mem_entries {d : Dataset} {rows : List Nat} {r : Row} (h : r ∈ d.entries rows) : r ∈ d.rows := by
  obtain ⟨i, -, hi⟩ := List.mem_filterMap.1 h
  exact List.mem_of_getElem? hi

/-- A row has a label if its label cell holds a value equal to it. -/
theorem hasLabel_eq_true {d : Dataset} {v : Value} {r : Row} :
    d.hasLabel v r = true ↔ ∃ u, r.cell d.catalog.label = some u ∧ (u == v) = true := Option.any_eq_true _ _

end Dataset

namespace DecisionList

/-- A rule is the first all of whose conditions some cells meet. -/
def Claims (l : DecisionList) (cell : Nat → Cell) (i : Nat) : Prop :=
  ∃ r, l.rules[i]? = some r ∧ (∀ x ∈ r.conditions, x.meets (cell x.feature) = true) ∧
    ∀ k q, k < i → l.rules[k]? = some q → ∃ x ∈ q.conditions, x.meets (cell x.feature) = false

/-- A rule predicts a value. -/
def predicts (l : DecisionList) (i : Nat) (v : Value) : Bool := (l.rules[i]?).any (·.label == v)

/-- The rows with the rules that claim them. -/
def claimed (l : DecisionList) (d : Dataset) (rows : List Nat) : List (Row × Nat) :=
  (d.entries rows).zip (l.evaluate d rows).claims

/-! ## Claims -/

/-- The number of the rule that claims a row. -/
def claimant (l : DecisionList) (cell : Nat → Cell) : Nat := l.rules.findIdx (·.holds cell)

/-- The first match of some cells is the rule that claims them. -/
theorem firstMatch_eq_claimant (l : DecisionList) (cell : Nat → Cell) : l.firstMatch? cell = some (l.claimant cell) := by
  obtain ⟨i, hi, -⟩ := l.exists_firstMatch cell
  rw [hi, claimant, (List.findIdx?_eq_some_iff_findIdx_eq.1 hi).2]

/-- A row is claimed by a rule of the list. -/
theorem claimant_lt (l : DecisionList) (cell : Nat → Cell) : l.claimant cell < l.size := by
  obtain ⟨i, hi, hlt⟩ := l.exists_firstMatch cell
  rw [firstMatch_eq_claimant] at hi
  rwa [Option.some.inj hi]

/-- The rule that claims a row is the first all of whose conditions the row meets. -/
theorem claims_claimant (l : DecisionList) (cell : Nat → Cell) : l.Claims cell (l.claimant cell) := by
  obtain ⟨r, hr, hholds, hfirst⟩ := firstMatch_eq_some (l.firstMatch_eq_claimant cell)
  refine ⟨r, hr, List.all_eq_true.1 hholds, fun k q hk hq => ?_⟩
  obtain ⟨x, hx, hfail⟩ := List.all_eq_false.1 (hfirst k q hk hq)
  exact ⟨x, hx, by simpa using hfail⟩

section Claimed

variable (l : DecisionList) (d : Dataset) (rows : List Nat)

/-- The scores of rows are their labels and the rules that claim them. -/
theorem scores_eq : l.scores d rows = (d.entries rows).map fun r => ⟨d.truth? r, l.claimant r.cell⟩ := by
  have hscore : ∀ r, l.score? d r = some ⟨d.truth? r, l.claimant r.cell⟩ := by
    intro r
    rw [score?, firstMatch_eq_claimant, Option.map_some]
  rw [scores, funext hscore]
  exact List.filterMap_eq_map ▸ rfl

/-- The claims of an evaluation are the rules that claim the rows. -/
theorem claims_eq : (l.evaluate d rows).claims = (d.entries rows).map fun r => l.claimant r.cell := by
  show (l.scores d rows).map (·.claim) = _
  rw [scores_eq, List.map_map]
  rfl

/-- The rows claimed are the rows named, each with the rule that claims it. -/
theorem claimed_eq : l.claimed d rows = (d.entries rows).map fun r => (r, l.claimant r.cell) := by
  have hzip : ((d.entries rows).map id).zip ((d.entries rows).map fun r => l.claimant r.cell) = _ := List.zip_map'
  rw [List.map_id] at hzip
  rw [claimed, claims_eq, hzip]
  rfl

/-- The scores are those of the rows claimed. -/
theorem scores_eq_claimed : l.scores d rows = (l.claimed d rows).map fun p => ⟨d.truth? p.1, p.2⟩ := by
  rw [scores_eq, claimed_eq, List.map_map]
  rfl

/-- Each row named is claimed by the rule that the evaluation says. -/
theorem forall_claims : List.Forall₂ (fun r i => l.Claims r.cell i) (d.entries rows) (l.evaluate d rows).claims := by
  rw [claims_eq, List.forall₂_map_right_iff, List.forall₂_same]
  exact fun r _ => l.claims_claimant r.cell

end Claimed

/-! ## Labels -/

section Labels

variable {header : List String} {table : List Row} {label : String} {d : Dataset}

/-- The place of a row's label is that of a label exactly if the row has it. -/
theorem truth_eq_some_iff (hd : Dataset.ofRows header table label = .ok d) {k : Nat} {v : Value}
    (hv : d.catalog.labelFeature.values[k]? = some v) (r : Row) : d.truth? r = some k ↔ d.hasLabel v r = true := by
  rw [Dataset.truth?, Dataset.hasLabel]
  cases r.cell d.catalog.label with
  | none => simp
  | some u =>
    rw [Option.bind_some, Feature.position_eq_some_iff (Dataset.distinct_labels hd), hv, Option.any_some]
    constructor
    · rintro ⟨w, hw, hwu⟩
      obtain rfl := Option.some.inj hw
      exact PartialEquivBEq.symm hwu
    · exact fun huv => ⟨v, rfl, PartialEquivBEq.symm huv⟩

/-- A row has a value as its label exactly if the place of that value is the place of its label. -/
theorem hasLabel_iff (hd : Dataset.ofRows header table label = .ok d) {v : Value} {r : Row} (hr : r ∈ d.rows) :
    d.hasLabel v r = true ↔ ∃ k, d.catalog.labelFeature.position? v = some k ∧ d.truth? r = some k := by
  have hdistinct := Dataset.distinct_labels hd
  constructor
  · intro h
    obtain ⟨u, hu, huv⟩ := Dataset.hasLabel_eq_true.1 h
    have hseen := Dataset.contains_label hd hr hu (Value.beq_self_of_beq huv)
    cases hk : d.catalog.labelFeature.position? v with
    | none =>
      obtain ⟨w, hw, huw⟩ := Feature.contains_iff.1 hseen
      have hv := Feature.contains_iff.2 ⟨w, hw, PartialEquivBEq.trans (PartialEquivBEq.symm huv) huw⟩
      rw [Feature.contains_of_position_eq_none hk] at hv
      cases hv
    | some k =>
      obtain ⟨w, hw, hwv⟩ := (Feature.position_eq_some_iff hdistinct).1 hk
      refine ⟨k, rfl, (truth_eq_some_iff hd hw r).2 ?_⟩
      exact Dataset.hasLabel_eq_true.2 ⟨u, hu, PartialEquivBEq.trans huv (PartialEquivBEq.symm hwv)⟩
  · rintro ⟨k, hk, ht⟩
    obtain ⟨w, hw, hwv⟩ := (Feature.position_eq_some_iff hdistinct).1 hk
    obtain ⟨u, hu, huw⟩ := Dataset.hasLabel_eq_true.1 ((truth_eq_some_iff hd hw r).1 ht)
    exact Dataset.hasLabel_eq_true.2 ⟨u, hu, PartialEquivBEq.trans huw hwv⟩

/-- The place predicted by a rule is that of a label exactly if the rule predicts it. -/
theorem predicted_eq_some_iff (hd : Dataset.ofRows header table label = .ok d) (l : DecisionList) {k : Nat} {v : Value}
    (hv : d.catalog.labelFeature.values[k]? = some v) (s : Score) :
    Tally.predicted (l.predictions d) s = some k ↔ l.predicts s.claim v = true := by
  rw [Tally.predicted, predictions, predicts, List.getElem?_map]
  cases l.rules[s.claim]? with
  | none => simp
  | some r =>
    rw [Option.map_some, Option.join_some, Feature.position_eq_some_iff (Dataset.distinct_labels hd), hv, Option.any_some]
    constructor
    · rintro ⟨w, hw, hwr⟩
      obtain rfl := Option.some.inj hw
      exact PartialEquivBEq.symm hwr
    · exact fun hrv => ⟨v, rfl, PartialEquivBEq.symm hrv⟩

end Labels

end DecisionList

/-! ## Figures -/

/-- The counts of a rule are numbers of rows that it claims: all, those of each label, and those of its own. -/
structure RuleStats.Counts {α : Type} (s : RuleStats α) (d : Dataset) (claimed : List (Row × Nat)) (i : Nat) (r : Rule) :
    Prop where
  claimed_eq : s.claimed = claimed.countP fun p => p.2 == i
  perLabel_length : s.perLabel.length = d.catalog.labelFeature.values.length
  perLabel_eq : ∀ (k : Nat) (v : Value), d.catalog.labelFeature.values[k]? = some v →
    s.perLabel[k]? = some (claimed.countP fun p => p.2 == i && d.hasLabel v p.1)
  trueCount_eq : s.trueCount = claimed.countP fun p => p.2 == i && d.hasLabel r.label p.1
  trueCount_le : s.trueCount ≤ s.claimed
  falseCount_eq : s.falseCount = s.claimed - s.trueCount

/-- The counts of a label are numbers of rows claimed: by a rule that predicts it, rightly or not, and those that have it. -/
structure LabelStats.Counts {α : Type} (s : LabelStats α) (l : DecisionList) (d : Dataset) (claimed : List (Row × Nat))
    (v : Value) : Prop where
  label_eq : s.label = v
  truePositive_eq : s.truePositive = claimed.countP fun p => l.predicts p.2 v && d.hasLabel v p.1
  positive_eq : s.truePositive + s.falsePositive = claimed.countP fun p => l.predicts p.2 v
  groundTruth_eq : s.groundTruth = claimed.countP fun p => d.hasLabel v p.1

namespace DecisionList

section Figures

variable {α : Type} [NatCast α] [Mul α] [Div α] {header : List String} {table : List Row} {label : String}
  {d : Dataset} (hd : Dataset.ofRows header table label = .ok d) (l : DecisionList) (rows : List Nat)

/-- Scores are counted as rows claimed are. -/
theorem countP_scores (d : Dataset) (p : Score → Bool) :
    (l.scores d rows).countP p = (l.claimed d rows).countP fun q => p ⟨d.truth? q.1, q.2⟩ := by
  rw [scores_eq_claimed, List.countP_map]
  rfl

/-- A row claimed is a row of the dataset, and claimed by a rule of the list. -/
theorem mem_of_mem_claimed {d : Dataset} {p : Row × Nat} (h : p ∈ l.claimed d rows) : p.1 ∈ d.rows ∧ p.2 < l.size := by
  rw [claimed_eq] at h
  obtain ⟨r, hr, rfl⟩ := List.mem_map.1 h
  exact ⟨Dataset.mem_of_mem_entries hr, l.claimant_lt r.cell⟩

theorem length_predictions (d : Dataset) : (l.predictions d).length = l.size := List.length_map _

/-- The count of a rule is the number of rows that it claims. -/
theorem countAt_claimed {d : Dataset} {i : Nat} (hi : i < l.size) :
    Tally.countAt (l.tally d rows).claimed i = (l.claimed d rows).countP fun p => p.2 == i := by
  rw [tally, Tally.countAt_claimed _ _ _ (by rwa [length_predictions]), countP_scores]

/-- The claims of scores are rules of the list. -/
theorem claim_lt {d : Dataset} {s : Score} (hs : s ∈ l.scores d rows) : s.claim < (l.predictions d).length := by
  rw [scores_eq] at hs
  obtain ⟨r, -, rfl⟩ := List.mem_map.1 hs
  rw [length_predictions]
  exact l.claimant_lt r.cell

/-- The numbers of rows that the rules claim are those of the tally. -/
theorem map_claimed [Add α] [BEq α] (d : Dataset) :
    (l.evaluateIn α d rows).rules.map (·.claimed) = (l.tally d rows).claimed := by
  have hrules : (l.evaluateIn α d rows).rules = (l.predictions d).mapIdx fun i p? => (l.tally d rows).ruleStats i p? := rfl
  have hlength : (l.tally d rows).claimed.length = (l.predictions d).length := Tally.length_claimed _ _ _
  rw [hrules]
  refine List.ext_getElem (by rw [List.length_map, List.length_mapIdx, hlength]) fun i _ hi => ?_
  rw [List.getElem_map, List.getElem_mapIdx]
  show Tally.countAt _ i = _
  rw [Tally.countAt, List.getElem?_eq_getElem hi, Option.getD_some]

/-- All rules together claim each row once. -/
theorem sum_claimed [Add α] [BEq α] (d : Dataset) :
    ((l.evaluateIn α d rows).rules.map (·.claimed)).sum = (d.entries rows).length := by
  rw [map_claimed, tally, Tally.sum_claimed _ _ _ fun s hs => l.claim_lt rows hs, scores_eq, List.length_map]

include hd

/-- The count of a rule and a label is the number of rows with the label that the rule claims. -/
theorem countAt_byLabel {i : Nat} (hi : i < l.size) {k : Nat} {v : Value}
    (hv : d.catalog.labelFeature.values[k]? = some v) : Tally.countAt (((l.tally d rows).byLabel[i]?).getD []) k =
      (l.claimed d rows).countP fun p => p.2 == i && d.hasLabel v p.1 := by
  have hk : k < d.catalog.labelFeature.count := (List.getElem?_eq_some_iff.1 hv).1
  rw [tally, Tally.countAt_byLabel _ _ _ (by rwa [length_predictions]) hk, countP_scores]
  refine List.countP_congr fun p _ => ?_
  simp only [Bool.and_eq_true, beq_iff_eq, truth_eq_some_iff hd hv]

/-- The count at the place of the rule's label, if it has one, is that of the rows that have the label. -/
theorem countAt_own {i : Nat} (hi : i < l.size) (v : Value) :
    ((d.catalog.labelFeature.position? v).map (Tally.countAt (((l.tally d rows).byLabel[i]?).getD []))).getD 0 =
      (l.claimed d rows).countP fun p => p.2 == i && d.hasLabel v p.1 := by
  cases hk : d.catalog.labelFeature.position? v with
  | none =>
    refine (List.countP_eq_zero.2 fun p hp hc => ?_).symm
    obtain ⟨k, hk', -⟩ := (hasLabel_iff hd (l.mem_of_mem_claimed rows hp).1).1 (Bool.and_eq_true_iff.1 hc).2
    rw [hk] at hk'
    cases hk'
  | some k =>
    obtain ⟨w, hw, -⟩ := (Feature.position_eq_some_iff (Dataset.distinct_labels hd)).1 hk
    rw [Option.map_some, Option.getD_some, countAt_byLabel hd l rows hi hw]
    refine List.countP_congr fun p hp => ?_
    have hsame : d.hasLabel w p.1 = true ↔ d.hasLabel v p.1 = true := by
      rw [← truth_eq_some_iff hd hw, hasLabel_iff hd (l.mem_of_mem_claimed rows hp).1, hk]
      simp
    rw [Bool.and_eq_true, Bool.and_eq_true, hsame]

/-- The figures of a rule count the rows that it claims. -/
theorem ruleStats_counts {i : Nat} {r : Rule} (hr : l.rules[i]? = some r) :
    ((l.tally d rows).ruleStats i (d.catalog.labelFeature.position? r.label) : RuleStats α).Counts d (l.claimed d rows) i r := by
  have hi : i < l.size := (List.getElem?_eq_some_iff.1 hr).1
  have hlength : (((l.tally d rows).byLabel[i]?).getD []).length = d.catalog.labelFeature.values.length :=
    Tally.length_byLabel _ _ _ (by rwa [length_predictions])
  refine ⟨countAt_claimed l rows hi, hlength, fun k v hv => ?_, countAt_own hd l rows hi r.label, ?_, rfl⟩
  · have hk := (List.getElem?_eq_some_iff.1 hv).1
    rw [← countAt_byLabel hd l rows hi hv]
    exact Tally.getElem_eq_countAt (hlength ▸ hk)
  · show Option.getD _ 0 ≤ Tally.countAt _ i
    rw [countAt_own hd l rows hi, countAt_claimed l rows hi]
    exact List.countP_mono_left fun p _ hp => (Bool.and_eq_true_iff.1 hp).1

/-- The figures of a label count the rows claimed that have it or are predicted to have it. -/
theorem labelStats_counts {k : Nat} {v : Value} (hv : d.catalog.labelFeature.values[k]? = some v) :
    ((l.tally d rows).labelStats k v : LabelStats α).Counts l d (l.claimed d rows) v := by
  have hk : k < d.catalog.labelFeature.count := (List.getElem?_eq_some_iff.1 hv).1
  refine ⟨rfl, ?_, ?_, ?_⟩
  · show Tally.countAt (l.tally d rows).truePositive k = _
    rw [tally, Tally.countAt_truePositive _ _ _ hk, countP_scores]
    refine List.countP_congr fun p _ => ?_
    simp only [Bool.and_eq_true, beq_iff_eq, predicted_eq_some_iff hd l hv, truth_eq_some_iff hd hv]
  · show Tally.countAt (l.tally d rows).truePositive k + Tally.countAt (l.tally d rows).falsePositive k = _
    rw [tally, Tally.countAt_positive _ _ _ hk, countP_scores]
    refine List.countP_congr fun p _ => ?_
    simp only [beq_iff_eq, predicted_eq_some_iff hd l hv]
  · show Tally.countAt (l.tally d rows).groundTruth k = _
    rw [tally, Tally.countAt_groundTruth _ _ _ hk, countP_scores]
    refine List.countP_congr fun p _ => ?_
    simp only [beq_iff_eq, truth_eq_some_iff hd hv]

/-- The rows predicted rightly are those that have the label of the rule that claims them. -/
theorem correct_counts : (l.tally d rows).correct =
    (l.claimed d rows).countP fun p => (l.rules[p.2]?).any fun r => d.hasLabel r.label p.1 := by
  rw [tally, Tally.correct_ofScores, countP_scores]
  refine List.countP_congr fun p hp => ?_
  obtain ⟨hrow, hlt⟩ := l.mem_of_mem_claimed rows hp
  obtain ⟨r, hr⟩ : ∃ r, l.rules[p.2]? = some r := ⟨_, List.getElem?_eq_getElem hlt⟩
  have hpredicted : Tally.predicted (l.predictions d) ⟨d.truth? p.1, p.2⟩ = d.catalog.labelFeature.position? r.label := by
    rw [Tally.predicted, predictions, List.getElem?_map, hr, Option.map_some, Option.join_some]
  rw [hpredicted, hr, Option.any_some, hasLabel_iff hd hrow, Option.isSome_iff_exists]
  simp only [Tally.hit_eq_some_iff]

end Figures

/-- What an evaluation counts over a dataset, in four parts.
1. Row by row, the rows that the numbers name are claimed by the first rule all of whose conditions they meet.
2. The figures of each rule count the rows that it claims, and all rules together claim each row once.
3. The figures of each label count the rows that have it and the rows claimed by a rule that predicts it.
4. The whole counts the rows, and those that have the label of the rule that claims them. -/
theorem evaluate_counts {header : List String} {table : List Row} {label : String} {d : Dataset}
    (hd : Dataset.ofRows header table label = .ok d) (l : DecisionList) (rows : List Nat) :
    let e := l.evaluate d rows
    List.Forall₂ (fun r i => l.Claims r.cell i) (d.entries rows) e.claims ∧
    (e.rules.length = l.size ∧
      (∀ (i : Nat) (r : Rule), l.rules[i]? = some r →
        ∃ s : RuleStats Float, e.rules[i]? = some s ∧ s.Counts d (l.claimed d rows) i r) ∧
      (e.rules.map (·.claimed)).sum = (d.entries rows).length) ∧
    (e.aggregate.perLabel.length = d.catalog.labelFeature.values.length ∧
      ∀ (k : Nat) (v : Value), d.catalog.labelFeature.values[k]? = some v →
        ∃ s : LabelStats Float, e.aggregate.perLabel[k]? = some s ∧ s.Counts l d (l.claimed d rows) v) ∧
    e.aggregate.rows = (d.entries rows).length ∧
    e.aggregate.correct = (l.claimed d rows).countP fun p => (l.rules[p.2]?).any fun r => d.hasLabel r.label p.1 := by
  intro e
  have hrules : e.rules = (l.predictions d).mapIdx fun i p? => (l.tally d rows).ruleStats i p? := rfl
  have hlabels : e.aggregate.perLabel = d.catalog.labelFeature.values.mapIdx fun k v => (l.tally d rows).labelStats k v := rfl
  refine ⟨l.forall_claims d rows, ⟨?_, fun i r hr => ?_, l.sum_claimed rows d⟩, ⟨?_, fun k v hv => ?_⟩, ?_,
    correct_counts hd l rows⟩
  · rw [hrules, List.length_mapIdx, length_predictions]
  · refine ⟨_, ?_, ruleStats_counts hd l rows hr⟩
    rw [hrules, List.getElem?_mapIdx, predictions, List.getElem?_map, hr]
    rfl
  · rw [hlabels, List.length_mapIdx]
  · refine ⟨_, ?_, labelStats_counts hd l rows hv⟩
    rw [hlabels, List.getElem?_mapIdx, hv]
    rfl
  · show (l.tally d rows).rows = _
    rw [tally, Tally.rows_ofScores, scores_eq, List.length_map]

/-- A rule about the wind, and a default rule. -/
def windy : DecisionList where
  rules := [⟨[⟨0, .eq, .text "strong"⟩], .text "no", {}⟩, ⟨[], .text "yes", {}⟩]
  ends := ⟨by decide, by decide, by decide⟩

/-- The wind on two days, and whether to go out. -/
def windyDays : List Row := [⟨[some (.text "weak"), some (.text "yes")]⟩, ⟨[some (.text "strong"), none]⟩]

/-- Of the days named, one twice and one that there is not, each that there is has a rule that claims it. -/
theorem evaluate_counts_windy : ∃ d, Dataset.ofRows ["wind", "label"] windyDays "label" = .ok d ∧
    List.Forall₂ (fun r i => windy.Claims r.cell i) (d.entries [1, 0, 1, 7]) (windy.evaluate d [1, 0, 1, 7]).claims ∧
    ((windy.evaluate d [1, 0, 1, 7]).rules.map (·.claimed)).sum = (d.entries [1, 0, 1, 7]).length := by
  obtain ⟨d, hd⟩ : ∃ d, Dataset.ofRows ["wind", "label"] windyDays "label" = .ok d := ⟨_, rfl⟩
  obtain ⟨hclaims, ⟨-, -, hsum⟩, -⟩ := evaluate_counts hd windy [1, 0, 1, 7]
  exact ⟨d, hd, hclaims, hsum⟩

end DecisionList

end FirstMatch
