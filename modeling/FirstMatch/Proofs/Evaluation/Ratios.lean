import FirstMatch.Proofs.Evaluation

/-!
# The ratios of an evaluation

The formulas for the figures of an evaluation, taken over the rationals, give percentages that fit together
(`DecisionList.evaluateIn_percentages`): each lies between zero and a hundred, the supports add up to the whole, and the confidences
weighed by the supports add up to the accuracy. No division by zero occurs on the way: the same formulas over rationals in which
such a division has no result come to the same figures (`DecisionList.evaluateIn_checked`).
-/

namespace FirstMatch

theorem map_mapIdx {α β γ : Type} (g : β → γ) (f : Nat → α → β) (l : List α) :
    (l.mapIdx f).map g = l.mapIdx fun i a => g (f i a) := by
  refine List.ext_getElem? fun i => ?_
  rw [List.getElem?_map, List.getElem?_mapIdx, List.getElem?_mapIdx, Option.map_map]
  rfl

/-! ## Divisions by zero -/

/-- A rational number, unless it was divided by zero on the way to it. -/
def Checked : Type := Option ℚ

namespace Checked

/-- A number come to without a division by zero. -/
def ofRat (x : ℚ) : Checked := some x

instance : NatCast Checked := ⟨fun n => ofRat n⟩

instance : Add Checked := ⟨fun x y => Option.bind x fun a => Option.bind y fun b => ofRat (a + b)⟩

instance : Mul Checked := ⟨fun x y => Option.bind x fun a => Option.bind y fun b => ofRat (a * b)⟩

instance : Div Checked := ⟨fun x y => Option.bind x fun a => Option.bind y fun b => if b = 0 then none else ofRat (a / b)⟩

instance : BEq Checked := inferInstanceAs (BEq (Option ℚ))

@[simp] theorem natCast_eq (n : Nat) : (n : Checked) = ofRat n := rfl

@[simp] theorem ofRat_add (x y : ℚ) : ofRat x + ofRat y = ofRat (x + y) := rfl

@[simp] theorem ofRat_mul (x y : ℚ) : ofRat x * ofRat y = ofRat (x * y) := rfl

/-- A quotient is checked where its divisor is not zero. -/
theorem ofRat_div (x : ℚ) {y : ℚ} (hy : y ≠ 0) : ofRat x / ofRat y = ofRat (x / y) := if_neg hy

@[simp] theorem ofRat_beq (x y : ℚ) : (ofRat x == ofRat y) = (x == y) := rfl

/-- A percentage takes no division by zero. -/
theorem percent_eq (part whole : Nat) : (percent part whole : Checked) = ofRat (percent part whole) := by
  unfold percent
  split
  · rfl
  · next h =>
    have hwhole : (whole : ℚ) ≠ 0 := Nat.cast_ne_zero.2 h
    rw [natCast_eq, natCast_eq, natCast_eq, ofRat_div _ hwhole, ofRat_mul]

/-- A mean takes no division by zero, not even that of no numbers. -/
theorem mean_eq (xs : List ℚ) : mean (xs.map ofRat) = ofRat (mean xs) := by
  have hsum : ∀ start : ℚ, (xs.map ofRat).foldl (· + ·) (ofRat start) = ofRat (xs.foldl (· + ·) start) := by
    induction xs with
    | nil => exact fun _ => rfl
    | cons x rest ih => exact fun start => ih (start + x)
  unfold mean
  rw [List.length_map]
  split
  · rfl
  · next h =>
    have hlength : (xs.length : ℚ) ≠ 0 := Nat.cast_ne_zero.2 h
    rw [natCast_eq, hsum, natCast_eq, ofRat_div _ hlength]

/-- A harmonic mean takes no division by zero. -/
theorem harmonic_eq (p r : ℚ) : harmonic (ofRat p) (ofRat r) = ofRat (harmonic p r) := by
  unfold harmonic
  rw [ofRat_add, natCast_eq, natCast_eq, ofRat_beq]
  split
  · rfl
  · next h => rw [ofRat_mul, ofRat_mul, ofRat_div _ fun h0 => h (beq_iff_eq.2 h0)]

end Checked

/-- The figures of a rule in another arithmetic. -/
def RuleStats.map {α β : Type} (f : α → β) (s : RuleStats α) : RuleStats β :=
  ⟨s.claimed, s.perLabel, s.trueCount, s.falseCount, f s.support, f s.confidence⟩

/-- The figures of a label in another arithmetic. -/
def LabelStats.map {α β : Type} (f : α → β) (s : LabelStats α) : LabelStats β :=
  ⟨s.label, s.truePositive, s.falsePositive, s.groundTruth, f s.precision, f s.sensitivity⟩

/-- The figures of a list in another arithmetic. -/
def Aggregate.map {α β : Type} (f : α → β) (a : Aggregate α) : Aggregate β :=
  ⟨a.rows, a.correct, f a.accuracy, f a.precision, f a.sensitivity, f a.f1, a.perLabel.map (·.map f)⟩

/-- An evaluation in another arithmetic. -/
def Evaluation.map {α β : Type} (f : α → β) (e : Evaluation α) : Evaluation β :=
  ⟨e.claims, e.rules.map (·.map f), e.aggregate.map f⟩

/-- The figures of a rule take no division by zero. -/
theorem Tally.ruleStats_checked (t : Tally) (rule : Nat) (predicted : Option Nat) :
    (t.ruleStats rule predicted : RuleStats Checked) = (t.ruleStats rule predicted).map Checked.ofRat := by
  simp only [ruleStats, RuleStats.map, Checked.percent_eq]

/-- The figures of a label take no division by zero. -/
theorem Tally.labelStats_checked (t : Tally) (i : Nat) (label : Value) :
    (t.labelStats i label : LabelStats Checked) = (t.labelStats i label).map Checked.ofRat := by
  simp only [labelStats, LabelStats.map, Checked.percent_eq]

/-- The figures of a list take no division by zero. -/
theorem Tally.aggregate_checked (t : Tally) (labels : List Value) :
    (t.aggregate labels : Aggregate Checked) = (t.aggregate labels).map Checked.ofRat := by
  have hlabels : labels.mapIdx (fun i label => (t.labelStats i label : LabelStats Checked)) =
      (labels.mapIdx fun i label => t.labelStats i label).map (·.map Checked.ofRat) := by
    rw [map_mapIdx]
    simp only [labelStats_checked]
  have hprecision (xs : List (LabelStats ℚ)) : (xs.map (·.map Checked.ofRat)).map (·.precision) =
      (xs.map (·.precision)).map Checked.ofRat := by
    rw [List.map_map, List.map_map]
    rfl
  have hsensitivity (xs : List (LabelStats ℚ)) : (xs.map (·.map Checked.ofRat)).map (·.sensitivity) =
      (xs.map (·.sensitivity)).map Checked.ofRat := by
    rw [List.map_map, List.map_map]
    rfl
  simp only [aggregate, hlabels, hprecision, hsensitivity, Checked.mean_eq, Checked.harmonic_eq, Checked.percent_eq, Aggregate.map]

/-- No figure takes a division by zero. -/
theorem DecisionList.evaluateIn_checked (l : DecisionList) (d : Dataset) (rows : List Nat) :
    l.evaluateIn Checked d rows = (l.evaluateIn ℚ d rows).map Checked.ofRat := by
  simp only [evaluateIn, Evaluation.map, Tally.aggregate_checked, Tally.ruleStats_checked, map_mapIdx]

/-! ## Counts -/

namespace Tally

section Hits

variable (predictions : List (Option Nat)) (labels : Nat) (scores : List Score)

/-- The scores that are predicted rightly. -/
def hits : List Score := scores.filter fun s => (hit? (predicted predictions s) s).isSome

/-- The rows that are correct are the scores predicted rightly. -/
theorem correct_eq_length_hits : (ofScores predictions labels scores).correct = (hits predictions scores).length := by
  rw [correct_ofScores, hits, List.countP_eq_length_filter]

/-- The count at the place of the label that a rule predicts is that of its hits. -/
theorem countAt_hits {i : Nat} {p? : Option Nat} (hp : predictions[i]? = some p?) (hlabel : ∀ k, p? = some k → k < labels) :
    (p?.map (countAt (((ofScores predictions labels scores).byLabel[i]?).getD []))).getD 0 =
      countAt (ofScores predictions labels (hits predictions scores)).claimed i := by
  have hi : i < predictions.length := (List.getElem?_eq_some_iff.1 hp).1
  have hpredicted : ∀ s : Score, s.claim = i → predicted predictions s = p? := by
    intro s hs
    rw [predicted, hs, hp, Option.join_some]
  rw [countAt_claimed _ _ _ hi, hits, List.countP_filter]
  cases p? with
  | none =>
    refine (List.countP_eq_zero.2 fun s _ hs => ?_).symm
    obtain ⟨hclaim, hhit⟩ := Bool.and_eq_true_iff.1 hs
    rw [hpredicted s (beq_iff_eq.1 hclaim)] at hhit
    cases hhit
  | some k =>
    rw [Option.map_some, Option.getD_some, countAt_byLabel _ _ _ hi (hlabel k rfl)]
    refine List.countP_congr fun s _ => ?_
    rw [Bool.and_eq_true, Bool.and_eq_true, beq_iff_eq, beq_iff_eq, Option.isSome_iff_exists]
    refine and_congr_right fun hclaim => ?_
    simp only [hit_eq_some_iff, hpredicted s hclaim, Option.some.injEq]
    simp

end Hits

end Tally

namespace DecisionList

section Counts

variable {α : Type} [NatCast α] [Add α] [Mul α] [Div α] [BEq α] (l : DecisionList) (d : Dataset) (rows : List Nat)

/-- The label that a rule is said to predict is one of those seen. -/
theorem lt_of_mem_predictions {i k : Nat} (h : (l.predictions d)[i]? = some (some k)) : k < d.catalog.labelFeature.count := by
  rw [predictions, List.getElem?_map, Option.map_eq_some_iff] at h
  obtain ⟨r, -, hk⟩ := h
  exact (List.findIdx?_eq_some_iff_getElem.1 hk).1

/-- The numbers of rows that the rules claim rightly are those of the hits. -/
theorem map_trueCount : (l.evaluateIn α d rows).rules.map (·.trueCount) =
    (Tally.ofScores (l.predictions d) d.catalog.labelFeature.count (Tally.hits (l.predictions d) (l.scores d rows))).claimed := by
  have hrules : (l.evaluateIn α d rows).rules = (l.predictions d).mapIdx fun i p? => (l.tally d rows).ruleStats i p? := rfl
  rw [hrules, map_mapIdx]
  refine List.ext_getElem (by rw [List.length_mapIdx, Tally.length_claimed]) fun i hi hi' => ?_
  rw [List.length_mapIdx] at hi
  have hp := List.getElem?_eq_getElem hi
  have hcount := Tally.countAt_hits (l.predictions d) d.catalog.labelFeature.count (l.scores d rows) hp
    fun k hk => l.lt_of_mem_predictions d (hk ▸ hp)
  rw [List.getElem_mapIdx]
  refine hcount.trans ?_
  rw [Tally.countAt, List.getElem?_eq_getElem hi', Option.getD_some]

/-- All rules together claim rightly the rows that are correct. -/
theorem sum_trueCount : ((l.evaluateIn α d rows).rules.map (·.trueCount)).sum = (l.evaluateIn α d rows).aggregate.correct := by
  have hcorrect : (l.evaluateIn α d rows).aggregate.correct = (l.tally d rows).correct := rfl
  have hclaims : ∀ s ∈ Tally.hits (l.predictions d) (l.scores d rows), s.claim < (l.predictions d).length := fun s hs =>
    l.claim_lt rows (List.mem_filter.1 hs).1
  rw [map_trueCount, Tally.sum_claimed _ _ _ hclaims, hcorrect, tally, Tally.correct_eq_length_hits]

/-- The figures of a rule are percentages of its counts, which do not exceed what they are taken of. -/
theorem ratios_of_mem_rules {s : RuleStats α} (hs : s ∈ (l.evaluateIn α d rows).rules) :
    s.support = percent s.claimed (l.evaluateIn α d rows).aggregate.rows ∧ s.confidence = percent s.trueCount s.claimed ∧
      s.trueCount ≤ s.claimed ∧ s.claimed ≤ (l.evaluateIn α d rows).aggregate.rows := by
  have hrules : (l.evaluateIn α d rows).rules = (l.predictions d).mapIdx fun i p? => (l.tally d rows).ruleStats i p? := rfl
  have hrows : (l.evaluateIn α d rows).aggregate.rows = (l.scores d rows).length := Tally.rows_ofScores _ _ _
  rw [hrules] at hs
  obtain ⟨i, hi, rfl⟩ := List.mem_mapIdx.1 hs
  have hp := List.getElem?_eq_getElem hi
  have hclaimed := Tally.countAt_claimed (l.predictions d) d.catalog.labelFeature.count (l.scores d rows) hi
  have htrue := Tally.countAt_hits (l.predictions d) d.catalog.labelFeature.count (l.scores d rows) hp
    fun k hk => l.lt_of_mem_predictions d (hk ▸ hp)
  refine ⟨rfl, rfl, (Nat.le_of_eq htrue).trans ?_, hrows ▸ (Nat.le_of_eq hclaimed).trans List.countP_le_length⟩
  refine le_of_le_of_eq ?_ hclaimed.symm
  rw [Tally.countAt_claimed _ _ _ hi]
  exact List.filter_sublist.countP_le

/-- The figures of a label are percentages of its counts, and what is predicted rightly has the label. -/
theorem ratios_of_mem_perLabel {s : LabelStats α} (hs : s ∈ (l.evaluateIn α d rows).aggregate.perLabel) :
    s.precision = percent s.truePositive (s.truePositive + s.falsePositive) ∧
      s.sensitivity = percent s.truePositive s.groundTruth ∧ s.truePositive ≤ s.groundTruth := by
  have hlabels : (l.evaluateIn α d rows).aggregate.perLabel =
      d.catalog.labelFeature.values.mapIdx fun k v => (l.tally d rows).labelStats k v := rfl
  rw [hlabels] at hs
  obtain ⟨k, hk, rfl⟩ := List.mem_mapIdx.1 hs
  have hcount : k < d.catalog.labelFeature.count := hk
  refine ⟨rfl, rfl, ?_⟩
  show Tally.countAt (l.tally d rows).truePositive k ≤ Tally.countAt (l.tally d rows).groundTruth k
  rw [tally, Tally.countAt_truePositive _ _ _ hcount, Tally.countAt_groundTruth _ _ _ hcount]
  exact List.countP_mono_left fun s _ hs => (Bool.and_eq_true_iff.1 hs).2

/-- No more rows are correct than there are. -/
theorem correct_le_rows : (l.evaluateIn α d rows).aggregate.correct ≤ (l.evaluateIn α d rows).aggregate.rows := by
  show (l.tally d rows).correct ≤ (l.tally d rows).rows
  rw [tally, Tally.correct_ofScores, Tally.rows_ofScores]
  exact List.countP_le_length

end Counts

end DecisionList

/-! ## Rational figures -/

section Rational

/-- A percentage among the rationals, where a part of nothing is zero. -/
theorem percent_rat (part whole : Nat) : (percent part whole : ℚ) = part / whole * 100 := by
  unfold percent
  split
  · next h => simp [h]
  · rfl

/-- A part of a whole is at most a hundred percent of it. -/
theorem percent_mem {part whole : Nat} (h : part ≤ whole) : (percent part whole : ℚ) ∈ Set.Icc 0 100 := by
  have hle : (part : ℚ) / whole ≤ 1 := div_le_one_of_le₀ (Nat.cast_le.2 h) (Nat.cast_nonneg whole)
  rw [percent_rat]
  constructor
  · positivity
  · linarith

theorem percent_zero_right (part : Nat) : (percent part 0 : ℚ) = 0 := by simp [percent]

/-- A mean among the rationals, where that of no numbers is zero. -/
theorem mean_rat (xs : List ℚ) : mean xs = xs.sum / xs.length := by
  have hsum : xs.foldl (· + ·) ((0 : Nat) : ℚ) = xs.sum := by rw [Nat.cast_zero, List.sum_eq_foldl]
  unfold mean
  split
  · next h => simp [h]
  · rw [hsum]

/-- A mean lies where all the numbers lie. -/
theorem mean_mem {xs : List ℚ} (h : ∀ x ∈ xs, x ∈ Set.Icc (0 : ℚ) 100) : mean xs ∈ Set.Icc (0 : ℚ) 100 := by
  have hle : xs.sum ≤ xs.length * 100 := by
    rw [← nsmul_eq_mul]
    exact List.sum_le_card_nsmul xs 100 fun x hx => (h x hx).2
  rw [mean_rat]
  constructor
  · exact div_nonneg (List.sum_nonneg fun x hx => (h x hx).1) (Nat.cast_nonneg _)
  · exact div_le_of_le_mul₀ (Nat.cast_nonneg _) (by norm_num) (by linarith)

/-- A harmonic mean among the rationals, where that of two zeros is zero. -/
theorem harmonic_rat (p r : ℚ) : harmonic p r = 2 * p * r / (p + r) := by
  unfold harmonic
  split
  · next h => simp [beq_iff_eq.1 h]
  · rfl

/-- The harmonic mean of two numbers lies between them. -/
theorem harmonic_between {p r : ℚ} (hp : 0 ≤ p) (hr : 0 ≤ r) : min p r ≤ harmonic p r ∧ harmonic p r ≤ max p r := by
  rw [harmonic_rat]
  rcases (add_nonneg hp hr).eq_or_lt with hzero | hpos
  · obtain ⟨rfl, rfl⟩ : p = 0 ∧ r = 0 := ⟨by linarith, by linarith⟩
    simp
  · rw [le_div_iff₀ hpos, div_le_iff₀ hpos]
    rcases le_total p r with hpr | hpr
    · rw [min_eq_left hpr, max_eq_right hpr]
      constructor <;> nlinarith
    · rw [min_eq_right hpr, max_eq_left hpr]
      constructor <;> nlinarith

end Rational

/-! ## The figures together -/

/-- Every figure of an evaluation is a percentage. -/
structure Evaluation.Percentages (e : Evaluation ℚ) : Prop where
  rules : ∀ s ∈ e.rules, s.support ∈ Set.Icc 0 100 ∧ s.confidence ∈ Set.Icc 0 100
  labels : ∀ s ∈ e.aggregate.perLabel, s.precision ∈ Set.Icc 0 100 ∧ s.sensitivity ∈ Set.Icc 0 100
  accuracy : e.aggregate.accuracy ∈ Set.Icc 0 100
  precision : e.aggregate.precision ∈ Set.Icc 0 100
  sensitivity : e.aggregate.sensitivity ∈ Set.Icc 0 100
  f1 : e.aggregate.f1 ∈ Set.Icc 0 100

/-- A part of nothing is zero: of no rows, of no rows claimed, of no rows predicted to have a label, of no rows with it, of no
labels, and of no precision and sensitivity. -/
structure Evaluation.ZeroOfNothing (e : Evaluation ℚ) : Prop where
  support : e.aggregate.rows = 0 → ∀ s ∈ e.rules, s.support = 0
  confidence : ∀ s ∈ e.rules, s.claimed = 0 → s.confidence = 0
  accuracy : e.aggregate.rows = 0 → e.aggregate.accuracy = 0
  labelPrecision : ∀ s ∈ e.aggregate.perLabel, s.truePositive + s.falsePositive = 0 → s.precision = 0
  labelSensitivity : ∀ s ∈ e.aggregate.perLabel, s.groundTruth = 0 → s.sensitivity = 0
  means : e.aggregate.perLabel = [] → e.aggregate.precision = 0 ∧ e.aggregate.sensitivity = 0
  f1 : e.aggregate.precision + e.aggregate.sensitivity = 0 → e.aggregate.f1 = 0

namespace DecisionList

section Figures

variable (l : DecisionList) (d : Dataset) (rows : List Nat)

/-- An evaluation is of the rows named. -/
theorem rows_evaluateIn {α : Type} [NatCast α] [Add α] [Mul α] [Div α] [BEq α] :
    (l.evaluateIn α d rows).aggregate.rows = (d.entries rows).length := by
  show (l.tally d rows).rows = _
  rw [tally, Tally.rows_ofScores, scores_eq, List.length_map]

/-- Where there are rows, the rules share a hundred percent of them. -/
theorem supports_of_entries (h : d.entries rows ≠ []) : ((l.evaluateIn ℚ d rows).rules.map (·.support)).sum = 100 := by
  have hrows : ((l.evaluateIn ℚ d rows).aggregate.rows : ℚ) ≠ 0 := by
    rw [rows_evaluateIn, Nat.cast_ne_zero]
    exact mt List.length_eq_zero_iff.1 h
  have hsupport : (l.evaluateIn ℚ d rows).rules.map (·.support) = (l.evaluateIn ℚ d rows).rules.map fun s =>
      (s.claimed : ℚ) * (100 / (l.evaluateIn ℚ d rows).aggregate.rows) := by
    refine List.map_congr_left fun s hs => ?_
    rw [(l.ratios_of_mem_rules d rows hs).1, percent_rat]
    ring
  have hclaimed : ((l.evaluateIn ℚ d rows).rules.map fun s => (s.claimed : ℚ)).sum = (d.entries rows).length := by
    rw [← l.sum_claimed (α := ℚ) rows d, Nat.cast_list_sum, List.map_map]
    rfl
  rw [hsupport, List.sum_map_mul_right, hclaimed, ← rows_evaluateIn l d rows (α := ℚ)]
  field_simp

/-- What the rules predict rightly, weighed by the rows that they claim, is what is predicted rightly of all. -/
theorem sum_weighed : ((l.evaluateIn ℚ d rows).rules.map fun s => s.support * s.confidence / 100).sum =
    (l.evaluateIn ℚ d rows).aggregate.accuracy := by
  have hweighed : ((l.evaluateIn ℚ d rows).rules.map fun s => s.support * s.confidence / 100) =
      (l.evaluateIn ℚ d rows).rules.map fun s =>
        (s.trueCount : ℚ) * (100 / (l.evaluateIn ℚ d rows).aggregate.rows) := by
    refine List.map_congr_left fun s hs => ?_
    obtain ⟨hsupport, hconfidence, hle, -⟩ := l.ratios_of_mem_rules d rows hs
    rw [hsupport, hconfidence, percent_rat, percent_rat]
    rcases s.claimed.eq_zero_or_pos with h0 | h0
    · have htrue : s.trueCount = 0 := by omega
      simp [h0, htrue]
    · have hne : (s.claimed : ℚ) ≠ 0 := Nat.cast_ne_zero.2 h0.ne'
      field_simp
  have htrue : ((l.evaluateIn ℚ d rows).rules.map fun s => (s.trueCount : ℚ)).sum =
      (l.evaluateIn ℚ d rows).aggregate.correct := by
    rw [← l.sum_trueCount (α := ℚ) d rows, Nat.cast_list_sum, List.map_map]
    rfl
  have haccuracy : (l.evaluateIn ℚ d rows).aggregate.accuracy =
      percent (l.evaluateIn ℚ d rows).aggregate.correct (l.evaluateIn ℚ d rows).aggregate.rows := rfl
  rw [hweighed, List.sum_map_mul_right, htrue, haccuracy, percent_rat]
  ring

/-- The figures of a label lie between zero and a hundred. -/
theorem perLabel_mem {s : LabelStats ℚ} (hs : s ∈ (l.evaluateIn ℚ d rows).aggregate.perLabel) :
    s.precision ∈ Set.Icc (0 : ℚ) 100 ∧ s.sensitivity ∈ Set.Icc (0 : ℚ) 100 := by
  obtain ⟨hprecision, hsensitivity, hle⟩ := l.ratios_of_mem_perLabel d rows hs
  rw [hprecision, hsensitivity]
  exact ⟨percent_mem (Nat.le_add_right _ _), percent_mem hle⟩

/-- The macro figures are means over the labels. -/
theorem means_mem : (l.evaluateIn ℚ d rows).aggregate.precision ∈ Set.Icc (0 : ℚ) 100 ∧
    (l.evaluateIn ℚ d rows).aggregate.sensitivity ∈ Set.Icc (0 : ℚ) 100 := by
  constructor
  · refine mean_mem fun x hx => ?_
    obtain ⟨s, hs, rfl⟩ := List.mem_map.1 hx
    exact (l.perLabel_mem d rows hs).1
  · refine mean_mem fun x hx => ?_
    obtain ⟨s, hs, rfl⟩ := List.mem_map.1 hx
    exact (l.perLabel_mem d rows hs).2

/-- The F1 score lies between precision and sensitivity. -/
theorem f1_between : min (l.evaluateIn ℚ d rows).aggregate.precision (l.evaluateIn ℚ d rows).aggregate.sensitivity ≤
      (l.evaluateIn ℚ d rows).aggregate.f1 ∧
    (l.evaluateIn ℚ d rows).aggregate.f1 ≤
      max (l.evaluateIn ℚ d rows).aggregate.precision (l.evaluateIn ℚ d rows).aggregate.sensitivity :=
  harmonic_between (l.means_mem d rows).1.1 (l.means_mem d rows).2.1

/-- All figures lie between zero and a hundred. -/
theorem percentages : (l.evaluateIn ℚ d rows).Percentages where
  rules := by
    intro s hs
    obtain ⟨hsupport, hconfidence, hle, hle'⟩ := l.ratios_of_mem_rules d rows hs
    rw [hsupport, hconfidence]
    exact ⟨percent_mem hle', percent_mem hle⟩
  labels s hs := l.perLabel_mem d rows hs
  accuracy := percent_mem (l.correct_le_rows (α := ℚ) d rows)
  precision := (l.means_mem d rows).1
  sensitivity := (l.means_mem d rows).2
  f1 := by
    obtain ⟨hprecision, hsensitivity⟩ := l.means_mem d rows
    obtain ⟨hlow, hhigh⟩ := l.f1_between d rows
    exact ⟨(le_min hprecision.1 hsensitivity.1).trans hlow, hhigh.trans (max_le hprecision.2 hsensitivity.2)⟩

/-- Figures that are parts of nothing are zero. -/
theorem zeroOfNothing : (l.evaluateIn ℚ d rows).ZeroOfNothing where
  support h0 s hs := by rw [(l.ratios_of_mem_rules d rows hs).1, h0, percent_zero_right]
  confidence s hs h0 := by rw [(l.ratios_of_mem_rules d rows hs).2.1, h0, percent_zero_right]
  accuracy h0 := by
    show percent _ (l.evaluateIn ℚ d rows).aggregate.rows = 0
    rw [h0, percent_zero_right]
  labelPrecision s hs h0 := by rw [(l.ratios_of_mem_perLabel d rows hs).1, h0, percent_zero_right]
  labelSensitivity s hs h0 := by rw [(l.ratios_of_mem_perLabel d rows hs).2.1, h0, percent_zero_right]
  means h0 := by
    show mean ((l.evaluateIn ℚ d rows).aggregate.perLabel.map (·.precision)) = 0 ∧
      mean ((l.evaluateIn ℚ d rows).aggregate.perLabel.map (·.sensitivity)) = 0
    rw [h0]
    exact ⟨rfl, rfl⟩
  f1 h0 := by
    show harmonic (l.evaluateIn ℚ d rows).aggregate.precision (l.evaluateIn ℚ d rows).aggregate.sensitivity = 0
    rw [harmonic_rat, h0, div_zero]

end Figures

/-- What the figures of an evaluation over the rationals say together, in five parts.
1. Every figure is a percentage.
2. No division by zero occurs, and a part of nothing is zero, also where the label has no values.
3. The supports add up to a hundred over one or more rows, and are all zero over none.
4. The confidences weighed by the supports add up to the accuracy.
5. The harmonic mean of precision and sensitivity lies between them, and is zero with either. -/
theorem evaluateIn_percentages (l : DecisionList) (d : Dataset) (rows : List Nat) :
    let e := l.evaluateIn ℚ d rows
    let a := e.aggregate
    e.Percentages ∧
    (l.evaluateIn Checked d rows = e.map Checked.ofRat ∧ e.ZeroOfNothing ∧
      a.perLabel.map (·.label) = d.catalog.labelFeature.values) ∧
    ((d.entries rows ≠ [] → (e.rules.map (·.support)).sum = 100) ∧ (d.entries rows = [] → ∀ s ∈ e.rules, s.support = 0)) ∧
    (e.rules.map fun s => s.support * s.confidence / 100).sum = a.accuracy ∧
    (min a.precision a.sensitivity ≤ a.f1 ∧ a.f1 ≤ max a.precision a.sensitivity ∧
      (a.precision = 0 ∨ a.sensitivity = 0 → a.f1 = 0)) := by
  intro e a
  have hzero := l.zeroOfNothing d rows
  obtain ⟨hlow, hhigh⟩ := l.f1_between d rows
  refine ⟨l.percentages d rows, ⟨l.evaluateIn_checked d rows, hzero, ?_⟩, ⟨l.supports_of_entries d rows, fun h0 => ?_⟩,
    l.sum_weighed d rows, hlow, hhigh, fun h0 => ?_⟩
  · show (d.catalog.labelFeature.values.mapIdx _).map _ = _
    rw [map_mapIdx]
    show d.catalog.labelFeature.values.mapIdx (fun _ label => label) = _
    exact List.ext_getElem? fun i => by simp
  · have hrows : a.rows = (d.entries rows).length := l.rows_evaluateIn d rows
    exact hzero.support (by rw [hrows, h0, List.length_nil])
  · show harmonic a.precision a.sensitivity = 0
    rw [harmonic_rat]
    rcases h0 with h0 | h0 <;> simp [h0]

end DecisionList

end FirstMatch
