import FirstMatch.Evaluation.Figures
import FirstMatch.Proofs.Counting

/-!
# What a tally counts

Each counter of a tally is kept by itself as the scores come, so each is a number of scores: of those with a claim, with a truth,
or with both.
-/

namespace FirstMatch.Tally

/-! ## Counting up at places -/

/-- Bumping counts one after another counts the places that there are. -/
theorem foldl_bump {σ : Type} (place? : σ → Option Nat) (xs : List σ) (counts : List Nat) :
    xs.foldl (fun counts x => bump? counts (place? x)) counts = countUp counts (xs.filterMap place?) := by
  rw [countUp, List.foldl_filterMap]
  congr 1
  funext counts x
  cases place? x <;> rfl

/-- The count at a place that starts from zero is the number of the things that go there. -/
theorem countAt_foldl_bump {σ : Type} (place? : σ → Option Nat) (xs : List σ) {n k : Nat} (hk : k < n) :
    countAt (xs.foldl (fun counts x => bump? counts (place? x)) (List.replicate n 0)) k =
      xs.countP fun x => place? x == some k := by
  rw [countAt, foldl_bump, getElem_countUp, List.getElem?_replicate_of_lt hk, Option.map_some, Option.getD_some, Nat.zero_add,
    List.count, List.countP_filterMap]
  refine List.countP_congr fun x _ => ?_
  cases place? x <;> simp

theorem getElem_eq_countAt {counts : List Nat} {k : Nat} (hk : k < counts.length) : counts[k]? = some (countAt counts k) := by
  rw [countAt, List.getElem?_eq_getElem hk, Option.getD_some]

/-- In a table, each line counts the scores of its claim. -/
theorem getElem_foldl_table (scores : List Score) (table : List (List Nat)) (i : Nat) :
    (scores.foldl (fun table s => table.modify s.claim (bump? · s.truth?)) table)[i]? =
      (table[i]?).map ((scores.filter (·.claim == i)).foldl (fun counts s => bump? counts s.truth?)) := by
  induction scores generalizing table with
  | nil => simp
  | cons s rest ih =>
    rw [List.foldl_cons, ih, List.getElem?_modify, Option.map_eq_map, Option.map_map]
    congr 1
    funext counts
    by_cases h : s.claim = i
    · simp [h]
    · simp [h]

/-! ## The counters -/

/-- The place of the label predicted for a score. -/
def predicted (predictions : List (Option Nat)) (s : Score) : Option Nat := (predictions[s.claim]?).join

/-- A score hits a label if the rule predicts it and the row has it. -/
theorem hit_eq_some_iff {p? : Option Nat} {s : Score} {k : Nat} :
    hit? p? s = some k ↔ p? = some k ∧ s.truth? = some k := by
  simp only [hit?, Option.filter_eq_some_iff, beq_iff_eq]

/-- A score misses a label if the rule predicts it and the row does not have it. -/
theorem miss_eq_some_iff {p? : Option Nat} {s : Score} {k : Nat} :
    miss? p? s = some k ↔ p? = some k ∧ s.truth? ≠ some k := by
  simp only [miss?, Option.filter_eq_some_iff, bne_iff_ne]

section Counters

variable (predictions : List (Option Nat)) (labels : Nat) (scores : List Score)

/-- Every score counts as a row. -/
theorem rows_ofScores : (ofScores predictions labels scores).rows = scores.length := by
  have hfold : ∀ t : Tally, (scores.foldl (add predictions) t).rows = t.rows + scores.length := by
    induction scores with
    | nil => exact fun t => rfl
    | cons s rest ih =>
      intro t
      have hone : (add predictions t s).rows = t.rows + 1 := rfl
      rw [List.foldl_cons, ih, List.length_cons]
      omega
  exact (hfold (empty predictions.length labels)).trans (Nat.zero_add _)

/-- The correct rows are the scores that hit some label. -/
theorem correct_ofScores : (ofScores predictions labels scores).correct =
    scores.countP fun s => (hit? (predicted predictions s) s).isSome := by
  have hfold : ∀ t : Tally, (scores.foldl (add predictions) t).correct =
      t.correct + scores.countP fun s => (hit? (predicted predictions s) s).isSome := by
    induction scores with
    | nil => exact fun t => rfl
    | cons s rest ih =>
      intro t
      rw [List.foldl_cons, ih, List.countP_cons]
      have hone : (add predictions t s).correct = t.correct + if (hit? (predicted predictions s) s).isSome then 1 else 0 := by
        rw [add, predicted]
        cases hit? (predictions[s.claim]?).join s <;> rfl
      omega
  exact (hfold (empty predictions.length labels)).trans (Nat.zero_add _)

theorem claimed_ofScores : (ofScores predictions labels scores).claimed =
    scores.foldl (fun counts s => bump? counts (some s.claim)) (List.replicate predictions.length 0) :=
  (List.foldl_hom Tally.claimed fun _ _ => rfl).symm

theorem length_claimed : (ofScores predictions labels scores).claimed.length = predictions.length := by
  rw [claimed_ofScores, foldl_bump, length_countUp, List.length_replicate]

/-- The count of a rule is the number of scores that it claims. -/
theorem countAt_claimed {i : Nat} (hi : i < predictions.length) :
    countAt (ofScores predictions labels scores).claimed i = scores.countP (·.claim == i) := by
  rw [claimed_ofScores, countAt_foldl_bump _ _ hi]
  simp only [Option.some_beq_some]

/-- Every score is claimed once. -/
theorem sum_claimed (hclaims : ∀ s ∈ scores, s.claim < predictions.length) :
    (ofScores predictions labels scores).claimed.sum = scores.length := by
  have hplaces : ∀ i ∈ scores.filterMap fun s => some s.claim, i < (List.replicate predictions.length 0).length := by
    intro i hi
    obtain ⟨s, hs, hsi⟩ := List.mem_filterMap.1 hi
    rw [List.length_replicate, ← Option.some.inj hsi]
    exact hclaims s hs
  rw [claimed_ofScores, foldl_bump, sum_countUp hplaces]
  simp

/-- The counts of a rule by label go up with the labels of the scores that it claims. -/
theorem byLabel_ofScores {i : Nat} (hi : i < predictions.length) : (ofScores predictions labels scores).byLabel[i]? =
    some ((scores.filter (·.claim == i)).foldl (fun counts s => bump? counts s.truth?) (List.replicate labels 0)) := by
  have htable : (ofScores predictions labels scores).byLabel =
      scores.foldl (fun table s => table.modify s.claim (bump? · s.truth?))
        (List.replicate predictions.length (List.replicate labels 0)) := (List.foldl_hom Tally.byLabel fun _ _ => rfl).symm
  rw [htable, getElem_foldl_table, List.getElem?_replicate_of_lt hi, Option.map_some]

theorem length_byLabel {i : Nat} (hi : i < predictions.length) :
    (((ofScores predictions labels scores).byLabel[i]?).getD []).length = labels := by
  rw [byLabel_ofScores _ _ _ hi, Option.getD_some, foldl_bump, length_countUp, List.length_replicate]

/-- The count of a rule and a label is the number of scores with the label that the rule claims. -/
theorem countAt_byLabel {i k : Nat} (hi : i < predictions.length) (hk : k < labels) :
    countAt (((ofScores predictions labels scores).byLabel[i]?).getD []) k =
      scores.countP fun s => s.claim == i && s.truth? == some k := by
  rw [byLabel_ofScores _ _ _ hi, Option.getD_some, countAt_foldl_bump _ _ hk, List.countP_filter]
  exact List.countP_congr fun s _ => by simp [and_comm]

/-- The ground truth of a label is the number of scores that have it. -/
theorem countAt_groundTruth {k : Nat} (hk : k < labels) :
    countAt (ofScores predictions labels scores).groundTruth k = scores.countP (·.truth? == some k) := by
  have hfold : (ofScores predictions labels scores).groundTruth =
      scores.foldl (fun counts s => bump? counts s.truth?) (List.replicate labels 0) :=
    (List.foldl_hom Tally.groundTruth fun _ _ => rfl).symm
  rw [hfold, countAt_foldl_bump _ _ hk]

/-- The true positives of a label are the scores that are predicted to have it and do. -/
theorem countAt_truePositive {k : Nat} (hk : k < labels) : countAt (ofScores predictions labels scores).truePositive k =
    scores.countP fun s => predicted predictions s == some k && s.truth? == some k := by
  have hfold : (ofScores predictions labels scores).truePositive =
      scores.foldl (fun counts s => bump? counts (hit? (predicted predictions s) s)) (List.replicate labels 0) :=
    (List.foldl_hom Tally.truePositive fun _ _ => rfl).symm
  rw [hfold, countAt_foldl_bump _ _ hk]
  exact List.countP_congr fun s _ => by simp [hit_eq_some_iff]

/-- The false positives of a label are the scores that are predicted to have it and do not. -/
theorem countAt_falsePositive {k : Nat} (hk : k < labels) : countAt (ofScores predictions labels scores).falsePositive k =
    scores.countP fun s => predicted predictions s == some k && s.truth? != some k := by
  have hfold : (ofScores predictions labels scores).falsePositive =
      scores.foldl (fun counts s => bump? counts (miss? (predicted predictions s) s)) (List.replicate labels 0) :=
    (List.foldl_hom Tally.falsePositive fun _ _ => rfl).symm
  rw [hfold, countAt_foldl_bump _ _ hk]
  exact List.countP_congr fun s _ => by simp [miss_eq_some_iff]

/-- Every score for which a label is predicted is a hit or a miss. -/
theorem countAt_positive {k : Nat} (hk : k < labels) : countAt (ofScores predictions labels scores).truePositive k +
    countAt (ofScores predictions labels scores).falsePositive k =
      scores.countP fun s => predicted predictions s == some k := by
  rw [countAt_truePositive _ _ _ hk, countAt_falsePositive _ _ _ hk]
  induction scores with
  | nil => rfl
  | cons s rest ih =>
    rw [List.countP_cons, List.countP_cons, List.countP_cons, ← ih]
    cases hp : predicted predictions s == some k <;> cases ht : s.truth? == some k <;> simp [bne, ht] <;> omega

end Counters

end FirstMatch.Tally
