import FirstMatch.Dataset
import FirstMatch.DecisionList

/-!
# Counting what first match claims

Rows are scored one by one: a row's claim is the number of the first rule that matches it, its truth the place of its label cell
among the label's values. One pass over the scores counts them by rule and by label.
-/

namespace FirstMatch

/-- What is counted of a row. -/
structure Score where
  /-- The place of the row's label among the label's values. -/
  truth? : Option Nat
  /-- The rule that claims the row. -/
  claim : Nat
  deriving DecidableEq, Repr

/-- The place of a row's label cell among the label's values. -/
def Dataset.truth? (d : Dataset) (r : Row) : Option Nat := (r.cell d.catalog.label).bind d.catalog.labelFeature.position?

/-- The score of a row. -/
def DecisionList.score? (l : DecisionList) (d : Dataset) (r : Row) : Option Score :=
  (l.firstMatch? r.cell).map fun claim => ⟨d.truth? r, claim⟩

/-- The scores of numbered rows. Numbers may repeat, and those that the dataset has no row for are passed over. -/
def DecisionList.scores (l : DecisionList) (d : Dataset) (rows : List Nat) : List Score :=
  (rows.filterMap d.row?).filterMap (l.score? d)

/-- The place of each rule's label among the label's values of a dataset. -/
def DecisionList.predictions (l : DecisionList) (d : Dataset) : List (Option Nat) :=
  l.rules.map fun r => d.catalog.labelFeature.position? r.label

/-- Counts of scores, by rule and by label. -/
structure Tally where
  rows : Nat
  correct : Nat
  /-- Rows claimed, by rule. -/
  claimed : List Nat
  /-- Rows claimed, by rule and by the row's label. -/
  byLabel : List (List Nat)
  /-- Rows with a label that are predicted to have it, by label. -/
  truePositive : List Nat
  /-- Rows predicted to have a label that they do not have, by label. -/
  falsePositive : List Nat
  /-- Rows with a label, by label. -/
  groundTruth : List Nat
  deriving DecidableEq, Repr

namespace Tally

/-- Nothing counted yet, for some rules and labels. -/
def empty (rules labels : Nat) : Tally where
  rows := 0
  correct := 0
  claimed := List.replicate rules 0
  byLabel := List.replicate rules (List.replicate labels 0)
  truePositive := List.replicate labels 0
  falsePositive := List.replicate labels 0
  groundTruth := List.replicate labels 0

/-- One more at a place. -/
def bump (counts : List Nat) (i : Nat) : List Nat := counts.modify i (· + 1)

/-- One more at a place, if there is one. -/
def bump? (counts : List Nat) : Option Nat → List Nat
  | none => counts
  | some i => bump counts i

/-- The prediction of a score, if it is right. -/
def hit? (predicted : Option Nat) (s : Score) : Option Nat := predicted.filter fun p => s.truth? == some p

/-- The prediction of a score, if it is wrong. -/
def miss? (predicted : Option Nat) (s : Score) : Option Nat := predicted.filter fun p => s.truth? != some p

/-- One more score is counted; `predictions` are the labels of the rules. -/
def add (predictions : List (Option Nat)) (t : Tally) (s : Score) : Tally :=
  let predicted := (predictions[s.claim]?).join
  { rows := t.rows + 1
    correct := t.correct + (hit? predicted s).toList.length
    claimed := bump t.claimed s.claim
    byLabel := t.byLabel.modify s.claim (bump? · s.truth?)
    truePositive := bump? t.truePositive (hit? predicted s)
    falsePositive := bump? t.falsePositive (miss? predicted s)
    groundTruth := bump? t.groundTruth s.truth? }

/-- The counts of a sequence of scores. -/
def ofScores (predictions : List (Option Nat)) (labels : Nat) (scores : List Score) : Tally :=
  scores.foldl (add predictions) (empty predictions.length labels)

end Tally

end FirstMatch
