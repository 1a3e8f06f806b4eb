import FirstMatch.Decimal.Places
import FirstMatch.Evaluation.Tally

/-!
# Figures from counts

Support, confidence, precision and recall are percentages of counts, zero where there is nothing to take them of; the macro
figures are means over the labels. Recall goes by the name of sensitivity. The formulas are stated for any arithmetic that holds
the counts: binary64 gives the answers, and the rationals give the same formulas without rounding.
-/

namespace FirstMatch

/-- Counts as binary64 numbers. -/
instance natCastFloat : NatCast Float := ⟨Float.ofNat⟩

section Formulas

variable {α : Type} [NatCast α] [Add α] [Mul α] [Div α] [BEq α]

/-- A part of a whole in percent; nothing of nothing is zero. -/
def percent (part whole : Nat) : α :=
  if whole = 0 then ((0 : Nat) : α) else (part : α) / (whole : α) * ((100 : Nat) : α)

/-- The mean of some numbers, added from the left; of none it is zero. -/
def mean (xs : List α) : α :=
  if xs.length = 0 then ((0 : Nat) : α) else xs.foldl (· + ·) ((0 : Nat) : α) / (xs.length : α)

/-- The harmonic mean of precision and sensitivity; zero where both are. -/
def harmonic (precision sensitivity : α) : α :=
  if precision + sensitivity == ((0 : Nat) : α) then ((0 : Nat) : α)
  else ((2 : Nat) : α) * precision * sensitivity / (precision + sensitivity)

end Formulas

/-- The figures of a rule over some rows. -/
structure RuleStats (α : Type) where
  claimed : Nat
  /-- Rows claimed, by label. -/
  perLabel : List Nat
  trueCount : Nat
  falseCount : Nat
  support : α
  confidence : α

/-- The figures of a label over some rows. -/
structure LabelStats (α : Type) where
  label : Value
  truePositive : Nat
  falsePositive : Nat
  groundTruth : Nat
  precision : α
  sensitivity : α

/-- The figures of a list over some rows. -/
structure Aggregate (α : Type) where
  rows : Nat
  correct : Nat
  accuracy : α
  precision : α
  sensitivity : α
  f1 : α
  perLabel : List (LabelStats α)

/-- The figures of a list in one line, percentages to two places. -/
def Aggregate.summary (a : Aggregate Float) : String :=
  "rows: " ++ a.rows.repr ++ ", accuracy: " ++ Decimal.fixed 2 a.accuracy ++ "%, precision: " ++
    Decimal.fixed 2 a.precision ++ "%, recall: " ++ Decimal.fixed 2 a.sensitivity ++ "%, f1: " ++ Decimal.fixed 2 a.f1 ++ "%"

namespace Tally

variable {α : Type} [NatCast α] [Add α] [Mul α] [Div α] [BEq α]

/-- The count at a place; beyond the last place it is zero. -/
def countAt (counts : List Nat) (i : Nat) : Nat := (counts[i]?).getD 0

/-- The figures of a rule that predicts a label. -/
def ruleStats (t : Tally) (rule : Nat) (predicted : Option Nat) : RuleStats α :=
  let claimed := countAt t.claimed rule
  let perLabel := (t.byLabel[rule]?).getD []
  let trueCount := (predicted.map (countAt perLabel)).getD 0
  { claimed
    perLabel
    trueCount
    falseCount := claimed - trueCount
    support := percent claimed t.rows
    confidence := percent trueCount claimed }

/-- The figures of a label. -/
def labelStats (t : Tally) (i : Nat) (label : Value) : LabelStats α where
  label
  truePositive := countAt t.truePositive i
  falsePositive := countAt t.falsePositive i
  groundTruth := countAt t.groundTruth i
  precision := percent (countAt t.truePositive i) (countAt t.truePositive i + countAt t.falsePositive i)
  sensitivity := percent (countAt t.truePositive i) (countAt t.groundTruth i)

/-- The figures of a list, whose labels are given. -/
def aggregate (t : Tally) (labels : List Value) : Aggregate α :=
  let perLabel : List (LabelStats α) := labels.mapIdx fun i label => t.labelStats i label
  let precision := mean (perLabel.map (·.precision))
  let sensitivity := mean (perLabel.map (·.sensitivity))
  { rows := t.rows
    correct := t.correct
    accuracy := percent t.correct t.rows
    precision
    sensitivity
    f1 := harmonic precision sensitivity
    perLabel }

end Tally

end FirstMatch
