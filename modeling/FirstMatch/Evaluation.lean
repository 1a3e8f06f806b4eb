import FirstMatch.Evaluation.Figures

/-!
# Evaluation

A list is evaluated over numbered rows of a dataset, which need not be the dataset it was written for. The result holds the
claiming rule of each row and every figure; it depends on nothing evaluated before.
-/

namespace FirstMatch

/-- What an evaluation finds, with figures in a given arithmetic. -/
structure Evaluation (α : Type) where
  /-- The claiming rule of each row. -/
  claims : List Nat
  /-- The figures of each rule. -/
  rules : List (RuleStats α)
  aggregate : Aggregate α

/-- The counts of a list over numbered rows. -/
def DecisionList.tally (l : DecisionList) (d : Dataset) (rows : List Nat) : Tally :=
  Tally.ofScores (l.predictions d) d.catalog.labelFeature.count (l.scores d rows)

/-- The evaluation of a list over numbered rows, with figures in any arithmetic that holds the counts. -/
def DecisionList.evaluateIn (α : Type) [NatCast α] [Add α] [Mul α] [Div α] [BEq α] (l : DecisionList) (d : Dataset)
    (rows : List Nat) : Evaluation α :=
  let t := l.tally d rows
  { claims := (l.scores d rows).map (·.claim)
    rules := (l.predictions d).mapIdx fun i predicted => t.ruleStats i predicted
    aggregate := t.aggregate d.catalog.labelFeature.values }

/-- The evaluation of a list over numbered rows. -/
def DecisionList.evaluate (l : DecisionList) (d : Dataset) (rows : List Nat) : Evaluation Float :=
  l.evaluateIn Float d rows

/-- The figures of a rule before any evaluation. -/
def RuleStats.none : RuleStats Float := ⟨0, [], 0, 0, 0, 0⟩

/-- The figures of a list's rules before any evaluation. -/
def DecisionList.unevaluated (l : DecisionList) : List (RuleStats Float) := l.rules.map fun _ => RuleStats.none

end FirstMatch
