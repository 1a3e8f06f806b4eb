import FirstMatch.Catalog

/-!
# Rules

A rule is a list of conditions, a label to predict, and the counts that its learner reported. It matches a row when the row
meets every condition, so a rule without conditions, a default rule, matches every row.
-/

namespace FirstMatch

/-- A test of the cell in one column against a literal. -/
structure Condition where
  feature : Nat
  op : Operator
  value : Value

/-- Whether a cell meets a condition. A missing cell meets none, and neither does one that cannot be compared. -/
def Condition.meets (c : Condition) (cell : Cell) : Bool := (cell.bind (·.compare c.op c.value)).getD false

/-- The rows a learner counted as predicted rightly and wrongly by a rule. -/
structure ReportedCounts where
  trueCount : UInt64 := 0
  falseCount : UInt64 := 0
  deriving DecidableEq, Repr

/-- The part of the counted rows that was predicted rightly; zero where none was counted. The counts are added as machine words. -/
def ReportedCounts.strength (r : ReportedCounts) : Float :=
  let total := r.trueCount + r.falseCount
  if total = 0 then 0 else Float.ofNat r.trueCount.toNat / Float.ofNat total.toNat

/-- Conditions, the label they predict, and the counts reported. -/
structure Rule where
  conditions : List Condition
  label : Value
  reported : ReportedCounts

namespace Rule

/-- The condition on a column. -/
def conditionOn? (r : Rule) (feature : Nat) : Option Condition := r.conditions.find? (·.feature = feature)

/-- Whether the rule tests a column. -/
def references (r : Rule) (feature : Nat) : Bool := (r.conditionOn? feature).isSome

/-- Whether the rule has no condition. -/
def isDefault (r : Rule) : Bool := r.conditions.isEmpty

/-- Whether every condition holds of the cells of a row. -/
def holds (r : Rule) (cell : Nat → Cell) : Bool := r.conditions.all fun c => c.meets (cell c.feature)

end Rule

end FirstMatch
