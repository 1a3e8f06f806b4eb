import FirstMatch.Evaluation
import FirstMatch.Filter.Criteria

/-!
# Rule filter

A rule is visible when its support and confidence reach thresholds in percent, when its conditions are compatible with the
dataset criteria, and when it tests every feature of interest. Figures are taken from the latest evaluation.
-/

namespace FirstMatch

/-- Which rules are visible. -/
structure RuleFilter where
  minSupport : Float := 0
  minConfidence : Float := 0
  /-- The features that a visible rule must all test. -/
  interest : List String := []

namespace RuleFilter

/-- Whether the figures of a rule reach the thresholds. -/
def reaches (f : RuleFilter) (s : RuleStats Float) : Bool := f.minSupport ≤ s.support && f.minConfidence ≤ s.confidence

/-- Whether the conditions of a rule are compatible with predicates by column. -/
def agrees (tests : List (Nat × List Predicate)) (r : Rule) : Bool :=
  tests.all fun (i, ps) => (r.conditionOn? i).all fun c => ps.all (·.compatible c)

/-- Whether a rule tests every column of some. -/
def testsAll (interest : List Nat) (r : Rule) : Bool := interest.all r.references

/-- The columns of the features of interest. -/
def interestIn (f : RuleFilter) (c : Catalog) : Except SchemaError (List Nat) := f.interest.mapM c.resolve

/-- The numbers of the visible rules, in the order of the list; the figures of each rule stand beside it. -/
def apply (f : RuleFilter) (l : DecisionList) (figures : List (RuleStats Float)) (c : Catalog) (criteria : Criteria) :
    Except SchemaError (List Nat) := do
  let tests ← criteria.resolve c
  let interest ← f.interestIn c
  return ((l.rules.zip figures).zipIdx.filter fun ((r, s), _) =>
    f.reaches s && agrees tests r && testsAll interest r).map (·.2)

end RuleFilter

end FirstMatch
