import FirstMatch.DecisionList

/-!
# Ranking features

A feature is as strong as the rules that test it, by the counts their learner reported: strengths are added in the order of the
list. Features that no rule tests are left out, equals keep the order of first sight, and the label comes last.
-/

namespace FirstMatch

/-- A feature with its strength. -/
structure RankedFeature where
  feature : Nat
  name : String
  strength : Float

namespace Ranking

/-- A rule of some strength tests a feature. -/
def credit (c : Catalog) (strength : Float) (ranked : List RankedFeature) (feature : Nat) : List RankedFeature :=
  if ranked.any (·.feature = feature) then
    ranked.map fun r => if r.feature = feature then { r with strength := r.strength + strength } else r
  else ranked ++ [⟨feature, c.nameOf feature, strength⟩]

/-- A rule credits the features it tests, in the order written. -/
def creditRule (c : Catalog) (ranked : List RankedFeature) (r : Rule) : List RankedFeature :=
  (r.conditions.map (·.feature)).foldl (credit c r.reported.strength) ranked

/-- The features tested, in the order of first sight. -/
def tested (l : DecisionList) (c : Catalog) : List RankedFeature := l.rules.foldl (creditRule c) []

/-- Whether a feature may stand before another: it is not weaker. -/
def precedes (a b : RankedFeature) : Bool := !(a.strength < b.strength)

end Ranking

/-- The features a list tests from the strongest to the weakest, and then the label. -/
def DecisionList.ranking (l : DecisionList) (c : Catalog) : List RankedFeature :=
  (Ranking.tested l c).mergeSort Ranking.precedes ++ [⟨c.label, c.labelFeature.name, 0⟩]

end FirstMatch
