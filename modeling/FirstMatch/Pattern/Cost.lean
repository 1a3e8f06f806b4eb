import FirstMatch.Pattern.Beginnings
import FirstMatch.Pattern.Weight

/-!
# The cost of a pattern

A pattern must be affordable: either its automata are light, or its matches are found without them, by a search for texts.
-/

namespace FirstMatch.Plan

/-- From how many literals on a choice between them is searched for as it stands. -/
def manyLiterals : Nat := 3000

/-- Whether a plan is a choice between many literals. -/
def isDictionary (p : Plan) : Bool := p.literals?.any (manyLiterals ≤ ·.length)

/-- Whether the matches of a plan can be found at a fair cost. -/
def isAffordable (p : Plan) : Bool := p.isSearchable || p.isDictionary || p.isLight

end FirstMatch.Plan
