import FirstMatch.Graph

/-!
# Walking a graph

A row walks the graph from the root: a test sends it along the edge of the holding or of the failing test, and the first outcome
it meets is its prediction. A walk breaks off where a node or an edge is lacking.
-/

namespace FirstMatch

/-- Where a test with an operator sends the cells of a row. -/
def Node.onward? (n : Node) (op : Operator) (cell : Nat → Cell) : Option Nat :=
  if (Condition.mk n.feature op n.value).meets (cell n.feature) then n.onTrue? else n.onFalse?

namespace Graph

/-- The outcome that a walk meets, from a place on and through at most `fuel` nodes; there is none if it breaks off. -/
def walkFrom (nodes : List Node) (cell : Nat → Cell) : Nat → Nat → Option Node
  | 0, _ => none
  | fuel + 1, i =>
    (nodes[i]?).bind fun n =>
      match n.kind with
      | .outcome => some n
      | .test op => (n.onward? op cell).bind (walkFrom nodes cell fuel)

/-- The outcome that a walk from the root meets, through at most as many nodes as there are. -/
def walk (g : Graph) (cell : Nat → Cell) : Option Node := walkFrom g.nodes cell g.size g.root

end Graph

end FirstMatch
