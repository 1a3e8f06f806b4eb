import FirstMatch.Graph.Build
import FirstMatch.Graph.Order

/-!
# The decision graph of a list

A decision list compiled into a graph in topological order: every edge leads to a node with a higher number, and node 0 is the
first test of the first rule. The depth is the length of the longest chain of tests that hold, the outcome included, and the
height is the number of outcomes.
-/

namespace FirstMatch

/-- A decision graph. -/
structure Graph where
  nodes : List Node
  /-- The first node of each rule, from the root along the edges of failing tests. -/
  roots : List Nat
  depth : Nat
  height : Nat

namespace Graph

/-- The nodes met from a node along one kind of edge, at most `fuel` of them. -/
def follow (edge : Node → Option Nat) (nodes : List Node) : Nat → Option Nat → List Nat
  | 0, _ => []
  | _, none => []
  | fuel + 1, some i => i :: follow edge nodes fuel ((nodes[i]?).bind edge)

/-- The first rule, and the first of its conditions, that tests a column missing from an order. -/
def unranked? (rules : List Rule) (c : Catalog) (order : List Nat) : Option StructuralError :=
  (rules.zipIdx).findSome? fun (r, i) =>
    (r.conditions.find? fun condition => !order.contains condition.feature).map fun condition =>
      .unrankedFeature i (c.nameOf condition.feature)

/-- The graph of nodes in topological order. -/
def ofNodes (nodes : List Node) : Graph :=
  let roots := follow Node.onFalse? nodes nodes.length (some 0)
  { nodes
    roots
    depth := (roots.map fun i => (follow Node.onTrue? nodes nodes.length (some i)).length).foldl max 0
    height := nodes.countP (·.isOutcome) }

/-- The graph of rules whose conditions are tested in an order of columns. The order must hold every column tested; columns may
repeat in it, and those that no rule tests do not matter. -/
def compile (rules : List Rule) (c : Catalog) (order : List Nat) : Except StructuralError Graph :=
  if rules = [] then .error .emptyList
  else
    match unranked? rules c order with
    | some e => .error e
    | none => do
      let nodes ← build rules c.label order
      let sorted ← topologicalSort nodes
      return ofNodes sorted

/-- The number of nodes. -/
def size (g : Graph) : Nat := g.nodes.length

/-- The first test of the first rule. -/
def root (_ : Graph) : Nat := 0

end Graph

/-- The graph of a list whose conditions are tested in an order of columns. -/
def DecisionList.compile (l : DecisionList) (c : Catalog) (order : List Nat) : Except StructuralError Graph :=
  Graph.compile l.rules c order

end FirstMatch
