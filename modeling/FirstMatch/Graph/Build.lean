import FirstMatch.DecisionList
import FirstMatch.Graph.Node

/-!
# Building the graph of a list

Each rule becomes a chain of tests, in a given order of columns, that ends in the outcome of its label. Tests belong to one rule;
an outcome is shared by the rules that predict its label. The tests of a rule wait until the next rule's chain has been built:
its first node is where they lead when they fail.
-/

namespace FirstMatch.Graph

/-- A new node at the end of the nodes, and its place. There must not be more nodes than the bound. -/
def push (bound : Nat) (nodes : List Node) (n : Node) : Except StructuralError (Nat × List Node) :=
  if bound ≤ nodes.length then .error (.boundExceeded bound)
  else .ok (nodes.length, nodes ++ [{ n with id := nodes.length }])

/-- The place of the first node of a kind, or of a new one where there is none. -/
def place (bound : Nat) (nodes : List Node) (isSought : Node → Bool) (n : Node) : Except StructuralError (Nat × List Node) :=
  match nodes.findIdx? isSought with
  | some i => .ok (i, nodes)
  | none => push bound nodes n

/-- The last node visited leads to a given one when its test holds. -/
def linkLast (nodes : List Node) (visited : List Nat) (target : Nat) : List Node :=
  match visited.getLast? with
  | some last => nodes.modify last fun n => { n with onTrue? := some target }
  | none => nodes

/-- Every node visited leads to a given one when its test fails. -/
def linkFailures (nodes : List Node) (visited : List Nat) (target : Nat) : List Node :=
  visited.foldl (fun nodes i => nodes.modify i fun n => { n with onFalse? := some target }) nodes

/-- The tests of some conditions of a rule, after those visited: the nodes and the places visited. -/
def chainTests (bound rule : Nat) (nodes : List Node) (visited : List Nat) :
    List Condition → Except StructuralError (List Node × List Nat)
  | [] => .ok (nodes, visited)
  | c :: rest => do
    let (i, nodes) ← place bound nodes (Node.testsFor rule c) (Node.ofCondition rule c)
    chainTests bound rule (linkLast nodes visited i) (visited ++ [i]) rest

/-- A rule's chain: the nodes, the place of its first node, and the places of its tests. -/
structure Chain where
  nodes : List Node
  head : Nat
  tests : List Nat

/-- The chain of a rule, its conditions in the order of the columns. -/
def chain (bound labelColumn : Nat) (order : List Nat) (nodes : List Node) (rule : Nat) (r : Rule) :
    Except StructuralError Chain := do
  let (nodes, tests) ← chainTests bound rule nodes [] (order.filterMap r.conditionOn?)
  let (outcome, nodes) ← place bound nodes (Node.predicts r.label) (Node.ofLabel rule labelColumn r.label)
  return ⟨linkLast nodes tests outcome, tests.head?.getD outcome, tests⟩

/-- The chains of some rules, the first of which has number `rule`; the tests in `waiting` lead to the first chain when they
fail. -/
def chains (bound labelColumn : Nat) (order : List Nat) (nodes : List Node) (waiting : List Nat) (rule : Nat) :
    List Rule → Except StructuralError (List Node)
  | [] => .ok nodes
  | r :: rest => do
    let built ← chain bound labelColumn order nodes rule r
    chains bound labelColumn order (linkFailures built.nodes waiting built.head) built.tests (rule + 1) rest

/-- The most nodes that rules may need: for each rule one for each column of the order, and an outcome. -/
def bound (rules : List Rule) (order : List Nat) : Nat := rules.length * (order.length + 1)

/-- The nodes of rules, in the order in which they are made. -/
def build (rules : List Rule) (labelColumn : Nat) (order : List Nat) : Except StructuralError (List Node) :=
  chains (bound rules order) labelColumn order [] [] 0 rules

end FirstMatch.Graph
