import FirstMatch.Rule

/-!
# Nodes of a decision graph

A node tests a cell or predicts a label. A test has an edge for each outcome: to the next test of its rule when it holds, to the
next rule when it fails. Nodes are known by their places in a list.
-/

namespace FirstMatch

/-- What a node does. -/
inductive NodeKind where
  /-- Compares the cell of the node's feature with its value. -/
  | test (op : Operator)
  /-- Predicts the node's value. -/
  | outcome
  deriving DecidableEq, Repr

/-- A node of a decision graph. -/
structure Node where
  id : Nat
  /-- The rule the node was made for. -/
  rule : Nat
  /-- The column tested, or the label column. -/
  feature : Nat
  /-- The literal tested against, or the label predicted. -/
  value : Value
  kind : NodeKind
  /-- Where to go when the test holds. -/
  onTrue? : Option Nat
  /-- Where to go when the test fails. -/
  onFalse? : Option Nat

namespace Node

/-- Whether the node predicts a label. -/
def isOutcome (n : Node) : Bool := n.kind == .outcome

/-- The node that tests a condition of a rule, without edges. -/
def ofCondition (rule : Nat) (c : Condition) : Node := ⟨0, rule, c.feature, c.value, .test c.op, none, none⟩

/-- The node that predicts a rule's label, without edges. -/
def ofLabel (rule labelColumn : Nat) (label : Value) : Node := ⟨0, rule, labelColumn, label, .outcome, none, none⟩

/-- Whether the node tests the same literal on the same column for the same rule. -/
def testsFor (rule : Nat) (c : Condition) (n : Node) : Bool :=
  !n.isOutcome && n.rule == rule && n.feature == c.feature && n.value == c.value

/-- Whether the node predicts a label given. -/
def predicts (label : Value) (n : Node) : Bool := n.isOutcome && n.value == label

/-- The nodes that edges lead to, that of the holding test first. -/
def children (n : Node) : List Nat := n.onTrue?.toList ++ n.onFalse?.toList

/-- The node at a new place, its edges renamed. -/
def relocate (place : Nat → Nat) (id : Nat) (n : Node) : Node :=
  { n with id, onTrue? := n.onTrue?.map place, onFalse? := n.onFalse?.map place }

end Node

end FirstMatch
