import FirstMatch.Error
import FirstMatch.Graph.Node

/-!
# Topological order

The nodes of a graph without cycles can be listed so that every edge leads onward. Nodes that no edge enters are listed first;
listing a node takes its edges away, and a node that loses its last edge joins the end of the queue. On a cycle the queue runs
dry before every node is listed.
-/

namespace FirstMatch.Graph

/-- The number of edges into each node. -/
def inDegrees (nodes : List Node) : List Nat :=
  (nodes.flatMap Node.children).foldl (fun degrees child => degrees.modify child (· + 1)) (List.replicate nodes.length 0)

/-- The edges that are left, by the node they enter, and the nodes waiting to be listed. -/
structure Frontier where
  degrees : List Nat
  queue : List Nat
  deriving DecidableEq, Repr

/-- An edge into a node is taken away. -/
def Frontier.release (f : Frontier) (child : Nat) : Frontier :=
  let degrees := f.degrees.modify child (· - 1)
  ⟨degrees, if degrees[child]? = some 0 then f.queue ++ [child] else f.queue⟩

/-- The nodes that no edge enters wait from the beginning, in the order of their places. -/
def Frontier.start (nodes : List Node) : Frontier :=
  let degrees := inDegrees nodes
  ⟨degrees, (List.range nodes.length).filter fun i => degrees[i]? = some 0⟩

/-- The nodes listed from a frontier on, at most `fuel` of them. -/
def drain (nodes : List Node) : Nat → Frontier → List Nat
  | 0, _ => []
  | fuel + 1, f =>
    match f.queue with
    | [] => []
    | i :: rest =>
      let children := ((nodes[i]?).map Node.children).getD []
      i :: drain nodes fuel (children.foldl Frontier.release ⟨f.degrees, rest⟩)

/-- The places of the nodes in topological order, as far as there is one; no node is listed twice. -/
def listing (nodes : List Node) : List Nat := drain nodes nodes.length (Frontier.start nodes)

/-- The nodes in topological order, each with its place as its number and its edges renamed to match. -/
def topologicalSort (nodes : List Node) : Except StructuralError (List Node) :=
  let order := listing nodes
  if order.length = nodes.length then
    .ok ((order.filterMap (nodes[·]?)).mapIdx (Node.relocate order.idxOf))
  else .error (.cycle order.length nodes.length)

end FirstMatch.Graph
