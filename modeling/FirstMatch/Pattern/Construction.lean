import FirstMatch.Text.ByteTree
import Std.Data.HashMap

/-!
# Automata under construction

Of an automaton under construction only the size is kept: the number of its states, which are numbered in the order in which they
are made, and the bytes that their tables and forks take. States of a set of characters that go on alike are shared, as long as a
memory of the states made before still holds them. The memory has a fixed number of slots, and a key that falls into a slot in use
takes it over; therefore the same set can take more states in one place of an automaton than in another.
-/

namespace FirstMatch

/-- The size of an automaton or of a part of one. -/
structure Construction where
  states : Nat := 0
  /-- The bytes of tables and forks. -/
  bytes : Nat := 0
  deriving DecidableEq, Repr

namespace Construction

/-- Both parts together. -/
def plus (c d : Construction) : Construction := ⟨c.states + d.states, c.bytes + d.bytes⟩

/-- States without a table. -/
def plain (n : Nat) : Construction := ⟨n, 0⟩

/-- A state that tells ranges of bytes apart. -/
def table (ranges : Nat) : Construction := ⟨1, 8 * ranges⟩

/-- A state that goes on to other states without reading. -/
def fork (ways : Nat) : Construction := ⟨1, 4 * ways⟩

/-- The memory of an automaton: every state takes 32 bytes, and tables and forks come on top. -/
def weight (c : Construction) : Nat := 32 * c.states + c.bytes

/-- The most that an automaton may weigh, ten mebibytes. -/
def weightLimit : Nat := 10 * 1024 * 1024

/-- Whether an automaton weighs too much. -/
def isHeavy (c : Construction) : Bool := weightLimit < c.weight

/-- What `n` turns build, or fewer of them where they are too heavy already. -/
def again (build : Construction → Construction) : Nat → Construction → Construction
  | 0, c => c
  | n + 1, c => if c.isHeavy then c else again build n (build c)

end Construction

/-! ## Shared states -/

/-- An automaton and its memory of states: a slot holds the key that took it last, and the state of that key. -/
structure Sharing where
  construction : Construction
  slots : Std.HashMap Nat (List Nat × Nat) := {}

namespace Sharing

/-- The slot of a key: the numbers of the key are mixed by turns of exclusive or and multiplication, modulo 2⁶⁴. -/
def slotOf (count : Nat) (key : List Nat) : Nat :=
  (key.foldl (fun (h : UInt64) n => (h ^^^ n.toUInt64) * 1099511628211) 14695981039346656037).toNat % count

/-- The state of a key: the one that the memory holds, or else a new one of a given size, which takes the slot. -/
def stateFor (s : Sharing) (count : Nat) (size : Construction) (key : List Nat) : Nat × Sharing :=
  match (s.slots[slotOf count key]?).filter (·.1 == key) with
  | some (_, state) => (state, s)
  | none =>
    (s.construction.states, ⟨s.construction.plus size, s.slots.insert (slotOf count key) (key, s.construction.states)⟩)

/-- The state of a node whose ranges are given one after another, each by its first byte, its last byte and the next state. -/
def nodeFor (s : Sharing) (ranges : List Nat) : Nat × Sharing := s.stateFor 10000 (.table (ranges.length / 3)) ranges

/-- The ranges of a node, after the states below it. A path ends in the state `target`. -/
def rangesOf (target : Nat) : Text.ByteTree → Sharing → List Nat × Sharing
  | .stop, s => ([], s)
  | .edge first last below others, s =>
    let (deeper, s) := rangesOf target below s
    let (next, s) := if deeper.isEmpty then (target, s) else s.nodeFor deeper
    let (ranges, s) := rangesOf target others s
    (first :: last :: next :: ranges, s)

/-- The states of a row that is read from its last byte, which leads to the state `target`. A fork leads to the first. -/
def readBack (target : Nat) (s : Sharing) (row : Text.ByteRow) : Sharing :=
  let (_, s) := row.foldl (fun (state, s) (first, last) => s.stateFor 1000 (.plain 1) [state, first, last]) (target, s)
  { s with construction := s.construction.plus ⟨0, 4⟩ }

end Sharing

namespace Construction

/-- A set is read forward: its tree is built from the ends of its paths up. -/
def readTree (tree : Text.ByteTree) (c : Construction) : Construction :=
  let (ranges, s) := Sharing.rangesOf c.states tree { construction := c.plus (plain 1) }
  (s.nodeFor ranges).2.construction

/-- A set is read backward: a fork leads to the last bytes of its rows, and rows that begin alike share states. -/
def readRows (rows : List Text.ByteRow) (c : Construction) : Construction :=
  (rows.foldl (Sharing.readBack (c.states + 1)) { construction := c.plus (plain 2) }).construction

end Construction

end FirstMatch
