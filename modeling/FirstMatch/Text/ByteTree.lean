import FirstMatch.Text.Encoding

/-!
# Trees of bytes

Rows of byte ranges that begin alike share a path of a tree. A node tells the ranges apart that a byte may fall into, in the order
of the rows, and a path that ends has read a character.
-/

namespace FirstMatch.Text

/-- A node with its ranges, the first before the others. A node without a range is the end of a path. -/
inductive ByteTree where
  | stop
  | edge (first last : Nat) (below others : ByteTree)
  deriving DecidableEq, Repr

namespace ByteTree

/-- A tree with one more row before its own. -/
def consRow : ByteRow → ByteTree → ByteTree
  | [], t => t
  | (first, last) :: r, stop => edge first last (consRow r stop) stop
  | (first, last) :: r, edge first' last' below others =>
    if first = first' ∧ last = last' then edge first last (consRow r below) others
    else edge first last (consRow r stop) (edge first' last' below others)

/-- The tree of rows. -/
def ofRows (rows : List ByteRow) : ByteTree := rows.foldr consRow stop

end ByteTree

end FirstMatch.Text
