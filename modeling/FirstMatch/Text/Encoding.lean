import FirstMatch.Text.CharSet

/-!
# Characters as bytes

UTF-8 writes a character as one to four bytes: a lead byte, which tells the number of bytes, and continuation bytes of six bits each.
A range of characters is written as rows, each of which gives a range for every byte and stands for all ways to pick from them.
-/

namespace FirstMatch

namespace Text

/-- A range for each byte of a sequence, by its first and its last. -/
abbrev ByteRow : Type := List (Nat × Nat)

/-- The numbers from `first` to `last`, written with `n` digits of base 64 after a leading number: the part of the first leading
number, if it is not complete, all leading numbers that are, and the part of the last. -/
def sextets : Nat → Nat → Nat → List ByteRow
  | 0, first, last => [[(first, last)]]
  | n + 1, first, last =>
    let size := Nat.pow 64 (n + 1)
    let (low, high) := (first / size, last / size)
    if low = high then (sextets n (first % size) (last % size)).map ((low, low) :: ·)
    else
      let cutBelow := first % size != 0
      let cutAbove := last % size != size - 1
      let low' := if cutBelow then low + 1 else low
      let high' := if cutAbove then high - 1 else high
      (if cutBelow then (sextets n (first % size) (size - 1)).map ((low, low) :: ·) else []) ++
        (if low' ≤ high' then [(low', high') :: List.replicate (n + 1) (0, 63)] else []) ++
        (if cutAbove then (sextets n 0 (last % size)).map ((high, high) :: ·) else [])

/-- The characters that are written with the same number of bytes: the first and the last, the number of continuation bytes, and
what marks the lead byte. Characters below and above the surrogates stand apart. -/
def widths : List (Nat × Nat × Nat × Nat) := [
    (0, 0x7F, 0, 0), (0x80, 0x7FF, 1, 0xC0), (0x800, 0xD7FF, 2, 0xE0), (0xE000, 0xFFFF, 2, 0xE0),
    (0x10000, 0x10FFFF, 3, 0xF0)]

/-- A row with its lead byte and its continuation bytes marked. -/
def markBytes (lead : Nat) : ByteRow → ByteRow
  | [] => []
  | (first, last) :: r => (lead + first, lead + last) :: r.map fun (a, b) => (0x80 + a, 0x80 + b)

/-- The rows of the characters from `first` to `last`, ascending. -/
def rows (first last : Nat) : List ByteRow :=
  widths.flatMap fun (low, high, n, lead) =>
    if max first low ≤ min last high then (sextets n (max first low) (min last high)).map (markBytes lead) else []

/-- The bytes of a character. -/
def encode (code : Nat) : List Nat := ((rows code code).headD []).map Prod.fst

end Text

/-- The rows of the characters of a set, ascending. -/
def CharSet.rows (s : CharSet) : List Text.ByteRow := s.ranges.flatMap fun (first, last) => Text.rows first last

end FirstMatch
