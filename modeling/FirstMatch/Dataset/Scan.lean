import FirstMatch.Dataset.Record

/-!
# Where a table text stands

Two accounts of a text that need not be well-formed. `placeAfter` reads it one character after the other and only knows in what
part of a record it is; it does not look ahead, and takes no field out. `Course` is what the loop of the reader does: the passes
it makes, each over a piece of the text, and the text that no pass can read.
-/

namespace FirstMatch.Record

/-- The part of a record that the next character belongs to. -/
inductive Place where
  | recordStart
  | fieldStart
  | plain
  | quoted
  /-- after a quote inside quotes, which closes them unless another quote follows -/
  | quoteSeen
  deriving DecidableEq, Repr

namespace Place

/-- The place after a character that stands outside quotes. The delimiter comes first: it may be the line feed itself. -/
def afterPlain (delimiter c : Char) : Place :=
  if c = delimiter then fieldStart else if c = '\n' then recordStart else plain

/-- The place after one more character. Only a quote that begins a field opens quotes. -/
def next (delimiter : Char) : Place → Char → Place
  | quoted, c => if c = '"' then quoteSeen else quoted
  | plain, c => afterPlain delimiter c
  | recordStart, c => if c = '"' then quoted else afterPlain delimiter c
  | fieldStart, c => if c = '"' then quoted else afterPlain delimiter c
  | quoteSeen, c => if c = '"' then quoted else afterPlain delimiter c

/-- The place after a text. -/
def after (delimiter : Char) (p : Place) (t : List Char) : Place := t.foldl (next delimiter) p

end Place

/-- The place at the end of a text. -/
def placeAfter (delimiter : Char) (t : List Char) : Place := Place.after delimiter .recordStart t

/-- The line that follows a text. -/
def lineAfter (t : List Char) : Nat := 1 + t.count '\n'

/-- A pass of the reader: the text before it, the piece it goes over, with the line feed at its end, and the fields it reads. -/
structure Pass where
  before : List Char
  piece : List Char
  fields : List (List Char)
  deriving DecidableEq, Repr

namespace Pass

/-- The record of a pass, unless it reads a single field of blanks. -/
def record? (p : Pass) : Option Numbered :=
  if isBlank p.fields then none else some ⟨lineAfter p.before, p.fields⟩

/-- The text that passes go over. -/
def consumed (passes : List Pass) : List Char := passes.flatMap (·.piece)

end Pass

/-- The passes over a text that follows another, in order, and the text that is left when the loop ends: nothing, or a text whose
first record leaves a quote open. Every pass goes over one character at least. -/
inductive Course (delimiter : Char) : List Char → List Char → List Pass → List Char → Prop where
  | finished (before : List Char) : Course delimiter before [] [] []
  | unclosed (before t : List Char) (hopen : takeFields delimiter t = none) : Course delimiter before t [] t
  | pass (before piece rest u left : List Char) (fields : List (List Char)) (passes : List Pass) (hpiece : piece ≠ [])
      (hread : takeFields delimiter (piece ++ rest) = some (fields, u)) (hrest : dropLineFeed u = rest)
      (more : Course delimiter (before ++ piece) rest passes left) :
      Course delimiter before (piece ++ rest) (⟨before, piece, fields⟩ :: passes) left

end FirstMatch.Record
