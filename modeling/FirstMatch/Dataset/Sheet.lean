import FirstMatch.Dataset.Record

/-!
# Writing records

The text of a table, as its records may be written. A field stands in quotes, the quotes inside it doubled, or plain where its
text cannot be mistaken for anything else. A line ends with a line feed, with or without a carriage return before it; the last
line need not end. Lines of blanks may stand anywhere between the records.
-/

namespace FirstMatch.Record

/-- A delimiter is no quote, and none of the characters that a line ends with. -/
structure Separates (delimiter : Char) : Prop where
  ne_quote : delimiter ≠ '"'
  ne_feed : delimiter ≠ '\n'
  ne_return : delimiter ≠ '\r'

/-- The text with each quote made a pair of quotes. -/
def double : List Char → List Char
  | [] => []
  | c :: r => if c = '"' then '"' :: '"' :: double r else c :: double r

/-- A field and whether it is written in quotes. -/
structure Field where
  text : List Char
  quoted : Bool
  deriving DecidableEq, Repr

namespace Field

/-- The field as it is written. -/
def write (f : Field) : List Char := if f.quoted then '"' :: (double f.text ++ ['"']) else f.text

/-- A field without quotes does not begin with one, holds neither the delimiter nor a line feed, and does not end in a carriage
return. -/
def Fits (delimiter : Char) (f : Field) : Prop :=
  f.quoted = false → f.text.head? ≠ some '"' ∧ delimiter ∉ f.text ∧ '\n' ∉ f.text ∧ f.text.getLast? ≠ some '\r'

instance (delimiter : Char) (f : Field) : Decidable (f.Fits delimiter) :=
  inferInstanceAs (Decidable (f.quoted = false → _))

end Field

/-- What stands between two line ends: the fields of a record, or blanks alone. -/
inductive Line where
  | record (fields : List Field)
  | blank (t : List Char)

namespace Line

/-- The fields with the delimiter between them. -/
def writeFields (delimiter : Char) : List Field → List Char
  | [] => []
  | [f] => f.write
  | f :: g :: rest => f.write ++ delimiter :: writeFields delimiter (g :: rest)

/-- The line as it is written, without its end. -/
def write (delimiter : Char) : Line → List Char
  | record fields => writeFields delimiter fields
  | blank t => t

/-- A record has fields that fit, and is not a single field of blanks; the blanks of a line hold neither the delimiter nor a line
feed. -/
def Fits (delimiter : Char) : Line → Prop
  | record fields =>
    fields ≠ [] ∧ (∀ f ∈ fields, f.Fits delimiter) ∧ ∀ f ∈ fields, fields = [f] → ∃ c ∈ f.text, Text.isBlank c = false
  | blank t => ∀ c ∈ t, Text.isBlank c = true ∧ c ≠ delimiter ∧ c ≠ '\n'

instance (delimiter : Char) : (l : Line) → Decidable (l.Fits delimiter)
  | record fields =>
    have (f : Field) : Decidable (∃ c ∈ f.text, Text.isBlank c = false) := List.decidableBEx _ f.text
    inferInstanceAs (Decidable (fields ≠ [] ∧ (∀ f ∈ fields, f.Fits delimiter) ∧
      ∀ f ∈ fields, fields = [f] → ∃ c ∈ f.text, Text.isBlank c = false))
  | blank t => List.decidableBAll (fun c => Text.isBlank c = true ∧ c ≠ delimiter ∧ c ≠ '\n') t

/-- The record of a line that follows a text, if it holds one: it begins on the line that comes after the line feeds before it. -/
def numbered (before : List Char) : Line → List Numbered
  | record fields => [⟨1 + before.count '\n', fields.map (·.text)⟩]
  | blank _ => []

end Line

/-- How a line ends. -/
inductive LineEnd where
  | lf
  | crlf
  deriving DecidableEq, Repr

/-- The line end as it is written. -/
def LineEnd.write : LineEnd → List Char
  | lf => ['\n']
  | crlf => ['\r', '\n']

/-- The lines of a table text, and perhaps one more that does not end. -/
structure Sheet where
  lines : List (Line × LineEnd)
  last? : Option Line

namespace Sheet

/-- Lines with their ends, as they are written. -/
def writeLines (delimiter : Char) (lines : List (Line × LineEnd)) : List Char :=
  lines.flatMap fun (l, e) => l.write delimiter ++ e.write

/-- The whole text. -/
def write (delimiter : Char) (s : Sheet) : List Char :=
  writeLines delimiter s.lines ++ ((s.last?.map (·.write delimiter)).getD [])

/-- Every line fits. -/
def Fits (delimiter : Char) (s : Sheet) : Prop := ∀ l ∈ s.lines.map (·.1) ++ s.last?.toList, l.Fits delimiter

instance (delimiter : Char) (s : Sheet) : Decidable (s.Fits delimiter) :=
  inferInstanceAs (Decidable (∀ l ∈ s.lines.map (·.1) ++ s.last?.toList, l.Fits delimiter))

/-- The records of lines that follow a text, and of one more line after them, in order. -/
def numberedFrom (delimiter : Char) (before : List Char) (last? : Option Line) : List (Line × LineEnd) → List Numbered
  | [] => (last?.map (·.numbered before)).getD []
  | (l, e) :: rest => l.numbered before ++ numberedFrom delimiter (before ++ (l.write delimiter ++ e.write)) last? rest

/-- The records, each with the line of the text it begins on. -/
def records (delimiter : Char) (s : Sheet) : List Numbered := numberedFrom delimiter [] s.last? s.lines

end Sheet

end FirstMatch.Record
