import FirstMatch.Dataset
import FirstMatch.Dataset.Record

/-!
# Reading a dataset

The first record of a table text is the header and the others are rows, which must be as wide as it. Names and cells are read
without the blanks around them, and an empty cell is a missing one.
-/

namespace FirstMatch

/-- A header and rows of cells, not yet a dataset. -/
structure Table where
  header : List String
  rows : List Row

namespace Table

/-- The cell a field writes. -/
def cellOf (field : List Char) : Cell :=
  let t := Text.trim field
  if t.isEmpty then none else some (Value.ofToken t)

/-- The rows of records that must have a given width. -/
def rowsOf (width : Nat) : List Record.Numbered → Except GrammarError (List Row)
  | [] => .ok []
  | r :: rest =>
    if r.fields.length = width then do
      let rows ← rowsOf width rest
      return ⟨r.fields.map cellOf⟩ :: rows
    else .error ⟨r.line, .raggedRow width r.fields.length⟩

/-- The table of a sequence of records; without records the header is empty. -/
def ofRecords : List Record.Numbered → Except GrammarError Table
  | [] => .ok ⟨[], []⟩
  | r :: rest => do
    let rows ← rowsOf r.fields.length rest
    return ⟨r.fields.map fun name => String.ofList (Text.trim name), rows⟩

/-- The table a text writes. -/
def read (delimiter : Char) (text : String) : Except GrammarError Table := do
  ofRecords (← Record.read delimiter text.toList)

end Table

/-- The dataset of a table whose label column has a given name. -/
def Dataset.ofTable (t : Table) (label : String) : Except SchemaError Dataset := Dataset.ofRows t.header t.rows label

/-- The dataset a text writes. -/
def Dataset.read (text : String) (delimiter : Char) (label : String) : Except Error Dataset :=
  match Table.read delimiter text with
  | .error e => .error (.grammar e)
  | .ok t =>
    match Dataset.ofTable t label with
    | .error e => .error (.schema e)
    | .ok d => .ok d

end FirstMatch
