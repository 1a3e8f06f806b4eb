import FirstMatch.Error
import FirstMatch.Text.Cut

/-!
# Features and their catalog

A feature is a column of a table: its name, the values seen in it, each once and in the order of first sight, and, while only
numbers have been seen, the least and the greatest of them. The catalog holds the features by column, exactly one of them the
label that rules predict.
-/

namespace FirstMatch

/-- A column and what has been seen in it. -/
structure Feature where
  name : String
  isLabel : Bool
  /-- The distinct values seen, in the order of first sight. -/
  values : List Value
  /-- No text has been seen. -/
  isNumeric : Bool
  least? : Option Float
  greatest? : Option Float

/-- The lesser of two numbers; what is no number gives way. -/
def lesser (x y : Float) : Float := if x.isNaN then y else if y < x then y else x

/-- The greater of two numbers; what is no number gives way. -/
def greater (x y : Float) : Float := if x.isNaN then y else if x < y then y else x

namespace Feature

/-- A column in which nothing has been seen. -/
def unseen (name : String) (isLabel : Bool) : Feature := ⟨name, isLabel, [], true, none, none⟩

/-- Whether a value has been seen. -/
def contains (f : Feature) (v : Value) : Bool := f.values.contains v

/-- The place of a value among the values seen. -/
def position? (f : Feature) (v : Value) : Option Nat := f.values.findIdx? (· == v)

/-- The number of distinct values seen. -/
def count (f : Feature) : Nat := f.values.length

/-- A value not seen before joins the values; a number widens the bounds of a numeric column, and a text ends them. -/
def add (f : Feature) : Value → Feature
  | .number x =>
    if f.isNumeric then
      { f with
        values := f.values ++ [.number x]
        least? := some ((f.least?.map (lesser · x)).getD x)
        greatest? := some ((f.greatest?.map (greater · x)).getD x) }
    else { f with values := f.values ++ [.number x] }
  | .text s => { f with values := f.values ++ [.text s], isNumeric := false, least? := none, greatest? := none }

/-- A cell is seen: a missing one, or a value seen before, changes nothing. -/
def observe (f : Feature) : Cell → Feature
  | none => f
  | some v => if f.contains v then f else f.add v

end Feature

/-- The features of a table by column, one of them the label. -/
structure Catalog where
  features : List Feature
  label : Nat
  label_lt : label < features.length

namespace Catalog

/-- The number of columns. -/
def size (c : Catalog) : Nat := c.features.length

/-- The label column. -/
def labelFeature (c : Catalog) : Feature := c.features.get ⟨c.label, c.label_lt⟩

/-- The column of a name. -/
def column? (c : Catalog) (name : String) : Option Nat := c.features.findIdx? (·.name = name)

/-- The column of a name that a filter or a caller gives. -/
def resolve (c : Catalog) (name : String) : Except SchemaError Nat :=
  match c.column? name with
  | some i => .ok i
  | none => .error (.unknownFeature name)

/-- The name of a column; beyond the last column there is none. -/
def nameOf (c : Catalog) (i : Nat) : String := ((c.features[i]?).map (·.name)).getD ""

/-- Whether no text has been seen in a column. -/
def isNumeric (c : Catalog) (i : Nat) : Bool := (c.features[i]?).any (·.isNumeric)

/-- Whether the letters "and" stand in some feature's name, so that the word between two conditions may be a part of a name. -/
def containsAnd (c : Catalog) : Bool := c.features.any fun f => Text.occurs ['a', 'n', 'd'] f.name.toList

/-- The first name that stands before it in a header as well. -/
def duplicate? : List String → List String → Option String
  | _, [] => none
  | seen, name :: rest => if name ∈ seen then some name else duplicate? (name :: seen) rest

/-- The catalog of a header, before any row is seen. A header must not be empty, must not repeat a name, and must hold the
label's name. -/
def ofHeader (header : List String) (label : String) : Except SchemaError Catalog :=
  if header = [] then .error .emptyHeader
  else
    match duplicate? [] header with
    | some name => .error (.duplicateColumn name)
    | none =>
      if h : label ∈ header then
        .ok {
          features := header.map fun name => Feature.unseen name (name = label)
          label := header.idxOf label
          label_lt := by simpa using List.idxOf_lt_length_of_mem h }
      else .error (.noLabel label)

/-- A row of cells is seen, each by its column's feature. -/
def observe (c : Catalog) (cells : List Cell) : Catalog where
  features := c.features.mapIdx fun i f => f.observe (cells[i]?).join
  label := c.label
  label_lt := by simpa using c.label_lt

@[simp] theorem label_observe (c : Catalog) (cells : List Cell) : (c.observe cells).label = c.label := rfl

end Catalog

end FirstMatch
