import FirstMatch.Decimal.Numeral

/-!
# Documents

Settings and filters are exchanged as documents: trees of numbers, texts, lists and records. A whole number that fits 64 bits is
kept exactly, and every other number is read as binary64.
-/

namespace FirstMatch

/-- A tree of data. -/
inductive Document where
  | null
  | bool (b : Bool)
  | integer (n : Int)
  | real (x : Float)
  | text (s : String)
  | list (items : List Document)
  | record (fields : List (String × Document))

namespace Document

/-- The number a whole text writes: an integer if it has neither a fraction nor an exponent, fits 64 bits and is not a negative
zero. -/
def ofNumeral? (t : List Char) : Option Document :=
  match Decimal.readInt? t with
  | some n =>
    if n = 0 ∧ t.head? = some '-' then some (real (-0.0))
    else if Int64.minValue.toInt ≤ n ∧ n < UInt64.size then some (integer n)
    else (Decimal.readFloat? t).map real
  | none => (Decimal.readFloat? t).map real

/-- The text of a document that is a text. -/
def text? : Document → Option String
  | text s => some s
  | _ => none

/-- The binary64 number of a document that is a number. -/
def float? : Document → Option Float
  | integer n => some (Float.ofInt n)
  | real x => some x
  | _ => none

/-- The count of a document that is a whole number from zero. -/
def count? : Document → Option UInt64
  | integer n => if 0 ≤ n ∧ n < UInt64.size then some n.toNat.toUInt64 else none
  | _ => none

/-- The character of a document that is a text of one character. -/
def char? (d : Document) : Option Char :=
  match d.text?.map String.toList with
  | some [c] => some c
  | _ => none

/-- The items of a document that is a list, each read in one way. -/
def list? {α : Type} (item : Document → Option α) : Document → Option (List α)
  | list items => items.mapM item
  | _ => none

/-- The fields of a document that is a record, each value read in one way. -/
def record? {α : Type} (value : Document → Option α) : Document → Option (List (String × α))
  | record fields => fields.mapM fun (name, d) => (value d).map (name, ·)
  | _ => none

/-- The fields of a structure, in the order of their names; a field may be missing, but not stand twice. They are given by name, or
by place in a list that is no longer than the names. Other names do not matter. -/
def fields? (names : List String) : Document → Option (List (Option Document))
  | record fields =>
    if names.all fun name => fields.countP (·.1 == name) ≤ 1 then some (names.map fun name => List.lookup name fields) else none
  | list items =>
    if items.length ≤ names.length then some (items.map some ++ List.replicate (names.length - items.length) none) else none
  | _ => none

/-- The name and the content of a choice among named forms. A form given by its name alone has no content. -/
def choice? : Document → Option (String × Option Document)
  | text name => some (name, none)
  | record [(name, content)] => some (name, some content)
  | _ => none

end Document

end FirstMatch
