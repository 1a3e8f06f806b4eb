import FirstMatch.Decimal.Numeral
import FirstMatch.Decimal.Shortest
import FirstMatch.Operator
import FirstMatch.Text.Blank

/-!
# Values

A cell of a table or a literal of a rule is a number or a text. A token is read on its own: one that writes a finite number is
that number, any other is the text without the blanks around it. Equality holds across the two kinds (a number is no text);
order is for numbers alone, and a NaN is neither equal to nor ordered with anything.
-/

namespace FirstMatch

/-- A number or a text. -/
inductive Value where
  | number (x : Float)
  | text (s : String)

/-- A place of a table: a value, or nothing. -/
abbrev Cell : Type := Option Value

/-- How two numbers compare, unless one is no number. -/
def order? (x y : Float) : Option Ordering :=
  if x < y then some .lt else if x == y then some .eq else if y < x then some .gt else none

namespace Value

instance : Inhabited Value := ⟨.text ""⟩

/-- The value a token writes. -/
def ofToken (token : List Char) : Value :=
  let t := Text.trim token
  match Decimal.readFloat? t with
  | some x => if x.isFinite then number x else text (String.ofList t)
  | none => text (String.ofList t)

/-- The number, if the value is one. -/
def number? : Value → Option Float
  | number x => some x
  | text _ => none

/-- The text, if the value is one. -/
def text? : Value → Option String
  | number _ => none
  | text s => some s

/-- Whether the value is a number. -/
def isNumber (v : Value) : Bool := v.number?.isSome

/-- The value as a text: a number by its shortest digits. -/
def render : Value → String
  | number x => Decimal.text x
  | text s => s

/-- Equality of values: numbers by value, texts by their characters, a number never equal to a text. -/
protected def beq : Value → Value → Bool
  | number x, number y => x == y
  | text s, text t => s == t
  | _, _ => false

instance : BEq Value := ⟨Value.beq⟩

/-- What equal values have in common: the bits of a number, or the characters of a text. -/
inductive Key where
  | bits (b : UInt64)
  | chars (s : String)
  deriving DecidableEq, Repr, Hashable

/-- The key of a value; the two zeros share the bits of the positive one. -/
def key : Value → Key
  | number x => .bits (if x == 0 then 0 else x.toBits)
  | text s => .chars s

instance : Hashable Value := ⟨fun v => hash v.key⟩

/-- The outcome of a comparison. Equality and its negation are always decided; the other operators are decided for two numbers
that are ordered. -/
def compare (op : Operator) (a b : Value) : Option Bool :=
  match op with
  | .eq => some (a == b)
  | .ne => some (a != b)
  | _ =>
    match a, b with
    | number x, number y => (order? x y).map op.accepts
    | _, _ => none

/-- The number of different values among two. -/
def distinctCount (a b : Value) : Nat := if a == b then 1 else 2

end Value

end FirstMatch
