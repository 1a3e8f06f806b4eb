/-!
# Decimal numerals

The written forms of a number: an optional sign, digits with at most one point and at least one digit, an optional exponent.
A numeral stands for `± digits · 10 ^ exponent` and is rounded to the nearest binary64 number, ties to even. The words for
infinity and for no number, in any case, are read as well, by `readFloat?` alone.
-/

namespace FirstMatch.Decimal

/-- A numeral: the number `± digits · 10 ^ exponent`. -/
structure Numeral where
  negative : Bool
  digits : Nat
  exponent : Int
  deriving DecidableEq, Repr

/-- The value of a digit, from its code. -/
def digitValue (c : Char) : Nat := c.toNat - '0'.toNat

/-- The number written by a run of digits, the first the most significant. -/
def ofDigits (t : List Char) : Nat := t.foldl (fun n c => 10 * n + digitValue c) 0

/-- A sign, if one stands first: whether it is a minus, and what follows. -/
def takeSign : List Char → Bool × List Char
  | '-' :: r => (true, r)
  | '+' :: r => (false, r)
  | t => (false, t)

/-- The number of a text of one or more digits and nothing else. -/
def readNat? (t : List Char) : Option Nat :=
  if !t.isEmpty && t.all Char.isDigit then some (ofDigits t) else none

/-- The number of a text of an optional sign and one or more digits. -/
def readInt? (t : List Char) : Option Int :=
  let (negative, digits) := takeSign t
  (readNat? digits).map fun n => if negative then -(n : Int) else n

/-- The exponent written after the digits: nothing stands for zero, otherwise the letter e of either case leads it. -/
def readExponent? : List Char → Option Int
  | [] => some 0
  | c :: r => if c = 'e' ∨ c = 'E' then readInt? r else none

/-- The digits after a point, if a point stands first, and what follows them. -/
def takeFraction : List Char → List Char × List Char
  | '.' :: r => (r.takeWhile Char.isDigit, r.dropWhile Char.isDigit)
  | t => ([], t)

/-- The numeral a whole text writes. The digits of the fraction lower the exponent by their count. -/
def Numeral.read? (t : List Char) : Option Numeral :=
  let (negative, unsigned) := takeSign t
  let whole := unsigned.takeWhile Char.isDigit
  let (fraction, tail) := takeFraction (unsigned.dropWhile Char.isDigit)
  if whole.isEmpty && fraction.isEmpty then none
  else (readExponent? tail).map fun e => ⟨negative, ofDigits (whole ++ fraction), e - fraction.length⟩

/-- The binary64 number with a sign put on it. -/
def signed (negative : Bool) (x : Float) : Float := if negative then -x else x

/-- The binary64 number nearest to a numeral. -/
def Numeral.toFloat (n : Numeral) : Float :=
  signed n.negative (Float.ofScientific n.digits (n.exponent < 0) n.exponent.natAbs)

/-- Infinity. -/
def infinity : Float := 1.0 / 0.0

/-- No number. -/
def nan : Float := 0.0 / 0.0

/-- The numbers that are written as words, letter case aside. -/
def ofWord? (t : List Char) : Option Float :=
  let w := t.map Char.toLower
  if w = ['i', 'n', 'f'] ∨ w = ['i', 'n', 'f', 'i', 'n', 'i', 't', 'y'] then some infinity
  else if w = ['n', 'a', 'n'] then some nan
  else none

/-- The binary64 number a whole text writes, as a numeral or as a word with an optional sign. -/
def readFloat? (t : List Char) : Option Float :=
  match Numeral.read? t with
  | some n => some n.toFloat
  | none =>
    let (negative, word) := takeSign t
    (ofWord? word).map (signed negative)

end FirstMatch.Decimal
