import FirstMatch.Decimal.Dyadic

/-!
# The shortest decimal text of a number

A number is written with the fewest significant digits that read back as that number, of those the digits nearest to it, and of
two equally near the greater. The digits stand at their places: there is never an exponent, and no point without digits after it.
-/

namespace FirstMatch.Decimal

/-- A decimal size: `digits · 10 ^ exponent`. -/
structure Scaled where
  digits : Nat
  exponent : Int
  deriving DecidableEq, Repr

/-- Whether `a / b` is below `10 ^ e`. -/
def belowPowerOfTen (a b : Nat) (e : Int) : Bool := a * Nat.pow 10 (-e).toNat < b * Nat.pow 10 e.toNat

/-- The power of ten of the leading digit: the greatest `e` with `10 ^ e` at most the interval's value. The binary logarithm
gives it up to one. -/
def Interval.magnitude (i : Interval) : Int :=
  let a := i.value * Nat.pow 2 i.exponent.toNat
  let b := Nat.pow 2 (-i.exponent).toNat
  let guess := ((i.value.log2 : Int) + i.exponent) * 30103 / 100000
  if belowPowerOfTen a b guess then guess - 1
  else if belowPowerOfTen a b (guess + 1) then guess
  else guess + 1

/-- The multiple of `10 ^ e` in the interval that is nearest to its value, if one of the value's two neighbours on that grid
lies in the interval. -/
def Interval.onGrid? (i : Interval) (e : Int) : Option Nat :=
  let unit := Nat.pow 10 e.toNat * Nat.pow 2 (-i.exponent).toNat
  let scale := Nat.pow 10 (-e).toNat * Nat.pow 2 i.exponent.toNat
  let holds (n : Nat) : Bool :=
    if i.closed then i.low * scale ≤ n * unit && n * unit ≤ i.high * scale
    else i.low * scale < n * unit && n * unit < i.high * scale
  let below := i.value * scale / unit
  if holds below && holds (below + 1) then
    some (if 2 * (i.value * scale - below * unit) < unit then below else below + 1)
  else if holds below then some below
  else if holds (below + 1) then some (below + 1)
  else none

/-- The same size without zeros at the end of its digits, for at most `fuel` zeros. -/
def Scaled.strip : Nat → Scaled → Scaled
  | 0, s => s
  | fuel + 1, s => if s.digits ≠ 0 ∧ s.digits % 10 = 0 then strip fuel ⟨s.digits / 10, s.exponent + 1⟩ else s

/-- The shortest decimal in the interval of a number, with 17 digits at most: so many always suffice. -/
def Dyadic.shortest (d : Dyadic) : Scaled :=
  let i := d.interval
  let top := i.magnitude
  let found : Option Scaled := (List.range 17).findSome? fun (n : Nat) => (i.onGrid? (top - n)).map (⟨·, top - n⟩)
  (found.getD ⟨0, 0⟩).strip 17

/-- The digits of a natural number. -/
def digitText (n : Nat) : List Char := Nat.toDigits 10 n

/-- Digits with a point before the last `places` of them, zeros filling up where they are too few. -/
def withPoint (ds : List Char) (places : Nat) : List Char :=
  if places = 0 then ds
  else
    let padded := List.replicate (places + 1 - ds.length) '0' ++ ds
    padded.take (padded.length - places) ++ '.' :: padded.drop (padded.length - places)

/-- A decimal size with every digit at its place. -/
def Scaled.text (s : Scaled) : List Char :=
  if 0 ≤ s.exponent then digitText s.digits ++ List.replicate s.exponent.toNat '0'
  else withPoint (digitText s.digits) (-s.exponent).toNat

/-- A number that is not finite is written as a word, and any other by a writer of sizes after a minus if its sign is set. -/
def textWith (size : Dyadic → List Char) (x : Float) : List Char :=
  if x.isNaN then ['N', 'a', 'N']
  else
    let body := if x.isInf then ['i', 'n', 'f'] else size (Dyadic.ofFloat x)
    if isNegative x then '-' :: body else body

/-- The size of a number by its shortest digits. -/
def shortestText (d : Dyadic) : List Char := if d.mantissa = 0 then ['0'] else d.shortest.text

/-- The shortest decimal text of a number. -/
def text (x : Float) : String := String.ofList (textWith shortestText x)

end FirstMatch.Decimal
