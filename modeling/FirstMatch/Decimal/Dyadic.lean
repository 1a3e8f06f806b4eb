/-!
# Binary64 numbers as exact fractions

Every finite binary64 number is `± mantissa · 2 ^ exponent`. The numbers whose nearest binary64 number it is form an interval
around it that reaches half way to each neighbour; its ends belong to it when the mantissa is even.
-/

namespace FirstMatch.Decimal

/-- The size of a finite binary64 number: `mantissa · 2 ^ exponent`. -/
structure Dyadic where
  mantissa : Nat
  exponent : Int
  deriving DecidableEq, Repr

/-- Whether the sign bit is set. -/
def isNegative (x : Float) : Bool := x.toBits >>> 63 == 1

/-- The smallest mantissa of a number that is not subnormal. -/
def leadingBit : Nat := Nat.pow 2 52

/-- The size of a finite number, from the exponent and fraction fields of its bits. -/
def Dyadic.ofFloat (x : Float) : Dyadic :=
  let bits := x.toBits.toNat % Nat.pow 2 63
  let field := bits / leadingBit
  let fraction := bits % leadingBit
  if field = 0 then ⟨fraction, -1074⟩ else ⟨leadingBit + fraction, (field : Int) - 1075⟩

/-- The interval of the numbers that round to a given one, all in units of `2 ^ exponent`. -/
structure Interval where
  low : Nat
  value : Nat
  high : Nat
  exponent : Int
  /-- The ends belong to the interval. -/
  closed : Bool
  deriving DecidableEq, Repr

/-- The interval around a number: half a unit of its mantissa to each side, and a quarter below the smallest mantissa, where
the numbers below lie twice as dense. -/
def Dyadic.interval (d : Dyadic) : Interval where
  low := 4 * d.mantissa - (if d.mantissa = leadingBit then 1 else 2)
  value := 4 * d.mantissa
  high := 4 * d.mantissa + 2
  exponent := d.exponent - 2
  closed := d.mantissa % 2 == 0

end FirstMatch.Decimal
