import FirstMatch.Decimal.Shortest

/-!
# Numbers to a fixed number of places

The exact value is rounded to the nearest multiple of the last place; a half goes to the even neighbour.
-/

namespace FirstMatch.Decimal

/-- The quotient to the nearest natural number, a half to the even neighbour. -/
def roundDiv (a b : Nat) : Nat :=
  let q := a / b
  let r := a % b
  if 2 * r < b then q else if b < 2 * r then q + 1 else if q % 2 = 0 then q else q + 1

/-- The size of a number in units of its last place, `places` after the point. -/
def Dyadic.units (d : Dyadic) (places : Nat) : Nat :=
  roundDiv (d.mantissa * Nat.pow 10 places * Nat.pow 2 d.exponent.toNat) (Nat.pow 2 (-d.exponent).toNat)

/-- A number with exactly `places` digits after the point. -/
def fixed (places : Nat) (x : Float) : String :=
  String.ofList (textWith (fun d => withPoint (digitText (d.units places)) places) x)

end FirstMatch.Decimal
