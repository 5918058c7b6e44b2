/-!
# Doubles from decimal digits

Of the digits of a decimal, those from the left that make a number below `2 ^ 64` are kept. The number they
make is rounded to a double, and the double is multiplied by, or divided by, the power of ten that the place
of the point and the exponent ask for. Each of these steps rounds to nearest, so the outcome can differ from
the double nearest to the decimal by a unit in the last place.
-/

namespace Standby.Decimal

/-- The digits kept so far and the power of ten that they still have to be scaled by. -/
structure Kept where
  significand : Nat
  exponent : Int
  deriving DecidableEq, Repr

/-- The significand with one more digit, if it stays below `2 ^ 64`. -/
def pushDigit? (significand : Nat) (c : Char) : Option Nat :=
  let n := 10 * significand + (c.toNat - 48)
  if n < Nat.pow 2 64 then some n else none

/-- Takes the digits before the point. The first digit that does not fit and all after it are dropped, and
each counts for a factor of ten. -/
def Kept.ofWhole (significand : Nat) : List Char → Kept
  | [] => ⟨significand, 0⟩
  | c :: cs =>
    match pushDigit? significand c with
    | some n => Kept.ofWhole n cs
    | none => ⟨significand, cs.length + 1⟩

/-- Takes the digits after the point, up to the first that does not fit. -/
def Kept.addFraction (k : Kept) : List Char → Kept
  | [] => k
  | c :: cs =>
    match pushDigit? k.significand c with
    | some n => Kept.addFraction ⟨n, k.exponent - 1⟩ cs
    | none => k

/-- The double nearest to `10 ^ n`. -/
def tenTo (n : Nat) : Float := Float.ofScientific 1 false n

/-- `x / 10 ^ n`, in steps of at most `10 ^ 308`. -/
def shrink (x : Float) (n : Nat) : Float :=
  if n ≤ 308 then x / tenTo n
  else if x == 0 then x
  else shrink (x / tenTo 308) (n - 308)
termination_by n

/-- The scaled double, unless it is too large. -/
def Kept.toFloat? (k : Kept) : Option Float :=
  let x := k.significand.toUInt64.toFloat
  if k.exponent < 0 then some (shrink x (-k.exponent).toNat)
  else if k.exponent ≤ 308 then
    let y := x * tenTo k.exponent.toNat
    if y.isInf then none else some y
  else if k.significand = 0 then some x
  else none

end Standby.Decimal
