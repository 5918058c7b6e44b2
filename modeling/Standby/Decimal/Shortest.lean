/-!
# The shortest decimal of a binary number

A finite double is `m · 2 ^ q`. The decimals that read back as it fill an interval around it, which reaches
half way to its two neighbours and holds its ends when `m` is even. `shortest m q` is a point of that
interval on the coarsest decimal grid that meets it, and so has the fewest digits; of two points on that
grid the nearer is taken, and of two equally near the even one.
-/

namespace Standby.Decimal

/-- The decimal `digits · 10 ^ exponent`. -/
structure Scaled where
  digits : Nat
  exponent : Int
  deriving DecidableEq, Repr

/-- The decimal digits of a number, most significant first. -/
def natDigits (n : Nat) : List Char := Nat.toDigits 10 n

/-- A finite double without its sign, as `m · 2 ^ q`. -/
def ofBits (bits : Nat) : Nat × Int :=
  let fraction := bits % Nat.pow 2 52
  let biased := bits / Nat.pow 2 52 % Nat.pow 2 11
  if biased = 0 then (fraction, -1074) else (Nat.pow 2 52 + fraction, Int.ofNat biased - 1075)

/-- The point of the grid `10 ^ p` nearest to `m · 2 ^ q` among those that read back as it. All comparisons
are of `x · a` with `d · b`, where `x` counts quarters of `2 ^ q` and `d` steps of the grid. -/
def gridPoint? (m : Nat) (q p : Int) : Option Nat :=
  let a := Nat.pow 2 (q - 2).toNat * Nat.pow 10 (-p).toNat
  let b := Nat.pow 2 (2 - q).toNat * Nat.pow 10 p.toNat
  let value := 4 * m * a
  let low := (4 * m - if m = Nat.pow 2 52 && q > -1074 then 1 else 2) * a
  let high := (4 * m + 2) * a
  let inside (d : Nat) : Bool :=
    if m % 2 = 0 then low ≤ d * b && d * b ≤ high else low < d * b && d * b < high
  let d := value / b
  let below := value - d * b
  let above := (d + 1) * b - value
  if inside d && inside (d + 1) then
    some (if below < above || (below == above && d % 2 == 0) then d else d + 1)
  else if inside d then some d
  else if inside (d + 1) then some (d + 1)
  else none

/-- The powers of ten that a double can need as a grid, the coarsest first. -/
def grids : List Int := (List.range 660).map fun i => 310 - Int.ofNat i

/-- The decimal with the fewest digits that reads back as `m · 2 ^ q`. -/
def shortest (m : Nat) (q : Int) : Scaled :=
  (grids.findSome? fun p => (gridPoint? m q p).map fun d => ⟨d, p⟩).getD ⟨0, 0⟩

end Standby.Decimal
