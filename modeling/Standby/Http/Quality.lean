import Standby.Text.Ascii
/-!
# Quality values

A quality weighs an alternative that a client offers. It is a number in binary floating point with 24
significant bits, and all such numbers are multiples of `2 ^ -149`: a quality is kept as how many of these
steps it is. The number of steps that is one too many for a finite value stands for infinity.
-/

namespace Standby

/-- A quality, which may be undefined. -/
inductive Quality where
  | undefined
  | steps (n : Int)
  deriving DecidableEq, Repr

namespace Quality

/-- The quality of an alternative that comes without one. -/
def one : Quality := .steps (Nat.pow 2 149)

/-- The number of steps that is infinity. -/
def infinite : Nat := Nat.pow 2 277

/-- Whether the first quality is defined and above the second, which is defined too. -/
def above : Quality → Quality → Bool
  | .steps a, .steps b => b < a
  | _, _ => false

/-- Whether a quality is defined and above zero. -/
def isPositive : Quality → Bool
  | .steps n => 0 < n
  | .undefined => false

/-- The greater of two qualities; one that is undefined does not count. -/
def max : Quality → Quality → Quality
  | .steps a, .steps b => .steps (if a < b then b else a)
  | .undefined, b => b
  | a, .undefined => a

/-- The whole number nearest to `num / den`; of two equally near the even one. -/
def nearest (num den : Nat) : Nat :=
  let q := num / den
  let r := num % den
  if 2 * r < den || (2 * r = den && q % 2 = 0) then q else q + 1

/-- The steps nearest to `num / den` that have 24 significant bits. -/
def roundSteps (num den : Nat) : Nat :=
  let whole := num * Nat.pow 2 149 / den
  let unit := Nat.pow 2 ((if whole = 0 then 0 else whole.log2 + 1) - 24)
  min infinite (nearest (num * Nat.pow 2 149) (den * unit) * unit)

/-- The steps nearest to `digits · 10 ^ exponent`. Beyond `10 ^ 60` and below `10 ^ -60` the outcome is known
from the size alone. -/
def decimalSteps (digits : List Char) (exponent : Int) : Nat :=
  let ds := digits.dropWhile (· == '0')
  let n := Text.digitsValue ds
  if n = 0 then 0
  else if 60 < ds.length + exponent then infinite
  else if ds.length + exponent < -60 then 0
  else roundSteps (n * Nat.pow 10 exponent.toNat) (Nat.pow 10 (-exponent).toNat)

/-- The exponent of a decimal, which is zero when it is missing. -/
def exponent? : List Char → Option Int
  | [] => some 0
  | c :: cs =>
    if c = 'e' || c = 'E' then
      match cs with
      | '-' :: cs => (Text.natural? cs).map fun n => -(n : Int)
      | '+' :: cs => (Text.natural? cs).map fun n => (n : Int)
      | cs => (Text.natural? cs).map fun n => (n : Int)
    else none

/-- The steps of an unsigned number: a decimal with at least one digit, or a word for infinity. -/
def unsigned? (cs : List Char) : Option Nat :=
  let word := cs.map Char.toLower
  if word = "inf".toList || word = "infinity".toList then some infinite
  else
    let whole := cs.takeWhile Char.isDigit
    let rest := cs.dropWhile Char.isDigit
    let (fraction, rest) :=
      match rest with
      | '.' :: rest => (rest.takeWhile Char.isDigit, rest.dropWhile Char.isDigit)
      | rest => ([], rest)
    if whole.isEmpty && fraction.isEmpty then none
    else (exponent? rest).map fun e => decimalSteps (whole ++ fraction) (e - fraction.length)

/-- The quality that a text writes: a number with or without a sign, or a word for an undefined one. -/
def ofText? (s : String) : Option Quality :=
  let (negative, cs) :=
    match s.toList with
    | '-' :: cs => (true, cs)
    | '+' :: cs => (false, cs)
    | cs => (false, cs)
  if cs.map Char.toLower = "nan".toList then some .undefined
  else (unsigned? cs).map fun n => .steps (if negative then -(n : Int) else n)

end Quality

end Standby
