/-!
# ASCII letters and digits

Names of media types, headers, roles and languages are compared without regard to the case of the
letters `A` to `Z`; every other character stands for itself.
-/

namespace Standby.Text

/-- The text with the letters `A` to `Z` in lower case. -/
def lower (s : String) : String := String.ofList (s.toList.map Char.toLower)

/-- Equality up to the case of the letters `A` to `Z`. -/
def sameIgnoringCase (a b : String) : Bool := a.toList.map Char.toLower == b.toList.map Char.toLower

/-- The value of a hexadecimal digit of either case. -/
def hexValue? (c : Char) : Option Nat :=
  if '0' ≤ c ∧ c ≤ '9' then some (c.toNat - 48)
  else if 'a' ≤ c ∧ c ≤ 'f' then some (c.toNat - 87)
  else if 'A' ≤ c ∧ c ≤ 'F' then some (c.toNat - 55)
  else none

/-- The hexadecimal digit of a number below sixteen, in upper case. -/
def hexDigit (n : Nat) : Char := if n < 10 then Char.ofNat (48 + n) else Char.ofNat (55 + n)

/-- The number that a run of decimal digits denotes. -/
def digitsValue (cs : List Char) : Nat := cs.foldl (fun n c => 10 * n + (c.toNat - 48)) 0

/-- The number that a non-empty run of ASCII digits denotes. -/
def natural? (cs : List Char) : Option Nat :=
  if cs.isEmpty || !cs.all Char.isDigit then none else some (digitsValue cs)

/-- A decimal integer between `lo` and `hi`: digits, after at most one sign. Leading zeros are allowed; a
minus sign is read only where `lo` is negative. -/
def integerIn? (lo hi : Int) (s : String) : Option Int :=
  let value : Option Int :=
    match s.toList with
    | '+' :: cs => (natural? cs).map Int.ofNat
    | '-' :: cs => if lo < 0 then (natural? cs).map fun n => - Int.ofNat n else none
    | cs => (natural? cs).map Int.ofNat
  value.filter fun n => lo ≤ n && n ≤ hi

/-- An integer that fits 64 bits with a sign. -/
def int64? (s : String) : Option Int := integerIn? (-9223372036854775808) 9223372036854775807 s

/-- An integer that fits 64 bits without a sign. -/
def nat64? (s : String) : Option Nat := (integerIn? 0 18446744073709551615 s).map Int.toNat

end Standby.Text
