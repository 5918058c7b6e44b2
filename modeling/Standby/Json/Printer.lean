import Standby.Decimal.Shortest
import Standby.Json.Basic
import Standby.Text.Ascii
/-!
# JSON text of a value

The text has no blanks. In a string the quote, the backslash and the control characters below U+0020 are
escaped, and all else stands for itself. A double is written with the fewest digits that read back as it:
with a point for magnitudes from `1e-5` to below `1e16`, and else as a mantissa with a signed exponent.
-/

namespace Standby.Json

/-- One character of a string. -/
def escaped (c : Char) : String :=
  if c = '\x22' then "\\\""
  else if c = '\x5c' then "\\\\"
  else if c = '\n' then "\\n"
  else if c = '\r' then "\\r"
  else if c = '\t' then "\\t"
  else if c.toNat = 8 then "\\b"
  else if c.toNat = 12 then "\\f"
  else if c.toNat < 32 then
    "\\u00" ++ String.singleton (Text.hexDigit (c.toNat / 16)).toLower
      ++ String.singleton (Text.hexDigit (c.toNat % 16)).toLower
  else String.singleton c

/-- A string between its quotes. -/
def quoted (s : String) : String := "\"" ++ String.join (s.toList.map escaped) ++ "\""

/-- A decimal with digits `ds`, the last of which counts `10 ^ e`. -/
def decimalText (ds : List Char) (e : Int) : String :=
  let point : Int := ds.length + e
  if 0 ≤ e && point ≤ 16 then String.ofList (ds ++ List.replicate e.toNat '0') ++ ".0"
  else if 0 < point && point ≤ 16 then
    String.ofList (ds.take point.toNat) ++ "." ++ String.ofList (ds.drop point.toNat)
  else if -5 < point && point ≤ 0 then
    "0." ++ String.ofList (List.replicate (-point).toNat '0' ++ ds)
  else
    let exponent := point - 1
    let sign := if exponent < 0 then "-" else "+"
    let mantissa :=
      match ds with
      | d :: rest@(_ :: _) => String.singleton d ++ "." ++ String.ofList rest
      | _ => String.ofList ds
    mantissa ++ "e" ++ sign ++ toString exponent.natAbs

/-- A decimal whose last digit is not zero, with the same value. -/
def stripZeros : List Char → Int → List Char × Int
  | ds, e =>
    let kept := (ds.reverse.dropWhile (· == '0')).reverse
    (kept, e + (ds.length - kept.length : Nat))

/-- A double. One that is not finite has no text of its own and is written as `null`. -/
def realText (x : Float) : String :=
  if x.isNaN || x.isInf then "null"
  else
    let bits := x.toBits.toNat
    let sign := if bits < Nat.pow 2 63 then "" else "-"
    if bits % Nat.pow 2 63 = 0 then sign ++ "0.0"
    else
      let (m, q) := Decimal.ofBits bits
      let d := Decimal.shortest m q
      let (ds, e) := stripZeros (Decimal.natDigits d.digits) d.exponent
      sign ++ decimalText ds e

def numberText : Number → String
  | .int n => toString n
  | .real x => realText x

mutual

def text : Json → String
  | .null => "null"
  | .bool true => "true"
  | .bool false => "false"
  | .num n => numberText n
  | .str s => quoted s
  | .arr items => "[" ++ itemsText items ++ "]"
  | .obj members => "\x7b" ++ membersText members ++ "\x7d"

/-- The items of an array, separated by commas. -/
def itemsText : List Json → String
  | [] => ""
  | [j] => text j
  | j :: js => text j ++ "," ++ itemsText js

/-- The members of an object, separated by commas. -/
def membersText : List (String × Json) → String
  | [] => ""
  | [(k, v)] => quoted k ++ ":" ++ text v
  | (k, v) :: rest => quoted k ++ ":" ++ text v ++ "," ++ membersText rest

end

end Standby.Json
