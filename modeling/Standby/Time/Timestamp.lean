import Standby.Text.Ascii
import Standby.Text.Blank
import Standby.Time.Instant
/-!
# Reading timestamps

`Timestamp.strict?` reads an RFC 3339 timestamp: every part has its full number of digits, `T`, `t` or a
space stands between date and time, and the offset is `Z`, `z` or a sign with hours and minutes.
`Timestamp.lenient?` also allows fewer digits, a signed year of any length, blanks around the parts, an offset
without its colon, and the name `UTC`. Where both read a text they give the same instant.
-/

namespace Standby.Time.Timestamp

/-- The parts of a timestamp as they are written; the offset is in seconds. -/
structure Parts where
  date : Date
  hour : Nat
  minute : Nat
  second : Nat
  nanos : Nat
  offset : Int

/-- The instant that the parts name, if they name one. A second of 60 is a leap second. -/
def Parts.instant? (p : Parts) : Option Instant :=
  let isLeapSecond := p.second == 60
  let second := if isLeapSecond then 59 else p.second
  let wall : Int := 86400 * p.date.toDays + 3600 * p.hour + 60 * p.minute + second
  let seconds := wall - p.offset
  if p.date.isValid && p.hour ≤ 23 && p.minute ≤ 59 && p.second ≤ 60 && p.offset.natAbs < 86400
      && Instant.minSeconds ≤ seconds && seconds ≤ Instant.maxSeconds then
    some ⟨seconds, if isLeapSecond then p.nanos + 1000000000 else p.nanos⟩
  else none

/-- At least one and at most `most` digits, and the rest of the text. -/
def digits? (most : Nat) (cs : List Char) : Option (List Char × List Char) :=
  let ds := (cs.take most).takeWhile Char.isDigit
  if ds.isEmpty then none else some (ds, cs.drop ds.length)

/-- A number of one to `most` digits. -/
def number? (most : Nat) (cs : List Char) : Option (Nat × List Char) :=
  (digits? most cs).map fun (ds, rest) => (Text.digitsValue ds, rest)

/-- A number of exactly `width` digits. -/
def fixed? (width : Nat) (cs : List Char) : Option (Nat × List Char) := do
  let (ds, rest) ← digits? width cs
  if ds.length = width then some (Text.digitsValue ds, rest) else none

/-- The given character, and what follows it. -/
def char? (c : Char) : List Char → Option (List Char)
  | d :: rest => if c = d then some rest else none
  | [] => none

/-- What follows the sign between date and time. -/
def separator? : List Char → Option (List Char)
  | c :: rest => if c = 'T' || c = 't' || c = ' ' then some rest else none
  | [] => none

/-- The fraction of a second in nanoseconds, if a point begins it. Digits beyond the ninth do not count. -/
def fraction? : List Char → Option (Nat × List Char)
  | '.' :: cs => do
    let (ds, rest) ← digits? 9 cs
    some (Text.digitsValue ds * Nat.pow 10 (9 - ds.length), rest.dropWhile Char.isDigit)
  | cs => some (0, cs)

/-- An offset from UTC in seconds. What stands between its hours and minutes is read by `between`. -/
def offset? (between : List Char → Option (List Char)) : List Char → Option (Int × List Char)
  | [] => none
  | c :: cs =>
    if c = 'Z' || c = 'z' then some (0, cs)
    else if c = '+' || c = '-' || c = '\u2212' then do
      let (hours, cs) ← fixed? 2 cs
      let cs ← between cs
      let (minutes, cs) ← fixed? 2 cs
      if minutes ≤ 59 then
        let size : Int := 3600 * hours + 60 * minutes
        some (if c = '+' then size else -size, cs)
      else none
    else none

/-- Reads an RFC 3339 timestamp. -/
def strict? (s : String) : Option Instant := do
  let (year, cs) ← fixed? 4 s.toList
  let cs ← char? '-' cs
  let (month, cs) ← fixed? 2 cs
  let cs ← char? '-' cs
  let (day, cs) ← fixed? 2 cs
  let cs ← separator? cs
  let (hour, cs) ← fixed? 2 cs
  let cs ← char? ':' cs
  let (minute, cs) ← fixed? 2 cs
  let cs ← char? ':' cs
  let (second, cs) ← fixed? 2 cs
  let (nanos, cs) ← fraction? cs
  let (offset, cs) ← offset? (char? ':') cs
  if cs.isEmpty then Parts.instant? ⟨⟨year, month, day⟩, hour, minute, second, nanos, offset⟩ else none

/-- A year with a sign and any number of digits, or up to four digits without one. -/
def lenientYear? (cs : List Char) : Option (Int × List Char) :=
  match Text.skipBlanks cs with
  | '-' :: cs => (number? cs.length cs).map fun (n, rest) => (-(n : Int), rest)
  | '+' :: cs => (number? cs.length cs).map fun (n, rest) => ((n : Int), rest)
  | cs => (number? 4 cs).map fun (n, rest) => ((n : Int), rest)

/-- One or two digits after any blanks. -/
def lenientPart? (cs : List Char) : Option (Nat × List Char) := number? 2 (Text.skipBlanks cs)

/-- The given character after any blanks, and what follows it. -/
def lenientChar? (c : Char) (cs : List Char) : Option (List Char) := char? c (Text.skipBlanks cs)

/-- An offset after any blanks. -/
def lenientOffset? (cs : List Char) : Option (Int × List Char) :=
  let cs := Text.skipBlanks cs
  if (cs.take 3).map Char.toUpper = ['U', 'T', 'C'] then some (0, cs.drop 3)
  else offset? (fun cs => some (cs.dropWhile fun c => c == ':' || Text.isBlank c)) cs

/-- Reads a timestamp in the wider form. -/
def lenient? (s : String) : Option Instant := do
  let (year, cs) ← lenientYear? s.toList
  let cs ← lenientChar? '-' cs
  let (month, cs) ← lenientPart? cs
  let cs ← lenientChar? '-' cs
  let (day, cs) ← lenientPart? cs
  let cs ← separator? cs
  let (hour, cs) ← lenientPart? cs
  let cs ← lenientChar? ':' cs
  let (minute, cs) ← lenientPart? cs
  let cs ← lenientChar? ':' cs
  let (second, cs) ← lenientPart? cs
  let (nanos, cs) ← fraction? cs
  let (offset, cs) ← lenientOffset? cs
  if (Text.skipBlanks cs).isEmpty then
    Parts.instant? ⟨⟨year, month, day⟩, hour, minute, second, nanos, offset⟩
  else none

end Standby.Time.Timestamp
