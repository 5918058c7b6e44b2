import Standby.Time.Calendar
/-!
# Instants

An instant is a number of seconds since 1970-01-01T00:00:00Z with a fraction in nanoseconds. A fraction of a
billion or more says that the instant lies in a leap second, which follows the second that it counts with.
Instants are ordered by second and then by fraction. A span of time leads from one back to an earlier one.
-/

namespace Standby.Time

/-- A span of time: whole seconds and a fraction in nanoseconds. -/
structure Span where
  seconds : Nat
  nanos : Nat
  deriving DecidableEq, Repr

namespace Span

/-- The longest span, which has as many milliseconds as a signed number of 64 bits can count. -/
def longest : Span := ⟨9223372036854775, 807000000⟩

/-- The span of some seconds, if none is longer than the longest. -/
def ofSeconds? (n : Nat) : Option Span := if n ≤ longest.seconds then some ⟨n, 0⟩ else none

end Span

structure Instant where
  seconds : Int
  nanos : Nat
  deriving DecidableEq, Repr

namespace Instant

/-- Whether one instant comes before another or is the same. -/
def le (a b : Instant) : Bool := a.seconds < b.seconds || (a.seconds == b.seconds && a.nanos ≤ b.nanos)

/-- The first second that an instant can have. -/
def minSeconds : Int := 86400 * (Date.mk minYear 1 1).toDays

def maxSeconds : Int := 86400 * (Date.mk maxYear 12 31).toDays + 86399

def first : Instant := ⟨minSeconds, 0⟩

/-- The instant that lies a span before, if it is not before the first. A step of a second or more back out of a leap
second begins at the end of it. -/
def minus? (t : Instant) (span : Span) : Option Instant :=
  let leaves : Bool := 1000000000 ≤ t.nanos && 0 < span.seconds
  let seconds := (if leaves then t.seconds + 1 else t.seconds) - span.seconds
  let nanos := if leaves then t.nanos - 1000000000 else t.nanos
  let earlier : Instant :=
    if nanos < span.nanos then ⟨seconds - 1, nanos + 1000000000 - span.nanos⟩ else ⟨seconds, nanos - span.nanos⟩
  if minSeconds ≤ earlier.seconds then some earlier else none

/-- A number with at least `width` digits. -/
def padded (width n : Nat) : String :=
  let ds := Nat.toDigits 10 n
  String.ofList (List.replicate (width - ds.length) '0' ++ ds)

/-- A year: four digits, or a sign and at least four. -/
def yearText (y : Int) : String :=
  if 0 ≤ y && y ≤ 9999 then padded 4 y.toNat
  else (if y < 0 then "-" else "+") ++ padded 4 y.natAbs

/-- The fraction of a second with as many digits as it needs, in steps of three. -/
def fractionText (nanos : Nat) : String :=
  if nanos = 0 then ""
  else if nanos % 1000000 = 0 then "." ++ padded 3 (nanos / 1000000)
  else if nanos % 1000 = 0 then "." ++ padded 6 (nanos / 1000)
  else "." ++ padded 9 nanos

/-- The instant as an RFC 3339 timestamp in UTC. -/
def text (t : Instant) : String :=
  let days := t.seconds.fdiv 86400
  let inDay := (t.seconds - 86400 * days).toNat
  let date := Date.ofDays days
  let isLeapSecond := 1000000000 ≤ t.nanos
  let second := inDay % 60 + if isLeapSecond then 1 else 0
  let nanos := if isLeapSecond then t.nanos - 1000000000 else t.nanos
  yearText date.year ++ "-" ++ padded 2 date.month ++ "-" ++ padded 2 date.day ++ "T"
    ++ padded 2 (inDay / 3600) ++ ":" ++ padded 2 (inDay / 60 % 60) ++ ":" ++ padded 2 second
    ++ fractionText nanos ++ "Z"

end Instant

end Standby.Time
