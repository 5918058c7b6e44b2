import Standby.Text.Ascii
import Standby.Text.Blank
import Standby.Text.Split
/-!
# Microversions

A version is a pair of numbers of 32 bits, written `major.minor` in one way only: the major number is at least
one and neither has a leading zero. A request names a version, asks for the latest one, or names none; a `Window`
says what the server supports and resolves a request to a version inside it.
-/

namespace Standby

structure Version where
  major : UInt32
  minor : UInt32
  deriving DecidableEq, Repr

namespace Version

/-- The order of versions: by major, then by minor number. -/
def le (a b : Version) : Bool := a.major < b.major || (a.major == b.major && a.minor ≤ b.minor)

instance : LE Version := ⟨fun a b => a.le b = true⟩

instance (a b : Version) : Decidable (a ≤ b) := inferInstanceAs (Decidable (a.le b = true))

/-- The least pair of numbers. It is not the version of any API. -/
def least : Version := ⟨0, 0⟩

def greatest : Version := ⟨4294967295, 4294967295⟩

def max (a b : Version) : Version := if a.le b then b else a

def text (v : Version) : String := toString v.major.toNat ++ "." ++ toString v.minor.toNat

/-- Whether a text is a number as a version writes it: digits, without a zero in front. -/
def isCanonical (s : String) : Bool :=
  !s.isEmpty && s.toList.all Char.isDigit && (s == "0" || s.toList.head? != some '0')

/-- The part of a version that a text writes. -/
def part? (s : String) : Option UInt32 :=
  let n := Text.digitsValue s.toList
  if isCanonical s && n < UInt32.size then some (UInt32.ofNat n) else none

def ofText? (s : String) : Option Version := do
  let (major, minor) ← Text.cut? '.' s
  let major ← part? major
  let minor ← part? minor
  if major = 0 then none else some ⟨major, minor⟩

/-- Whether a version lies between two bounds, of which either may be missing. -/
def isWithin (v : Version) (min max : Option Version) : Bool :=
  (match min with
    | none => true
    | some lo => lo.le v)
  && match max with
    | none => true
    | some hi => v.le hi

end Version

/-- What a request says about the version. -/
inductive VersionToken where
  | null
  | latest
  | version (v : Version)
  deriving DecidableEq, Repr

/-- What can be wrong with a version, a request for one, or a window. -/
inductive VersionError where
  | invalidText (raw : String)
  | unsupported (requested min max : Version)
  | invalidWindow (min max default : Version)
  deriving DecidableEq, Repr

def VersionError.message : VersionError → String
  | .invalidText raw =>
    s!"API Version String {raw} is of invalid format. Must be of format MajorNum.MinorNum."
  | .unsupported requested min max =>
    s!"Version {requested.text} is not supported by the API. Minimum is {min.text} and maximum is {max.text}."
  | .invalidWindow min max default =>
    s!"invalid version window: min {min.text}, max {max.text}, default {default.text}"

/-- Reads a version, or says that the text writes none. -/
def Version.parse (s : String) : Except VersionError Version :=
  match Version.ofText? s with
  | some v => .ok v
  | none => .error (.invalidText s)

namespace VersionToken

def latestKeyword : String := "latest"

/-- Reads the keyword or a version, with blanks around it. -/
def parse (s : String) : Except VersionError VersionToken :=
  let t := Text.trim s
  if Text.sameIgnoringCase t latestKeyword then .ok .latest else (Version.parse t).map .version

/-- The version that a token carries. -/
def version? : VersionToken → Option Version
  | .version v => some v
  | _ => none

/-- Whether a token carries a version between two bounds; a bound without a version is open. -/
def isWithin (t min max : VersionToken) : Bool :=
  match t with
  | .version v => v.isWithin min.version? max.version?
  | _ => false

def text : VersionToken → String
  | .null => "null"
  | .latest => latestKeyword
  | .version v => v.text

end VersionToken

/-- The versions that a server supports, and the one it takes when a request names none. -/
structure Window where
  min : Version
  max : Version
  default : Version
  deriving DecidableEq, Repr

namespace Window

/-- The window with the given bounds, if the default version lies between them. -/
def ofBounds (min max default : Version) : Except VersionError Window :=
  if min.le default && default.le max then .ok ⟨min, max, default⟩
  else .error (.invalidWindow min max default)

/-- The version that a request is served at. -/
def resolve (w : Window) : Option VersionToken → Except VersionError Version
  | none => .ok w.default
  | some .null => .ok w.default
  | some .latest => .ok w.max
  | some (.version v) =>
    if v.isWithin (some w.min) (some w.max) then .ok v else .error (.unsupported v w.min w.max)

end Window

end Standby
