import Standby.Version.Basic
/-!
# Ranges of versions

A range has an inclusive lower and upper bound, each of which may be missing. `overlap` says whether two of a
list of ranges share a version. It walks along the bounds in order of version, with the lower bounds at a
version before the upper ones, and counts the ranges that are open.
-/

namespace Standby

/-- The versions from `min` to `max`. -/
structure VersionRange where
  min : Option Version
  max : Option Version
  deriving DecidableEq, Repr

namespace VersionRange

def all : VersionRange := ⟨none, none⟩

def since (v : Version) : VersionRange := ⟨some v, none⟩

def between (a b : Version) : VersionRange := ⟨some a, some b⟩

def contains (r : VersionRange) (v : Version) : Bool := v.isWithin r.min r.max

/-- Whether both bounds are there and the lower one is above the upper. -/
def isInverted (r : VersionRange) : Bool :=
  match r.min, r.max with
  | some lo, some hi => !lo.le hi
  | _, _ => false

/-- The lower bound, or the least pair of numbers if it is missing. -/
def lower (r : VersionRange) : Version := r.min.getD .least

/-- The upper bound, or the greatest version if it is missing. -/
def upper (r : VersionRange) : Version := r.max.getD .greatest

/-- A bound on the way along the versions: one that opens a range or one that closes it. -/
structure Bound where
  version : Version
  opens : Bool
  deriving DecidableEq, Repr

def Bound.le (a b : Bound) : Bool :=
  if a.version = b.version then a.opens || !b.opens else a.version.le b.version

def bounds (r : VersionRange) : List Bound := [⟨r.lower, true⟩, ⟨r.upper, false⟩]

/-- Whether more than one range is open at some point, when `depth` are open at the start. -/
def exceedsOne (depth : Int) : List Bound → Bool
  | [] => false
  | b :: bs =>
    let depth := if b.opens then depth + 1 else depth - 1
    1 < depth || exceedsOne depth bs

/-- Whether two of the ranges share a version. -/
def overlap (ranges : List VersionRange) : Bool :=
  exceedsOne 0 ((ranges.flatMap bounds).mergeSort Bound.le)

end VersionRange

end Standby
