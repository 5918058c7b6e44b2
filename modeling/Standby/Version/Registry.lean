import Standby.Assoc
import Standby.Version.Range
/-!
# Bindings by name and version

A registry binds each name to several things, each for a range of versions. Two ranges of one name share no
version, so that a name and a version select at most one of them. The bindings of a name are kept with the
highest lower bound first.
-/

namespace Standby

/-- Why a binding is refused. -/
inductive RegistryError where
  | overlapping (name : String)
  | inverted (name : String) (min max : Version)
  deriving DecidableEq, Repr

def RegistryError.message : RegistryError → String
  | .overlapping name => s!"Versioned method {name} has overlapping version ranges"
  | .inverted name min max =>
    s!"Versioned method {name} has an empty version range ({min.text} > {max.text})"

/-- Something bound to a range of versions. -/
structure Binding (α : Type) where
  range : VersionRange
  target : α

/-- The bindings of every name. -/
structure Registry (α : Type) where
  entries : List (String × List (Binding α))

namespace Registry

variable {α : Type}

def empty : Registry α := ⟨[]⟩

instance : Inhabited (Registry α) := ⟨empty⟩

/-- The bindings of a name, the highest lower bound first. -/
def bindings (r : Registry α) (name : String) : List (Binding α) := (lookup? name r.entries).getD []

/-- The order in which the bindings of a name are kept. -/
def isBefore (a b : Binding α) : Bool := b.range.lower.le a.range.lower

def register (r : Registry α) (name : String) (range : VersionRange) (target : α) :
    Except RegistryError (Registry α) :=
  match range.isInverted, range.min, range.max with
  | true, some min, some max => .error (.inverted name min max)
  | _, _, _ =>
    let old := r.bindings name
    if VersionRange.overlap (old.map (·.range) ++ [range]) then .error (.overlapping name)
    else .ok ⟨insertKey name ((old ++ [Binding.mk range target]).mergeSort isBefore) r.entries⟩

/-- What a name stands for at a version. -/
def resolve (r : Registry α) (name : String) (v : Version) : Option α :=
  ((r.bindings name).find? (·.range.contains v)).map (·.target)

/-- Whether a name has any binding, at whatever version. -/
def contains (r : Registry α) (name : String) : Bool := (lookup? name r.entries).isSome

def names (r : Registry α) : List String := r.entries.map (·.1)

/-- Every version that is a bound of a range. -/
def mentioned (r : Registry α) : List Version :=
  r.entries.flatMap fun (_, bs) => bs.flatMap fun b => b.range.min.toList ++ b.range.max.toList

def latest? : List Version → Option Version
  | [] => none
  | v :: vs => some (vs.foldl Version.max v)

/-- The latest version that is a bound of a range. -/
def latestMentioned? (r : Registry α) : Option Version := latest? r.mentioned

end Registry

end Standby
