import Standby.Engine.Action
/-!
# Extensions

The API is made of extensions. An extension brings resources, and controllers that add actions and hooks to
resources, its own or those of others.
-/

namespace Standby

/-- The collection whose members another collection stands below. -/
structure Parent where
  collection : String
  /-- The parameter that holds the member's identifier. -/
  param : String
  deriving DecidableEq, Repr

structure Resource (σ κ : Type) where
  collection : String
  member : String
  parent : Option Parent := none
  /-- The resource whose controllers apply to this one too. -/
  inherits : Option String := none
  versioned : Bool := true
  /-- Whether the resource stands at the root of the API. -/
  root : Bool := false
  actions : Registry (Action σ κ) := .empty

/-- What an extension adds to a resource: actions of the action endpoint, and hooks. -/
structure Controller (σ κ : Type) where
  resource : String
  actions : Registry (Action σ κ) := .empty
  hooks : Registry (Hook σ κ) := .empty

/-- A part of the API that can be left out. -/
structure Extension (σ κ : Type) where
  name : String
  /-- The name under which the extension is found and disabled. -/
  shortName : String
  updated : String
  description : String := ""
  resources : Except RegistryError (List (Resource σ κ)) := .ok []
  controllers : Except RegistryError (List (Controller σ κ)) := .ok []

def Extension.isValid {σ κ : Type} (e : Extension σ κ) : Bool := e.name ≠ "" && e.shortName ≠ ""

/-- Why extensions do not go together. -/
inductive ExtensionError where
  | duplicateShortName (name : String)
  | duplicateResource (collection : String)
  | unknownParent (resource parent : String)
  | registry (e : RegistryError)
  deriving DecidableEq, Repr

def ExtensionError.message : ExtensionError → String
  | .duplicateShortName name => s!"Found duplicate extension: {name}"
  | .duplicateResource collection => s!"Found duplicate resource: {collection}"
  | .unknownParent resource parent => s!"Resource {resource} names unknown parent {parent}"
  | .registry e => e.message

/-- The extensions that are loaded, in the order in which they were added. -/
structure ExtensionSet (σ κ : Type) where
  list : List (Extension σ κ)

namespace ExtensionSet

variable {σ κ : Type}

def empty : ExtensionSet σ κ := ⟨[]⟩

def get? (s : ExtensionSet σ κ) (name : String) : Option (Extension σ κ) :=
  s.list.find? (·.shortName == name)

/-- The extensions in the order of their short names. -/
def sorted (s : ExtensionSet σ κ) : List (Extension σ κ) := s.list.mergeSort fun a b => a.shortName ≤ b.shortName

/-- Adds an extension and says whether it was added. One that is not valid is left out, and a short name
that is taken is an error. -/
def add (s : ExtensionSet σ κ) (e : Extension σ κ) : Except ExtensionError (Bool × ExtensionSet σ κ) :=
  if !e.isValid then .ok (false, s)
  else if (s.get? e.shortName).isSome then .error (.duplicateShortName e.shortName)
  else .ok (true, ⟨s.list ++ [e]⟩)

end ExtensionSet

end Standby
