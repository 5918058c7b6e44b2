import Standby.Assoc
import Standby.Error
import Standby.Failover.Rows
import Standby.Listing.Order
/-!
# The store

Rows are kept in tables under their identifiers. The names of segments and of hosts are unique in their tables,
and an index finds the identifier of each name. Ids count up and are not used again. What changes the store is a
`StoreStep`, which reads and writes one thing after another; the operations on a store carry it out.
-/

namespace Standby

/-- Why the store refuses something. -/
inductive StoreError where
  | notFound (table : Table) (key : String)
  | alreadyExists (table : Table) (name : String)
  | invalidMarker (marker : String)
  | invalid (message : String)
  deriving DecidableEq, Repr

def StoreError.message : StoreError → String
  | .notFound table key => s!"{table.rowName} {key} could not be found."
  | .alreadyExists table name => s!"{table.rowName} with name {name} already exists."
  | .invalidMarker marker => s!"Marker {marker} could not be found."
  | .invalid message => message

/-- The failure of a request that a refusal is. -/
def ApiError.ofStoreError (e : StoreError) : ApiError :=
  match e with
  | .notFound .. => .notFound e.message
  | .alreadyExists .. => .conflict e.message
  | .invalidMarker marker => .invalidMarker marker
  | .invalid message => .invalid message

/-- The tables, the indexes of names and the last ids given out. -/
structure Store where
  segments : List (String × Segment) := []
  segmentNames : List (String × String) := []
  hosts : List (String × Host) := []
  hostNames : List (String × String) := []
  notifications : List (String × Notification) := []
  lastSegmentId : Nat := 0
  lastHostId : Nat := 0
  lastNotificationId : Nat := 0

namespace Store

/-- A store without rows, from which no id has been given out. -/
def empty : Store := {}

/-- Takes out all rows. The ids go on from where they are. -/
def reset (s : Store) : Store :=
  { s with segments := [], segmentNames := [], hosts := [], hostNames := [], notifications := [] }

def find {α : Type} (table : Table) (uuid : String) (rows : List (String × α)) : Except StoreError α :=
  match lookup? uuid rows with
  | some row => .ok row
  | none => .error (.notFound table uuid)

/-- The rows of a table that pass a filter, in the order and from the slice that is asked for. -/
def list {α : Type} [Listed α] (rows : List (String × α)) (keep : α → Bool) (slice : Slice) :
    Except StoreError (List α) :=
  match Listing.slice? slice ((rows.map (·.2)).filter keep) with
  | some rows => .ok rows
  | none => .error (.invalidMarker (slice.marker.getD ""))

end Store

/-- A step on the store or on a part of it, which can be refused. What it did before it was refused stays done. -/
abbrev StoreStep (σ α : Type) : Type := ExceptT StoreError (StateM σ) α

namespace StoreStep

/-- What a step gives, with what it leaves, unless it is refused. -/
def attempt {σ α : Type} (x : StoreStep σ α) (s : σ) : Except StoreError (α × σ) :=
  match x.run.run s with
  | (.ok a, s') => .ok (a, s')
  | (.error e, _) => .error e

/-- Takes a step on a part of the store. -/
def within {σ α : Type} (part : Store → σ) (put : Store → σ → Store) (x : StoreStep σ α) : StoreStep Store α := do
  let (r, p) := x.run.run (part (← get))
  modify (put · p)
  r

/-- Is refused if something stands in the way. -/
def refuseIf {σ : Type} (obstacle : Bool) (e : StoreError) : StoreStep σ Unit := if obstacle then throw e else pure ()

/-- Gives a row a new name in the index of its table, and only then takes the old name out. -/
def rename (table : Table) (uuid old new : String) : StoreStep (List (String × String)) Unit := do
  unless old = new do
    refuseIf (lookup? new (← get)).isSome (.alreadyExists table new)
    modify (insertKey new uuid)
    modify (eraseKey old)

end StoreStep

end Standby
