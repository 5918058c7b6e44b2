import Standby.Failover.Rows
import Standby.Json.Flag
import Standby.Time.Timestamp
/-!
# Bodies of requests that write

A draft holds what a new row is made of, and a patch what changes in one. Both are read from a record: an
object, of which only the known members count, or an array with the values in the order of the fields. In a
patch a field that is missing stays as it is.
-/

namespace Standby

namespace Record

/-- The values of the fields of a record; trailing ones may be missing from an array. -/
def fields? (names : List String) : Json → Option (List (Option Json))
  | .obj members => some (names.map (lookup? · members))
  | .arr items =>
    if items.length ≤ names.length then
      some (items.map some ++ List.replicate (names.length - items.length) none)
    else none
  | _ => none

/-- A field that must be there. -/
def required {α : Type} (read : Json → Option α) (field : Option Json) : Option α := field.bind read

/-- A field that may be missing or `null`. -/
def optional {α : Type} (read : Json → Option α) : Option Json → Option (Option α)
  | none => some none
  | some .null => some none
  | some j => (read j).map some

/-- A field that may be missing, where `null` is a value of its own. -/
def clearable {α : Type} (read : Json → Option α) : Option Json → Option (Option (Option α))
  | none => some none
  | some .null => some (some none)
  | some j => (read j).map fun x => some (some x)

/-- One of a set of names: a string, or an object whose only member has the name and the value `null`. -/
def named {α : Type} (ofName? : String → Option α) : Json → Option α
  | .str s => ofName? s
  | .obj [(s, .null)] => ofName? s
  | _ => none

/-- A timestamp. -/
def instant? (j : Json) : Option Time.Instant := j.str?.bind Time.Timestamp.lenient?

/-- The only field of a record, which holds another record. -/
def inner? {α : Type} (name : String) (read : Json → Option α) (j : Json) : Option α :=
  match fields? [name] j with
  | some [field] => required read field
  | _ => none

end Record

/-- A segment to create. -/
structure SegmentDraft where
  name : String
  description : Option String
  recoveryMethod : RecoveryMethod
  serviceType : String
  enabled : Option Bool
  deriving DecidableEq, Repr

/-- What changes in a segment. -/
structure SegmentPatch where
  name : Option String := none
  description : Option (Option String) := none
  recoveryMethod : Option RecoveryMethod := none
  serviceType : Option String := none
  enabled : Option Bool := none
  deriving DecidableEq, Repr

structure HostDraft where
  name : String
  hostType : String
  controlAttributes : String
  reserved : Option Bool
  onMaintenance : Option Bool
  deriving DecidableEq, Repr

structure HostPatch where
  name : Option String := none
  hostType : Option String := none
  controlAttributes : Option String := none
  reserved : Option Bool := none
  onMaintenance : Option Bool := none
  deriving DecidableEq, Repr

/-- A failure to report, with the name of the host. -/
structure NotificationDraft where
  kind : FailureKind
  hostName : String
  generatedAt : Time.Instant
  payload : Json

open Record

def segmentFields : List String := ["name", "description", "recovery_method", "service_type", "enabled"]

def hostFields : List String := ["name", "type", "control_attributes", "reserved", "on_maintenance"]

def notificationFields : List String := ["type", "hostname", "generated_time", "payload"]

def SegmentDraft.ofJson? (j : Json) : Option SegmentDraft :=
  match fields? segmentFields j with
  | some [name, description, method, service, enabled] => do
    let name ← required Json.str? name
    let description ← optional Json.str? description
    let recoveryMethod ← required (named RecoveryMethod.ofName?) method
    let serviceType ← required Json.str? service
    let enabled ← optional Flag.ofJson? enabled
    some { name, description, recoveryMethod, serviceType, enabled }
  | _ => none

def SegmentPatch.ofJson? (j : Json) : Option SegmentPatch :=
  match fields? segmentFields j with
  | some [name, description, method, service, enabled] => do
    let name ← optional Json.str? name
    let description ← clearable Json.str? description
    let recoveryMethod ← optional (named RecoveryMethod.ofName?) method
    let serviceType ← optional Json.str? service
    let enabled ← optional Flag.ofJson? enabled
    some { name, description, recoveryMethod, serviceType, enabled }
  | _ => none

def HostDraft.ofJson? (j : Json) : Option HostDraft :=
  match fields? hostFields j with
  | some [name, type, control, reserved, maintenance] => do
    let name ← required Json.str? name
    let hostType ← required Json.str? type
    let controlAttributes ← required Json.str? control
    let reserved ← optional Flag.ofJson? reserved
    let onMaintenance ← optional Flag.ofJson? maintenance
    some { name, hostType, controlAttributes, reserved, onMaintenance }
  | _ => none

def HostPatch.ofJson? (j : Json) : Option HostPatch :=
  match fields? hostFields j with
  | some [name, type, control, reserved, maintenance] => do
    let name ← optional Json.str? name
    let hostType ← optional Json.str? type
    let controlAttributes ← optional Json.str? control
    let reserved ← optional Flag.ofJson? reserved
    let onMaintenance ← optional Flag.ofJson? maintenance
    some { name, hostType, controlAttributes, reserved, onMaintenance }
  | _ => none

/-- Reads a failure to report. -/
def NotificationDraft.ofJson? (j : Json) : Option NotificationDraft :=
  match fields? notificationFields j with
  | some [kind, host, generated, payload] => do
    let kind ← required (named FailureKind.ofName?) kind
    let hostName ← required Json.str? host
    let generatedAt ← required instant? generated
    let payload ← required some payload
    some { kind, hostName, generatedAt, payload }
  | _ => none

def SegmentDraft.ofBody? : Json → Option SegmentDraft := inner? "segment" SegmentDraft.ofJson?

def SegmentPatch.ofBody? : Json → Option SegmentPatch := inner? "segment" SegmentPatch.ofJson?

def HostDraft.ofBody? : Json → Option HostDraft := inner? "host" HostDraft.ofJson?

def HostPatch.ofBody? : Json → Option HostPatch := inner? "host" HostPatch.ofJson?

def NotificationDraft.ofBody? : Json → Option NotificationDraft :=
  inner? "notification" NotificationDraft.ofJson?

end Standby
