import Standby.Store.Basic
/-!
# Notifications in the store

A notification starts as a new one. Its reported failure does not change, only how far it has been dealt with.
-/

namespace Standby

instance : Listed Notification where
  id := (·.id)
  uuid := (·.uuid)
  sortValue n key :=
    match key with
    | "id" => .int n.id
    | "type" => .text n.kind.name
    | "status" => .text n.progress.name
    | "source_host_uuid" => .text n.sourceHost
    | "generated_time" => .time n.generatedAt
    | "created_at" => .time n.createdAt
    | "updated_at" => .ofTime? n.updatedAt
    | _ => .null

/-- Which notifications are listed; what is missing does not restrict them. -/
structure NotificationFilter where
  sourceHost : Option String := none
  kind : Option FailureKind := none
  progress : Option Progress := none
  /-- The earliest time of the failure. -/
  since : Option Time.Instant := none
  deriving DecidableEq, Repr

def NotificationFilter.keeps (f : NotificationFilter) (n : Notification) : Bool :=
  f.sourceHost.all (· == n.sourceHost) && f.kind.all (· == n.kind) && f.progress.all (· == n.progress)
    && f.since.all (·.le n.generatedAt)

/-- A failure of a known host. -/
structure NewNotification where
  kind : FailureKind
  generatedAt : Time.Instant
  payload : Json
  sourceHost : String

namespace Store

def notification (s : Store) (uuid : String) : Except StoreError Notification :=
  find .notifications uuid s.notifications

def listNotifications (s : Store) (f : NotificationFilter) (slice : Slice) :
    Except StoreError (List Notification) :=
  list s.notifications f.keeps slice

end Store

namespace StoreStep

/-- Adds a notification with the identifier `uuid`. Nothing can stand in its way. -/
def createNotification (uuid : String) (now : Time.Instant) (d : NewNotification) : StateM Store Notification := do
  let id := (← get).lastNotificationId + 1
  modify fun s => { s with lastNotificationId := id }
  let row : Notification :=
    { id
      uuid
      generatedAt := d.generatedAt
      kind := d.kind
      payload := d.payload
      sourceHost := d.sourceHost
      progress := .new
      createdAt := now
      updatedAt := none }
  modify fun s => { s with notifications := insertKey uuid row s.notifications }
  return row

/-- Sets how far a notification has been dealt with. -/
def updateNotification (uuid : String) (now : Time.Instant) (progress : Option Progress) :
    StoreStep Store Notification := do
  let row ← (← get).notification uuid
  let row := { row with progress := progress.getD row.progress, updatedAt := some now }
  modify fun s => { s with notifications := insertKey uuid row s.notifications }
  return row

def destroyNotification (uuid : String) : StoreStep Store Unit := do
  let _ ← (← get).notification uuid
  modify fun s => { s with notifications := eraseKey uuid s.notifications }

end StoreStep

namespace Store

def createNotification (s : Store) (uuid : String) (now : Time.Instant) (d : NewNotification) :
    Notification × Store :=
  (StoreStep.createNotification uuid now d).run s

def updateNotification (s : Store) (uuid : String) (now : Time.Instant) (progress : Option Progress) :
    Except StoreError (Notification × Store) :=
  (StoreStep.updateNotification uuid now progress).attempt s

def destroyNotification (s : Store) (uuid : String) : Except StoreError Store :=
  ((StoreStep.destroyNotification uuid).attempt s).map (·.2)

end Store

end Standby
