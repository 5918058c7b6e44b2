import Standby.Failover.Draft
import Standby.Store.Basic
/-!
# Segments in the store

No two segments have the same name. A segment that goes takes its hosts and all their names with it.
-/

namespace Standby

instance : Listed Segment where
  id := (·.id)
  uuid := (·.uuid)
  sortValue s key :=
    match key with
    | "id" => .int s.id
    | "uuid" => .text s.uuid
    | "name" => .text s.name
    | "description" => .ofText? s.description
    | "recovery_method" => .text s.recoveryMethod.name
    | "service_type" => .text s.serviceType
    | "created_at" => .time s.createdAt
    | "updated_at" => .ofTime? s.updatedAt
    | _ => .null

/-- Which segments are listed; what is missing does not restrict them. -/
structure SegmentFilter where
  recoveryMethod : Option RecoveryMethod := none
  serviceType : Option String := none
  enabled : Option Bool := none
  deriving DecidableEq, Repr

def SegmentFilter.keeps (f : SegmentFilter) (s : Segment) : Bool :=
  f.recoveryMethod.all (· == s.recoveryMethod) && f.serviceType.all (· == s.serviceType)
    && f.enabled.all (· == s.enabled)

/-- A segment after a change at the time `now`. -/
def SegmentPatch.apply (p : SegmentPatch) (s : Segment) (now : Time.Instant) : Segment :=
  { s with
    name := p.name.getD s.name
    description := p.description.getD s.description
    recoveryMethod := p.recoveryMethod.getD s.recoveryMethod
    serviceType := p.serviceType.getD s.serviceType
    enabled := p.enabled.getD s.enabled
    updatedAt := some now }

namespace Store

def segment (s : Store) (uuid : String) : Except StoreError Segment := find .segments uuid s.segments

def listSegments (s : Store) (f : SegmentFilter) (slice : Slice) : Except StoreError (List Segment) :=
  list s.segments f.keeps slice

end Store

namespace StoreStep

/-- Adds a segment with the identifier `uuid`. It is enabled unless the draft says otherwise. -/
def createSegment (uuid : String) (now : Time.Instant) (d : SegmentDraft) : StoreStep Store Segment := do
  refuseIf (lookup? d.name (← get).segmentNames).isSome (.alreadyExists .segments d.name)
  let id := (← get).lastSegmentId + 1
  modify fun s => { s with lastSegmentId := id }
  let row : Segment :=
    { id
      uuid
      name := d.name
      description := d.description
      recoveryMethod := d.recoveryMethod
      serviceType := d.serviceType
      enabled := d.enabled.getD true
      createdAt := now
      updatedAt := none }
  modify fun s => { s with segmentNames := insertKey d.name uuid s.segmentNames }
  modify fun s => { s with segments := insertKey uuid row s.segments }
  return row

/-- Gives a segment a new name in the index. -/
def renameSegment (uuid old new : String) : StoreStep Store Unit :=
  within Store.segmentNames (fun s names => { s with segmentNames := names }) (rename .segments uuid old new)

def updateSegment (uuid : String) (now : Time.Instant) (p : SegmentPatch) : StoreStep Store Segment := do
  let row ← (← get).segment uuid
  p.name.forM (renameSegment uuid row.name)
  let row := p.apply row now
  modify fun s => { s with segments := insertKey uuid row s.segments }
  return row

/-- Takes the names of hosts out of the index, one after another. -/
def releaseNames (gone : List (String × Host)) : StoreStep Store Unit :=
  gone.forM fun (_, h) => modify fun s => { s with hostNames := eraseKey h.name s.hostNames }

/-- Takes out a segment and then its hosts. -/
def destroySegment (uuid : String) : StoreStep Store Unit := do
  let row ← (← get).segment uuid
  modify fun s => { s with segments := eraseKey uuid s.segments }
  modify fun s => { s with segmentNames := eraseKey row.name s.segmentNames }
  let gone := (← get).hosts.filter fun (_, h) => h.segment == uuid
  modify fun s => { s with hosts := s.hosts.filter fun (_, h) => h.segment != uuid }
  releaseNames gone

end StoreStep

namespace Store

def createSegment (s : Store) (uuid : String) (now : Time.Instant) (d : SegmentDraft) :
    Except StoreError (Segment × Store) :=
  (StoreStep.createSegment uuid now d).attempt s

def updateSegment (s : Store) (uuid : String) (now : Time.Instant) (p : SegmentPatch) :
    Except StoreError (Segment × Store) :=
  (StoreStep.updateSegment uuid now p).attempt s

def destroySegment (s : Store) (uuid : String) : Except StoreError Store :=
  ((StoreStep.destroySegment uuid).attempt s).map (·.2)

end Store

end Standby
