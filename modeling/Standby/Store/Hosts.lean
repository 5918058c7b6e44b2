import Standby.Failover.Draft
import Standby.Store.Basic
/-!
# Hosts in the store

A host belongs to a segment in the store, and no two hosts have the same name, whatever their segments.
-/

namespace Standby

instance : Listed Host where
  id := (·.id)
  uuid := (·.uuid)
  sortValue h key :=
    match key with
    | "id" => .int h.id
    | "uuid" => .text h.uuid
    | "name" => .text h.name
    | "type" => .text h.hostType
    | "reserved" => .bool h.reserved
    | "on_maintenance" => .bool h.onMaintenance
    | "created_at" => .time h.createdAt
    | "updated_at" => .ofTime? h.updatedAt
    | _ => .null

/-- Which hosts are listed; what is missing does not restrict them. -/
structure HostFilter where
  segment : Option String := none
  name : Option String := none
  hostType : Option String := none
  controlAttributes : Option String := none
  onMaintenance : Option Bool := none
  reserved : Option Bool := none
  deriving DecidableEq, Repr

def HostFilter.keeps (f : HostFilter) (h : Host) : Bool :=
  f.segment.all (· == h.segment) && f.name.all (· == h.name) && f.hostType.all (· == h.hostType)
    && f.controlAttributes.all (· == h.controlAttributes) && f.onMaintenance.all (· == h.onMaintenance)
    && f.reserved.all (· == h.reserved)

/-- A host after a change at the time `now`. -/
def HostPatch.apply (p : HostPatch) (h : Host) (now : Time.Instant) : Host :=
  { h with
    name := p.name.getD h.name
    hostType := p.hostType.getD h.hostType
    controlAttributes := p.controlAttributes.getD h.controlAttributes
    reserved := p.reserved.getD h.reserved
    onMaintenance := p.onMaintenance.getD h.onMaintenance
    updatedAt := some now }

namespace Store

def host (s : Store) (uuid : String) : Except StoreError Host := find .hosts uuid s.hosts

def listHosts (s : Store) (f : HostFilter) (slice : Slice) : Except StoreError (List Host) :=
  list s.hosts f.keeps slice

end Store

namespace StoreStep

/-- Adds a host with the identifier `uuid` to a segment. It is neither reserved nor on maintenance unless the
draft says so. -/
def createHost (uuid : String) (now : Time.Instant) (segment : String) (d : HostDraft) : StoreStep Store Host := do
  refuseIf (lookup? segment (← get).segments).isNone (.notFound .segments segment)
  refuseIf (lookup? d.name (← get).hostNames).isSome (.alreadyExists .hosts d.name)
  let id := (← get).lastHostId + 1
  modify fun s => { s with lastHostId := id }
  let row : Host :=
    { id
      uuid
      name := d.name
      hostType := d.hostType
      controlAttributes := d.controlAttributes
      reserved := d.reserved.getD false
      onMaintenance := d.onMaintenance.getD false
      segment
      createdAt := now
      updatedAt := none }
  modify fun s => { s with hostNames := insertKey d.name uuid s.hostNames }
  modify fun s => { s with hosts := insertKey uuid row s.hosts }
  return row

/-- Gives a host a new name in the index. -/
def renameHost (uuid old new : String) : StoreStep Store Unit :=
  within Store.hostNames (fun s names => { s with hostNames := names }) (rename .hosts uuid old new)

def updateHost (uuid : String) (now : Time.Instant) (p : HostPatch) : StoreStep Store Host := do
  let row ← (← get).host uuid
  p.name.forM (renameHost uuid row.name)
  let row := p.apply row now
  modify fun s => { s with hosts := insertKey uuid row s.hosts }
  return row

def destroyHost (uuid : String) : StoreStep Store Unit := do
  let row ← (← get).host uuid
  modify fun s => { s with hosts := eraseKey uuid s.hosts }
  modify fun s => { s with hostNames := eraseKey row.name s.hostNames }

end StoreStep

namespace Store

def createHost (s : Store) (uuid : String) (now : Time.Instant) (segment : String) (d : HostDraft) :
    Except StoreError (Host × Store) :=
  (StoreStep.createHost uuid now segment d).attempt s

def updateHost (s : Store) (uuid : String) (now : Time.Instant) (p : HostPatch) :
    Except StoreError (Host × Store) :=
  (StoreStep.updateHost uuid now p).attempt s

def destroyHost (s : Store) (uuid : String) : Except StoreError Store :=
  ((StoreStep.destroyHost uuid).attempt s).map (·.2)

end Store

end Standby
