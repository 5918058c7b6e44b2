import Standby.Failover.Draft
/-!
# Rows and drafts as JSON

Which members a row has depends on the version of the request: a segment shows whether it is enabled only to
those who know of it, and a notification shows its recovery workflow. A draft has all its members; one that is
not given is `null`.
-/

namespace Standby

def Time.Instant.toJson (t : Time.Instant) : Json := .str t.text

/-- A time as JSON, or `null`. -/
def Time.Instant.toJson? : Option Time.Instant → Json
  | none => .null
  | some t => t.toJson

def Segment.toJson (s : Segment) (withEnabled : Bool) : Json :=
  .obj
    ([("id", .ofNat s.id), ("uuid", .str s.uuid), ("name", .str s.name), ("description", .ofText? s.description),
        ("recovery_method", .str s.recoveryMethod.name), ("service_type", .str s.serviceType)]
      ++ (if withEnabled then [("enabled", .bool s.enabled)] else [])
      ++ [("created_at", s.createdAt.toJson), ("updated_at", Time.Instant.toJson? s.updatedAt)])

/-- A host as JSON, with its segment if that is given. -/
def Host.toJson (h : Host) (segment : Option Json) : Json :=
  .obj
    ([("id", .ofNat h.id), ("uuid", .str h.uuid), ("name", .str h.name), ("type", .str h.hostType),
        ("control_attributes", .str h.controlAttributes), ("reserved", .bool h.reserved),
        ("on_maintenance", .bool h.onMaintenance), ("failover_segment_id", .str h.segment)]
      ++ segment.toList.map (fun j => ("failover_segment", j))
      ++ [("created_at", h.createdAt.toJson), ("updated_at", Time.Instant.toJson? h.updatedAt)])

/-- A notification as JSON, with the details of its recovery if they are given. -/
def Notification.toJson (n : Notification) (details : Option (List Json)) : Json :=
  .obj
    ([("id", .ofNat n.id), ("notification_uuid", .str n.uuid), ("generated_time", n.generatedAt.toJson),
        ("type", .str n.kind.name), ("payload", n.payload), ("source_host_uuid", .str n.sourceHost),
        ("status", .str n.progress.name), ("created_at", n.createdAt.toJson),
        ("updated_at", Time.Instant.toJson? n.updatedAt)]
      ++ details.toList.map fun l => ("recovery_workflow_details", .arr l))

def SegmentDraft.toJson (d : SegmentDraft) : Json :=
  .obj
    [("name", .str d.name), ("description", .ofText? d.description), ("recovery_method", .str d.recoveryMethod.name),
      ("service_type", .str d.serviceType), ("enabled", .ofFlag? d.enabled)]

def HostDraft.toJson (d : HostDraft) : Json :=
  .obj
    [("name", .str d.name), ("type", .str d.hostType), ("control_attributes", .str d.controlAttributes),
      ("reserved", .ofFlag? d.reserved), ("on_maintenance", .ofFlag? d.onMaintenance)]

def HostPatch.toJson (p : HostPatch) : Json :=
  .obj
    [("name", .ofText? p.name), ("type", .ofText? p.hostType), ("control_attributes", .ofText? p.controlAttributes),
      ("reserved", .ofFlag? p.reserved), ("on_maintenance", .ofFlag? p.onMaintenance)]

def NotificationDraft.toJson (d : NotificationDraft) : Json :=
  .obj
    [("type", .str d.kind.name), ("hostname", .str d.hostName), ("generated_time", d.generatedAt.toJson),
      ("payload", d.payload)]

end Standby
