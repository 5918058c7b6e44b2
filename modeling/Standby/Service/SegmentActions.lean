import Standby.Service.Segments
/-!
# Actions on segments

From version 1.2 on a segment can be enabled and disabled by actions of their own, and a hook adds the
attribute `enabled` to the segment that is shown within a host. It takes the attribute from the segment that
was put into the cache of the request.
-/

namespace Standby.Service

def setEnabled (service : Service) (action : String) (enabled : Bool) (ctx : Context) : ServiceStep Outcome := do
  service.authorize ctx "segments" action
  patchSegment ctx { enabled := some enabled }

/-- A host with the attribute `enabled` in its segment, if that segment is in the cache. -/
def decorateHost (cache : Cache Segment) (host : Json) : Json :=
  match (host.get? "failover_segment_id").bind Json.str? with
  | none => host
  | some uuid =>
    match cache.get? segmentCache uuid, host.members?, (host.get? "failover_segment").bind Json.members? with
    | some s, some members, some embedded =>
      .obj (insertKey "failover_segment" (.obj (insertKey "enabled" (.bool s.enabled) embedded)) members)
    | _, _, _ => host

/-- The body of a response with its host or hosts decorated, if it has any. -/
def decorateBody? (cache : Cache Segment) (body : Json) : Option Json :=
  match body.members? with
  | none => none
  | some members =>
    match lookup? "host" members, lookup? "hosts" members with
    | some host, _ => some (.obj (insertKey "host" (decorateHost cache host) members))
    | none, some (.arr hosts) => some (.obj (insertKey "hosts" (.arr (hosts.map (decorateHost cache))) members))
    | none, _ => none

def enabledHook : Hook World Segment where
  after _ response := do
    let cache := (← get).cache
    pure ((response.body.bind (decorateBody? cache)).map fun body => { response with body := some body })

/-- The extension that adds these actions and the hook to segments. -/
def segmentActionsExtension (service : Service) : Extension World Segment where
  name := "SegmentActions"
  shortName := "segment-actions"
  updated := updated
  description := "Enable and disable failover segments."
  controllers := do
    let action (name : String) (enabled : Bool) : String × VersionRange × Action World Segment :=
      (name, .since v1_2,
        { handler := service.setEnabled name enabled, schema := some (Schemas.segmentAction name) })
    let actions ← actions [action "enable" true, action "disable" false]
    let hooks ← ["index", "show", "create", "update"].foldlM
      (fun (r : Registry (Hook World Segment)) name => r.register name (.since v1_2) enabledHook) .empty
    .ok [{ resource := "segments", actions, hooks }]

end Standby.Service
