import Standby.Failover.Schemas
import Standby.Failover.View
import Standby.Service.Basic
/-!
# Hosts

Hosts stand below the segment that they belong to. Every action first loads that segment and puts it into the
cache of the request, for hooks that add to what is shown of it.
-/

namespace Standby.Service

/-- The parameter of the path that holds the identifier of the segment. -/
def segmentParam : String := "segment_id"

def hostSortKeys : List String :=
  ["created_at", "id", "name", "type", "updated_at", "uuid", "reserved", "on_maintenance"]

def hostJson (s : Segment) (h : Host) : Json := h.toJson (some (s.toJson false))

def loadSegment (ctx : Context) : ServiceStep Segment := do
  let id ← orFail (ctx.param segmentParam)
  let row ← orRefuse ((← world).store.segment id)
  modify fun w => { w with cache := w.cache.insert segmentCache row.uuid row }
  pure row

/-- Loads the host that the path names. A host of another segment is as good as none. -/
def loadHost (ctx : Context) (s : Segment) : ServiceStep Host := do
  let id ← memberId ctx
  let row ← orRefuse ((← world).store.host id)
  if row.segment = s.uuid then pure row else throw (.ofStoreError (.notFound .hosts id))

def hostFilter (ctx : Context) (s : Segment) : Except ApiError HostFilter := do
  let hostType ← filter ctx "type" some
  let controlAttributes ← filter ctx "control_attributes" some
  let onMaintenance ← filter ctx "on_maintenance" Flag.ofText?
  let reserved ← filter ctx "reserved" Flag.ofText?
  .ok { segment := some s.uuid, hostType, controlAttributes, onMaintenance, reserved }

def indexHosts (service : Service) (ctx : Context) : ServiceStep Outcome := do
  service.authorize ctx "hosts" "index"
  let s ← loadSegment ctx
  let f ← orFail (hostFilter ctx s)
  let (page, slice) ← orFail (service.paging ctx hostSortKeys "created_at")
  let rows ← orRefuse ((← world).store.listHosts f slice)
  pure (pageBody ctx "hosts" page rows (hostJson s))

def showHost (service : Service) (ctx : Context) : ServiceStep Outcome := do
  service.authorize ctx "hosts" "show"
  let s ← loadSegment ctx
  let row ← loadHost ctx s
  pure (wrap "host" (hostJson s row))

def createHost (service : Service) (ctx : Context) : ServiceStep Outcome := do
  service.authorize ctx "hosts" "create"
  let s ← loadSegment ctx
  let draft ← readBody HostDraft.ofBody? ctx
  let w ← world
  let uuid := service.mint .hosts (w.store.lastHostId + 1)
  let row ← inStore (.createHost uuid w.clock s.uuid draft)
  pure (wrap "host" (hostJson s row))

def updateHost (service : Service) (ctx : Context) : ServiceStep Outcome := do
  service.authorize ctx "hosts" "update"
  let s ← loadSegment ctx
  let old ← loadHost ctx s
  let patch ← readBody HostPatch.ofBody? ctx
  let w ← world
  let row ← inStore (.updateHost old.uuid w.clock patch)
  pure (wrap "host" (hostJson s row))

def deleteHost (service : Service) (ctx : Context) : ServiceStep Outcome := do
  service.authorize ctx "hosts" "delete"
  let s ← loadSegment ctx
  let row ← loadHost ctx s
  inStore (.destroyHost row.uuid)
  pure .empty

def hostsExtension (service : Service) : Extension World Segment where
  name := "Hosts"
  shortName := "hosts"
  updated := updated
  description := "Host management within failover segments."
  resources := do
    let actions ← actions
      [("index", .all, { handler := service.indexHosts }), ("show", .all, { handler := service.showHost }),
        ("create", .all, { handler := service.createHost, schema := some Schemas.createHost, status := 201 }),
        ("update", .all, { handler := service.updateHost, schema := some Schemas.updateHost }),
        ("delete", .all, { handler := service.deleteHost, status := 204 })]
    .ok
      [{ collection := "hosts"
         member := "host"
         parent := some ⟨"segments", segmentParam⟩
         inherits := some "segments"
         actions }]

end Standby.Service
