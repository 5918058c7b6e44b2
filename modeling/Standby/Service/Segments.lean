import Standby.Failover.Schemas
import Standby.Failover.View
import Standby.Service.Basic
/-!
# Segments

Segments stand at the top of the API. From version 1.2 on they show and take the attribute `enabled`.
-/

namespace Standby.Service

/-- A segment as it is shown at the version of a request. -/
def segmentJson (ctx : Context) (s : Segment) : Json := s.toJson (ctx.isAtLeast v1_2)

def segmentSortKeys : List String :=
  ["created_at", "description", "id", "name", "recovery_method", "service_type", "updated_at", "uuid"]

def segmentFilter (ctx : Context) : Except ApiError SegmentFilter := do
  let recoveryMethod ← filter ctx "recovery_method" RecoveryMethod.ofName?
  let serviceType ← filter ctx "service_type" some
  let enabled ← if ctx.isAtLeast v1_2 then filter ctx "enabled" Flag.ofText? else .ok none
  .ok { recoveryMethod, serviceType, enabled }

def indexSegments (service : Service) (ctx : Context) : ServiceStep Outcome := do
  service.authorize ctx "segments" "index"
  let f ← orFail (segmentFilter ctx)
  let (page, slice) ← orFail (service.paging ctx segmentSortKeys "created_at")
  let rows ← orRefuse ((← world).store.listSegments f slice)
  pure (pageBody ctx "segments" page rows (segmentJson ctx))

def showSegment (service : Service) (ctx : Context) : ServiceStep Outcome := do
  service.authorize ctx "segments" "show"
  let id ← memberId ctx
  let row ← orRefuse ((← world).store.segment id)
  pure (wrap "segment" (segmentJson ctx row))

def createSegment (service : Service) (ctx : Context) : ServiceStep Outcome := do
  service.authorize ctx "segments" "create"
  let draft ← readBody SegmentDraft.ofBody? ctx
  let w ← world
  let uuid := service.mint .segments (w.store.lastSegmentId + 1)
  let row ← inStore (.createSegment uuid w.clock draft)
  pure (wrap "segment" (segmentJson ctx row))

/-- Changes the segment that the path names. -/
def patchSegment (ctx : Context) (patch : SegmentPatch) : ServiceStep Outcome := do
  let id ← memberId ctx
  let w ← world
  let row ← inStore (.updateSegment id w.clock patch)
  pure (wrap "segment" (segmentJson ctx row))

/-- Changes a segment by the body of the request. -/
def updateSegment (service : Service) (ctx : Context) : ServiceStep Outcome := do
  service.authorize ctx "segments" "update"
  let patch ← readBody SegmentPatch.ofBody? ctx
  patchSegment ctx patch

/-- Deletes a segment with its hosts. -/
def deleteSegment (service : Service) (ctx : Context) : ServiceStep Outcome := do
  service.authorize ctx "segments" "delete"
  let id ← memberId ctx
  inStore (.destroySegment id)
  pure .empty

def segmentsExtension (service : Service) : Extension World Segment where
  name := "Segments"
  shortName := "segments"
  updated := updated
  description := "Failover segment support."
  resources := do
    let create (withEnabled : Bool) : Action World Segment :=
      { handler := service.createSegment, schema := some (Schemas.createSegment withEnabled), status := 201 }
    let update (withEnabled : Bool) : Action World Segment :=
      { handler := service.updateSegment, schema := some (Schemas.updateSegment withEnabled) }
    let actions ← actions
      [("index", .all, { handler := service.indexSegments }), ("show", .all, { handler := service.showSegment }),
        ("create", .between v1_0 v1_1, create false), ("create", .since v1_2, create true),
        ("update", .between v1_0 v1_1, update false), ("update", .since v1_2, update true),
        ("delete", .all, { handler := service.deleteSegment, status := 204 })]
    .ok [{ collection := "segments", member := "segment", actions }]

end Standby.Service
