import Standby.Proofs.Service.Endpoints
/-!
# Handlers that read

The steps that come before a handler writes leave the world as it is, and so do all of a handler that indexes or
shows.
-/

namespace Standby.Service

variable {service : Service} {ctx : Context}

/-! ## Steps that handlers share -/

theorem reads_orFail {α : Type} (r : Except ApiError α) : Reads (orFail r) := by
  cases r with
  | ok a => exact reads_pure a
  | error e => exact reads_throw e

theorem reads_orRefuse {α : Type} (r : Except StoreError α) : Reads (orRefuse r) := reads_orFail _

theorem reads_world : Reads world := reads_get.bind fun _ => reads_pure _

theorem reads_authorize (resource action : String) : Reads (service.authorize ctx resource action) :=
  reads_orFail _

theorem reads_memberId : Reads (memberId ctx) := reads_orFail _

theorem reads_readBody {α : Type} (read : Json → Option α) : Reads (readBody read ctx) := by
  unfold readBody
  cases read (ctx.body.getD .null) with
  | some a => exact reads_pure a
  | none => exact reads_throw _

/-- Loading the segment of a request only fills the cache. -/
theorem reads_loadSegment : Reads (loadSegment ctx) := by
  refine (reads_orFail _).bind fun id => reads_world.bind fun w => (reads_orRefuse _).bind fun row => ?_
  exact Reads.bind (fun _ => rfl) fun _ => reads_pure row

theorem reads_loadHost (s : Segment) : Reads (loadHost ctx s) := by
  refine reads_memberId.bind fun id => reads_world.bind fun w => (reads_orRefuse _).bind fun row => ?_
  exact Reads.ite (reads_pure row) (reads_throw _)

/-! ## Handlers that index or show -/

theorem reads_indexVersions : Reads (indexVersions ctx) := reads_pure _

theorem reads_showVersion : Reads (showVersion ctx) :=
  reads_memberId.bind fun _ => Reads.ite (reads_pure _) (reads_throw _)

theorem reads_indexExtensions (infos : List ExtensionInfo) : Reads (service.indexExtensions infos ctx) :=
  (reads_authorize _ _).bind fun _ => reads_pure _

theorem reads_showExtension (infos : List ExtensionInfo) : Reads (service.showExtension infos ctx) := by
  refine (reads_authorize _ _).bind fun _ => reads_memberId.bind fun id => ?_
  cases (service.discoverable ctx infos).find? (·.shortName == id) with
  | some i => exact reads_pure _
  | none => exact reads_throw _

theorem reads_indexSegments : Reads (service.indexSegments ctx) := by
  refine (reads_authorize _ _).bind fun _ => (reads_orFail _).bind fun f => (reads_orFail _).bind fun p => ?_
  exact reads_world.bind fun w => (reads_orRefuse _).bind fun rows => reads_pure _

theorem reads_showSegment : Reads (service.showSegment ctx) := by
  refine (reads_authorize _ _).bind fun _ => reads_memberId.bind fun id => ?_
  exact reads_world.bind fun w => (reads_orRefuse _).bind fun row => reads_pure _

theorem reads_indexHosts : Reads (service.indexHosts ctx) := by
  refine (reads_authorize _ _).bind fun _ => reads_loadSegment.bind fun s => (reads_orFail _).bind fun f => ?_
  exact (reads_orFail _).bind fun p => reads_world.bind fun w => (reads_orRefuse _).bind fun rows => reads_pure _

theorem reads_showHost : Reads (service.showHost ctx) := by
  refine (reads_authorize _ _).bind fun _ => reads_loadSegment.bind fun s => ?_
  exact (reads_loadHost s).bind fun row => reads_pure _

theorem reads_indexNotifications : Reads (service.indexNotifications ctx) := by
  refine (reads_authorize _ _).bind fun _ => (reads_orFail _).bind fun f => (reads_orFail _).bind fun p => ?_
  exact reads_world.bind fun w => (reads_orRefuse _).bind fun rows => reads_pure _

theorem reads_showNotification (details : Option (List Json)) : Reads (service.showNotification details ctx) := by
  refine (reads_authorize _ _).bind fun _ => reads_memberId.bind fun id => ?_
  exact reads_world.bind fun w => (reads_orRefuse _).bind fun row => reads_pure _

end Standby.Service
