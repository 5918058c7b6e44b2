import Standby.Proofs.Engine.Replay
import Standby.Proofs.Service.SideBySide
import Standby.Proofs.Service.Startup
/-!
# Headers that the service disregards

What the service does with a request it decides by the caller, the path, the query, the body and the version. None of
its handlers and hooks looks at a header itself, or rewrites the request.
-/

namespace Standby.Service

variable {service : Service} {ctx : Context}

/-! ## Steps that handlers share -/

theorem aloof_world : Aloof world := fun _ _ => rfl

theorem aloof_putStore (s : Store) : Aloof (putStore s) := aloof_modify fun _ _ => rfl

theorem aloof_orRefuse {α : Type} (r : Except StoreError α) : Aloof (orRefuse r) := (blind_orFail _).aloof

theorem aloof_authorize (resource action : String) : Aloof (service.authorize ctx resource action) :=
  (blind_authorize _ _).aloof

theorem aloof_loadSegment : Aloof (loadSegment ctx) := by
  refine (blind_orFail _).aloof.bind fun id => aloof_world.bind fun w => (aloof_orRefuse _).bind fun row => ?_
  exact (aloof_modify fun _ _ => rfl).bind fun _ => aloof_pure row

theorem aloof_loadHost (s : Segment) : Aloof (loadHost ctx s) := by
  refine blind_memberId.aloof.bind fun id => aloof_world.bind fun w => (aloof_orRefuse _).bind fun row => ?_
  split
  · exact aloof_pure row
  · exact aloof_throw _

theorem aloof_inStore {α : Type} (x : StoreStep Store α) : Aloof (inStore x) :=
  aloof_world.bind fun _ => (aloof_putStore _).bind fun _ => aloof_orRefuse _

theorem aloof_patchSegment (patch : SegmentPatch) : Aloof (patchSegment ctx patch) :=
  blind_memberId.aloof.bind fun _ => aloof_world.bind fun _ => (aloof_inStore _).bind fun _ => aloof_pure _

theorem aloof_handOver (n : Notification) : Aloof (handOver n) := by
  refine aloof_modify fun w details => ?_
  simp only
  split
  · rfl
  · rfl

/-! ## Handlers -/

theorem aloof_showVersion : Aloof (showVersion ctx) := by
  refine blind_memberId.aloof.bind fun id => ?_
  split
  · exact aloof_pure _
  · exact aloof_throw _

theorem aloof_showExtension (infos : List ExtensionInfo) : Aloof (service.showExtension infos ctx) := by
  refine (aloof_authorize _ _).bind fun _ => blind_memberId.aloof.bind fun id => ?_
  split
  · exact aloof_pure _
  · exact aloof_throw _

theorem aloof_indexSegments : Aloof (service.indexSegments ctx) := by
  refine (aloof_authorize _ _).bind fun _ => (blind_orFail _).aloof.bind fun f => (blind_orFail _).aloof.bind fun p => ?_
  exact aloof_world.bind fun w => (aloof_orRefuse _).bind fun rows => aloof_pure _

theorem aloof_showSegment : Aloof (service.showSegment ctx) := by
  refine (aloof_authorize _ _).bind fun _ => blind_memberId.aloof.bind fun id => ?_
  exact aloof_world.bind fun w => (aloof_orRefuse _).bind fun row => aloof_pure _

theorem aloof_createSegment : Aloof (service.createSegment ctx) :=
  (aloof_authorize _ _).bind fun _ => (blind_readBody _).aloof.bind fun _ => aloof_world.bind fun _ =>
    (aloof_inStore _).bind fun _ => aloof_pure _

theorem aloof_updateSegment : Aloof (service.updateSegment ctx) :=
  (aloof_authorize _ _).bind fun _ => (blind_readBody _).aloof.bind fun patch => aloof_patchSegment patch

theorem aloof_deleteSegment : Aloof (service.deleteSegment ctx) :=
  (aloof_authorize _ _).bind fun _ => blind_memberId.aloof.bind fun _ => (aloof_inStore _).bind fun _ => aloof_pure _

theorem aloof_indexHosts : Aloof (service.indexHosts ctx) := by
  refine (aloof_authorize _ _).bind fun _ => aloof_loadSegment.bind fun s => (blind_orFail _).aloof.bind fun f => ?_
  refine (blind_orFail _).aloof.bind fun p => ?_
  exact aloof_world.bind fun w => (aloof_orRefuse _).bind fun rows => aloof_pure _

theorem aloof_showHost : Aloof (service.showHost ctx) := by
  refine (aloof_authorize _ _).bind fun _ => aloof_loadSegment.bind fun s => ?_
  exact (aloof_loadHost s).bind fun row => aloof_pure _

theorem aloof_createHost : Aloof (service.createHost ctx) := by
  refine (aloof_authorize _ _).bind fun _ => aloof_loadSegment.bind fun s => ?_
  refine (blind_readBody _).aloof.bind fun draft => aloof_world.bind fun w => ?_
  exact (aloof_inStore _).bind fun row => aloof_pure _

theorem aloof_updateHost : Aloof (service.updateHost ctx) := by
  refine (aloof_authorize _ _).bind fun _ => aloof_loadSegment.bind fun s => (aloof_loadHost s).bind fun old => ?_
  refine (blind_readBody _).aloof.bind fun patch => aloof_world.bind fun w => ?_
  exact (aloof_inStore _).bind fun row => aloof_pure _

theorem aloof_deleteHost : Aloof (service.deleteHost ctx) := by
  refine (aloof_authorize _ _).bind fun _ => aloof_loadSegment.bind fun s => (aloof_loadHost s).bind fun row => ?_
  exact (aloof_inStore _).bind fun _ => aloof_pure _

theorem aloof_indexNotifications : Aloof (service.indexNotifications ctx) := by
  refine (aloof_authorize _ _).bind fun _ => (blind_orFail _).aloof.bind fun f => (blind_orFail _).aloof.bind fun p => ?_
  exact aloof_world.bind fun w => (aloof_orRefuse _).bind fun rows => aloof_pure _

theorem aloof_showNotification (details : Option (List Json)) : Aloof (service.showNotification details ctx) := by
  refine (aloof_authorize _ _).bind fun _ => blind_memberId.aloof.bind fun id => ?_
  exact aloof_world.bind fun w => (aloof_orRefuse _).bind fun row => aloof_pure _

theorem aloof_createNotification : Aloof (service.createNotification ctx) := by
  refine (aloof_authorize _ _).bind fun _ => (blind_readBody _).aloof.bind fun draft => aloof_world.bind fun w => ?_
  refine (blind_hostNamed _ _).aloof.bind fun host => (blind_refuseIf _ _).aloof.bind fun _ => ?_
  refine (blind_isDuplicate _ _ _ _).aloof.bind fun duplicate => (blind_refuseIf _ _).aloof.bind fun _ => ?_
  exact (aloof_inStore _).bind fun row => (aloof_handOver row).bind fun _ => aloof_pure _

theorem aloof_setEnabled (action : String) (enabled : Bool) : Aloof (service.setEnabled action enabled ctx) :=
  (aloof_authorize _ _).bind fun _ => aloof_patchSegment _

/-! ## What the service calls -/

/-- No action of the service looks at the request in the workspace, or rewrites it. -/
theorem Own.aloof {collection action : String} {a : Action World Segment} (h : service.Own collection action a)
    (ctx : Context) : Aloof (a.handler ctx) := by
  cases h with
  | indexVersions => exact aloof_pure _
  | showVersion => exact aloof_showVersion
  | indexExtensions infos => exact (aloof_authorize _ _).bind fun _ => aloof_pure _
  | showExtension infos => exact aloof_showExtension infos
  | indexSegments => exact aloof_indexSegments
  | showSegment => exact aloof_showSegment
  | createSegment => exact aloof_createSegment
  | updateSegment => exact aloof_updateSegment
  | deleteSegment => exact aloof_deleteSegment
  | indexHosts => exact aloof_indexHosts
  | showHost => exact aloof_showHost
  | createHost => exact aloof_createHost
  | updateHost => exact aloof_updateHost
  | deleteHost => exact aloof_deleteHost
  | indexNotifications => exact aloof_indexNotifications
  | showNotification details => exact aloof_showNotification details
  | createNotification => exact aloof_createNotification

theorem Added.aloof {action : String} {a : Action World Segment} (h : service.Added action a) (ctx : Context) :
    Aloof (a.handler ctx) := by
  cases h with
  | enable => exact aloof_setEnabled _ _
  | disable => exact aloof_setEnabled _ _

/-- No action of the service looks at a header of the request. -/
theorem Own.disregards {collection action : String} {a : Action World Segment} (h : service.Own collection action a)
    (name : String) : Disregards name a.handler := .of_aloof h.aloof fun _ _ => by cases h <;> rfl

theorem Added.disregards {action : String} {a : Action World Segment} (h : service.Added action a) (name : String) :
    Disregards name a.handler := .of_aloof h.aloof fun _ _ => by cases h <;> rfl

theorem enabledHook_disregards (name : String) : enabledHook.Disregards name where
  before := .of_aloof (fun _ => aloof_pure none) fun _ _ => rfl
  after _ := .of_aloof (fun _ _ _ => rfl) fun _ _ => rfl

section Built
variable {d : Dispatcher World Segment} (hd : service.dispatcher = .ok d)

include hd

theorem disregards_of_dispatcher (name : String) : d.Disregards name where
  own _ _ _ h := (own_of_dispatcher hd h).disregards name
  added _ _ _ h := (added_of_dispatcher hd h).disregards name
  hook _ _ _ h := hook_of_dispatcher hd h ▸ enabledHook_disregards name

/-- Of all that a request to the service says about versions, only what it comes to decides on anything: a version, or
the fault of having none. -/
theorem serve_eq_of_resolve (hheader : d.versionHeader ∉ Dispatcher.otherHeaders) {req req' : Request}
    (h : req.SameBut d.versionHeader req')
    (hresolve : VersionHeader.resolve d.versionHeader d.service d.window (req.headers.values d.versionHeader) =
      VersionHeader.resolve d.versionHeader d.service d.window (req'.headers.values d.versionHeader)) (world : World) :
    d.serve req world = d.serve req' world := by
  refine Dispatcher.serve_sameBut h hheader (disregards_of_dispatcher hd _) (fun e => ?_) world
  simp only [Dispatcher.versionOf, hresolve]

end Built

end Standby.Service
