import Standby.Proofs.Service.Embedding
import Standby.Proofs.Store.Revision
/-!
# Requests that change a row

A PUT request that is accepted changes one row of one table, as its body says, and the name of the row in the index.
Nothing else of the world is another after it. The same request is accepted again at any time, and all that it changes
then is the time of the last change.
-/

namespace Standby

/-- The body of a request has attributes under a key. -/
def Request.Carries (req : Request) (key : String) (attrs : List (String × Json)) : Prop :=
  ∃ body, Dispatcher.decodeBody req = .ok (some body) ∧ body.get? key = some (.obj attrs)

namespace Service

variable {service : Service} {d : Dispatcher World Segment} {req : Request} {ctx : Context}
  {w w' : Workspace World Segment} {o : Outcome} {world : World} {route : Route}

/-! ## What a request has done -/

/-- A request has changed a segment of a world as its attributes say, and would only touch it if it came again. -/
structure RevisesSegment (d : Dispatcher World Segment) (req : Request) (world : World) (uuid : String)
    (attrs : List (String × Json)) (old new : Segment) : Prop where
  carried : req.Carries "segment" attrs
  stored : lookup? uuid world.store.segments = some old
  revised : old.RevisedBy attrs world.clock new
  leaves : ∃ names, Store.Reindexed uuid old.name new.name world.store.segmentNames names ∧
    (d.serve req world).world = { world with store := { world.store with
      segments := insertKey uuid new world.store.segments, segmentNames := names } }
  again : ∀ now, let next := { (d.serve req world).world with clock := now }
    (d.serve req next).reply.status = 200 ∧
      (d.serve req next).world = { next with store := { next.store with
        segments := insertKey uuid { new with updatedAt := some now } next.store.segments } }

/-- A request has changed a host of a world as its attributes say, and would only touch it if it came again. -/
structure RevisesHost (d : Dispatcher World Segment) (req : Request) (world : World) (uuid : String)
    (attrs : List (String × Json)) (old new : Host) : Prop where
  carried : req.Carries "host" attrs
  stored : lookup? uuid world.store.hosts = some old
  revised : old.RevisedBy attrs world.clock new
  leaves : ∃ names, Store.Reindexed uuid old.name new.name world.store.hostNames names ∧
    (d.serve req world).world = { world with store := { world.store with
      hosts := insertKey uuid new world.store.hosts, hostNames := names } }
  again : ∀ now, let next := { (d.serve req world).world with clock := now }
    (d.serve req next).reply.status = 200 ∧
      (d.serve req next).world = { next with store := { next.store with
        hosts := insertKey uuid { new with updatedAt := some now } next.store.hosts } }

/-! ## Handlers that change a row -/

theorem run_updateSegment_eq_ok :
    (service.updateSegment ctx).run.run w = (.ok o, w') ↔
      service.policy.authorize ctx.caller (Policy.actionName "segments" "update") = .ok () ∧
        ∃ patch id row store, SegmentPatch.ofBody? (ctx.body.getD .null) = some patch ∧
          lookup? Router.idParam ctx.params = some id ∧
          w.world.store.updateSegment id w.world.clock patch = .ok (row, store) ∧
          o = wrap "segment" (segmentJson ctx row) ∧ w' = { w with world := { w.world with store } } := by
  rw [updateSegment, authorize, run_orFail_bind_eq_ok]
  constructor
  · rintro ⟨⟨⟩, hallowed, h⟩
    obtain ⟨patch, hpatch, h⟩ := run_readBody_bind_eq_ok.1 h
    obtain ⟨id, row, store, hid, hstore, ho, hw⟩ := run_patchSegment_eq_ok.1 h
    exact ⟨hallowed, patch, id, row, store, hpatch, hid, hstore, ho, hw⟩
  · rintro ⟨hallowed, patch, id, row, store, hpatch, hid, hstore, ho, hw⟩
    exact ⟨(), hallowed, run_readBody_bind_eq_ok.2 ⟨patch, hpatch,
      run_patchSegment_eq_ok.2 ⟨id, row, store, hid, hstore, ho, hw⟩⟩⟩

theorem run_updateHost_eq_ok :
    (service.updateHost ctx).run.run w = (.ok o, w') ↔
      service.policy.authorize ctx.caller (Policy.actionName "hosts" "update") = .ok () ∧
        ∃ segment g, lookup? segmentParam ctx.params = some segment ∧ lookup? segment w.world.store.segments = some g ∧
          ∃ id old patch row store, lookup? Router.idParam ctx.params = some id ∧
            lookup? id w.world.store.hosts = some old ∧ old.segment = g.uuid ∧
            HostPatch.ofBody? (ctx.body.getD .null) = some patch ∧
            w.world.store.updateHost old.uuid w.world.clock patch = .ok (row, store) ∧
            o = wrap "host" (hostJson g row) ∧ w' = { loading w g with world := { w.world with store } } := by
  rw [updateHost, run_loaded_eq_ok]
  refine and_congr_right fun _ => exists_congr fun segment => exists_congr fun g => and_congr_right fun _ =>
    and_congr_right fun _ => ?_
  rw [run_loadHost_bind_eq_ok]
  constructor
  · rintro ⟨id, old, hid, hold, hown, h⟩
    obtain ⟨patch, hpatch, h⟩ := run_readBody_bind_eq_ok.1 h
    obtain ⟨row, store, hstore, ho, hw⟩ := (run_commit_eq_ok fun _ => Store.atomic_updateHost _ _ _).1 h
    exact ⟨id, old, patch, row, store, hid, hold, hown, hpatch, hstore, ho, hw⟩
  · rintro ⟨id, old, patch, row, store, hid, hold, hown, hpatch, hstore, ho, hw⟩
    exact ⟨id, old, hid, hold, hown, run_readBody_bind_eq_ok.2 ⟨patch, hpatch,
      (run_commit_eq_ok fun _ => Store.atomic_updateHost _ _ _).2 ⟨row, store, hstore, ho, hw⟩⟩⟩

/-- What has changed a segment does so again at any time, and then it only touches it. -/
theorem run_updateSegment_again (hrun : (service.updateSegment ctx).run.run (ctx.start world) = (.ok o, w)) :
    ∃ patch uuid row, SegmentPatch.ofBody? (ctx.body.getD .null) = some patch ∧
      lookup? Router.idParam ctx.params = some uuid ∧
      world.store.updateSegment uuid world.clock patch = .ok (row, w.world.store) ∧
      w.world = { world with store := w.world.store } ∧
      ∀ now, let next := { w.world with clock := now }
        ∃ o' w', o'.IsPlain ∧ (service.updateSegment ctx).run.run (ctx.start next) = (.ok o', w') ∧
          w'.world = { next with store := { next.store with
            segments := insertKey uuid { row with updatedAt := some now } next.store.segments } } := by
  obtain ⟨hallowed, patch, uuid, row, store, hpatch, huuid, hstore, rfl, rfl⟩ := run_updateSegment_eq_ok.1 hrun
  refine ⟨patch, uuid, row, hpatch, huuid, hstore, rfl, fun now => ?_⟩
  exact ⟨_, _, isPlain_wrap _ _, run_updateSegment_eq_ok.2 ⟨hallowed, patch, uuid, _, _, hpatch, huuid,
    Store.updateSegment_again hstore now, rfl, rfl⟩, rfl⟩

/-- What has changed a host does so again at any time, and then it only touches it. -/
theorem run_updateHost_again (hs : world.store.Tabled)
    (hrun : (service.updateHost ctx).run.run (ctx.start world) = (.ok o, w)) :
    ∃ patch uuid row, HostPatch.ofBody? (ctx.body.getD .null) = some patch ∧
      lookup? Router.idParam ctx.params = some uuid ∧
      world.store.updateHost uuid world.clock patch = .ok (row, w.world.store) ∧
      w.world = { world with store := w.world.store } ∧
      ∀ now, let next := { w.world with clock := now }
        ∃ o' w', o'.IsPlain ∧ (service.updateHost ctx).run.run (ctx.start next) = (.ok o', w') ∧
          w'.world = { next with store := { next.store with
            hosts := insertKey uuid { row with updatedAt := some now } next.store.hosts } } := by
  obtain ⟨hallowed, segment, g, hsegment, hg, uuid, old, patch, row, store, huuid, hold, hown, hpatch, hstore, rfl, rfl⟩ :=
    run_updateHost_eq_ok.1 hrun
  obtain rfl : old.uuid = uuid := hs.hosts.own _ (mem_of_lookup?_eq_some hold)
  refine ⟨patch, old.uuid, row, hpatch, huuid, hstore, rfl, fun now => ?_⟩
  -- The segment is the same as before, and the host is still one of it.
  obtain ⟨_, names, hold', -, rfl, rfl⟩ := Store.updateHost_eq_ok.1 hstore
  cases hold.symm.trans hold'
  have hrow : lookup? old.uuid (insertKey old.uuid (patch.apply old world.clock) world.store.hosts) =
      some (patch.apply old world.clock) := by
    rw [lookup?_insertKey, if_pos rfl]
  exact ⟨_, _, isPlain_wrap _ _, run_updateHost_eq_ok.2 ⟨hallowed, segment, g, hsegment, hg, old.uuid,
    patch.apply old world.clock, patch, _, _, huuid, hrow, hown, hpatch,
    Store.updateHost_again hstore now, rfl, rfl⟩, rfl⟩

/-! ## Requests -/

theorem Own.eq_updateSegment {collection name : String} {a : Action World Segment} (h : service.Own collection name a)
    (hsegments : collection = "segments") (hname : name = "update") :
    ∃ withEnabled, a = { handler := service.updateSegment, schema := some (Schemas.updateSegment withEnabled) } := by
  cases h with
  | updateSegment withEnabled => exact ⟨withEnabled, rfl⟩
  | indexSegments | showSegment | createSegment | deleteSegment => exact absurd hname (by decide)
  | _ => exact absurd hsegments (by decide)

theorem Own.eq_updateHost {collection name : String} {a : Action World Segment} (h : service.Own collection name a)
    (hhosts : collection = "hosts") (hname : name = "update") :
    a = { handler := service.updateHost, schema := some Schemas.updateHost } := by
  cases h with
  | updateHost => rfl
  | indexHosts | showHost | createHost | deleteHost => exact absurd hname (by decide)
  | _ => exact absurd hhosts (by decide)

/-- What a PUT request calls is the action of its resource that updates. -/
theorem own_of_put (hd : service.dispatcher = .ok d) (h : d.Handled req) (hput : req.method = "PUT") :
    service.Own h.route.resource "update" h.action := by
  rcases Dispatcher.actionName_eq_ok h.named with ⟨-, hm, -⟩ | ⟨-, hm, -⟩ | ⟨-, hm, -⟩ | ⟨ht, -, hname⟩ |
    ⟨-, hm, -⟩ | ⟨-, hm, -⟩
  case inr.inr.inr.inl => exact hname ▸ own_of_handled hd h (by rw [ht]; decide)
  all_goals
    rw [hput] at hm
    exact absurd hm (by decide)

/-- A request whose handler succeeds in a world has the status of its action, and leaves what the handler leaves. -/
theorem serve_of_run (h : d.Handled req) (hrun : (h.action.handler h.ctx).run.run (h.ctx.start world) = (.ok o, w))
    (ho : o.IsPlain) : (d.serve req world).reply.status = h.action.status ∧ (d.serve req world).world = w.world := by
  obtain ⟨hreply, hworld⟩ := h.serve_eq world
  rw [hrun] at hreply hworld
  exact ⟨hreply ▸ h.status_finish o _ _ ho, hworld⟩

theorem carries_of_handled (h : d.Handled req) {key : String} {attrs : List (String × Json)}
    (hattrs : (h.ctx.body.getD .null).get? key = some (.obj attrs)) : req.Carries key attrs := by
  cases hbody : h.ctx.body with
  | none =>
    rw [hbody] at hattrs
    cases hattrs
  | some body => exact ⟨body, hbody ▸ h.decoded, by rwa [hbody] at hattrs⟩

section Requests
variable (hd : service.dispatcher = .ok d) (hroute : d.router.route? req.path = some route) (hput : req.method = "PUT")
  (hstatus : (d.serve req world).reply.status = 200)
include hd hroute hput hstatus

theorem exists_put : ∃ (h : d.Handled req) (o : Outcome) (w : Workspace World Segment),
    service.Own route.resource "update" h.action ∧ h.ctx.params = route.params ∧
      (h.action.handler h.ctx).run.run (h.ctx.start world) = (.ok o, w) ∧ (d.serve req world).world = w.world := by
  obtain ⟨h, o, w, rfl, hrun, -, hworld⟩ := exists_handled hd hroute (by rw [hstatus]; decide)
  exact ⟨h, o, w, own_of_put hd h hput, h.ctx_params, hrun, hworld⟩

theorem exists_revisesSegment (hresource : route.resource = "segments") :
    ∃ uuid attrs old new, lookup? Router.idParam route.params = some uuid ∧
      RevisesSegment d req world uuid attrs old new := by
  obtain ⟨h, o, w, hown, hparams, hrun, hworld⟩ := exists_put hd hroute hput hstatus
  obtain ⟨withEnabled, haction⟩ := hown.eq_updateSegment hresource rfl
  rw [haction] at hrun
  obtain ⟨patch, uuid, row, hpatch, huuid, hstore, hkept, hagain⟩ := run_updateSegment_again hrun
  obtain ⟨attrs, hattrs, patch', hpatch', hmatches⟩ := SegmentPatch.exists_of_check (h.checked _ (by rw [haction]))
  cases hpatch.symm.trans hpatch'
  obtain ⟨old, names, hold, hnames, rfl, hafter⟩ := Store.updateSegment_eq_ok.1 hstore
  refine ⟨uuid, attrs, old, patch.apply old world.clock, hparams ▸ huuid, carries_of_handled h hattrs, hold,
    hmatches.revised old _, ⟨names, Store.reindexed_of_rename hnames, ?_⟩, fun now => ?_⟩
  · rw [hworld, hkept, hafter]
  · obtain ⟨o', w', hplain, hrun', hworld'⟩ := hagain now
    rw [hworld]
    obtain ⟨hstatus', hleft⟩ := serve_of_run h (by rw [haction]; exact hrun') hplain
    exact ⟨by rw [hstatus', haction], hleft.trans hworld'⟩

theorem exists_revisesHost (hs : world.store.Tabled) (hresource : route.resource = "hosts") :
    ∃ uuid attrs old new, lookup? Router.idParam route.params = some uuid ∧
      RevisesHost d req world uuid attrs old new := by
  obtain ⟨h, o, w, hown, hparams, hrun, hworld⟩ := exists_put hd hroute hput hstatus
  have haction := hown.eq_updateHost hresource rfl
  rw [haction] at hrun
  obtain ⟨patch, uuid, row, hpatch, huuid, hstore, hkept, hagain⟩ := run_updateHost_again hs hrun
  obtain ⟨attrs, hattrs, patch', hpatch', hmatches⟩ := HostPatch.exists_of_check (h.checked _ (by rw [haction]))
  cases hpatch.symm.trans hpatch'
  obtain ⟨old, names, hold, hnames, rfl, hafter⟩ := Store.updateHost_eq_ok.1 hstore
  refine ⟨uuid, attrs, old, patch.apply old world.clock, hparams ▸ huuid, carries_of_handled h hattrs, hold,
    hmatches.revised old _, ⟨names, Store.reindexed_of_rename hnames, ?_⟩, fun now => ?_⟩
  · rw [hworld, hkept, hafter]
  · obtain ⟨o', w', hplain, hrun', hworld'⟩ := hagain now
    rw [hworld]
    obtain ⟨hstatus', hleft⟩ := serve_of_run h (by rw [haction]; exact hrun') hplain
    exact ⟨by rw [hstatus', haction], hleft.trans hworld'⟩

/-- **Changing a row.** A PUT request for a segment or a host that is accepted, at any version, leaves the row with just the
attributes that its body has as the body says, with `null` for no description and flags in whatever words, and with the
present time as that of the last change. The row keeps its identifiers, its time of creation and the segment it belongs
to; the index of names follows the row if it has got another name, and nothing else of the world has changed. When the
same request comes again it is accepted, whatever the time, and changes the time of the last change and no more. -/
theorem serve_revises (hs : world.store.Reachable) :
    (route.resource = "segments" → ∃ uuid attrs old new, lookup? Router.idParam route.params = some uuid ∧
      RevisesSegment d req world uuid attrs old new) ∧
    (route.resource = "hosts" → ∃ uuid attrs old new, lookup? Router.idParam route.params = some uuid ∧
      RevisesHost d req world uuid attrs old new) :=
  ⟨exists_revisesSegment hd hroute hput hstatus, exists_revisesHost hd hroute hput hstatus hs.tabled⟩

end Requests

/-- What makes a segment have its own name, no description and no recovery. -/
def retiringMembers : List (String × Json) :=
  [("segment", .obj [("name", .str "rack"), ("description", .null), ("enabled", .str "off")])]

/-- An administrator asks for it. -/
def retiring : Request where
  method := "PUT"
  path := "/v1/segments/1"
  query := none
  headers := [("x-roles", "admin")]
  body := Text.Utf8.encode (Json.obj retiringMembers).text

/-- It is accepted, without a version that it names. -/
theorem status_retiring (hd : sinceActions.dispatcher = .ok d) (hdefault : d.window.default = v1_2)
    (hw : world.store = calm) :
    d.router.route? retiring.path = some ⟨"segments", .member, [("id", "1")], none, "/v1/segments/1", none⟩ ∧
      (d.serve retiring world).reply.status = 200 := by
  obtain ⟨hrouter, -, hheader⟩ := router_of_dispatcher rfl hd
  obtain ⟨e, he⟩ := exists_entry rfl hd .segments
  have hroute : d.router.route? retiring.path = some ⟨"segments", .member, [("id", "1")], none, "/v1/segments/1", none⟩ := by
    rw [hrouter]
    decide +kernel
  have hvalues : retiring.headers.values d.versionHeader = [] := by
    rw [hheader]
    decide
  have hversion : VersionHeader.resolve d.versionHeader d.service d.window (retiring.headers.values d.versionHeader) =
      .ok v1_2 := by
    rw [hvalues, ← hdefault]
    rfl
  have hbody : Dispatcher.decodeBody retiring = .ok (some (.obj retiringMembers)) :=
    Dispatcher.decodeBody_text rfl (.inr rfl) (by decide) (by rw [retiring])
  obtain ⟨adm, -, -, hctx, hbound⟩ := exists_admitted hd hroute rfl he (by simp) hversion (by decide) hbody rfl
    (by decide) (by decide) rfl (.updateSegment (by decide))
  have hadmin : (Dispatcher.callerOf retiring).isAdmin = true := by decide +kernel
  have hauthorize : sinceActions.policy.authorize adm.ctx.caller (Policy.actionName "segments" "update") = .ok () := by
    rw [hctx]
    exact authorize_of_isAdmin hadmin _
  have hpatch : SegmentPatch.ofBody? (adm.ctx.body.getD .null) =
      some { name := some "rack", description := some none, enabled := some false } := by
    rw [hctx]
    rfl
  have hid : lookup? Router.idParam adm.ctx.params = some "1" := by
    rw [hctx]
    rfl
  obtain ⟨row, store, hstore⟩ : ∃ row store, world.store.updateSegment "1" world.clock
      { name := some "rack", description := some none, enabled := some false } = .ok (row, store) := by
    rw [hw]
    exact ⟨_, _, rfl⟩
  have hcall := run_updateSegment_eq_ok (w := adm.ctx.start world) |>.2
    ⟨hauthorize, _, "1", row, store, hpatch, hid, hstore, rfl, rfl⟩
  have haccepts : (Schemas.updateSegment (v1_2.le v1_2)).check (adm.ctx.body.getD .null) = .ok () := by
    rw [hctx]
    rfl
  exact ⟨hroute, (adm.serve_of_call (decorates_of_admitted hd adm) hbound
    (Action.accepts_start rfl haccepts) hcall (isPlain_wrap _ _)).1⟩

/-- The segment has lost its description and is not enabled any more, and the request is accepted again. -/
theorem serve_revises_retiring : ∃ d, sinceActions.dispatcher = .ok d ∧ calm.Reachable ∧
    ∀ world : World, world.store = calm → (d.serve retiring world).reply.status = 200 ∧
      ∃ uuid attrs old new, RevisesSegment d retiring world uuid attrs old new ∧ uuid = "1" := by
  obtain ⟨d, hd, hdefault⟩ := exists_dispatcher_sinceActions
  refine ⟨d, hd, reachable_calm, fun world hw => ?_⟩
  obtain ⟨hroute, hstatus⟩ := status_retiring hd hdefault hw
  obtain ⟨uuid, attrs, old, new, huuid, hrevises⟩ :=
    (serve_revises hd hroute rfl hstatus (hw ▸ reachable_calm)).1 rfl
  exact ⟨hstatus, uuid, attrs, old, new, hrevises, (Option.some.inj huuid).symm⟩

end Service

end Standby
