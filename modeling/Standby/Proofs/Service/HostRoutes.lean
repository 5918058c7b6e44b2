import Standby.Proofs.Engine.Selection
import Standby.Proofs.Service.Faults
import Standby.Proofs.Service.Paging
/-!
# What requests for hosts leave alone

The actions of hosts change no segment, and none of them succeeds below a segment that is not there. But hosts take over
the actions of segments too. At the action endpoint of a host these take the identifier in the host's place for that of
a segment, and do not look for the segment that the path names, so that they change any segment from below any other.
-/

namespace Standby.Service

variable {service : Service} {d : Dispatcher World Segment} {req : Request}

/-- The segments and their names stay as they are. -/
structure KeepsSegments (w w' : World) : Prop where
  segments : w'.store.segments = w.store.segments
  names : w'.store.segmentNames = w.store.segmentNames

theorem keepsSegments_of_eq {w w' : World} (h : w' = w) : KeepsSegments w w' := by
  rw [h]
  exact ⟨rfl, rfl⟩

/-- A segment with an identifier after it has been enabled or disabled. -/
def toggled (w : World) (id : String) (old : Segment) (enabled : Bool) : World :=
  { w with
    store := { w.store with
      segments := insertKey id { old with enabled, updatedAt := some w.clock } w.store.segments } }

/-- The segment whose identifier stands in a member's place in the path is enabled or disabled, and nothing else is
changed. -/
def Toggles (route : Route) (w w' : World) : Prop :=
  ∃ id old enabled, lookup? Router.idParam route.params = some id ∧ lookup? id w.store.segments = some old ∧
    w' = toggled w id old enabled

/-! ## Actions of hosts -/

section Handlers
variable {ctx : Context} {w w' : Workspace World Segment} {o : Outcome}

/-- A handler that loads the segment of the path succeeds only if it is stored. -/
theorem exists_of_loadSegment {resource action : String} {rest : Segment → ServiceStep Outcome}
    (h : (do service.authorize ctx resource action; let s ← loadSegment ctx; rest s).run.run w = (.ok o, w')) :
    ∃ id g, lookup? segmentParam ctx.params = some id ∧ lookup? id w.world.store.segments = some g := by
  obtain ⟨u, w₁, hauthorize, h₁⟩ := run_bind_eq_ok.1 h
  obtain ⟨-, rfl⟩ := orFail_eq_ok hauthorize
  obtain ⟨g, w₂, hload, -⟩ := run_bind_eq_ok.1 h₁
  obtain ⟨id, hid, hg, -⟩ := run_loadSegment_eq_ok.1 hload
  exact ⟨id, g, param_eq_ok.1 hid, hg⟩

theorem transacts_keeping_createHost : Transacts KeepsSegments (service.createHost ctx) := by
  refine transacts_createHost fun h => ?_
  obtain ⟨-, -, -, rfl⟩ := Store.createHost_eq_ok.1 h
  exact ⟨rfl, rfl⟩

theorem transacts_keeping_updateHost : Transacts KeepsSegments (service.updateHost ctx) := by
  refine transacts_updateHost fun h => ?_
  obtain ⟨old, names, -, -, -, rfl⟩ := Store.updateHost_eq_ok.1 h
  exact ⟨rfl, rfl⟩

theorem transacts_keeping_deleteHost : Transacts KeepsSegments (service.deleteHost ctx) := by
  refine transacts_deleteHost fun h => ?_
  obtain ⟨row, -, rfl⟩ := Store.destroyHost_eq_ok.1 h
  exact ⟨rfl, rfl⟩

/-- An action of hosts that succeeds has found the segment of the path and has left all segments as they were. -/
theorem Own.keepsSegments {collection name : String} {a : Action World Segment} (h : service.Own collection name a)
    (hhosts : collection = "hosts") (hrun : (a.handler ctx).run.run w = (.ok o, w')) :
    KeepsSegments w.world w'.world ∧
      ∃ id g, lookup? segmentParam ctx.params = some id ∧ lookup? id w.world.store.segments = some g := by
  have hreads (hr : Reads (a.handler ctx)) : KeepsSegments w.world w'.world := by
    have hw := hr w
    rw [hrun] at hw
    exact keepsSegments_of_eq hw
  cases h with
  | indexHosts => exact ⟨hreads reads_indexHosts, exists_of_loadSegment hrun⟩
  | showHost => exact ⟨hreads reads_showHost, exists_of_loadSegment hrun⟩
  | createHost => exact ⟨transacts_keeping_createHost.changes w o w' hrun, exists_of_loadSegment hrun⟩
  | updateHost => exact ⟨transacts_keeping_updateHost.changes w o w' hrun, exists_of_loadSegment hrun⟩
  | deleteHost => exact ⟨transacts_keeping_deleteHost.changes w o w' hrun, exists_of_loadSegment hrun⟩
  | _ => exact absurd hhosts (by decide)

/-! ## Actions that are taken over -/

theorem updateSegment_enabled_eq_ok {s s' : Store} {id : String} {now : Time.Instant} {enabled : Bool} {row : Segment} :
    s.updateSegment id now { enabled := some enabled } = .ok (row, s') ↔
      ∃ old, lookup? id s.segments = some old ∧ row = { old with enabled, updatedAt := some now } ∧
        s' = { s with segments := insertKey id row s.segments } := by
  rw [Store.updateSegment_eq_ok]
  constructor
  · rintro ⟨old, names, hold, hnames, rfl, rfl⟩
    rcases Store.rename_eq_ok.1 hnames with ⟨-, rfl⟩ | ⟨hne, -⟩
    · exact ⟨old, hold, rfl, rfl⟩
    · exact absurd rfl hne
  · rintro ⟨old, hold, rfl, rfl⟩
    exact ⟨old, s.segmentNames, hold, Store.rename_eq_ok.2 (.inl ⟨rfl, rfl⟩), rfl, rfl⟩

/-- Enabling or disabling succeeds exactly for a caller who may do it and a segment that is stored. -/
theorem run_setEnabled_eq_ok {action : String} {enabled : Bool} :
    (∃ o, o.IsPlain ∧ (service.setEnabled action enabled ctx).run.run w = (.ok o, w')) ↔
      service.policy.authorize ctx.caller (Policy.actionName "segments" action) = .ok () ∧
        ∃ id old, lookup? Router.idParam ctx.params = some id ∧ lookup? id w.world.store.segments = some old ∧
          w' = { w with world := toggled w.world id old enabled } := by
  constructor
  · rintro ⟨o, -, h⟩
    obtain ⟨⟨⟩, hallowed, h⟩ := run_orFail_bind_eq_ok.1 h
    obtain ⟨id, row, store, hid, hstore, -, rfl⟩ := run_patchSegment_eq_ok.1 h
    obtain ⟨old, hold, rfl, rfl⟩ := updateSegment_enabled_eq_ok.1 hstore
    exact ⟨hallowed, id, old, hid, hold, rfl⟩
  · rintro ⟨hallowed, id, old, hid, hold, rfl⟩
    let row : Segment := { old with enabled, updatedAt := some w.world.clock }
    have hstore : w.world.store.updateSegment id w.world.clock { enabled := some enabled } =
        .ok (row, { w.world.store with segments := insertKey id row w.world.store.segments }) :=
      updateSegment_enabled_eq_ok.2 ⟨old, hold, rfl, rfl⟩
    refine ⟨wrap "segment" (segmentJson ctx row), isPlain_wrap _ _, run_orFail_bind_eq_ok.2 ⟨(), hallowed, ?_⟩⟩
    exact run_patchSegment_eq_ok.2 ⟨id, row, _, hid, hstore, rfl, rfl⟩

/-- The actions that are taken over enable or disable. -/
theorem Added.exists_setEnabled {name : String} {a : Action World Segment} (h : service.Added name a) :
    a.status = 200 ∧ ∃ action enabled, a.handler = service.setEnabled action enabled := by
  cases h with
  | enable => exact ⟨rfl, "enable", true, rfl⟩
  | disable => exact ⟨rfl, "disable", false, rfl⟩

end Handlers

/-! ## A segment that is disabled from below another -/

/-- The controller of segments, and what it binds from version 1.2 on. -/
theorem exists_controller (service : Service) : ∃ c, service.segmentActionsExtension.controllerList = [c] ∧
    c.resource = "segments" ∧ ∀ v : Version, v1_2.le v = true → c.actions.resolve "disable" v =
      some { handler := service.setEnabled "disable" false, schema := some (Schemas.segmentAction "disable") } := by
  obtain ⟨controllers, hcontrollers⟩ := service.exists_segmentActions
  have hlist : service.segmentActionsExtension.controllerList = controllers := by
    rw [Extension.controllerList, hcontrollers]
    rfl
  obtain ⟨registry, hregistry, h⟩ := bind_eq_ok.1 hcontrollers
  obtain ⟨hooks, -, h⟩ := bind_eq_ok.1 h
  cases h
  refine ⟨_, hlist, rfl, fun v hv => resolve_of_actions hregistry (List.mem_cons_of_mem _ List.mem_cons_self) ?_⟩
  simpa [VersionRange.contains, VersionRange.since, Version.isWithin] using hv

/-- With all extensions hosts have the actions and the hooks of the controller of segments, and no others. -/
theorem registrations_of_hosts (hdisabled : service.config.disabledExtensions = []) (hd : service.dispatcher = .ok d)
    {e : Entry World Segment} (he : lookup? "hosts" d.entries = some e) {c : Controller World Segment}
    (hc : service.segmentActionsExtension.controllerList = [c]) (hresource : c.resource = "segments") :
    e.actions = [c.actions] ∧ e.hooks = [c.hooks] := by
  obtain ⟨infos, settings, -, hbuild⟩ := build_of_dispatcher hdisabled hd
  obtain ⟨_, _, _, _, _, hresources⟩ := service.exists_resources infos
  have hbuilt : d.IsBuiltFrom ⟨service.builtin ++ [service.extensionsExtension infos]⟩ := by
    refine ⟨settings, ?_⟩
    rw [hbuild, ← catalog_of_dispatcher hd]
  obtain ⟨-, -, rest, hcomplete, hactions, hhooks⟩ := hbuilt.entry he
  have hpointers : (⟨service.builtin ++ [service.extensionsExtension infos]⟩ : ExtensionSet World Segment).pointers =
      [("versions", none), ("segments", none), ("hosts", some "segments"), ("notifications", none),
        ("extensions", none)] := by
    rw [ExtensionSet.pointers, hresources]
    rfl
  have hcontrollers : (⟨service.builtin ++ [service.extensionsExtension infos]⟩ : ExtensionSet World Segment).controllers =
      [c] := by
    simp only [ExtensionSet.controllers, builtin, List.cons_append, List.nil_append, List.flatMap_cons,
      List.flatMap_nil, hc]
    rfl
  -- Hosts point to segments, and segments to nothing.
  have hrest : rest = ["segments"] := by
    rw [hpointers] at hcomplete
    cases rest with
    | nil => exact absurd (hcomplete.ended "hosts" "segments" rfl rfl) (by decide)
    | cons next rest =>
      obtain ⟨hnext, hlinked⟩ := List.isChain_cons_cons.1 hcomplete.linked
      cases hnext
      cases rest with
      | nil => rfl
      | cons last rest => cases (List.isChain_cons_cons.1 hlinked).1
  rw [hactions, hhooks, hrest, ExtensionSet.controllersFor, hcontrollers]
  simp [hresource]

/-- The service with the default configuration but for the version of requests that name none. -/
def sinceActions : Service := { byDefault with config := { defaultVersion := "1.2" } }

theorem exists_dispatcher_sinceActions : ∃ d, sinceActions.dispatcher = .ok d ∧ d.window.default = v1_2 := by
  have hmin : Version.parse sinceActions.config.minVersion = .ok v1_0 := rfl
  have hdefault : Version.parse sinceActions.config.defaultVersion = .ok v1_2 := rfl
  have hname : Headers.isName sinceActions.config.versionHeader = true := rfl
  obtain ⟨d, hd⟩ := exists_dispatcher hmin hdefault (by decide) hname rfl
  exact ⟨d, hd, (window_of_dispatcher rfl hd hmin hdefault).2.2⟩

/-- A store with one segment. -/
def haven : Store := (Store.run [.createSegment "1" .first ⟨"haven", none, .auto, "COMPUTE", none⟩]).store

/-- An administrator disables something below a segment that there is not. -/
def disabling : Request where
  method := "POST"
  path := "/v1/segments/nowhere/hosts/1/action"
  query := none
  headers := [("x-roles", "admin")]
  body := Text.Utf8.encode (Json.obj [("disable", .null)]).text

/-- Where that leads. -/
def disablingRoute : Route :=
  ⟨"hosts", .action, [(segmentParam, "nowhere"), (Router.idParam, "1")], none, "/v1/segments/nowhere/hosts/1/action", none⟩

theorem route?_disabling (hd : sinceActions.dispatcher = .ok d) :
    d.router.route? disabling.path = some disablingRoute := by
  have hcomponents : Router.components "/v1/segments/nowhere/hosts/1/action" =
      ["v1", "segments", "nowhere", "hosts", "1", "action"] := by decide +kernel
  have hsuffix : Text.before? ".json" "/v1/segments/nowhere/hosts/1/action" = none := by decide
  show d.router.route? "/v1/segments/nowhere/hosts/1/action" = _
  simp only [Router.route?, hsuffix, hcomponents, (router_of_dispatcher rfl hd).1]
  rfl

/-- The request is admitted, and what is called disables a segment. -/
theorem exists_admitted_disabling (hd : sinceActions.dispatcher = .ok d) (hdefault : d.window.default = v1_2) :
    ∃ a : d.Admitted disabling, a.ctx.params = disablingRoute.params ∧
      a.ctx.caller = Dispatcher.callerOf disabling ∧ a.ctx.body = some (.obj [("disable", .null)]) ∧
      a.handlers.resolve a.ctx.action a.ctx.effectiveVersion =
        some { handler := sinceActions.setEnabled "disable" false
               schema := some (Schemas.segmentAction "disable") } := by
  obtain ⟨-, hentries, hheader⟩ := router_of_dispatcher rfl hd
  obtain ⟨e, he⟩ : ∃ e, lookup? "hosts" d.entries = some e := by
    cases he : lookup? "hosts" d.entries with
    | none => exact absurd (lookup?_eq_none_iff.1 he) (by rw [hentries]; decide)
    | some e => exact ⟨e, rfl⟩
  have hpresents : sinceActions.Presents .hosts e.resource := presents_of_dispatcher hd he
  obtain ⟨c, hc, hresource, hresolve⟩ := exists_controller sinceActions
  obtain ⟨hactions, -⟩ := registrations_of_hosts rfl hd he hc hresource
  have hlocated : d.locate disabling = .ok (disablingRoute, e) := by
    have hentry : lookup? disablingRoute.resource d.entries = some e := he
    simp only [Dispatcher.locate, route?_disabling hd, hentry]
  have hversion : d.versionOf e disabling = .ok (some v1_2) := by
    have hvalues : disabling.headers.values d.versionHeader = [] := by
      rw [hheader]
      decide
    rw [Dispatcher.versionOf, if_pos hpresents.versioned, hvalues, ← hdefault]
    rfl
  have hbody : Dispatcher.decodeBody disabling = .ok (some (.obj [("disable", .null)])) :=
    Dispatcher.decodeBody_text rfl (.inl rfl) (by decide) rfl
  have hhandlers : Dispatcher.handlersOf e .action "disable" = .ok c.actions := by
    have hcontains := Registry.contains_of_resolve (hresolve v1_2 (by decide))
    rw [Dispatcher.handlersOf, if_pos rfl, hactions, List.find?_singleton, if_pos hcontains]
  have hadmitted : d.contextOf disablingRoute e (some v1_2) disabling =
      .ok (d.contextAt disablingRoute (some v1_2) disabling "disable" (some (.obj [("disable", .null)])), c.actions) :=
    Dispatcher.contextOf_eq_ok_iff.2 ⟨⟨none, rfl⟩, _, "disable", hbody, rfl, hhandlers, rfl, rfl⟩
  exact ⟨⟨_, e, _, _, c.actions, hlocated, hversion, hadmitted⟩, rfl, rfl, rfl, hresolve v1_2 (by decide)⟩

/-- The only segment there is gets disabled, although the path names another one. -/
theorem serve_disabling (hd : sinceActions.dispatcher = .ok d) (hdefault : d.window.default = v1_2) {w : World}
    (hw : w.store = haven) :
    ∃ old, lookup? "1" w.store.segments = some old ∧ old.enabled = true ∧ (d.serve disabling w).reply.status = 200 ∧
      (d.serve disabling w).world = toggled w "1" old false := by
  obtain ⟨a, hparams, hcaller, hbody, hbound⟩ := exists_admitted_disabling hd hdefault
  obtain ⟨old, hold, henabled⟩ : ∃ old, lookup? "1" w.store.segments = some old ∧ old.enabled = true := by
    rw [hw]
    exact ⟨_, rfl, rfl⟩
  have hauthorize : sinceActions.policy.authorize a.ctx.caller (Policy.actionName "segments" "disable") = .ok () := by
    have hadmin : (Dispatcher.callerOf disabling).isAdmin = true := by decide +kernel
    exact authorize_of_isAdmin (hcaller ▸ hadmin) _
  obtain ⟨o, hplain, hrun⟩ : ∃ o, o.IsPlain ∧ (sinceActions.setEnabled "disable" false a.ctx).run.run (a.ctx.start w) =
      (.ok o, { a.ctx.start w with world := toggled w "1" old false }) :=
    run_setEnabled_eq_ok.2 ⟨hauthorize, "1", old, by rw [hparams]; rfl, hold, rfl⟩
  have hhooks : ∀ h ∈ Dispatcher.hooksOf a.entry a.ctx, h.Decorates := by
    intro h hm
    rw [hook_of_dispatcher hd (a.hook hm)]
    exact enabledHook_decorates
  have haccepts : (Schemas.segmentAction "disable").check (a.ctx.body.getD .null) = .ok () := by
    rw [hbody]
    rfl
  exact ⟨old, hold, henabled, a.serve_of_call hhooks hbound (Action.accepts_start rfl haccepts) hrun hplain⟩

/-! ## Requests -/

/-- **Hosts and segments.** A request whose path leads to hosts keeps all segments and their names, and if the segment
that the path names is not stored it changes nothing and does not succeed. The only exception is an action of segments
that succeeds at the action endpoint of a host: it enables or disables the segment whose identifier stands in the place
of the host's, whatever segment the path names, and changes nothing else. -/
theorem serve_hosts (hd : service.dispatcher = .ok d) {route : Route} (hroute : d.router.route? req.path = some route)
    (hhosts : route.resource = "hosts") (w : World) :
    ∃ segmentId, lookup? segmentParam route.params = some segmentId ∧
      (KeepsSegments w (d.serve req w).world ∧
          (lookup? segmentId w.store.segments = none → (d.serve req w).world = w ∧
            ¬(200 ≤ (d.serve req w).reply.status ∧ (d.serve req w).reply.status < 300)) ∨
        route.target = .action ∧ (d.serve req w).reply.status = 200 ∧ Toggles route w (d.serve req w).world) := by
  obtain ⟨segmentId, hsegment⟩ := has_segmentParam hd hroute hhosts
  refine ⟨segmentId, hsegment, ?_⟩
  rcases serve_ends hd req w with ⟨version, e, he, hreply, hworld⟩ | ⟨h, o, w', hrun, hstatus, hworld⟩
  · refine .inl ⟨keepsSegments_of_eq hworld, fun _ => ⟨hworld, fun hsuccess => ?_⟩⟩
    rw [hreply, Dispatcher.fault, Dispatcher.status_stamp] at hsuccess
    have hfault : 400 ≤ e.status := he.status_bounds.1
    exact absurd (hfault.trans_lt hsuccess.2) (by decide)
  · obtain ⟨hroute', -⟩ := Dispatcher.locate_eq_ok h.located
    cases hroute.symm.trans hroute'
    obtain ⟨_, -, -, -, -, -, -, -, -, hparams, -⟩ := Dispatcher.contextOf_eq_ok h.admitted
    rcases h.toAdmitted.action h.resolved with ⟨htarget, hadded⟩ | ⟨-, hown⟩
    · obtain ⟨hok, action, enabled, hhandler⟩ := (added_of_dispatcher hd hadded).exists_setEnabled
      refine .inr ⟨htarget, hstatus.trans hok, ?_⟩
      have hplain := (answers_of_handled hd h).plain _ o (congrArg Prod.fst hrun)
      rw [hhandler] at hrun
      obtain ⟨-, id, old, hid, hold, rfl⟩ := run_setEnabled_eq_ok.1 ⟨o, hplain, hrun⟩
      exact ⟨id, old, enabled, hparams ▸ hid, hold, hworld⟩
    · obtain ⟨hkeeps, id, g, hid, hg⟩ := (own_of_dispatcher hd hown).keepsSegments hhosts hrun
      rw [hparams, hsegment] at hid
      cases hid
      refine .inl ⟨hworld ▸ hkeeps, fun hnone => ?_⟩
      cases hnone.symm.trans hg

/-- A request for the hosts of a segment. -/
def hostsOfOne : Request := ⟨"GET", "/v1/segments/1/hosts", none, [], []⟩

theorem route?_hostsOfOne (hd : sinceActions.dispatcher = .ok d) :
    d.router.route? hostsOfOne.path =
      some ⟨"hosts", .collection, [(segmentParam, "1")], none, "/v1/segments/1/hosts", none⟩ := by
  have hcomponents : Router.components "/v1/segments/1/hosts" = ["v1", "segments", "1", "hosts"] := by decide +kernel
  have hsuffix : Text.before? ".json" "/v1/segments/1/hosts" = none := by decide
  show d.router.route? "/v1/segments/1/hosts" = _
  simp only [Router.route?, hsuffix, hcomponents, (router_of_dispatcher rfl hd).1]
  rfl

/-- A listing of hosts keeps the segments, and does not succeed without the segment of its path. The action that disables
a segment from below one that there is not succeeds, and so it is the exception. -/
theorem serve_hosts_haven : ∃ d, sinceActions.dispatcher = .ok d ∧
    (∀ w, KeepsSegments w (d.serve hostsOfOne w).world ∧ (lookup? "1" w.store.segments = none →
      ¬(200 ≤ (d.serve hostsOfOne w).reply.status ∧ (d.serve hostsOfOne w).reply.status < 300))) ∧
    ∀ w, w.store = haven → lookup? "nowhere" w.store.segments = none ∧ (d.serve disabling w).reply.status = 200 ∧
      Toggles disablingRoute w (d.serve disabling w).world := by
  obtain ⟨d, hd, hdefault⟩ := exists_dispatcher_sinceActions
  refine ⟨d, hd, fun w => ?_, fun w hw => ?_⟩
  · obtain ⟨segmentId, hsegment, ⟨hkeeps, hmissing⟩ | ⟨htarget, -⟩⟩ := serve_hosts hd (route?_hostsOfOne hd) rfl w
    · cases hsegment
      exact ⟨hkeeps, fun hnone => (hmissing hnone).2⟩
    · cases htarget
  · have hnone : lookup? "nowhere" w.store.segments = none := by
      rw [hw]
      rfl
    obtain ⟨old, -, -, hstatus, -⟩ := serve_disabling hd hdefault hw
    obtain ⟨segmentId, hsegment, ⟨-, hmissing⟩ | ⟨-, -, htoggles⟩⟩ := serve_hosts hd (route?_disabling hd) rfl w
    · cases hsegment
      exact absurd (by rw [hstatus]; decide) (hmissing hnone).2
    · exact ⟨hnone, hstatus, htoggles⟩

/-- There is no segment of the name in the path, and yet the only segment there is gets disabled. -/
theorem serve_disabling_elsewhere : ∃ d, sinceActions.dispatcher = .ok d ∧ haven.Reachable ∧
    d.router.route? disabling.path = some disablingRoute ∧ disablingRoute.resource = "hosts" ∧
    lookup? segmentParam disablingRoute.params = some "nowhere" ∧ lookup? "nowhere" haven.segments = none ∧
    ∀ w : World, w.store = haven →
      (d.serve disabling w).reply.status = 200 ∧ ¬KeepsSegments w (d.serve disabling w).world := by
  obtain ⟨d, hd, hdefault⟩ := exists_dispatcher_sinceActions
  refine ⟨d, hd, ⟨_, by simp [Store.Op.generated?], rfl⟩, route?_disabling hd, rfl, rfl, rfl, fun w hw => ?_⟩
  obtain ⟨old, hold, henabled, hstatus, hworld⟩ := serve_disabling hd hdefault hw
  refine ⟨hstatus, fun hkeeps => ?_⟩
  -- The segment that was enabled is not so any more.
  have hsegments := hkeeps.segments
  rw [hworld] at hsegments
  have hlookup := congrArg (lookup? "1") hsegments
  rw [hold] at hlookup
  have hsame : some { old with enabled := false, updatedAt := some w.clock } = some old := by
    rw [← hlookup]
    simp [toggled, lookup?_insertKey]
  have hdisabled : false = old.enabled := congrArg Segment.enabled (Option.some.inj hsame)
  rw [henabled] at hdisabled
  cases hdisabled

end Standby.Service
