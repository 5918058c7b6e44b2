import Standby.Proofs.Engine.Faults
import Standby.Proofs.Engine.Params
import Standby.Proofs.Failover.Bodies
import Standby.Proofs.Service.Failures
import Standby.Proofs.Service.Pages
import Standby.Proofs.Service.Unchanged
/-!
# The service is never at fault

A path on which a handler is called has every parameter that the handler asks for, and a schema that has accepted a body
has made sure that the handler can read it. All that is left for a handler to fail with is its client's error, so that
no reply says that the service is at fault.
-/

namespace Standby.Service

variable {service : Service} {d : Dispatcher World Segment} {req : Request}

/-! ## What handlers need -/

/-- The parameters that the handler of an action of a resource asks for. -/
def asks (collection action : String) : List String :=
  (if collection = "hosts" then [segmentParam] else []) ++
    if action = "index" ∨ action = "create" then [] else [Router.idParam]

/-- A body is one that the handler of an action of a resource can read. Most handlers do not look at it. -/
def CanRead (collection action : String) (j : Json) : Prop :=
  match action, collection with
  | "create", "segments" => ∃ d, SegmentDraft.ofBody? j = some d
  | "update", "segments" => ∃ d, SegmentPatch.ofBody? j = some d
  | "create", "hosts" => ∃ d, HostDraft.ofBody? j = some d
  | "update", "hosts" => ∃ d, HostPatch.ofBody? j = some d
  | "create", "notifications" => ∃ d, NotificationDraft.ofBody? j = some d
  | _, _ => True

theorem mem_asks_id {collection action : String} (h : ¬(action = "index" ∨ action = "create")) :
    Router.idParam ∈ asks collection action := by
  rw [asks, if_neg h]
  exact List.mem_append_right _ (List.mem_singleton_self _)

theorem mem_asks_segment (action : String) : segmentParam ∈ asks "hosts" action := by
  rw [asks, if_pos rfl]
  exact List.mem_append_left _ (List.mem_singleton_self _)

/-- An action of a resource asks for those parameters and reads its body as that, and fails for the listed causes only. -/
theorem Own.answers {collection name : String} {a : Action World Segment} (h : service.Own collection name a)
    (ctx : Context) : Answers (Cause ctx (asks collection name) (CanRead collection name)) (a.handler ctx) := by
  cases h with
  | indexVersions => exact answers_indexVersions
  | showVersion => exact answers_showVersion (mem_asks_id (by decide))
  | indexExtensions infos => exact answers_indexExtensions infos
  | showExtension infos => exact answers_showExtension (mem_asks_id (by decide)) infos
  | indexSegments => exact answers_indexSegments
  | showSegment => exact answers_showSegment (mem_asks_id (by decide))
  | createSegment withEnabled => exact answers_createSegment fun j hj => hj
  | updateSegment withEnabled => exact answers_updateSegment (mem_asks_id (by decide)) fun j hj => hj
  | deleteSegment => exact answers_deleteSegment (mem_asks_id (by decide))
  | indexHosts => exact answers_indexHosts (mem_asks_segment _)
  | showHost => exact answers_showHost (mem_asks_segment _) (mem_asks_id (by decide))
  | createHost => exact answers_createHost (mem_asks_segment _) fun j hj => hj
  | updateHost => exact answers_updateHost (mem_asks_segment _) (mem_asks_id (by decide)) fun j hj => hj
  | deleteHost => exact answers_deleteHost (mem_asks_segment _) (mem_asks_id (by decide))
  | indexNotifications => exact answers_indexNotifications
  | showNotification details => exact answers_showNotification (mem_asks_id (by decide)) details
  | createNotification => exact answers_createNotification fun j hj => hj

theorem Added.answers {name : String} {a : Action World Segment} (h : service.Added name a) (collection : String)
    (ctx : Context) : Answers (Cause ctx (asks collection name) (CanRead collection name)) (a.handler ctx) := by
  cases h with
  | enable => exact answers_setEnabled (mem_asks_id (by decide)) _ _
  | disable => exact answers_setEnabled (mem_asks_id (by decide)) _ _

/-! ## Bodies -/

/-- The schema of an action accepts nothing but what its handler can read. -/
theorem Own.canRead {collection name : String} {a : Action World Segment} (h : service.Own collection name a) {j : Json}
    (hchecked : ∀ s, a.schema = some s → s.check j = .ok ()) : CanRead collection name j := by
  cases h with
  | createSegment withEnabled =>
    obtain ⟨-, -, draft, hdraft, -⟩ := SegmentDraft.exists_of_check (hchecked _ rfl)
    exact ⟨draft, hdraft⟩
  | updateSegment withEnabled =>
    obtain ⟨-, -, patch, hpatch, -⟩ := SegmentPatch.exists_of_check (hchecked _ rfl)
    exact ⟨patch, hpatch⟩
  | createHost =>
    obtain ⟨-, -, draft, hdraft, -⟩ := HostDraft.exists_of_check (hchecked _ rfl)
    exact ⟨draft, hdraft⟩
  | updateHost =>
    obtain ⟨-, -, patch, hpatch, -⟩ := HostPatch.exists_of_check (hchecked _ rfl)
    exact ⟨patch, hpatch⟩
  | createNotification =>
    obtain ⟨-, -, draft, hdraft, -⟩ := NotificationDraft.exists_of_check (hchecked _ rfl)
    exact ⟨draft, hdraft⟩
  | _ => trivial

theorem Added.canRead {name : String} {a : Action World Segment} (h : service.Added name a) (collection : String)
    (j : Json) : CanRead collection name j := by
  cases h with
  | enable => trivial
  | disable => trivial

/-! ## Parameters -/

/-- Hosts are served below the members of their segments only. -/
theorem parentParam_of_mem {x : Extension World Segment} {r : Resource World Segment}
    (hx : x ∈ service.builtin ∨ ∃ infos, x = service.extensionsExtension infos) (hr : r ∈ x.resourceList)
    (hhosts : r.collection = "hosts") : r.parentParam = some segmentParam := by
  obtain ⟨rs, hrs, hmem⟩ := Extension.mem_resourceList.1 hr
  rcases hx with hx | ⟨infos, rfl⟩
  · simp only [builtin, List.mem_cons, List.not_mem_nil, or_false] at hx
    rcases hx with rfl | rfl | rfl | rfl | rfl
    · obtain ⟨registry, -, rfl⟩ := eq_of_single hrs hmem
      exact absurd hhosts (by simp)
    · obtain ⟨registry, -, rfl⟩ := eq_of_single hrs hmem
      exact absurd hhosts (by simp)
    · obtain ⟨registry, -, rfl⟩ := eq_of_single hrs hmem
      rfl
    · obtain ⟨registry, -, rfl⟩ := eq_of_single hrs hmem
      exact absurd hhosts (by simp)
    · cases hrs
      cases hmem
  · obtain ⟨registry, -, rfl⟩ := eq_of_single hrs hmem
    exact absurd hhosts (by simp)

/-- A path that leads to hosts names a segment. -/
theorem has_segmentParam (hd : service.dispatcher = .ok d) {route : Route} (hroute : d.router.route? req.path = some route)
    (hhosts : route.resource = "hosts") : route.Has segmentParam := by
  obtain ⟨extensions, hbuilt, hall⟩ := isBuiltFrom_of_dispatcher hd
  obtain ⟨r, hr, hcollection, hparent, -⟩ := hbuilt.exists_resource hroute
  obtain ⟨x, hx, hrx⟩ := List.mem_flatMap.1 hr
  exact hparent _ (parentParam_of_mem (hall x hx) hrx (hcollection.trans hhosts))

/-- What is asked for at a collection indexes or creates. -/
theorem eq_of_collection (a : d.Admitted req) (htarget : a.route.target = .collection) :
    a.ctx.action = "index" ∨ a.ctx.action = "create" := by
  have hnamed := a.named
  rw [htarget] at hnamed
  rcases Dispatcher.actionName_eq_ok hnamed with ⟨-, -, hn⟩ | ⟨⟨⟩, -⟩ | ⟨-, -, hn⟩ | ⟨⟨⟩, -⟩ | ⟨⟨⟩, -⟩ | ⟨⟨⟩, -⟩
  · exact .inl hn
  · exact .inr hn

/-- What is asked for at a member shows, changes or deletes it. -/
theorem eq_of_member (a : d.Admitted req) (htarget : a.route.target = .member) :
    a.ctx.action = "show" ∨ a.ctx.action = "update" ∨ a.ctx.action = "delete" := by
  have hnamed := a.named
  rw [htarget] at hnamed
  rcases Dispatcher.actionName_eq_ok hnamed with ⟨⟨⟩, -⟩ | ⟨-, -, hn⟩ | ⟨⟨⟩, -⟩ | ⟨-, -, hn⟩ | ⟨-, -, hn⟩ | ⟨⟨⟩, -⟩
  · exact .inl hn
  · exact .inr (.inl hn)
  · exact .inr (.inr hn)

/-- The path of a request that is admitted has every parameter that the handler of its action asks for. -/
theorem has_of_asks (hd : service.dispatcher = .ok d) (a : d.Admitted req) {name : String}
    (hname : name ∈ asks a.route.resource a.ctx.action) : a.route.Has name := by
  rcases List.mem_append.1 hname with hsegment | hid
  · split at hsegment
    · rename_i hhosts
      cases List.mem_singleton.1 hsegment
      exact has_segmentParam hd a.routed hhosts
    · cases hsegment
  · split at hid
    · cases hid
    · rename_i hmember
      cases List.mem_singleton.1 hid
      obtain ⟨extensions, hbuilt, -⟩ := isBuiltFrom_of_dispatcher hd
      obtain ⟨-, -, -, -, hhas⟩ := hbuilt.exists_resource a.routed
      exact hhas fun htarget => hmember (eq_of_collection a htarget)

/-! ## Errors -/

/-- Where a handler has its parameters and can read its body, all that it fails with is its client's error. -/
theorem Cause.isClients {ctx : Context} {asks : List String} {canRead : Json → Prop} {e : ApiError}
    (h : Cause ctx asks canRead e) (hasks : ∀ name ∈ asks, ∃ value, lookup? name ctx.params = some value)
    (hread : canRead (ctx.body.getD .null)) : e.IsClients := by
  cases h with
  | notAuthorized action =>
    exact ApiError.isClients_of "'" rfl rfl (by simp [foreignParts]) (.left (.left (by decide)))
  | filter name raw =>
    exact ApiError.isClients_of "I" rfl rfl (by simp [foreignParts]) (.left (.left (.left (by decide))))
  | noLimit =>
    exact ApiError.isClients_of "b" rfl rfl (by simp [foreignParts]) (by decide)
  | negativeLimit =>
    exact ApiError.isClients_of "b" rfl rfl (by simp [foreignParts]) (by decide)
  | direction raw =>
    exact ApiError.isClients_of "'" rfl rfl (by simp [foreignParts]) (.right (by decide))
  | sortKey bad =>
    exact ApiError.isClients_of "I" rfl rfl (by simp [foreignParts]) (.left (by decide))
  | directions =>
    exact ApiError.isClients_of "b" rfl rfl (by simp [foreignParts]) (by decide)
  | noRow table key => exact ApiError.isClients_missing s!"{table.rowName} {key}" rfl rfl
  | taken table name =>
    exact ApiError.isClients_of "x" rfl rfl (by simp [foreignParts]) (.right (by decide))
  | marker marker => exact ApiError.isClients_missing s!"Marker {marker}" rfl rfl
  | noVersion id => exact ApiError.isClients_missing s!"Version {id}" rfl rfl
  | noExtension id => exact ApiError.isClients_missing s!"Extension {id}" rfl rfl
  | noHost name => exact ApiError.isClients_missing s!"Host with name {name}" rfl rfl
  | maintenance name =>
    exact ApiError.isClients_of "'" rfl rfl (by simp [foreignParts]) (.right (by decide))
  | duplicate host kind =>
    exact ApiError.isClients_of "'" rfl rfl (by simp [foreignParts]) (.right (by decide))
  | missing name asked none =>
    obtain ⟨value, hvalue⟩ := hasks name asked
    cases none.symm.trans hvalue
  | unreadable h => exact absurd hread h

/-! ## Requests -/

/-- A handler that is called can read its body. -/
theorem canRead_of_handled (hd : service.dispatcher = .ok d) (h : d.Handled req) :
    CanRead h.route.resource h.ctx.action (h.ctx.body.getD .null) := by
  rcases action_cases hd h with hown | hadded
  · exact hown.canRead h.checked
  · exact hadded.canRead _ _

/-- All that a handler fails with that is called is its client's error. -/
theorem answers_of_handled (hd : service.dispatcher = .ok d) (h : d.Handled req) :
    Answers ApiError.IsClients (h.action.handler h.ctx) := by
  have hanswers : Answers (Cause h.ctx (asks h.route.resource h.ctx.action) (CanRead h.route.resource h.ctx.action))
      (h.action.handler h.ctx) := by
    rcases action_cases hd h with hown | hadded
    · exact hown.answers h.ctx
    · exact hadded.answers _ h.ctx
  refine hanswers.mono fun e hcause => hcause.isClients (fun name hname => ?_) (canRead_of_handled hd h)
  rw [h.ctx_params]
  exact has_of_asks hd h.toAdmitted hname

theorem atomic_of_handled (hd : service.dispatcher = .ok d) (h : d.Handled req) :
    Atomic (h.action.handler h.ctx) := by
  rcases action_cases hd h with hown | hadded
  · rcases hown.reads_or_transacts with hreads | ⟨-, -, htransacts⟩
    · exact (hreads h.ctx).atomic
    · exact (htransacts h.ctx).atomic
  · exact (hadded.transacts h.ctx).atomic

/-- A request ends with its client's error and has changed nothing, or its handler succeeds. -/
theorem serve_ends (hd : service.dispatcher = .ok d) (req : Request) (w : World) :
    (∃ version e, e.IsClients ∧ (d.serve req w).reply = d.fault req version e ∧ (d.serve req w).world = w) ∨
      ∃ (h : d.Handled req) (o : Outcome) (w' : Workspace World Segment),
        (h.action.handler h.ctx).run.run (h.ctx.start w) = (.ok o, w') ∧
          (d.serve req w).reply.status = h.action.status ∧ (d.serve req w).world = w'.world := by
  rcases refuses_cases hd req with ⟨version, e, hrefuses, hserve⟩ | ⟨⟨h⟩⟩
  · exact .inl ⟨version, e, hrefuses.isClients, hserve w⟩
  have hanswers := answers_of_handled hd h
  obtain ⟨hreply, hworld⟩ := h.serve_eq w
  generalize hrun : (h.action.handler h.ctx).run.run (h.ctx.start w) = run at hreply hworld
  obtain ⟨result, w'⟩ := run
  cases result with
  | error e =>
    refine .inl ⟨h.version, e, hanswers.stops _ e (congrArg Prod.fst hrun), ?_, ?_⟩
    · rw [hreply, h.finish_error]
    · rw [hworld]
      exact atomic_of_handled hd h _ e w' hrun
  | ok o =>
    refine .inr ⟨h, o, w', hrun, ?_, hworld⟩
    rw [hreply]
    exact h.status_finish o _ _ (hanswers.plain _ o (congrArg Prod.fst hrun))

theorem catalog_of_dispatcher (hd : service.dispatcher = .ok d) : d.catalog = none := by
  obtain ⟨settings, extensions, hbuilt, -⟩ := dispatcher_eq_ok hd
  obtain ⟨-, rfl⟩ := Dispatcher.build_eq_ok_iff.1 hbuilt
  rfl

/-- The status of an action that is called is one of success. -/
theorem status_of_handled (hd : service.dispatcher = .ok d) (h : d.Handled req) :
    200 ≤ h.action.status ∧ h.action.status < 300 := by
  rcases action_cases hd h with hown | hadded
  · exact hown.status
  · exact hadded.status

/-- **The service is never at fault.** Whatever its configuration and policy, the request and the world, a request
succeeds, or the reply is a fault that tells the client what is wrong, and so no status says that the server has failed.
Every handler that is called finds in the path the parameters that it asks for and can read its body, and fails, if it
does, with its client's error. -/
theorem serve_blameless (hd : service.dispatcher = .ok d) (req : Request) (w : World) :
    (200 ≤ (d.serve req w).reply.status ∧ (d.serve req w).reply.status < 300 ∨
      ∃ version e, (d.serve req w).reply = d.fault req version e ∧ e.code ≠ .badArgument ∧ e.code ≠ .internalError ∧
        (Fault.ofError e (d.languageOf req) d.catalog).IsClients) ∧
      (d.serve req w).reply.status < 500 ∧
      ∀ h : d.Handled req, (∀ name ∈ asks h.route.resource h.ctx.action, h.route.Has name) ∧
        CanRead h.route.resource h.ctx.action (h.ctx.body.getD .null) ∧
        Answers ApiError.IsClients (h.action.handler h.ctx) := by
  refine ⟨?_, ?_, fun h => ⟨fun name hname => has_of_asks hd h.toAdmitted hname, canRead_of_handled hd h,
    answers_of_handled hd h⟩⟩
  · rcases serve_ends hd req w with ⟨version, e, he, hreply, -⟩ | ⟨h, o, w', -, hstatus, -⟩
    · refine .inr ⟨version, e, hreply, he.code_ne.1, he.code_ne.2, ?_⟩
      rw [catalog_of_dispatcher hd]
      exact he.fault _
    · rw [hstatus]
      exact .inl (status_of_handled hd h)
  · rcases serve_ends hd req w with ⟨version, e, he, hreply, -⟩ | ⟨h, o, w', -, hstatus, -⟩
    · rw [hreply, Dispatcher.fault, Dispatcher.status_stamp]
      exact he.status_bounds.2
    · rw [hstatus]
      exact (status_of_handled hd h).2.trans (by decide)

/-- A request to change a segment without saying how. -/
theorem serve_blameless_update : ∃ d, byDefault.dispatcher = .ok d ∧
    ∀ w, (d.serve { method := "PUT", path := "/v1/segments/1", query := none, headers := [], body := [] } w).reply.status <
      500 := by
  obtain ⟨d, hd⟩ := exists_dispatcher_byDefault
  exact ⟨d, hd, fun w => (serve_blameless hd _ w).2.1⟩

end Standby.Service
