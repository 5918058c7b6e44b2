import Standby.Proofs.Failover.Bodies
import Standby.Proofs.Service.Bindings
import Standby.Proofs.Service.Faults
import Standby.Proofs.Service.HostRoutes
import Standby.Proofs.Service.SideBySide
/-!
# Requests at a later version

A request that writes, and succeeds at one version, succeeds at every later one: an action stays bound, its schema accepts
what it has accepted, and its handler writes the same. The two replies differ in nothing but whether segments are shown
with the attribute `enabled`.
-/

namespace Standby

/-- The headers by which a request is served, besides the one that names its version. -/
def Request.readHeaders : List String :=
  ["content-type", "content-length", "accept", "accept-language", "host", "x-user-id", "x-project-id", "x-roles"]

/-- Two requests are the same, but for the version that they name. -/
structure Request.SameCall (req req' : Request) : Prop where
  method : req.method = req'.method
  path : req.path = req'.path
  query : req.query = req'.query
  headers : ∀ name ∈ Request.readHeaders, req.headers.text? name = req'.headers.text? name
  body : req.body = req'.body

/-- The body of a reply that holds a JSON value, if it holds any. -/
def ReplyBody.ofJson? : Option Json → ReplyBody
  | none => .empty
  | some j => .buffered j.text

namespace Service

/-! ## Bodies without the attribute `enabled` -/

/-- A segment without the attribute. -/
def bareSegment : Json → Json
  | .obj members => .obj (eraseKey "enabled" members)
  | j => j

/-- A host with its segment without the attribute. -/
def bareHost : Json → Json
  | .obj members => .obj (members.map fun p => (p.1, if p.1 = "failover_segment" then bareSegment p.2 else p.2))
  | j => j

/-- All items of an array, each without the attribute. -/
def bareItems (bare : Json → Json) : Json → Json
  | .arr items => .arr (items.map bare)
  | j => j

/-- What stands in a body under a key, without the attribute in any segment. -/
def bareMember (key : String) (value : Json) : Json :=
  if key = "segment" then bareSegment value
  else if key = "segments" then bareItems bareSegment value
  else if key = "host" then bareHost value
  else if key = "hosts" then bareItems bareHost value
  else value

/-- A body without the attribute in any segment. -/
def withoutEnabled : Json → Json
  | .obj members => .obj (members.map fun p => (p.1, bareMember p.1 p.2))
  | j => j

theorem bareSegment_toJson (s : Segment) (withEnabled : Bool) : bareSegment (s.toJson withEnabled) = s.toJson false := by
  cases withEnabled <;> rfl

theorem withoutEnabled_segment (s : Segment) (withEnabled : Bool) :
    withoutEnabled (.obj [("segment", s.toJson withEnabled)]) = .obj [("segment", s.toJson false)] := by
  show Json.obj [("segment", bareSegment (s.toJson withEnabled))] = _
  rw [bareSegment_toJson]

theorem eq_obj_of_members? {j : Json} {members : List (String × Json)} (h : j.members? = some members) :
    j = .obj members := by
  cases j with
  | obj => exact congrArg Json.obj (Option.some.inj h)
  | _ => cases h

theorem bareHost_decorateHost (cache : Cache Segment) (host : Json) :
    bareHost (decorateHost cache host) = bareHost host := by
  unfold decorateHost
  split
  · rfl
  · split
    · rename_i s members embedded _ hmembers hembedded
      obtain rfl := eq_obj_of_members? hmembers
      obtain ⟨segment, hsegment, hobj⟩ := Option.bind_eq_some_iff.1 hembedded
      obtain rfl := eq_obj_of_members? hobj
      refine congrArg Json.obj (map_insertKey _ _ hsegment ?_)
      simp only [if_true, bareSegment, eraseKey_insertKey]
    · rfl

/-- Decorating a body adds nothing but the attribute. -/
theorem withoutEnabled_decorateBody? {cache : Cache Segment} {body decorated : Json}
    (h : decorateBody? cache body = some decorated) : withoutEnabled decorated = withoutEnabled body := by
  unfold decorateBody? at h
  split at h
  · cases h
  · rename_i members hmembers
    obtain rfl := eq_obj_of_members? hmembers
    split at h
    · rename_i host hhost
      cases h
      refine congrArg Json.obj (map_insertKey _ _ hhost ?_)
      exact congrArg (Prod.mk "host") (bareHost_decorateHost cache host)
    · rename_i hosts _ hhosts
      cases h
      refine congrArg Json.obj (map_insertKey _ _ hhosts ?_)
      have hitems : (hosts.map (decorateHost cache)).map bareHost = hosts.map bareHost := by
        rw [List.map_map]
        exact List.map_congr_left fun host _ => bareHost_decorateHost cache host
      exact congrArg (fun items => ("hosts", Json.arr items)) hitems
    · cases h

/-! ## Outcomes and replies -/

/-- An outcome is as plain as another one, and holds the same but for the attribute. -/
def Alike (o o' : Outcome) : Prop :=
  o.IsPlain → o'.IsPlain ∧ o'.json?.map withoutEnabled = o.json?.map withoutEnabled

variable {service : Service} {d : Dispatcher World Segment} {req req' : Request} {name : String}
  {a : Action World Segment} {v v' : Version}

/-- Nothing but the attribute tells the outcomes of two requests apart. -/
theorem overlooks_alike (ctx ctx' : Context) : Overlooks [] ctx ctx' Alike where
  same _ := fun h => ⟨h, rfl⟩
  segment s s' hs _ := by
    rw [Segment.SameBut, Segment.masked_nil, Segment.masked_nil] at hs
    subst hs
    exact ⟨isPlain_wrap _ _, congrArg some
      ((withoutEnabled_segment s (ctx'.isAtLeast v1_2)).trans (withoutEnabled_segment s (ctx.isAtLeast v1_2)).symm)⟩

section Calls
variable (hd : service.dispatcher = .ok d) (adm : d.Admitted req) {world : World} {w : Workspace World Segment}
  {o : Outcome} (bound : adm.handlers.resolve adm.ctx.action adm.ctx.effectiveVersion = some a)
  (accepts : a.Accepts (adm.ctx.start world))
  (call : (a.handler adm.ctx).run.run (adm.ctx.start world) = (.ok o, w)) (ho : o.IsPlain)
include hd bound accepts call ho

/-- The body of the reply is what the hooks make of what the handler gives. -/
theorem reply_of_call {body : Option Json}
    (hafter : (Dispatcher.runAfter 0 (Dispatcher.hooksOf adm.entry adm.ctx) ⟨a.status, o.json?, []⟩ w).result =
      .ok ⟨a.status, body, []⟩) : (d.serve req world).reply.body = .ofJson? body := by
  have hpre := Dispatcher.runBefore_start_of_decorates (decorates_of_admitted hd adm) world
  have hmain := Dispatcher.runHandler_of_isPlain bound accepts call ho
  rw [adm.serve_eq]
  simp only [Dispatcher.Admitted.run, Dispatcher.perform, Dispatcher.request_start, hpre, hmain, hafter, Except.map,
    Dispatcher.Admitted.reply, Dispatcher.body_stamp, Dispatcher.serialize, Response.toReply]
  cases body <;> rfl

/-- What decorations keep of what the handler gives, the body of the reply has. -/
theorem keeps_of_call {P : Option Json → Prop}
    (hP : ∀ {cache body decorated}, P (some body) → decorateBody? cache body = some decorated → P (some decorated))
    (hbody : P o.json?) : ∃ body, P body ∧ (d.serve req world).reply.body = .ofJson? body := by
  have hhooks : ∀ h ∈ Dispatcher.hooksOf adm.entry adm.ctx, h = enabledHook := fun h hm =>
    hook_of_dispatcher hd (adm.hook hm)
  obtain ⟨body, hkept, hresult, -⟩ := runAfter_keeps hhooks hP hbody 0 a.status [] w
  exact ⟨body, hkept, reply_of_call hd adm bound accepts call ho hresult⟩

/-- The body of the reply is what the handler gives, but for the attribute. -/
theorem body_of_call : ∃ body, body.map withoutEnabled = o.json?.map withoutEnabled ∧
    (d.serve req world).reply.body = .ofJson? body :=
  keeps_of_call hd adm bound accepts call ho
    (fun hkept hdecorated => (congrArg some (withoutEnabled_decorateBody? hdecorated)).trans hkept) rfl

end Calls

/-! ## Two versions -/

/-- Every action that writes is bound at later versions too. It is the same but for its schema, which accepts what the
other does. -/
theorem Writes.upgrade {t : Table} (h : service.Writes v t name a) (hle : v.le v' = true) :
    ∃ schema, service.Writes v' t name { a with schema } ∧
      ∀ j, (∀ s, a.schema = some s → s.check j = .ok ()) → ∀ s, schema = some s → s.check j = .ok () := by
  have hmore (hv : v1_2.le v = true) : v1_2.le v' = true := Version.le_trans hv hle
  cases h with
  | createSegment h =>
    refine ⟨_, .createSegment (Version.le_trans h hle), fun j hj s hs => ?_⟩
    cases hs
    exact Schemas.check_createSegment_mono hmore (hj _ rfl)
  | updateSegment h =>
    refine ⟨_, .updateSegment (Version.le_trans h hle), fun j hj s hs => ?_⟩
    cases hs
    exact Schemas.check_updateSegment_mono hmore (hj _ rfl)
  | deleteSegment => exact ⟨_, .deleteSegment, fun j hj => hj⟩
  | createHost => exact ⟨_, .createHost, fun j hj => hj⟩
  | updateHost => exact ⟨_, .updateHost, fun j hj => hj⟩
  | deleteHost => exact ⟨_, .deleteHost, fun j hj => hj⟩
  | createNotification => exact ⟨_, .createNotification, fun j hj => hj⟩

/-! ## Actions that are called -/

/-- Only a GET request asks a resource itself to index or show. -/
theorem not_reads_of_ne_get {method : String} (hmethod : method ≠ "GET") {target : RouteTarget}
    (htarget : target ≠ .action) {body : Option Json} (h : Dispatcher.actionName method target body = .ok name) :
    ¬(name = "index" ∨ name = "show") := by
  rcases Dispatcher.actionName_eq_ok h with ⟨-, hget, -⟩ | ⟨-, hget, -⟩ | ⟨-, -, rfl⟩ | ⟨-, -, rfl⟩ | ⟨-, -, rfl⟩ |
    ⟨hendpoint, -⟩
  · exact absurd hget hmethod
  · exact absurd hget hmethod
  · decide
  · decide
  · decide
  · exact absurd hendpoint htarget

theorem Own.exists_table {collection : String} (h : service.Own collection name a)
    (hname : ¬(name = "index" ∨ name = "show")) : ∃ t : Table, collection = t.collection := by
  cases h with
  | createSegment | updateSegment | deleteSegment => exact ⟨.segments, rfl⟩
  | createHost | updateHost | deleteHost => exact ⟨.hosts, rfl⟩
  | createNotification => exact ⟨.notifications, rfl⟩
  | _ => exact absurd (by decide) hname

/-- What a request that writes calls is bound at later versions, but for its schema, which accepts the body too. Whoever
agrees with the request gets the same from it, but for the attribute. -/
theorem upgrade_of_handled (hd : service.dispatcher = .ok d) (h : d.Handled req) (hmethod : req.method ≠ "GET")
    (hle : h.ctx.effectiveVersion.le v' = true) :
    (∃ schema, h.handlers.resolve h.ctx.action v' = some { h.action with schema } ∧
      ∀ s, schema = some s → s.check (h.ctx.body.getD .null) = .ok ()) ∧
    ∀ ctx', h.ctx.Agrees ctx' → Relates (Beside []) Alike (h.action.handler h.ctx) (h.action.handler ctx') := by
  have he := h.toAdmitted.lookup?_entry
  rcases Dispatcher.handlersOf_eq_ok h.handlersOf_eq with ⟨-, hmem, -⟩ | ⟨htarget, hown, -⟩
  · obtain ⟨hsince, hadded⟩ := (resolve_iff_added hd he hmem).1 h.resolved
    refine ⟨⟨h.action.schema, ?_, h.checked⟩, fun ctx' ha => hadded.relates_of_agrees ha (overlooks_alike _ _)⟩
    exact (resolve_iff_added hd he hmem).2 ⟨Version.le_trans hsince hle, hadded⟩
  · have hname := not_reads_of_ne_get hmethod htarget h.named
    rcases h.toAdmitted.action h.resolved with ⟨hendpoint, -⟩ | ⟨-, hbrought⟩
    · exact absurd hendpoint htarget
    have hows := own_of_dispatcher hd hbrought
    obtain ⟨t, ht⟩ := hows.exists_table hname
    have hiff (version : Version) (action : Action World Segment) :
        h.handlers.resolve h.ctx.action version = some action ↔ service.Writes version t h.ctx.action action :=
      resolve_iff_of_admitted hd h.toAdmitted ht htarget (fun hi => hname (.inl hi)) fun hs => hname (.inr hs)
    obtain ⟨schema, hwrites, haccepts⟩ := ((hiff _ _).1 h.resolved).upgrade hle
    refine ⟨⟨schema, (hiff _ _).2 hwrites, haccepts _ h.checked⟩, fun ctx' ha => ?_⟩
    exact hows.relates_of_agrees ha (overlooks_alike _ _) hname

/-! ## Two requests -/

theorem callerOf_of_sameCall (h : req.SameCall req') : Dispatcher.callerOf req' = Dispatcher.callerOf req := by
  rw [Dispatcher.callerOf, Dispatcher.callerOf, h.headers "x-user-id" (by decide), h.headers "x-project-id" (by decide),
    h.headers "x-roles" (by decide)]

theorem decodeBody_of_sameCall (h : req.SameCall req') : Dispatcher.decodeBody req' = Dispatcher.decodeBody req := by
  rw [Dispatcher.decodeBody, Dispatcher.decodeBody, h.method, h.body, h.headers "content-length" (by decide)]

section Requests
variable (hsame : req.SameCall req')
  (hv : VersionHeader.resolve d.versionHeader d.service d.window (req.headers.values d.versionHeader) = .ok v)
  (hv' : VersionHeader.resolve d.versionHeader d.service d.window (req'.headers.values d.versionHeader) = .ok v')
  (hle : v.le v' = true)
include hsame hv hv' hle

/-- The same request at a later version is let in where the other one is, and its handlers see the same. -/
theorem exists_upgrade (adm : d.Admitted req) :
    ∃ adm' : d.Admitted req', adm'.handlers = adm.handlers ∧ adm'.ctx.action = adm.ctx.action ∧
      adm.ctx.Agrees adm'.ctx ∧ adm.ctx.responseType = adm'.ctx.responseType ∧
      adm.ctx.effectiveVersion.le adm'.ctx.effectiveVersion = true := by
  -- A resource without versions has none at either request.
  obtain ⟨version', hversion', hlater⟩ : ∃ version', d.versionOf adm.entry req' = .ok version' ∧
      (adm.version.getD d.window.default).le (version'.getD d.window.default) = true := by
    have hversion := adm.versioned
    by_cases hversioned : adm.entry.resource.versioned = true
    · rw [Dispatcher.versionOf, if_pos hversioned, hv] at hversion
      refine ⟨some v', by rw [Dispatcher.versionOf, if_pos hversioned, hv']; rfl, ?_⟩
      rw [← Except.ok.inj hversion]
      exact hle
    · rw [Dispatcher.versionOf, if_neg hversioned] at hversion
      refine ⟨none, by rw [Dispatcher.versionOf, if_neg hversioned], ?_⟩
      rw [← Except.ok.inj hversion]
      exact Version.le_refl _
  obtain ⟨htype, body, action, hbody, haction, hhandlers, hproject, hctx⟩ :=
    Dispatcher.contextOf_eq_ok_iff.1 adm.admitted
  have hlocated : d.locate req' = .ok (adm.route, adm.entry) := by
    rw [← adm.located, Dispatcher.locate, Dispatcher.locate, hsame.path]
  have hadmitted : d.contextOf adm.route adm.entry version' req' =
      .ok (d.contextAt adm.route version' req' action body, adm.handlers) := by
    refine Dispatcher.contextOf_eq_ok_iff.2 ⟨?_, body, action, ?_, ?_, hhandlers, ?_, rfl⟩
    · rw [← hsame.headers "content-type" (by decide)]
      exact htype
    · exact (decodeBody_of_sameCall hsame).trans hbody
    · rw [← hsame.method]
      exact haction
    · rw [callerOf_of_sameCall hsame]
      exact hproject
  refine ⟨⟨_, _, _, _, _, hlocated, hversion', hadmitted⟩, rfl, ?_, ?_, ?_, ?_⟩
  · rw [hctx]
    rfl
  · rw [hctx]
    exact ⟨(callerOf_of_sameCall hsame).symm, rfl, rfl⟩
  · rw [hctx]
    exact congrArg (d.offers.responseType adm.route.suffix) (hsame.headers "accept" (by decide))
  · rw [hctx]
    exact hlater

/-- **A later version never breaks a write.** A request that does not only read, and that succeeds at a version, is
answered with the same status at every later version, and it leaves the same world. The bodies of the two replies are the
same once the attribute `enabled` is left out of their segments. -/
theorem serve_upgrade (hd : service.dispatcher = .ok d) (hmethod : req.method ≠ "GET") (w : World)
    (hsuccess : 200 ≤ (d.serve req w).reply.status ∧ (d.serve req w).reply.status < 300) :
    (d.serve req' w).reply.status = (d.serve req w).reply.status ∧ (d.serve req' w).world = (d.serve req w).world ∧
      ∃ body body', (d.serve req w).reply.body = .ofJson? body ∧ (d.serve req' w).reply.body = .ofJson? body' ∧
        body'.map withoutEnabled = body.map withoutEnabled := by
  rcases serve_ends hd req w with ⟨version, e, he, hreply, -⟩ | ⟨h, o, w₁, hrun, hstatus, hworld⟩
  · rw [hreply, Dispatcher.status_fault] at hsuccess
    exact absurd he.status_bounds.1 (by omega)
  obtain ⟨adm', hhandlers, haction, hagrees, htype, hlater⟩ := exists_upgrade hsame hv hv' hle h.toAdmitted
  obtain ⟨⟨schema, hbound, hchecked⟩, hrelates⟩ := upgrade_of_handled hd h hmethod hlater
  -- The two handlers are called side by side, and the later one comes to the same end.
  have hstart : Beside [] (h.ctx.start w) (adm'.ctx.start w) := ⟨⟨Store.sameBut_refl _ _, rfl, rfl⟩, htype⟩
  obtain ⟨hresults, hafter⟩ := hrelates adm'.ctx hagrees _ _ hstart
  rw [hrun] at hresults hafter
  generalize hrun' : (h.action.handler adm'.ctx).run.run (adm'.ctx.start w) = run' at hresults hafter
  obtain ⟨result', w₁'⟩ := run'
  cases hresults with | ok halike => ?_
  have hplain : o.IsPlain := (answers_of_handled hd h).plain _ o (congrArg Prod.fst hrun)
  obtain ⟨hplain', hjson⟩ := halike hplain
  rw [← hhandlers, ← haction] at hbound
  have haccepts' : ({ h.action with schema } : Action World Segment).Accepts (adm'.ctx.start w) := by
    intro s hs
    show s.check (adm'.ctx.body.getD .null) = .ok ()
    rw [← hagrees.body]
    exact hchecked s hs
  obtain ⟨hstatus', hworld'⟩ :=
    adm'.serve_of_call (decorates_of_admitted hd adm') hbound haccepts' hrun' hplain'
  obtain ⟨body, hbody, hreply⟩ := body_of_call hd h.toAdmitted h.resolved h.checked hrun hplain
  obtain ⟨body', hbody', hreply'⟩ := body_of_call hd adm' hbound haccepts' hrun' hplain'
  refine ⟨hstatus'.trans hstatus.symm, ?_, body, body', hreply, hreply', (hbody'.trans hjson).trans hbody.symm⟩
  rw [hworld, hworld', hafter.world.eq]

end Requests

/-- A segment to create. -/
def foundingMembers : List (String × Json) :=
  [("segment", .obj [("name", .str "haven"), ("recovery_method", .str "auto"), ("service_type", .str "COMPUTE")])]

/-- An administrator creates it. -/
def founding (more : Headers) : Request where
  method := "POST"
  path := "/v1/segments"
  query := none
  headers := ("x-roles", "admin") :: more
  body := Text.Utf8.encode (Json.obj foundingMembers).text

/-- What names the first version. -/
def atFirst : Headers := [("openstack-api-version", "instance-ha 1.0")]

/-- It is created at the first version if that is named, and else at version 1.2. -/
theorem resolve_founding (hd : sinceActions.dispatcher = .ok d) :
    VersionHeader.resolve d.versionHeader d.service d.window ((founding atFirst).headers.values d.versionHeader) =
        .ok v1_0 ∧
      VersionHeader.resolve d.versionHeader d.service d.window ((founding []).headers.values d.versionHeader) =
        .ok v1_2 := by
  have hheader : d.versionHeader = "openstack-api-version" := (router_of_dispatcher rfl hd).2.2
  have hwindow : d.service = "instance-ha" ∧ d.window.min = v1_0 ∧ d.window.default = v1_2 :=
    window_of_dispatcher rfl hd rfl rfl
  obtain ⟨hservice, hmin, hdefault⟩ := hwindow
  obtain ⟨extensions, hbuilt, -⟩ := isBuiltFrom_of_dispatcher hd
  have hmax : v1_0.le d.window.max = true := by
    have hsupports := hbuilt.supports_default
    rw [hdefault] at hsupports
    exact Version.le_trans (by decide) hsupports.2
  have hnamed : VersionHeader.requested d.versionHeader d.service
      ((founding atFirst).headers.values d.versionHeader) = .ok (some (.version v1_0)) := by
    rw [hheader, hservice]
    decide +kernel
  have hunnamed : (founding []).headers.values d.versionHeader = [] := by
    rw [hheader]
    decide
  constructor
  · rw [VersionHeader.resolve, hnamed]
    simp [Window.resolve, Version.isWithin, hmin, hmax, Version.le_refl, Except.mapError, bind_ok]
  · rw [hunnamed, ← hdefault]
    rfl

/-- At the first version the segment is created in a store that is empty, and is the only one then. -/
theorem serve_founding (hd : sinceActions.dispatcher = .ok d) (w : World) (hw : w.store = {}) :
    (d.serve (founding atFirst) w).reply.status = 201 ∧
      ((d.serve (founding atFirst) w).world.store.rows .segments).length = 1 := by
  have hversion := (resolve_founding hd).1
  obtain ⟨hrouter, -, hheader⟩ := router_of_dispatcher rfl hd
  obtain ⟨e, he⟩ := exists_entry rfl hd .segments
  have hroute : d.router.route? (founding atFirst).path =
      some ⟨"segments", .collection, [], none, "/v1/segments", none⟩ := by
    rw [hrouter]
    decide +kernel
  have hbody : Dispatcher.decodeBody (founding atFirst) = .ok (some (.obj foundingMembers)) :=
    Dispatcher.decodeBody_text rfl (.inl rfl) (by decide) (by rw [founding])
  obtain ⟨adm, -, -, hctx, hbound⟩ := exists_admitted hd hroute rfl he (by simp) hversion (by decide) hbody rfl
    (by decide) (by decide) rfl (.createSegment (by decide))
  have hadmin : (Dispatcher.callerOf (founding atFirst)).isAdmin = true := by decide +kernel
  have hauthorize : sinceActions.policy.authorize adm.ctx.caller (Policy.actionName "segments" "create") = .ok () := by
    rw [hctx]
    exact authorize_of_isAdmin hadmin _
  have hdraft : SegmentDraft.ofBody? (adm.ctx.body.getD .null) = some ⟨"haven", none, .auto, "COMPUTE", none⟩ := by
    rw [hctx]
    rfl
  obtain ⟨store, queue, clock⟩ := w
  cases hw
  obtain ⟨row, store, hstore, hone⟩ : ∃ row store, Store.createSegment {} (sinceActions.mint .segments (0 + 1)) clock
      ⟨"haven", none, .auto, "COMPUTE", none⟩ = .ok (row, store) ∧ (store.rows .segments).length = 1 := ⟨_, _, rfl, rfl⟩
  have hcall := run_createSegment_eq_ok (w := adm.ctx.start ⟨{}, queue, clock⟩) |>.2
    ⟨hauthorize, _, row, store, hdraft, hstore, rfl, rfl⟩
  have haccepts : (Schemas.createSegment (v1_2.le v1_0)).check (adm.ctx.body.getD .null) = .ok () := by
    rw [hctx]
    rfl
  obtain ⟨hstatus, hworld⟩ := adm.serve_of_call (decorates_of_admitted hd adm) hbound
    (Action.accepts_start rfl haccepts) hcall (isPlain_wrap _ _)
  exact ⟨hstatus, hworld ▸ hone⟩

theorem sameCall_founding : (founding atFirst).SameCall (founding []) where
  method := rfl
  path := rfl
  query := rfl
  headers := by decide
  body := rfl

/-- Without a version, which is to name version 1.2, the segment is created as at the first one. -/
theorem serve_upgrade_founding : ∃ d, sinceActions.dispatcher = .ok d ∧ (founding atFirst).SameCall (founding []) ∧
    ∀ w : World, w.store = {} → (d.serve (founding []) w).reply.status = 201 ∧
      (d.serve (founding []) w).world = (d.serve (founding atFirst) w).world := by
  obtain ⟨d, hd, -⟩ := exists_dispatcher_sinceActions
  refine ⟨d, hd, sameCall_founding, fun w hw => ?_⟩
  obtain ⟨hfirst, hlater⟩ := resolve_founding hd
  have hstatus := (serve_founding hd w hw).1
  obtain ⟨hsame, hworld, -⟩ := serve_upgrade sameCall_founding hfirst hlater (by decide) hd (by decide) w
    (by rw [hstatus]; decide)
  exact ⟨hsame.trans hstatus, hworld⟩

end Service

end Standby
