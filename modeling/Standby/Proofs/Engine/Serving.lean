import Standby.Engine.Dispatch
import Standby.Proofs.Engine.Origin
import Standby.Proofs.Engine.Steps
/-!
# How a request is served

Whether a request is admitted does not depend on the world. One that is not gets the same reply in every world and
changes nothing; one that is gets what its hooks and its handler make of it. Hooks that only decorate responses
leave both the outcome and the workspace of the handler as they are.
-/

namespace Standby

variable {σ κ : Type}

/-- A hook that does nothing ahead of the handler, and afterwards neither fails nor changes the status of the
response. It may look at the request and its cache, but not at the world. -/
structure Hook.Decorates (h : Hook σ κ) : Prop where
  before : ∀ ctx, h.before ctx = pure none
  after : ∀ ctx (r : Response) cache request, ∃ o,
    (∀ w, (h.after ctx r).run.run ⟨w, cache, request⟩ = (.ok o, ⟨w, cache, request⟩)) ∧
      ∀ r', o = some r' → r'.status = r.status

/-- The pairs of the query of a request. -/
def Request.pairs (req : Request) : Query := (req.query.map Text.Form.decodePairs).getD []

namespace Dispatcher

/-! ## Admission -/

theorem actionName_eq_ok {method : String} {target : RouteTarget} {body : Option Json} {action : String}
    (h : actionName method target body = .ok action) :
    (target = .collection ∧ method = "GET" ∧ action = "index") ∨
      (target = .member ∧ method = "GET" ∧ action = "show") ∨
      (target = .collection ∧ method = "POST" ∧ action = "create") ∨
      (target = .member ∧ method = "PUT" ∧ action = "update") ∨
      (target = .member ∧ method = "DELETE" ∧ action = "delete") ∨
      (target = .action ∧ method = "POST" ∧ ∃ value, body = some (.obj [(action, value)])) := by
  unfold actionName at h
  split at h
  · cases h
    simp
  · cases h
    simp
  · cases h
    simp
  · cases h
    simp
  · cases h
    simp
  · split at h
    · rename_i key value hb
      cases h
      obtain ⟨j, rfl, hj⟩ := Option.bind_eq_some_iff.1 hb
      cases j with
      | obj members =>
        cases hj
        simp
      | _ => cases hj
    · cases h
    · cases h
  · cases h

theorem handlersOf_eq_ok {e : Entry σ κ} {target : RouteTarget} {action : String} {r : Registry (Action σ κ)}
    (h : handlersOf e target action = .ok r) :
    (target = .action ∧ r ∈ e.actions ∧ r.contains action = true) ∨
      (target ≠ .action ∧ r = e.resource.actions ∧ r.contains action = true) := by
  unfold handlersOf at h
  split at h
  · rename_i ht
    split at h
    · rename_i r' hr
      cases h
      have hc := List.find?_some (p := fun r : Registry (Action σ κ) => r.contains action) hr
      exact .inl ⟨ht, List.mem_of_find?_eq_some hr, hc⟩
    · cases h
  · rename_i ht
    split at h
    · rename_i hc
      cases h
      exact .inr ⟨ht, rfl, hc⟩
    · cases h

/-- Who sends a request. -/
def callerOf (req : Request) : Caller :=
  Caller.ofParts (req.headers.text? "x-user-id") (req.headers.text? "x-project-id")
    (req.headers.text? "x-roles")

/-- What handlers see of a request that asks for an action. -/
def contextAt (d : Dispatcher σ κ) (route : Route) (version : Option Version) (req : Request) (action : String)
    (body : Option Json) : Context :=
  { method := req.method
    path := route.path
    headers := req.headers
    action
    version
    window := d.window
    responseType := d.offers.responseType route.suffix (req.headers.text? "accept")
    language := d.languageOf req
    caller := callerOf req
    project := route.project
    params := route.params
    query := req.pairs
    body
    baseUrl := d.baseUrl req.headers }

theorem query_contextAt (d : Dispatcher σ κ) (route : Route) (version : Option Version) (req : Request) (action : String)
    (body : Option Json) : (d.contextAt route version req action body).query = req.pairs := rfl

theorem contextOf_eq_ok_iff {d : Dispatcher σ κ} {route : Route} {e : Entry σ κ} {version : Option Version}
    {req : Request} {ctx : Context} {handlers : Registry (Action σ κ)} :
    d.contextOf route e version req = .ok (ctx, handlers) ↔
      (∃ type, d.offers.requestType (req.headers.text? "content-type") = .ok type) ∧
        ∃ body action, decodeBody req = .ok body ∧ actionName req.method route.target body = .ok action ∧
          handlersOf e route.target action = .ok handlers ∧ checkProject route.project (callerOf req) = .ok () ∧
          ctx = d.contextAt route version req action body := by
  simp only [contextOf, bind_eq_ok]
  constructor
  · rintro ⟨type, htype, body, hbody, action, haction, handlers', hhandlers, ⟨⟩, hproject, h⟩
    cases h
    exact ⟨⟨type, htype⟩, body, action, hbody, haction, hhandlers, hproject, rfl⟩
  · rintro ⟨⟨type, htype⟩, body, action, hbody, haction, hhandlers, hproject, rfl⟩
    exact ⟨type, htype, body, hbody, action, haction, handlers, hhandlers, (), hproject, rfl⟩

/-- What handlers see of a request is taken from the request, its route and its version. -/
theorem contextOf_eq_ok {d : Dispatcher σ κ} {route : Route} {e : Entry σ κ} {version : Option Version}
    {req : Request} {ctx : Context} {handlers : Registry (Action σ κ)}
    (h : d.contextOf route e version req = .ok (ctx, handlers)) :
    ∃ body, decodeBody req = .ok body ∧ actionName req.method route.target body = .ok ctx.action ∧
      handlersOf e route.target ctx.action = .ok handlers ∧ checkProject route.project (callerOf req) = .ok () ∧
      ctx.method = req.method ∧ ctx.version = version ∧ ctx.window = d.window ∧ ctx.caller = callerOf req ∧
      ctx.params = route.params ∧ ctx.body = body := by
  obtain ⟨-, body, action, hbody, haction, hhandlers, hproject, rfl⟩ := contextOf_eq_ok_iff.1 h
  exact ⟨body, hbody, haction, hhandlers, hproject, rfl, rfl, rfl, rfl, rfl, rfl⟩

/-- A request that has passed all gates. -/
structure Admitted (d : Dispatcher σ κ) (req : Request) where
  route : Route
  entry : Entry σ κ
  version : Option Version
  ctx : Context
  handlers : Registry (Action σ κ)
  located : d.locate req = .ok (route, entry)
  versioned : d.versionOf entry req = .ok version
  admitted : d.contextOf route entry version req = .ok (ctx, handlers)

/-- There is only one way through the gates. -/
theorem Admitted.unique {d : Dispatcher σ κ} {req : Request} (a b : Admitted d req) : a = b := by
  obtain ⟨route, entry, version, ctx, handlers, hl, hv, hc⟩ := a
  obtain ⟨route', entry', version', ctx', handlers', hl', hv', hc'⟩ := b
  cases hl.symm.trans hl'
  cases hv.symm.trans hv'
  cases hc.symm.trans hc'
  rfl

theorem Admitted.ctx_eq {d : Dispatcher σ κ} {req : Request} (a : Admitted d req) :
    a.ctx = d.contextAt a.route a.version req a.ctx.action a.ctx.body := by
  obtain ⟨-, _, _, -, -, -, -, h⟩ := contextOf_eq_ok_iff.1 a.admitted
  rw [h]
  rfl

/-- What calling the hooks and the handler of a request gives. -/
def Admitted.run {d : Dispatcher σ κ} {req : Request} (a : Admitted d req) (w : σ) : Run σ κ Reply :=
  perform a.entry a.handlers (a.ctx.start w)

/-- The reply that comes of it, if the request has a version in the end. -/
def Admitted.reply {d : Dispatcher σ κ} {req : Request} (a : Admitted d req) (version : Option Version) :
    Except ApiError Reply → Reply
  | .ok reply => d.stamp version reply
  | .error e => d.fault req a.version e

/-- An admitted request is served by calling its hooks and its handler. -/
theorem Admitted.serve_eq {d : Dispatcher σ κ} {req : Request} (a : Admitted d req) (w : σ) :
    d.serve req w =
      ⟨a.reply (a.run w).workspace.request.version (a.run w).result, (a.run w).workspace.world, (a.run w).calls⟩ := by
  simp only [serve, a.located, a.versioned, a.admitted]
  rfl

/-- What a request is refused with before its handler is called, and the version that the reply is marked with. -/
inductive Refuses (d : Dispatcher σ κ) (req : Request) : Option Version → ApiError → Prop
  | route {e} (h : d.locate req = .error e) : Refuses d req none e
  | version {route entry e} (located : d.locate req = .ok (route, entry)) (h : d.versionOf entry req = .error e) :
    Refuses d req none e
  | gate {route entry version e} (located : d.locate req = .ok (route, entry))
    (versioned : d.versionOf entry req = .ok version) (h : d.contextOf route entry version req = .error e) :
    Refuses d req version e
  | unbound (a : Admitted d req) : Refuses d req a.version (.versionNotFound a.ctx.action)
  | violation (a : Admitted d req) (v : Violation) : Refuses d req a.version (.ofViolation v)

/-- A request is turned away in every world alike, or it is admitted in every world. -/
theorem serve_cases (d : Dispatcher σ κ) (req : Request) :
    (∃ version e, d.Refuses req version e ∧ ∀ w, d.serve req w = ⟨d.fault req version e, w, []⟩) ∨
      ∃ a : Admitted d req, ∀ w, d.serve req w =
        ⟨a.reply (a.run w).workspace.request.version (a.run w).result, (a.run w).workspace.world, (a.run w).calls⟩ := by
  cases hl : d.locate req with
  | error e => exact .inl ⟨none, e, .route hl, fun w => by simp only [serve, hl]⟩
  | ok p =>
    obtain ⟨route, entry⟩ := p
    cases hv : d.versionOf entry req with
    | error e => exact .inl ⟨none, e, .version hl hv, fun w => by simp only [serve, hl, hv]⟩
    | ok version =>
      cases hc : d.contextOf route entry version req with
      | error e => exact .inl ⟨version, e, .gate hl hv hc, fun w => by simp only [serve, hl, hv, hc]⟩
      | ok p =>
        obtain ⟨ctx, handlers⟩ := p
        exact .inr ⟨⟨route, entry, version, ctx, handlers, hl, hv, hc⟩, Admitted.serve_eq _⟩

@[simp]
theorem status_stamp (d : Dispatcher σ κ) (version : Option Version) (r : Reply) :
    (d.stamp version r).status = r.status := by
  unfold stamp
  cases version <;> rfl

@[simp]
theorem body_stamp (d : Dispatcher σ κ) (version : Option Version) (r : Reply) :
    (d.stamp version r).body = r.body := by
  unfold stamp
  cases version <;> rfl

theorem locate_eq_ok {d : Dispatcher σ κ} {req : Request} {route : Route} {entry : Entry σ κ}
    (h : d.locate req = .ok (route, entry)) :
    d.router.route? req.path = some route ∧ lookup? route.resource d.entries = some entry := by
  unfold locate at h
  split at h
  · cases h
  · rename_i hroute
    split at h
    · cases h
    · rename_i hentry
      cases h
      exact ⟨hroute, hentry⟩

/-! ## What is known of an admitted request -/

section Known
variable {d : Dispatcher σ κ} {req : Request} (a : Admitted d req)

theorem Admitted.routed : d.router.route? req.path = some a.route := (locate_eq_ok a.located).1

theorem Admitted.route_eq {route : Route} (h : d.router.route? req.path = some route) : a.route = route :=
  Option.some.inj (a.routed.symm.trans h)

theorem Admitted.lookup?_entry : lookup? a.route.resource d.entries = some a.entry := (locate_eq_ok a.located).2

theorem Admitted.named : actionName req.method a.route.target a.ctx.body = .ok a.ctx.action := by
  obtain ⟨body, -, haction, -, -, -, -, -, -, -, rfl⟩ := contextOf_eq_ok a.admitted
  exact haction

theorem Admitted.decoded : decodeBody req = .ok a.ctx.body := by
  obtain ⟨body, hbody, -, -, -, -, -, -, -, -, rfl⟩ := contextOf_eq_ok a.admitted
  exact hbody

theorem Admitted.handlersOf_eq : handlersOf a.entry a.route.target a.ctx.action = .ok a.handlers := by
  obtain ⟨_, -, -, hhandlers, -⟩ := contextOf_eq_ok a.admitted
  exact hhandlers

theorem Admitted.ctx_version : a.ctx.version = a.version := by
  rw [a.ctx_eq]
  rfl

theorem Admitted.ctx_params : a.ctx.params = a.route.params := by
  rw [a.ctx_eq]
  rfl

end Known

/-- The handler of a request is that of an action of its resource, or one that a controller has given it. -/
theorem Admitted.action {d : Dispatcher σ κ} {req : Request} (a : Admitted d req) {action : Action σ κ}
    {v : Version} (h : a.handlers.resolve a.ctx.action v = some action) :
    (a.route.target = .action ∧ d.AddedAction a.route.resource a.ctx.action action) ∨
      (a.route.target ≠ .action ∧ d.OwnAction a.route.resource a.ctx.action action) := by
  have hb := Registry.Binds.of_resolve h
  rcases handlersOf_eq_ok a.handlersOf_eq with ⟨ht, hr, -⟩ | ⟨ht, hr, -⟩
  · exact .inl ⟨ht, a.entry, a.lookup?_entry, a.handlers, hr, hb⟩
  · exact .inr ⟨ht, a.entry, a.lookup?_entry, hr ▸ hb⟩

/-- The hooks that controllers have given a resource for an action, at the version of a request for it. -/
def hooksOf (e : Entry σ κ) (ctx : Context) : List (Hook σ κ) :=
  e.hooks.filterMap (·.resolve ctx.action ctx.effectiveVersion)

theorem Admitted.hook {d : Dispatcher σ κ} {req : Request} (a : Admitted d req) {hook : Hook σ κ}
    (h : hook ∈ hooksOf a.entry a.ctx) : d.AddedHook a.route.resource a.ctx.action hook := by
  obtain ⟨r, hr, hres⟩ := List.mem_filterMap.1 h
  exact ⟨a.entry, a.lookup?_entry, r, hr, Registry.Binds.of_resolve hres⟩

/-! ## Calls -/

/-- Hooks that do nothing ahead of the handler pass, and so the others are looked up by the same action. -/
theorem runBefore_of_decorates {v : Version} {rs : List (Registry (Hook σ κ))} {w : Workspace σ κ}
    (hh : ∀ h ∈ rs.filterMap (·.resolve w.request.action v), h.Decorates) (i : Nat) :
    (runBefore v i rs w).result = .ok (.inr (rs.filterMap (·.resolve w.request.action v))) ∧
      (runBefore v i rs w).workspace = w := by
  induction rs generalizing i with
  | nil => exact ⟨rfl, rfl⟩
  | cons r rs ih =>
    cases hr : r.resolve w.request.action v with
    | none =>
      simp only [List.filterMap_cons, hr] at hh ⊢
      rw [runBefore, hr]
      exact ih hh i
    | some h =>
      simp only [List.filterMap_cons, hr] at hh ⊢
      have hb : (h.before w.request).run.run w = (.ok none, w) := by
        rw [(hh h List.mem_cons_self).before]
        rfl
      obtain ⟨hresult, hworkspace⟩ := ih (fun h' hm => hh h' (List.mem_cons_of_mem _ hm)) (i + 1)
      rw [runBefore, hr]
      simp only [hb, hresult, hworkspace, and_true]
      rfl

@[simp]
theorem request_start (ctx : Context) (world : σ) : (ctx.start world : Workspace σ κ).request = ctx := rfl

theorem runBefore_start_of_decorates {e : Entry σ κ} {ctx : Context} (hh : ∀ h ∈ hooksOf e ctx, h.Decorates) (world : σ) :
    (runBefore ctx.effectiveVersion 0 e.hooks (ctx.start world)).result = .ok (.inr (hooksOf e ctx)) ∧
      (runBefore ctx.effectiveVersion 0 e.hooks (ctx.start world)).workspace = ctx.start world :=
  runBefore_of_decorates hh 0

/-- Decorating hooks turn a response into one of the same status, in every world alike. -/
theorem runAfter_of_decorates {hooks : List (Hook σ κ)} (hh : ∀ h ∈ hooks, h.Decorates) (r : Response)
    (cache : Cache κ) (request : Context) :
    ∃ r', r'.status = r.status ∧ ∀ i w, (runAfter i hooks r ⟨w, cache, request⟩).result = .ok r' ∧
      (runAfter i hooks r ⟨w, cache, request⟩).workspace = ⟨w, cache, request⟩ := by
  induction hooks with
  | nil => exact ⟨r, rfl, fun i w => ⟨rfl, rfl⟩⟩
  | cons h hooks ih =>
    obtain ⟨r₁, hr₁, hrun⟩ := ih fun h' hm => hh h' (List.mem_cons_of_mem _ hm)
    obtain ⟨o, ho, hs⟩ := (hh h List.mem_cons_self).after request r₁ cache request
    have hstep : ∀ i w, runAfter i (h :: hooks) r ⟨w, cache, request⟩ =
        ⟨.ok (o.getD r₁), ⟨w, cache, request⟩,
          (runAfter (i + 1) hooks r ⟨w, cache, request⟩).calls ++ [.after i]⟩ := by
      intro i w
      obtain ⟨h₁, h₂⟩ := hrun (i + 1) w
      simp only [runAfter, h₁, h₂, ho]
      cases o <;> rfl
    refine ⟨o.getD r₁, ?_, fun i w => by rw [hstep]; exact ⟨rfl, rfl⟩⟩
    cases o with
    | none => exact hr₁
    | some r₂ => exact (hs r₂ rfl).trans hr₁

/-- Before anything is called, a request is refused in every world alike, or the handler is called, with a body that
its schema accepts. -/
theorem runHandler_cases (ctx : Context) (handlers : Registry (Action σ κ)) :
    (∃ e, (e = .versionNotFound ctx.action ∨ ∃ v, e = .ofViolation v) ∧
      ∀ w, runHandler ctx.effectiveVersion handlers (ctx.start w) = ⟨.error e, ctx.start w, []⟩) ∨
      ∃ a, handlers.resolve ctx.action ctx.effectiveVersion = some a ∧
        (∀ s, a.schema = some s → s.check (ctx.body.getD .null) = .ok ()) ∧
        ∀ w, runHandler ctx.effectiveVersion handlers (ctx.start w) =
          ⟨((a.handler ctx).run.run (ctx.start w)).1.map (settle a.status),
            ((a.handler ctx).run.run (ctx.start w)).2, [.handler]⟩ := by
  simp only [runHandler, Context.start]
  cases hr : handlers.resolve ctx.action ctx.effectiveVersion with
  | none => exact .inl ⟨_, .inl rfl, fun w => rfl⟩
  | some a =>
    simp only
    cases hs : (a.schema.map (·.check (ctx.body.getD .null))).getD (.ok ()) with
    | error v => exact .inl ⟨_, .inr ⟨v, rfl⟩, fun w => rfl⟩
    | ok u =>
      refine .inr ⟨a, rfl, fun s h => ?_, fun w => rfl⟩
      rw [h] at hs
      exact hs

/-- The replies that a request can get when its handler comes to an end in a certain way and its hooks only
decorate. -/
def Settles (request : Context) : Except ApiError (Response ⊕ Reply) → Except ApiError Reply → Prop
  | .error e, r => r = .error e
  | .ok (.inr reply), r => r = .ok reply
  | .ok (.inl response), r =>
    ∃ r' : Response, r'.status = response.status ∧ r = .ok (r'.toReply request.responseType)

/-- With hooks that only decorate, all that a request gives comes of its handler. -/
theorem perform_of_decorates {e : Entry σ κ} {ctx : Context} (hh : ∀ h ∈ hooksOf e ctx, h.Decorates)
    (handlers : Registry (Action σ κ)) (result : Except ApiError (Response ⊕ Reply)) (cache : Cache κ)
    (request : Context) :
    ∃ r, Settles request result r ∧ ∀ world w',
      (runHandler ctx.effectiveVersion handlers (ctx.start world)).result = result →
      (runHandler ctx.effectiveVersion handlers (ctx.start world)).workspace = ⟨w', cache, request⟩ →
      (perform e handlers (ctx.start world)).result = r ∧
        (perform e handlers (ctx.start world)).workspace = ⟨w', cache, request⟩ := by
  have hpre := runBefore_start_of_decorates hh
  cases result with
  | error err =>
    refine ⟨.error err, rfl, fun world w' hr hw => ?_⟩
    simp only [perform, request_start, hpre, hr, hw, and_self]
  | ok out =>
    cases out with
    | inr reply =>
      refine ⟨.ok reply, rfl, fun world w' hr hw => ?_⟩
      simp only [perform, request_start, hpre, hr, hw, and_self]
    | inl response =>
      obtain ⟨r', hs, hpost⟩ := runAfter_of_decorates hh response cache request
      refine ⟨.ok (r'.toReply request.responseType), ⟨r', hs, rfl⟩, fun world w' hr hw => ?_⟩
      simp only [perform, request_start, hpre, hr, hw, hpost, Except.map, serialize, and_self]

@[simp]
theorem status_toReply (r : Response) (mediaType : String) : (r.toReply mediaType).status = r.status := by
  unfold Response.toReply
  cases r.body <;> rfl

theorem settle_of_isPlain {o : Outcome} (h : o.IsPlain) (status : Nat) :
    settle status o = .inl { status, body := o.json? } := by
  rcases h with rfl | ⟨j, rfl⟩
  · rfl
  · rfl

/-- A request whose handler is called, when the hooks of its action only decorate: its reply is made of what the
handler gives and of the cache and the request that it leaves, and the world after it is the one that it leaves. -/
structure Handled (d : Dispatcher σ κ) (req : Request) extends Admitted d req where
  action : Action σ κ
  resolved : handlers.resolve ctx.action ctx.effectiveVersion = some action
  checked : ∀ s, action.schema = some s → s.check (ctx.body.getD .null) = .ok ()
  finish : Except ApiError Outcome → Cache κ → Context → Reply
  finish_error : ∀ e cache request, finish (.error e) cache request = d.fault req version e
  status_finish : ∀ o cache request, o.IsPlain → (finish (.ok o) cache request).status = action.status
  serve_eq : ∀ w, (d.serve req w).reply = finish ((action.handler ctx).run.run (ctx.start w)).1
      ((action.handler ctx).run.run (ctx.start w)).2.cache ((action.handler ctx).run.run (ctx.start w)).2.request ∧
    (d.serve req w).world = ((action.handler ctx).run.run (ctx.start w)).2.world

/-- With hooks that only decorate, a request is refused in every world alike or comes down to its handler. -/
theorem serve_cases_of_decorates {d : Dispatcher σ κ} {req : Request}
    (hh : ∀ a : Admitted d req, ∀ h ∈ hooksOf a.entry a.ctx, h.Decorates) :
    (∃ version e, d.Refuses req version e ∧
      ∀ w, (d.serve req w).reply = d.fault req version e ∧ (d.serve req w).world = w) ∨ Nonempty (Handled d req) := by
  rcases serve_cases d req with ⟨version, e, hrefuses, h⟩ | ⟨a, h⟩
  · exact .inl ⟨version, e, hrefuses, fun w => by rw [h]; exact ⟨rfl, rfl⟩⟩
  · rcases runHandler_cases a.ctx a.handlers with ⟨e, he, hrun⟩ | ⟨action, hresolved, hchecked, hrun⟩
    · -- No handler is called, and the hooks leave the error as it is.
      obtain ⟨r, hr, hperform⟩ := perform_of_decorates (hh a) a.handlers (.error e) .empty a.ctx
      cases hr
      have hrefuses : d.Refuses req a.version e := by
        rcases he with rfl | ⟨v, rfl⟩
        · exact .unbound a
        · exact .violation a v
      refine .inl ⟨a.version, e, hrefuses, fun w => ?_⟩
      obtain ⟨h₁, h₂⟩ := hperform w w (by rw [hrun]) (by rw [hrun]; rfl)
      rw [h]
      simp only [Admitted.run, h₁, h₂, and_true]
      rfl
    · -- For each end that the handler can come to there is one reply, the same in every world.
      choose r hsettles hr using fun (result : Except ApiError Outcome) (cache : Cache κ) (request : Context) =>
        perform_of_decorates (hh a) a.handlers (result.map (settle action.status)) cache request
      refine .inr ⟨{ a with
        action, resolved := hresolved, checked := hchecked
        finish := fun result cache request => a.reply request.version (r result cache request)
        finish_error := fun e cache request => ?_, status_finish := fun o cache request ho => ?_
        serve_eq := fun w => ?_ }⟩
      · rw [show r (.error e) cache request = .error e from hsettles (.error e) cache request]
        rfl
      · have hsettled := hsettles (.ok o) cache request
        rw [Except.map, settle_of_isPlain ho] at hsettled
        obtain ⟨r', hr', hrep⟩ := hsettled
        rw [hrep]
        simp only [Admitted.reply, status_stamp, status_toReply, hr']
      · generalize hend : (action.handler a.ctx).run.run (a.ctx.start w) = run at hrun
        obtain ⟨h₁, h₂⟩ := hr run.1 run.2.cache run.2.request w run.2.world
          (by rw [hrun, hend]) (by rw [hrun, hend])
        rw [h]
        simp only [Admitted.run, h₁, h₂, and_self]

end Dispatcher

end Standby
