import Standby.Proofs.Engine.TwoRuns
import Standby.Proofs.Http.Fault
/-!
# What stays on the server

The messages of three codes stay on the server, as the sources of all errors do. Two dispatchers whose handlers and
hooks differ in nothing but such messages and sources cannot be told apart by any request: they bind the same names to
the same versions, their calls come to the same results but for such errors, and these make the same faults.
-/

namespace Standby

variable {σ κ α β : Type}

/-! ## Errors -/

/-- The codes of the errors whose messages stay on the server. -/
def ErrorCode.concealed : List ErrorCode := [.versionNotFoundForMethod, .badArgument, .internalError]

/-- Two errors are the same, but for the message and the source of one whose message stays on the server. -/
inductive ApiError.Similar : ApiError → ApiError → Prop
  | refl (e : ApiError) : Similar e e
  | concealed {e : ApiError} (h : e.code ∈ ErrorCode.concealed) (message : String) (source : Option String) :
    Similar e { e with message, source }

namespace ApiError.Similar

variable {e e' : ApiError}

theorem code (h : e.Similar e') : e.code = e'.code := by cases h <;> rfl

theorem clientMessage (h : e.Similar e') : e.clientMessage = e'.clientMessage := by
  cases h with
  | refl => rfl
  | concealed h message source =>
    simp only [ErrorCode.concealed, List.mem_cons, List.not_mem_nil, or_false] at h
    rcases h with h | h | h <;> simp [ApiError.clientMessage, h, ErrorCode.generalMessage?]

/-- What a client sees of them is the same. -/
theorem reply (h : e.Similar e') (language : Option String) (catalog : Option Catalog) :
    Fault.reply e language catalog = Fault.reply e' language catalog := by
  have hstatus : e.status = e'.status := by cases h <;> rfl
  have hretry : e.retryAfter = e'.retryAfter := by cases h <;> rfl
  have hfault : Fault.ofError e language catalog = Fault.ofError e' language catalog := by
    simp only [Fault.ofError, h.clientMessage, hstatus, hretry]
  simp only [Fault.reply, hfault]

end ApiError.Similar

/-! ## Dispatchers -/

/-- Actions that do the same, but that their handlers may fail with similar errors. -/
abbrev Action.Similar : Action σ κ → Action σ κ → Prop := Action.Agree Eq ApiError.Similar

/-- Hooks that do the same, but that they may fail with similar errors. -/
abbrev Hook.Similar : Hook σ κ → Hook σ κ → Prop := Hook.Agree Eq ApiError.Similar

/-- Two tables have the same keys in the same order, with related values. -/
def SameKeys (R : α → β → Prop) : List (String × α) → List (String × β) → Prop :=
  List.Forall₂ fun p p' => p.1 = p'.1 ∧ R p.2 p'.2

/-- Two registries bind the same names to the same ranges of versions, with related targets. -/
def Registry.Bind (R : α → β → Prop) (r : Registry α) (r' : Registry β) : Prop :=
  SameKeys (List.Forall₂ fun b b' => b.range = b'.range ∧ R b.target b'.target) r.entries r'.entries

/-- Two entries are the same, but that their actions and hooks are only similar. -/
structure Entry.Similar (e e' : Entry σ κ) : Prop where
  resource : ∃ actions, e'.resource = { e.resource with actions } ∧ e.resource.actions.Bind Action.Similar actions
  actions : List.Forall₂ (Registry.Bind Action.Similar) e.actions e'.actions
  hooks : List.Forall₂ (Registry.Bind Hook.Similar) e.hooks e'.hooks

/-- Two dispatchers are the same, but for the messages and the sources of errors of their handlers and hooks, where the
messages stay on the server. -/
def Dispatcher.Similar (d d' : Dispatcher σ κ) : Prop :=
  ∃ entries, d' = { d with entries } ∧ SameKeys Entry.Similar d.entries entries

/-! ## What is bound -/

section Bound
variable {R : α → β → Prop}

theorem rel_lookup? {l : List (String × α)} {l' : List (String × β)} (h : SameKeys R l l') (key : String) :
    Option.Rel R (lookup? key l) (lookup? key l') := by
  induction h with
  | nil => exact .none
  | @cons p p' l l' hp _ ih =>
    obtain ⟨k, a⟩ := p
    obtain ⟨k', b⟩ := p'
    obtain ⟨hk, hr⟩ := hp
    cases hk
    by_cases hkey : k = key
    · simpa [lookup?, hkey] using Option.Rel.some hr
    · simpa [lookup?, hkey] using ih

theorem rel_find? {l : List α} {l' : List β} {p : α → Bool} {p' : β → Bool} (h : List.Forall₂ R l l')
    (hp : ∀ a b, R a b → p a = p' b) : Option.Rel R (l.find? p) (l'.find? p') := by
  induction h with
  | nil => exact .none
  | @cons a b l l' hr _ ih =>
    rw [List.find?_cons, List.find?_cons, hp a b hr]
    cases p' b with
    | true => exact .some hr
    | false => exact ih

namespace Registry.Bind

variable {r : Registry α} {r' : Registry β}

theorem resolve (h : r.Bind R r') (name : String) (v : Version) :
    Option.Rel R (r.resolve name v) (r'.resolve name v) := by
  have hbindings : List.Forall₂ (fun b b' => b.range = b'.range ∧ R b.target b'.target) (r.bindings name)
      (r'.bindings name) := by
    unfold Registry.bindings
    rcases rel_cases (rel_lookup? h name) with ⟨hnone, hnone'⟩ | ⟨bs, bs', hsome, hsome', hbs⟩
    · rw [hnone, hnone']
      exact .nil
    · rw [hsome, hsome']
      exact hbs
  have hfind : Option.Rel (fun b b' => b.range = b'.range ∧ R b.target b'.target)
      ((r.bindings name).find? (·.range.contains v)) ((r'.bindings name).find? (·.range.contains v)) :=
    rel_find? hbindings fun b b' hb => by rw [hb.1]
  unfold Registry.resolve
  rcases rel_cases hfind with ⟨hnone, hnone'⟩ | ⟨b, b', hsome, hsome', hb⟩
  · rw [hnone, hnone']
    exact .none
  · rw [hsome, hsome']
    exact .some hb.2

theorem contains (h : r.Bind R r') (name : String) : r.contains name = r'.contains name := by
  unfold Registry.contains
  rcases rel_cases (rel_lookup? h name) with ⟨hnone, hnone'⟩ | ⟨bs, bs', hsome, hsome', -⟩
  · rw [hnone, hnone']
    rfl
  · rw [hsome, hsome']
    rfl

end Registry.Bind

end Bound

/-! ## Requests -/

theorem unobserved_similar : Unobserved (@Eq (Workspace σ κ)) ApiError.Similar where
  action h := congrArg (·.request.action) h
  effectiveVersion h := congrArg (·.request.effectiveVersion) h
  body h := congrArg (·.request.body) h
  responseType h := congrArg (·.request.responseType) h
  code := ApiError.Similar.code
  refl := .refl

namespace Dispatcher

variable {handlers handlers' : Registry (Action σ κ)} {e e' : Entry σ κ}

theorem agree_perform_of_similar (h : e.Similar e') (hhandlers : handlers.Bind Action.Similar handlers')
    (w : Workspace σ κ) : (perform e handlers w).Agree Eq ApiError.Similar (perform e' handlers' w) :=
  agree_perform unobserved_similar (fun v => h.hooks.imp fun _ _ hr name => hr.resolve name v)
    (fun v name => hhandlers.resolve name v) rfl

/-- What processing a request comes to: a reply that is still to be marked, with the version that the request has in the
end, or an error, with the version that was found by then. -/
def process (d : Dispatcher σ κ) (req : Request) (world : σ) : Option Version × Except ApiError Reply :=
  match d.locate req with
  | .error e => (none, .error e)
  | .ok (route, entry) =>
    match d.versionOf entry req with
    | .error e => (none, .error e)
    | .ok version =>
      match d.contextOf route entry version req with
      | .error e => (version, .error e)
      | .ok (ctx, handlers) =>
        let run := perform entry handlers (ctx.start world)
        match run.result with
        | .error e => (version, .error e)
        | .ok reply => (run.workspace.request.version, .ok reply)

/-- A reply is what the processing comes to, with its mark, or the fault of the error. -/
theorem reply_serve (d : Dispatcher σ κ) (req : Request) (world : σ) :
    (d.serve req world).reply =
      match d.process req world with
      | (version, .ok reply) => d.stamp version reply
      | (version, .error e) => d.fault req version e := by
  cases hl : d.locate req with
  | error e => simp only [serve, process, hl]
  | ok p =>
    obtain ⟨route, entry⟩ := p
    cases hv : d.versionOf entry req with
    | error e => simp only [serve, process, hl, hv]
    | ok version =>
      cases hc : d.contextOf route entry version req with
      | error e => simp only [serve, process, hl, hv, hc]
      | ok p =>
        simp only [serve, process, hl, hv, hc]
        cases (perform entry p.2 (p.1.start world)).result <;> rfl

section Gates
variable {d : Dispatcher σ κ} {entries : List (String × Entry σ κ)}

theorem results_locate (h : SameKeys Entry.Similar d.entries entries) (req : Request) :
    Results (fun p p' => p.1 = p'.1 ∧ p.2.Similar p'.2) (d.locate req) (locate { d with entries } req) := by
  unfold locate
  cases d.router.route? req.path with
  | none => exact .error _
  | some route =>
    rcases rel_cases (rel_lookup? h route.resource) with ⟨hnone, hnone'⟩ | ⟨e, e', hsome, hsome', he⟩
    · simp only [hnone, hnone']
      exact .error _
    · simp only [hsome, hsome']
      exact .ok ⟨rfl, he⟩

theorem versionOf_similar (h : e.Similar e') (req : Request) :
    d.versionOf e req = versionOf { d with entries } e' req := by
  obtain ⟨actions, hresource, -⟩ := h.resource
  rw [versionOf, versionOf, hresource]

theorem results_handlersOf (h : e.Similar e') (target : RouteTarget) (action : String) :
    Results (Registry.Bind Action.Similar) (handlersOf e target action) (handlersOf e' target action) := by
  obtain ⟨actions, hresource, hactions⟩ := h.resource
  unfold handlersOf
  rw [hresource, hactions.contains]
  split
  · have hfind : Option.Rel (Registry.Bind Action.Similar) (e.actions.find? (·.contains action))
        (e'.actions.find? (·.contains action)) := rel_find? h.actions fun _ _ hr => hr.contains action
    rcases rel_cases hfind with ⟨hnone, hnone'⟩ | ⟨r, r', hsome, hsome', hr⟩
    · rw [hnone, hnone']
      exact .error _
    · rw [hsome, hsome']
      exact .ok hr
  split
  · exact .ok hactions
  · exact .error _

theorem results_contextOf (h : e.Similar e') (route : Route) (version : Option Version) (req : Request) :
    Results (fun p p' => p.1 = p'.1 ∧ Registry.Bind Action.Similar p.2 p'.2) (d.contextOf route e version req)
      (contextOf { d with entries } route e' version req) := by
  refine (results_refl _).bind fun _ _ _ => ?_
  refine (results_refl _).bind fun body _ hbody => ?_
  cases hbody
  refine (results_refl _).bind fun action _ haction => ?_
  cases haction
  refine (results_handlersOf h _ _).bind fun handlers handlers' hhandlers => ?_
  exact (results_refl _).bind fun _ _ _ => .ok ⟨rfl, hhandlers⟩

end Gates

/-- Requests cannot tell similar dispatchers apart. -/
theorem serve_of_similar {d d' : Dispatcher σ κ} (h : d.Similar d') (req : Request) (world : σ) :
    d.serve req world = d'.serve req world := by
  obtain ⟨entries, rfl, hentries⟩ := h
  -- A gate refuses the request with the same error in both; if none does, it is admitted with the same context.
  rcases (results_locate hentries req).cases with ⟨err, hl, hl'⟩ | ⟨⟨route, e⟩, ⟨route', e'⟩, hl, hl', hroute, he⟩
  · simp only [serve, hl, hl']
    rfl
  obtain rfl : route = route' := hroute
  have hversion := @versionOf_similar _ _ _ _ d entries he req
  cases hv : d.versionOf e req with
  | error err =>
    simp only [serve, hl, hl', ← hversion, hv]
    rfl
  | ok version =>
    rcases (@results_contextOf _ _ _ _ d entries he route version req).cases with
      ⟨err, hc, hc'⟩ | ⟨⟨ctx, handlers⟩, ⟨ctx', handlers'⟩, hc, hc', hctx, hhandlers⟩
    · simp only [serve, hl, hl', ← hversion, hv, hc, hc']
      rfl
    obtain rfl : ctx = ctx' := hctx
    obtain ⟨hresult, hworkspace, hcalls⟩ := agree_perform_of_similar he hhandlers (ctx.start world)
    simp only [serve, hl, hl', ← hversion, hv, hc, hc', hworkspace, hcalls]
    rcases hresult.cases with ⟨err, err', herror, herror', herr⟩ | ⟨reply, hok, hok'⟩
    · simp only [herror, herror', fault, herr.reply]
      rfl
    · simp only [hok, hok']
      rfl

/-- **Faults.** A request whose processing fails with an error is answered with the status of the error and a body that
can be read. It is an object with one key, which is the name of the faults with that status; under it are the status,
the message that the client is told, in the words of its language if the catalog has them, and when to try again, which
is there exactly if the status is 413 or 429 and the error says so. In a dispatcher that differs from this one in nothing
but the messages and sources of errors of handlers and hooks, with codes whose messages stay on the server, the request
is served alike. -/
theorem serve_faults (d : Dispatcher σ κ) (req : Request) (world : σ) :
    (∀ e, (d.process req world).2 = .error e →
      (d.serve req world).reply.status = e.status ∧
        ∃ message members, Catalog.Words (d.languageOf req) d.catalog e.clientMessage message ∧
          Fault.Tells e message members ∧
          (d.serve req world).reply.body = .buffered (Fault.envelope e members).text ∧
          (e.status < Nat.pow 2 64 → Json.parse? (Fault.envelope e members).text = some (Fault.envelope e members))) ∧
    ∀ d', d.Similar d' → d.serve req world = d'.serve req world := by
  refine ⟨fun e he => ?_, fun d' h => serve_of_similar h req world⟩
  have hreply : ∃ version, (d.serve req world).reply = d.fault req version e := by
    rw [reply_serve]
    generalize d.process req world = p at he
    obtain ⟨version, result⟩ := p
    cases he
    exact ⟨version, rfl⟩
  obtain ⟨version, hreply⟩ := hreply
  rw [hreply, fault, status_stamp, body_stamp]
  exact Fault.exists_reply e (d.languageOf req) d.catalog

/-- A cellar that nobody gets into, for a reason that only the server knows. -/
def cellar (reason : String) : Dispatcher Unit Unit where
  router := ⟨some "cellar", [], []⟩
  entries :=
    [("cellar",
      { resource :=
          { collection := "cellar"
            member := "cellar"
            root := true
            actions := ⟨[("index", [⟨.all, { handler := fun _ => throw (.of .internalError reason) }⟩])]⟩ }
        actions := []
        hooks := [] })]
  window := ⟨⟨1, 0⟩, ⟨1, 0⟩, ⟨1, 0⟩⟩
  offers := ⟨["application/json"], ["en", "de"]⟩
  versionHeader := "version"
  service := "cellar"
  publicEndpoint := none
  catalog := some [("de", ErrorCode.internalError.generalMessage?.getD "", "Unerwarteter Fehler.")]

/-- A request to go into it, by somebody who speaks German. -/
def entering : Request := ⟨"GET", "/", none, [("accept-language", "de")], []⟩

theorem similar_cellar (reason other : String) : (cellar reason).Similar (cellar other) := by
  have hcode : (ApiError.of .internalError reason).code ∈ ErrorCode.concealed :=
    show ErrorCode.internalError ∈ ErrorCode.concealed by decide
  have hfails : CallsAgree (@Eq (Workspace Unit Unit)) ApiError.Similar
      (fun _ => (throw (.of .internalError reason) : Step Unit Unit Outcome))
      fun _ => throw (.of .internalError other) := by
    rintro w _ rfl
    exact ⟨.error (.concealed hcode other none), rfl⟩
  exact ⟨_, rfl, .cons ⟨rfl, ⟨_, rfl, .cons ⟨rfl, .cons ⟨rfl, hfails, rfl, rfl⟩ .nil⟩ .nil⟩, .nil, .nil⟩ .nil⟩

/-- The fault is told in German, and whether the key or the light is missing cannot be told from the reply. -/
theorem serve_faults_cellar : (cellar "no key").Similar (cellar "no light") ∧
    ((cellar "no key").process entering ()).2 = .error (.of .internalError "no key") ∧
    ((cellar "no key").serve entering ()).reply.status = 500 ∧
    (∃ members, lookup? "message" members = some (.str "Unerwarteter Fehler.") ∧
      ((cellar "no key").serve entering ()).reply.body =
        .buffered (Json.obj [("failsafeFault", .obj members)]).text) ∧
    (cellar "no key").serve entering () = (cellar "no light").serve entering () := by
  have hfails : ((cellar "no key").process entering ()).2 = .error (.of .internalError "no key") := rfl
  have hlanguage : (cellar "no key").languageOf entering = some "de" := by decide +kernel
  have hsimilar := similar_cellar "no key" "no light"
  obtain ⟨hfault, hsecret⟩ := serve_faults (cellar "no key") entering ()
  obtain ⟨hstatus, message, members, hwords, htells, hbody, -⟩ := hfault _ hfails
  refine ⟨hsimilar, hfails, hstatus, ⟨members, ?_, hbody⟩, hsecret _ hsimilar⟩
  rw [htells.message]
  rw [hlanguage] at hwords
  cases hwords with
  | translated hl hc h =>
    cases hl
    cases hc
    cases h
    rfl
  | plain h => cases h _ _ rfl rfl

end Dispatcher

end Standby
