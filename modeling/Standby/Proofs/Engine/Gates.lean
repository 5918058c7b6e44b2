import Standby.Proofs.Engine.Sight
import Standby.Proofs.Version.Order
/-!
# The gates of the API

A request passes six gates before anything of an extension is called. The first that it does not pass decides the
reply: nothing is called, and the fault is one of that gate's. Behind the gates hooks and handlers are chosen by a version
that the window supports, and each call sees one as long as no call ahead of it has given the request another.
-/

namespace Standby

variable {σ κ : Type}

/-- The gates, in the order in which a request comes to them. -/
inductive Gate where
  | route
  | version
  | mediaType
  | body
  | action
  | project
  deriving DecidableEq, Repr

namespace Gate

/-- How many gates come before this one. -/
def place : Gate → Nat
  | route => 0
  | version => 1
  | mediaType => 2
  | body => 3
  | action => 4
  | project => 5

/-- The codes and statuses of the faults of a gate. -/
def faults : Gate → List (ErrorCode × Nat)
  | route => [(.notFound, 404)]
  | version => [(.invalidVersionString, 400), (.unsupportedGlobalVersion, 406)]
  | mediaType => [(.invalidContentType, 415)]
  | body => [(.malformedRequestBody, 400)]
  | action => [(.badMethod, 405), (.malformedRequestBody, 400), (.invalidAction, 400)]
  | project => [(.projectMismatch, 400)]

theorem place_inj {g g' : Gate} : g.place = g'.place ↔ g = g' := by
  cases g <;> cases g' <;> decide

end Gate

/-- The media type of a body is not declared, or not as ASCII text, or it is plain text or on offer. -/
def Offers.Takes (o : Offers) (header : Option String) : Prop :=
  ∀ raw, header.bind Text.nonBlank? = some raw →
    ∃ m, MediaType.ofText? raw = some m ∧ (m.essence = "text/plain" ∨ m.essence ∈ o.mediaTypes)

/-- A resource has an action: of its own, or at the action endpoint one that a controller adds. -/
def Entry.Has (e : Entry σ κ) (target : RouteTarget) (action : String) : Prop :=
  (target ≠ .action ∧ e.resource.actions.contains action = true) ∨
    (target = .action ∧ ∃ r ∈ e.actions, r.contains action = true)

namespace Dispatcher

/-- The action that a method and a part of a resource name. At the action endpoint it is the only key of the body. -/
inductive Names : String → RouteTarget → Option Json → String → Prop
  | index (body) : Names "GET" .collection body "index"
  | show (body) : Names "GET" .member body "show"
  | create (body) : Names "POST" .collection body "create"
  | update (body) : Names "PUT" .member body "update"
  | delete (body) : Names "DELETE" .member body "delete"
  | only (action value) : Names "POST" .action (some (.obj [(action, value)])) action

section
variable (d : Dispatcher σ κ) (req : Request)

/-- The path leads to a resource. -/
def LeadsTo (route : Route) (e : Entry σ κ) : Prop :=
  d.router.route? req.path = some route ∧ lookup? route.resource d.entries = some e

/-- The version that a request to a resource is served at: what its header says must stand for one that the window
supports. A resource without versions has none. -/
def ServedAt (e : Entry σ κ) : Option Version → Prop
  | none => e.resource.versioned = false
  | some v => e.resource.versioned = true ∧ ∃ token,
    VersionHeader.requested d.versionHeader d.service (req.headers.values d.versionHeader) = .ok token ∧
      d.window.resolve token = .ok v ∧ d.window.Supports v

/-- The request gets past a gate. -/
def Clears : Gate → Prop
  | .route => ∃ route e, d.LeadsTo req route e
  | .version => ∃ route e version, d.LeadsTo req route e ∧ d.ServedAt req e version
  | .mediaType => d.offers.Takes (req.headers.text? "content-type")
  | .body => ∃ body, decodeBody req = .ok body
  | .action => ∃ route e body action, d.LeadsTo req route e ∧ decodeBody req = .ok body ∧
    Names req.method route.target body action ∧ e.Has route.target action
  | .project => ∃ route e, d.LeadsTo req route e ∧ ∀ p, route.project = some p → (callerOf req).project = some p

/-- The first gate that the request does not get past. -/
structure StopsAt (g : Gate) : Prop where
  earlier : ∀ g' : Gate, g'.place < g.place → d.Clears req g'
  stops : ¬d.Clears req g

/-- A request to a resource, with the version that it is served at. -/
structure Arrives (route : Route) (e : Entry σ κ) (version : Option Version) : Prop where
  leads : d.LeadsTo req route e
  served : d.ServedAt req e version

/-- What a gate has against a request, with the version that the reply is marked with. -/
inductive Objects : Gate → Option Version → ApiError → Prop
  | noRoute : Objects .route none .noRoute
  | unreadable {e} (said : VersionHeader.requested d.versionHeader d.service
      (req.headers.values d.versionHeader) = .error e) : Objects .version none e
  | unsupported {v} (said : VersionHeader.requested d.versionHeader d.service
      (req.headers.values d.versionHeader) = .ok (some (.version v))) (outside : ¬d.window.Supports v) :
    Objects .version none (.ofVersionError (.unsupported v d.window.min d.window.max))
  | mediaType {route e version} (arrives : d.Arrives req route e version) (type) :
    Objects .mediaType version (.invalidContentType type)
  | body {route e version} (arrives : d.Arrives req route e version) :
    Objects .body version (.malformedBody "Malformed request body")
  | unnamed {route e version body} (arrives : d.Arrives req route e version) (decoded : decodeBody req = .ok body)
    (endpoint : route.target = .action ∧ req.method = "POST")
    (none : ∀ action, ¬Names req.method route.target body action) (message) :
    Objects .action version (.malformedBody message)
  | unknown {route e version body action} (arrives : d.Arrives req route e version) (decoded : decodeBody req = .ok body)
    (endpoint : route.target = .action ∧ req.method = "POST") (named : Names req.method route.target body action)
    (missing : ¬e.Has route.target action) : Objects .action version (.invalidAction action)
  | badMethod {route e version body} (arrives : d.Arrives req route e version) (decoded : decodeBody req = .ok body)
    (elsewhere : ¬(route.target = .action ∧ req.method = "POST"))
    (none : ∀ action, Names req.method route.target body action → ¬e.Has route.target action) :
    Objects .action version .badMethod
  | project {route e version p} (arrives : d.Arrives req route e version) (asked : route.project = some p)
    (other : (callerOf req).project ≠ some p) :
    Objects .project version (.projectMismatch p ((callerOf req).project.getD "None"))

end

/-! ## Single gates -/

variable {d : Dispatcher σ κ} {req : Request} {route route' : Route} {e e' : Entry σ κ}

theorem LeadsTo.unique (h : d.LeadsTo req route e) (h' : d.LeadsTo req route' e') : route = route' ∧ e = e' := by
  cases h.1.symm.trans h'.1
  cases h.2.symm.trans h'.2
  exact ⟨rfl, rfl⟩

theorem locate_cases (d : Dispatcher σ κ) (req : Request) :
    (∃ route e, d.LeadsTo req route e ∧ d.locate req = .ok (route, e)) ∨
      ¬d.Clears req .route ∧ d.locate req = .error .noRoute := by
  cases hr : d.router.route? req.path with
  | none =>
    refine .inr ⟨?_, by simp only [locate, hr]⟩
    rintro ⟨route, e, h, -⟩
    cases hr.symm.trans h
  | some route =>
    cases he : lookup? route.resource d.entries with
    | none =>
      refine .inr ⟨?_, by simp only [locate, hr, he]⟩
      rintro ⟨route', e, hr', he'⟩
      cases hr.symm.trans hr'
      cases he.symm.trans he'
    | some e => exact .inl ⟨route, e, ⟨hr, he⟩, by simp only [locate, hr, he]⟩

theorem parse_eq_error {s : String} {e : VersionError} (h : VersionToken.parse s = .error e) :
    e = .invalidText (Text.trim s) := by
  unfold VersionToken.parse at h
  simp only at h
  split at h
  · cases h
  · unfold Version.parse at h
    split at h
    · cases h
    · cases h
      rfl

theorem said?_eq_error {service entry : String} {e : ApiError}
    (h : VersionHeader.said? service entry = some (.error e)) :
    e.code = .invalidVersionString ∧ e.status = 400 := by
  unfold VersionHeader.said? at h
  split at h
  · cases h
  · split at h
    · cases h
    · simp only [Option.some.injEq] at h
      split at h
      · cases h
        exact ⟨rfl, rfl⟩
      · cases hp : VersionToken.parse _ with
        | ok t => rw [hp] at h; cases h
        | error e' =>
          rw [hp] at h
          cases parse_eq_error hp
          cases h
          exact ⟨rfl, rfl⟩

theorem requested_eq_error {name service : String} {lines : List String} {e : ApiError}
    (h : VersionHeader.requested name service lines = .error e) :
    e.code = .invalidVersionString ∧ e.status = 400 := by
  induction lines with
  | nil => cases h
  | cons line lines ih =>
    unfold VersionHeader.requested at h
    split at h
    · cases h
      exact ⟨rfl, rfl⟩
    · split at h
      · cases h
      · rename_i hs
        cases h
        obtain ⟨entry, -, he⟩ := List.exists_of_findSome?_eq_some hs
        exact said?_eq_error he
      · exact ih h

theorem resolve_eq_error {w : Window} {token : Option VersionToken} {e : VersionError}
    (h : w.resolve token = .error e) : ∃ v, token = some (.version v) ∧ ¬w.Supports v ∧ e = .unsupported v w.min w.max := by
  unfold Window.resolve at h
  split at h
  · cases h
  · cases h
  · cases h
  · rename_i v
    split at h
    · cases h
    · rename_i hv
      cases h
      refine ⟨v, rfl, fun hs => hv ?_, rfl⟩
      simpa [Version.isWithin, Window.Supports] using hs

theorem versionOf_cases (hw : d.window.Supports d.window.default) (e : Entry σ κ) (req : Request) :
    (∃ version, d.ServedAt req e version ∧ d.versionOf e req = .ok version) ∨
      (∀ version, ¬d.ServedAt req e version) ∧
        ∃ err, d.versionOf e req = .error err ∧ d.Objects req .version none err := by
  unfold versionOf
  by_cases hv : e.resource.versioned = true
  · rw [if_pos hv]
    cases hr : VersionHeader.requested d.versionHeader d.service (req.headers.values d.versionHeader) with
    | error err =>
      refine .inr ⟨?_, err, ?_, .unreadable hr⟩
      · rintro (_ | v) hs
        · exact absurd hv (by simp [show e.resource.versioned = false from hs])
        · obtain ⟨-, token, ht, -⟩ := hs
          cases hr.symm.trans ht
      · simp [VersionHeader.resolve, hr, bind, Except.bind, Except.map]
    | ok token =>
      cases hres : d.window.resolve token with
      | ok v =>
        refine .inl ⟨some v, ⟨hv, token, hr, hres, Window.supports_of_resolve hw hres⟩, ?_⟩
        simp [VersionHeader.resolve, hr, hres, bind, Except.bind, Except.map, Except.mapError]
      | error err =>
        obtain ⟨v, rfl, hout, rfl⟩ := resolve_eq_error hres
        refine .inr ⟨?_, _, ?_, .unsupported hr hout⟩
        · rintro (_ | v') hs
          · exact absurd hv (by simp [show e.resource.versioned = false from hs])
          · obtain ⟨-, token, ht, hres', -⟩ := hs
            cases hr.symm.trans ht
            cases hres.symm.trans hres'
        · simp [VersionHeader.resolve, hr, hres, bind, Except.bind, Except.map, Except.mapError]
  · rw [if_neg hv]
    exact .inl ⟨none, eq_false_of_ne_true hv, rfl⟩

theorem requestType_cases (o : Offers) (header : Option String) :
    (o.Takes header ∧ ∃ type, o.requestType header = .ok type) ∨
      ¬o.Takes header ∧ ∃ type, o.requestType header = .error (.invalidContentType type) := by
  unfold Offers.requestType Offers.Takes
  cases header.bind Text.nonBlank? with
  | none => exact .inl ⟨(fun _ h => by cases h), none, rfl⟩
  | some raw =>
    cases hm : MediaType.ofText? raw with
    | none => exact .inr ⟨fun h => by simpa [hm] using h raw rfl, raw, by simp only [hm]⟩
    | some m =>
      simp only [Option.some.injEq, forall_eq', hm, exists_eq_left']
      by_cases ht : m.essence = "text/plain"
      · exact .inl ⟨.inl ht, none, by rw [if_pos ht]⟩
      · by_cases hmem : m.essence ∈ o.mediaTypes
        · exact .inl ⟨.inr hmem, _, by rw [if_neg ht, if_pos (by simpa using hmem)]⟩
        · refine .inr ⟨by simp [ht, hmem], m.essence, by rw [if_neg ht, if_neg (by simpa using hmem)]⟩

theorem decodeBody_cases (req : Request) :
    (∃ body, decodeBody req = .ok body) ∨ decodeBody req = .error (.malformedBody "Malformed request body") := by
  unfold decodeBody
  simp only
  split
  · exact .inl ⟨_, rfl⟩
  · split
    · exact .inl ⟨_, rfl⟩
    · split
      · exact .inl ⟨_, rfl⟩
      · exact .inr rfl

theorem names_of_actionName {method : String} {target : RouteTarget} {body : Option Json} {action : String}
    (h : actionName method target body = .ok action) : Names method target body action := by
  rcases actionName_eq_ok h with ⟨rfl, rfl, rfl⟩ | ⟨rfl, rfl, rfl⟩ | ⟨rfl, rfl, rfl⟩ | ⟨rfl, rfl, rfl⟩ |
    ⟨rfl, rfl, rfl⟩ | ⟨rfl, rfl, value, rfl⟩
  · exact .index body
  · exact .show body
  · exact .create body
  · exact .update body
  · exact .delete body
  · exact .only action value

theorem Names.actionName_eq {method : String} {target : RouteTarget} {body : Option Json} {action : String}
    (h : Names method target body action) : actionName method target body = .ok action := by
  cases h <;> rfl

theorem Names.post {method : String} {target : RouteTarget} {body : Option Json} {action : String}
    (h : Names method target body action) (htarget : target = .action) : method = "POST" := by
  cases h with
  | only => rfl
  | _ => cases htarget

/-- What an action that cannot be named fails with. -/
theorem actionName_eq_error {method : String} {target : RouteTarget} {body : Option Json} {err : ApiError}
    (h : actionName method target body = .error err) :
    ((target = .action ∧ method = "POST") ∧ ∃ message, err = .malformedBody message) ∨
      ¬(target = .action ∧ method = "POST") ∧ err = .badMethod := by
  unfold actionName at h
  split at h
  any_goals cases h
  · split at h
    any_goals cases h
    · exact .inl ⟨⟨rfl, rfl⟩, _, rfl⟩
    · exact .inl ⟨⟨rfl, rfl⟩, _, rfl⟩
  · rename_i hpost
    refine .inr ⟨?_, rfl⟩
    rintro ⟨rfl, rfl⟩
    exact hpost rfl rfl

theorem handlersOf_cases (e : Entry σ κ) (target : RouteTarget) (action : String) :
    (e.Has target action ∧ ∃ handlers, handlersOf e target action = .ok handlers) ∨
      ¬e.Has target action ∧
        handlersOf e target action = .error (if target = .action then .invalidAction action else .badMethod) := by
  unfold handlersOf Entry.Has
  by_cases ht : target = .action
  · simp only [ht, if_true, ne_eq, not_true_eq_false, false_and, true_and, false_or]
    cases hf : e.actions.find? (·.contains action) with
    | some r =>
      have hc := List.find?_some (p := fun r : Registry (Action σ κ) => r.contains action) hf
      exact .inl ⟨⟨r, List.mem_of_find?_eq_some hf, hc⟩, r, rfl⟩
    | none =>
      refine .inr ⟨?_, rfl⟩
      rintro ⟨r, hr, hc⟩
      exact List.find?_eq_none.1 hf r hr hc
  · by_cases hc : e.resource.actions.contains action = true
    · exact .inl ⟨.inl ⟨ht, hc⟩, _, by rw [if_neg ht, if_pos hc]⟩
    · exact .inr ⟨by simp [ht, hc], by rw [if_neg ht, if_neg hc, if_neg ht]⟩

theorem checkProject_cases (asked : Option String) (caller : Caller) :
    ((∀ p, asked = some p → caller.project = some p) ∧ checkProject asked caller = .ok ()) ∨
      ∃ p, asked = some p ∧ caller.project ≠ some p ∧
        checkProject asked caller = .error (.projectMismatch p (caller.project.getD "None")) := by
  cases asked with
  | none => exact .inl ⟨(fun _ h => by cases h), rfl⟩
  | some p =>
    by_cases hp : caller.project = some p
    · exact .inl ⟨(fun _ h => by cases h; exact hp), by rw [checkProject, if_pos hp]⟩
    · exact .inr ⟨p, rfl, hp, by rw [checkProject, if_neg hp]⟩

theorem bind_error {ε α β : Type} (err : ε) (f : α → Except ε β) : (Except.error err >>= f) = .error err := rfl

/-- The method and the part of the resource name an action that the resource has, or the action gate objects. -/
theorem action_cases {version : Option Version} {body : Option Json} (arrives : d.Arrives req route e version)
    (decoded : decodeBody req = .ok body) :
    (∃ action handlers, Names req.method route.target body action ∧ e.Has route.target action ∧
        actionName req.method route.target body = .ok action ∧ handlersOf e route.target action = .ok handlers) ∨
      (∀ action, Names req.method route.target body action → ¬e.Has route.target action) ∧
        ∃ err, d.Objects req .action version err ∧ ∀ {α : Type} (f : String → Registry (Action σ κ) → Except ApiError α),
          (actionName req.method route.target body >>= fun action =>
            handlersOf e route.target action >>= f action) = .error err := by
  cases ha : actionName req.method route.target body with
  | error err =>
    have hnone : ∀ action, ¬Names req.method route.target body action := by
      intro action hn
      cases ha.symm.trans hn.actionName_eq
    refine .inr ⟨fun action hn => absurd hn (hnone action), err, ?_, fun f => rfl⟩
    rcases actionName_eq_error ha with ⟨hendpoint, message, rfl⟩ | ⟨helsewhere, rfl⟩
    · exact .unnamed arrives decoded hendpoint hnone message
    · exact .badMethod arrives decoded helsewhere fun action hn => absurd hn (hnone action)
  | ok action =>
    have hnamed := names_of_actionName ha
    have honly : ∀ action', Names req.method route.target body action' → action' = action := by
      intro action' hn
      cases ha.symm.trans hn.actionName_eq
      rfl
    rcases handlersOf_cases e route.target action with ⟨hhas, handlers, hh⟩ | ⟨hhas, hh⟩
    · exact .inl ⟨action, handlers, hnamed, hhas, rfl, hh⟩
    · refine .inr ⟨fun action' hn => honly action' hn ▸ hhas, _, ?_, fun f => by rw [bind_ok, hh, bind_error]⟩
      by_cases htarget : route.target = .action
      · rw [if_pos htarget]
        exact .unknown arrives decoded ⟨htarget, hnamed.post htarget⟩ hnamed hhas
      · rw [if_neg htarget]
        exact .badMethod arrives decoded (fun h => htarget h.1) fun action' hn => honly action' hn ▸ hhas

/-! ## All gates -/

/-- The gates behind the version gate admit a request, or the first that does not decides the fault. -/
theorem contextOf_cases {version : Option Version} (arrives : d.Arrives req route e version) :
    ((∀ g, d.Clears req g) ∧ ∃ p, d.contextOf route e version req = .ok p) ∨
      ∃ g err, d.StopsAt req g ∧ d.Objects req g version err ∧ d.contextOf route e version req = .error err := by
  have hroute : d.Clears req .route := ⟨route, e, arrives.leads⟩
  have hversion : d.Clears req .version := ⟨route, e, version, arrives.leads, arrives.served⟩
  unfold contextOf
  rcases requestType_cases d.offers (req.headers.text? "content-type") with
    ⟨hmedia, type, htype⟩ | ⟨hmedia, type, htype⟩
  case inr =>
    rw [htype, bind_error]
    refine .inr ⟨.mediaType, _, ⟨fun g hg => ?_, hmedia⟩, .mediaType arrives type, rfl⟩
    cases g <;> first | assumption | simp [Gate.place] at hg
  replace hmedia : d.Clears req .mediaType := hmedia
  rcases decodeBody_cases req with ⟨body, hdecoded⟩ | hbody
  case inr =>
    rw [htype, bind_ok, hbody, bind_error]
    refine .inr ⟨.body, _, ⟨fun g hg => ?_, ?_⟩, .body arrives, rfl⟩
    · cases g <;> first | assumption | simp [Gate.place] at hg
    · rintro ⟨body, h⟩
      cases hbody.symm.trans h
  have hbody : d.Clears req .body := ⟨body, hdecoded⟩
  rw [htype, bind_ok, hdecoded, bind_ok]
  rcases action_cases arrives hdecoded with ⟨action, handlers, hnamed, hhas, hname, hhandlers⟩ | ⟨hnone, err, hobjects, herr⟩
  case inr =>
    refine .inr ⟨.action, err, ⟨fun g hg => ?_, ?_⟩, hobjects, herr _⟩
    · cases g <;> first | assumption | simp [Gate.place] at hg
    · rintro ⟨route', e', body', action, hleads, hdecoded', hn, hhas⟩
      obtain ⟨rfl, rfl⟩ := arrives.leads.unique hleads
      cases hdecoded.symm.trans hdecoded'
      exact hnone action hn hhas
  have haction : d.Clears req .action := ⟨route, e, body, action, arrives.leads, hdecoded, hnamed, hhas⟩
  rw [hname, bind_ok, hhandlers, bind_ok]
  rcases checkProject_cases route.project (callerOf req) with ⟨hproject, hcheck⟩ | ⟨p, hasked, hother, hcheck⟩
  case inr =>
    rw [callerOf] at hcheck
    refine .inr ⟨.project, _, ⟨fun g hg => ?_, ?_⟩, .project arrives hasked hother, by simp only [hcheck, bind_error]; rfl⟩
    · cases g <;> first | assumption | simp [Gate.place] at hg
    · rintro ⟨route', e', hleads, hp⟩
      obtain ⟨rfl, rfl⟩ := arrives.leads.unique hleads
      exact hother (hp p hasked)
  rw [callerOf] at hcheck
  refine .inl ⟨fun g => ?_, _, by simp only [hcheck, bind_ok]; rfl⟩
  cases g with
  | project => exact ⟨route, e, arrives.leads, hproject⟩
  | _ => assumption

theorem gates_cases (hw : d.window.Supports d.window.default) (req : Request) :
    ((∀ g, d.Clears req g) ∧ Nonempty (Admitted d req)) ∨
      ∃ g version err, d.StopsAt req g ∧ d.Objects req g version err ∧
        ∀ w, d.serve req w = ⟨d.fault req version err, w, []⟩ := by
  rcases locate_cases d req with ⟨route, e, hleads, hl⟩ | ⟨hroute, hl⟩
  case inr =>
    refine .inr ⟨.route, none, _, ⟨fun g hg => ?_, hroute⟩, .noRoute, fun w => by simp only [serve, hl]⟩
    simp [Gate.place] at hg
  rcases versionOf_cases hw e req with ⟨version, hserved, hv⟩ | ⟨hnone, err, hv, hobjects⟩
  case inr =>
    refine .inr ⟨.version, none, err, ⟨fun g hg => ?_, ?_⟩, hobjects, fun w => by simp only [serve, hl, hv]⟩
    · cases g <;> first | exact ⟨route, e, hleads⟩ | simp [Gate.place] at hg
    · rintro ⟨route', e', version, hleads', hserved⟩
      obtain ⟨rfl, rfl⟩ := hleads.unique hleads'
      exact hnone version hserved
  rcases contextOf_cases ⟨hleads, hserved⟩ with ⟨hall, ⟨ctx, handlers⟩, hc⟩ | ⟨g, err, hstops, hobjects, hc⟩
  · exact .inl ⟨hall, ⟨⟨route, e, version, ctx, handlers, hl, hv, hc⟩⟩⟩
  · exact .inr ⟨g, version, err, hstops, hobjects, fun w => by simp only [serve, hl, hv, hc]⟩

theorem StopsAt.unique {g g' : Gate} (h : d.StopsAt req g) (h' : d.StopsAt req g') : g = g' := by
  rcases Nat.lt_trichotomy g.place g'.place with hlt | heq | hlt
  · exact absurd (h'.earlier g hlt) h.stops
  · exact Gate.place_inj.1 heq
  · exact absurd (h.earlier g' hlt) h'.stops

theorem Objects.mem_faults {g : Gate} {version : Option Version} {err : ApiError} (h : d.Objects req g version err) :
    (err.code, err.status) ∈ g.faults := by
  cases h with
  | unreadable said =>
    obtain ⟨hcode, hstatus⟩ := requested_eq_error said
    rw [hcode, hstatus]
    exact List.mem_cons_self
  | _ => exact of_decide_eq_true rfl

theorem status_fault (d : Dispatcher σ κ) (req : Request) (version : Option Version) (err : ApiError) :
    (d.fault req version err).status = err.status := by
  rw [fault, status_stamp]
  rfl

/-- The window of a dispatcher that was built supports its default version. -/
theorem IsBuiltFrom.supports_default {extensions : ExtensionSet σ κ} (hd : d.IsBuiltFrom extensions) :
    d.window.Supports d.window.default := by
  obtain ⟨settings, h⟩ := hd
  obtain ⟨parts, -, h⟩ := bind_eq_ok.1 h
  obtain ⟨router, -, h⟩ := bind_eq_ok.1 h
  obtain ⟨window, hwindow, h⟩ := bind_eq_ok.1 h
  split at h
  · cases h
  · have hw : window = d.window := congrArg Dispatcher.window (Except.ok.inj h)
    rw [← hw]
    exact Window.supports_default (mapError_eq_ok.1 hwindow)

theorem IsBuiltFrom.supports_of_resolve {extensions : ExtensionSet σ κ} (hd : d.IsBuiltFrom extensions)
    {lines : List String} {v : Version}
    (h : VersionHeader.resolve d.versionHeader d.service d.window lines = .ok v) : d.window.Supports v := by
  obtain ⟨token, -, hresolve⟩ := bind_eq_ok.1 h
  exact Window.supports_of_resolve hd.supports_default (mapError_eq_ok.1 hresolve)

/-- Hooks and handlers are chosen by a version that the window supports. -/
theorem Admitted.supports (hw : d.window.Supports d.window.default) (a : Admitted d req) :
    a.ctx.window = d.window ∧ d.window.Supports a.ctx.effectiveVersion := by
  obtain ⟨_, -, -, -, -, -, hversion, hwindow, -⟩ := contextOf_eq_ok a.admitted
  refine ⟨hwindow, ?_⟩
  rw [Context.effectiveVersion, hwindow, hversion]
  cases hv : a.version with
  | none => exact hw
  | some v =>
    rcases versionOf_cases hw a.entry req with ⟨version, hserved, h⟩ | ⟨-, err, h, -⟩
    · cases (h.symm.trans a.versioned).trans (congrArg Except.ok hv)
      obtain ⟨-, _, -, -, hsupports⟩ := hserved
      exact hsupports
    · cases h.symm.trans a.versioned

/-- **Gates.** The first gate that a request does not get past answers it, in every world, with one of its faults, and
nothing is called. What is called is called for a request that has got past all of them. It is chosen by a version that the
window supports, and it sees such a version unless a call ahead of it has given the request another version or window. -/
theorem serve_gates {extensions : ExtensionSet σ κ} (hd : d.IsBuiltFrom extensions) (req : Request) :
    ((∃ g, ¬d.Clears req g) → ∃ g version err, d.StopsAt req g ∧ d.Objects req g version err ∧
      (err.code, (d.fault req version err).status) ∈ g.faults ∧
      ∀ w, d.serve req w = ⟨d.fault req version err, w, []⟩) ∧
    (∀ w, (d.serve req w).calls ≠ [] → ∀ g, d.Clears req g) ∧
    ((∀ g, d.Clears req g) → ∃ a : Admitted d req, d.window.Supports a.ctx.effectiveVersion ∧ ∀ w,
      (∃ result w', Course a.ctx.effectiveVersion (hooksIn a.entry (a.ctx.start w)) a.handlers (a.ctx.start w)
        (d.serve req w).calls result w') ∧
      (∀ p ∈ (d.serve req w).calls, ∃ w₁ w₂, a.Makes w p w₁ w₂) ∧
      ∀ p w₁ w₂, a.Makes w p w₁ w₂ →
        (∀ p' w₁' w₂', a.Makes w p' w₁' w₂' → p'.Ahead p →
          w₂'.request.version = w₁'.request.version ∧ w₂'.request.window = w₁'.request.window) →
        d.window.Supports w₁.request.effectiveVersion) := by
  rcases gates_cases hd.supports_default req with ⟨hall, ⟨a⟩⟩ | ⟨g, version, err, hstops, hobjects, hserve⟩
  · have hsupports := (a.supports hd.supports_default).2
    refine ⟨fun ⟨g, hg⟩ => absurd (hall g) hg, fun w _ => hall, fun _ => ⟨a, hsupports, fun w => ?_⟩⟩
    have hcourse := a.course w
    refine ⟨⟨_, _, hcourse⟩, fun p hp => hcourse.exists_makes hp, fun p w₁ w₂ hmakes hkept => ?_⟩
    have hsame : w₁.request.effectiveVersion = a.ctx.effectiveVersion := by
      refine Makes.unchanged (·.request.effectiveVersion) hmakes fun p' w₁' w₂' hm hahead => ?_
      obtain ⟨hversion, hwindow⟩ := hkept p' w₁' w₂' hm hahead
      simp only [Context.effectiveVersion, hversion, hwindow]
    rw [hsame]
    exact hsupports
  · refine ⟨fun _ => ⟨g, version, err, hstops, hobjects, ?_, hserve⟩, fun w hcalls => ?_,
      fun hall => absurd (hall g) hstops.stops⟩
    · rw [status_fault]
      exact hobjects.mem_faults
    · rw [hserve] at hcalls
      exact absurd rfl hcalls

/-- A visitor with a picture is stopped. -/
theorem serve_gates_grove : (groveDispatcher {}).IsBuiltFrom (grove {}) ∧
    ¬(groveDispatcher {}).Clears ⟨"GET", "/", none, [("content-type", "image/png")], []⟩ .mediaType ∧
    ∃ reply : Reply, reply.status ≠ 200 ∧
      (groveDispatcher {}).serve ⟨"GET", "/", none, [("content-type", "image/png")], []⟩ () = ⟨reply, (), []⟩ := by
  have hstops : ¬(groveDispatcher {}).Clears ⟨"GET", "/", none, [("content-type", "image/png")], []⟩ .mediaType := by
    intro h
    obtain ⟨m, hm, h⟩ := h "image/png" rfl
    cases hm
    revert h
    decide
  obtain ⟨h, -⟩ := serve_gates (isBuiltFrom_grove {}) ⟨"GET", "/", none, [("content-type", "image/png")], []⟩
  obtain ⟨g, version, err, -, -, hfault, hserve⟩ := h ⟨.mediaType, hstops⟩
  refine ⟨isBuiltFrom_grove {}, hstops, _, fun hstatus => ?_, hserve ()⟩
  rw [hstatus] at hfault
  cases g <;> simp [Gate.faults] at hfault

/-- A hook that makes a version of its own the one of the request. -/
def usurper : Hook Unit Unit where
  before _ := do
    modify fun w => { w with request := { w.request with version := some ⟨9, 9⟩ } }
    pure none

/-- A visitor whose media type is not ASCII text. -/
def foreignVisit : Request := ⟨"GET", "/", none, [("content-type", "image/bär")], []⟩

/-- The hooks of a visit whose hooks are usurpers pass, and what they leave has their version. -/
theorem reaches_usurped : ∃ (action : Action Unit Unit) (w : Workspace Unit Unit),
    Reaches (admittedVisit usurper).ctx.effectiveVersion
        (hooksIn (admittedVisit usurper).entry ((admittedVisit usurper).ctx.start ()))
        (admittedVisit usurper).handlers ((admittedVisit usurper).ctx.start ()) action w ∧
      w.request.version = some ⟨9, 9⟩ := by
  have hhooks : hooksIn (admittedVisit usurper).entry ((admittedVisit usurper).ctx.start ()) = [usurper, usurper] := by
    rw [hooksIn, admittedVisit, hooks_grove]
    rfl
  rw [hhooks]
  exact ⟨_, _, ⟨.cons rfl (.cons rfl (.nil _)), rfl, fun s hs => by cases hs⟩, rfl⟩

/-- A handler can see a version outside the window, which a hook has set, and one is called for a request whose media type
is none that is on offer. -/
theorem visit_usurped : (groveDispatcher usurper).IsBuiltFrom (grove usurper) ∧
    (∃ (a : Admitted (groveDispatcher usurper) visit) (w₁ w₂ : Workspace Unit Unit),
      .handler ∈ ((groveDispatcher usurper).serve visit ()).calls ∧ a.Makes () .handler w₁ w₂ ∧
        ¬(groveDispatcher usurper).window.Supports w₁.request.effectiveVersion) ∧
    (groveDispatcher {}).IsBuiltFrom (grove {}) ∧
    foreignVisit.headers.values "content-type" = ["image/bär"] ∧ "image/bär" ∉ (groveDispatcher {}).offers.mediaTypes ∧
    .handler ∈ ((groveDispatcher {}).serve foreignVisit ()).calls ∧
    ((groveDispatcher {}).serve foreignVisit ()).reply.status = 200 := by
  obtain ⟨action, w, hreaches, hversion⟩ := reaches_usurped
  have hcalled := handler_mem_of_reaches (w := (admittedVisit usurper).ctx.start ()) hreaches
  refine ⟨isBuiltFrom_grove usurper, ⟨admittedVisit usurper, w, _, ?_, .handler hreaches, ?_⟩, isBuiltFrom_grove {}, ?_⟩
  · rwa [(admittedVisit usurper).serve_eq]
  · rw [Context.effectiveVersion, hversion, Option.getD_some]
    rintro ⟨-, h⟩
    exact absurd h (by decide)
  · let a : Admitted (groveDispatcher {}) foreignVisit := ⟨_, _, some ⟨1, 0⟩, _, _, rfl, rfl, rfl⟩
    refine ⟨by decide, by decide, ?_, ?_⟩
    · rw [a.serve_eq, Admitted.run, perform, hooks_grove]
      decide
    · rw [a.serve_eq, Admitted.run, perform, hooks_grove]
      rfl

end Dispatcher

end Standby
