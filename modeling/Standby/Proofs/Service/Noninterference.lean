import Standby.Proofs.Service.Startup
/-!
# What callers without the role of an administrator learn

Apart from the description of the versions, which does not look at the world, every handler first asks the policy.
Unless a rule lets anyone pass, the policy refuses all that the service does to callers that are not administrators,
so that what they get does not depend on what is stored, and nothing changes.
-/

namespace Standby

namespace Policy

/-- The rule that a policy sets for an action, if it has any. -/
def override? (p : Policy) (action : String) : Option PolicyRule :=
  (p.rules.reverse.find? (·.1 == action)).map (·.2)

theorem ruleFor_eq (p : Policy) (action : String) : p.ruleFor action = (p.override? action).getD (defaultRule action) :=
  rfl

/-- A policy without a rule that lets anyone pass refuses what only administrators may do by default. -/
theorem authorize_eq_error {p : Policy} {c : Caller} {action : String} (hp : p.override? action ≠ some .anyone)
    (hdefault : defaultRule action = .adminOnly) (hc : c.isAdmin = false) :
    p.authorize c action = .error (.notAuthorized action) := by
  have hrefused : p.allows c action = false := by
    rw [allows, ruleFor_eq, hdefault]
    cases hrule : p.override? action with
    | none => exact hc
    | some rule =>
      cases rule with
      | anyone => exact absurd hrule hp
      | adminOnly => exact hc
      | deny => rfl
  simp [authorize, hrefused]

end Policy

namespace Service

variable {service : Service} {ctx : Context}

/-! ## The actions -/

/-- A handler that asks the policy first does nothing for a caller that is refused. -/
theorem blind_of_authorize {resource action : String} {rest : Unit → ServiceStep Outcome}
    (hp : ∀ action, service.policy.override? action ≠ some .anyone) (hc : ctx.caller.isAdmin = false)
    (hdefault : Policy.defaultRule (Policy.actionName resource action) = .adminOnly) :
    Blind (service.authorize ctx resource action >>= rest) := by
  refine blind_bind_of_error (e := .notAuthorized (Policy.actionName resource action)) (fun w => ?_) rest
  rw [authorize, Policy.authorize_eq_error (hp _) hdefault hc]
  rfl

theorem blind_indexVersions : Blind (indexVersions ctx) := blind_pure _

theorem blind_showVersion : Blind (showVersion ctx) := by
  unfold showVersion memberId
  cases ctx.param Router.idParam with
  | error e => exact blind_bind_of_error (fun w => rfl) _
  | ok id =>
    refine Blind.bind (blind_pure id) fun id => ?_
    split
    · exact blind_pure _
    · exact blind_throw _

variable (hp : ∀ action, service.policy.override? action ≠ some .anyone) (hc : ctx.caller.isAdmin = false)

include hp hc

theorem Own.blind {collection name : String} {a : Action World Segment} (h : service.Own collection name a) :
    Blind (a.handler ctx) := by
  cases h with
  | indexVersions => exact blind_indexVersions
  | showVersion => exact blind_showVersion
  | indexExtensions infos => exact blind_of_authorize hp hc rfl
  | showExtension infos => exact blind_of_authorize hp hc rfl
  | indexSegments => exact blind_of_authorize hp hc rfl
  | showSegment => exact blind_of_authorize hp hc rfl
  | createSegment => exact blind_of_authorize hp hc rfl
  | updateSegment => exact blind_of_authorize hp hc rfl
  | deleteSegment => exact blind_of_authorize hp hc rfl
  | indexHosts => exact blind_of_authorize hp hc rfl
  | showHost => exact blind_of_authorize hp hc rfl
  | createHost => exact blind_of_authorize hp hc rfl
  | updateHost => exact blind_of_authorize hp hc rfl
  | deleteHost => exact blind_of_authorize hp hc rfl
  | indexNotifications => exact blind_of_authorize hp hc rfl
  | showNotification details => exact blind_of_authorize hp hc rfl
  | createNotification => exact blind_of_authorize hp hc rfl

theorem Added.blind {name : String} {a : Action World Segment} (h : service.Added name a) :
    Blind (a.handler ctx) := by
  cases h with
  | enable => exact blind_of_authorize hp hc rfl
  | disable => exact blind_of_authorize hp hc rfl

omit hp hc

/-! ## Requests -/

/-- A request whose handler is blind gets the same reply in every world and changes none. -/
theorem serve_of_blind {d : Dispatcher World Segment} {req : Request} (h : d.Handled req)
    (hb : Blind (h.action.handler h.ctx)) : ∃ reply, ∀ w, (d.serve req w).reply = reply ∧ (d.serve req w).world = w := by
  obtain ⟨r, hr⟩ := hb
  refine ⟨h.finish r .empty h.ctx, fun w => ?_⟩
  obtain ⟨hreply, hworld⟩ := h.serve_eq w
  rw [hr] at hreply hworld
  exact ⟨hreply, hworld⟩

/-- **Callers that are not administrators learn nothing and change nothing.** Whatever the configuration, if no rule of
the policy lets anyone pass, then a request of such a caller gets the same reply in any two worlds and leaves both as
they were. -/
theorem serve_noninterference {d : Dispatcher World Segment} (hd : service.dispatcher = .ok d)
    (hp : ∀ action, service.policy.override? action ≠ some .anyone) (req : Request)
    (hc : (Dispatcher.callerOf req).isAdmin = false) (w₁ w₂ : World) :
    (d.serve req w₁).reply = (d.serve req w₂).reply ∧ (d.serve req w₁).world = w₁ ∧ (d.serve req w₂).world = w₂ := by
  -- One reply serves for all worlds: that of the gate, or that of a handler which cannot see the world.
  have hsame : ∃ reply, ∀ w, (d.serve req w).reply = reply ∧ (d.serve req w).world = w := by
    rcases serve_cases hd req with h | ⟨⟨handled⟩⟩
    · exact h
    · obtain ⟨_, -, -, -, -, -, -, -, hcaller, -⟩ := Dispatcher.contextOf_eq_ok handled.admitted
      have hctx : handled.ctx.caller.isAdmin = false := by rw [hcaller]; exact hc
      rcases action_cases hd handled with hown | hadded
      · exact serve_of_blind handled (hown.blind hp hctx)
      · exact serve_of_blind handled (hadded.blind hp hctx)
  obtain ⟨reply, h⟩ := hsame
  exact ⟨(h w₁).1.trans (h w₂).1.symm, (h w₁).2, (h w₂).2⟩

/-- A listing by a caller with another role, in any two worlds. -/
theorem serve_noninterference_listing : ∃ d, byDefault.dispatcher = .ok d ∧
    (∀ action, byDefault.policy.override? action ≠ some .anyone) ∧
    ∃ req : Request, (Dispatcher.callerOf req).isAdmin = false ∧
      ∀ w₁ w₂, (d.serve req w₁).reply = (d.serve req w₂).reply := by
  obtain ⟨d, hd⟩ := exists_dispatcher_byDefault
  have hp : ∀ action, byDefault.policy.override? action ≠ some .anyone := by
    intro action h
    cases h
  have hc : (Dispatcher.callerOf ⟨"GET", "/v1/segments", none, [("x-roles", "member")], []⟩).isAdmin = false := rfl
  exact ⟨d, hd, hp, _, hc, fun w₁ w₂ => (serve_noninterference hd hp _ hc w₁ w₂).1⟩

end Service

end Standby
