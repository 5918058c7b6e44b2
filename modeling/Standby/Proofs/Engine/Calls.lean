import Standby.Proofs.Engine.Layout
import Standby.Proofs.Engine.Serving
/-!
# The calls of a request

The hooks of a request are called in order until one answers or fails; each is looked up by the action that the
request has when its turn comes. Only if none answers or fails, a handler that is bound at the version of the request is
called, once, if its schema accepts the body. If it gives a response, the hooks are called again in reverse, and each of
them sees the response that those before it have left; one that has nothing for the version is passed over, and any other
failure is the end. If no hook rewrites the action, the hooks are those that the action had from the start
(`serve_course`).
-/

namespace Standby

variable {σ κ : Type}

/-- An action takes the body of a request as it is in a workspace. -/
def Action.Accepts (a : Action σ κ) (w : Workspace σ κ) : Prop :=
  ∀ s, a.schema = some s → s.check (w.request.body.getD .null) = .ok ()

/-- An action with a schema takes a body that the schema accepts. -/
theorem Action.accepts_start {a : Action σ κ} {s : Schema} {ctx : Context} {world : σ} (hs : a.schema = some s)
    (h : s.check (ctx.body.getD .null) = .ok ()) : a.Accepts (ctx.start world) := fun _ hs' =>
  Option.some.inj (hs.symm.trans hs') ▸ h

/-- A hook leaves the action of the request as it is, whatever else it does ahead of the handler. -/
def Hook.KeepsAction (h : Hook σ κ) : Prop :=
  ∀ w : Workspace σ κ, ((h.before w.request).run.run w).2.request.action = w.request.action

namespace Dispatcher

variable {v : Version} {rs : List (Registry (Hook σ κ))} {hooks : List (Hook σ κ)} {r : Response}
  {w w' : Workspace σ κ}

/-! ## Ahead of the handler -/

/-- The hooks that registries have for a request, each looked up by the action that the request has once the ones before
it have been called. -/
def hooksFor (v : Version) : List (Registry (Hook σ κ)) → Workspace σ κ → List (Hook σ κ)
  | [], _ => []
  | r :: rs, w =>
    match r.resolve w.request.action v with
    | none => hooksFor v rs w
    | some h => h :: hooksFor v rs ((h.before w.request).run.run w).2

/-- If no hook rewrites the action, they are those that the registries have for the first one. -/
theorem hooksFor_of_keepsAction (h : ∀ hook ∈ rs.filterMap (·.resolve w.request.action v), hook.KeepsAction) :
    hooksFor v rs w = rs.filterMap (·.resolve w.request.action v) := by
  induction rs generalizing w with
  | nil => rfl
  | cons r rs ih =>
    cases hr : r.resolve w.request.action v with
    | none =>
      simp only [List.filterMap_cons, hr] at h ⊢
      rw [hooksFor, hr]
      exact ih h
    | some hook =>
      simp only [List.filterMap_cons, hr] at h ⊢
      obtain ⟨hkeeps, hrest⟩ := List.forall_mem_cons.1 h
      rw [hooksFor, hr]
      simp only [← hkeeps w] at hrest ⊢
      rw [ih hrest]

/-- None of the hooks answers or fails ahead of the handler. Called in order, they lead from one workspace to another. -/
inductive Passes : List (Hook σ κ) → Workspace σ κ → Workspace σ κ → Prop
  | nil (w : Workspace σ κ) : Passes [] w w
  | cons {h : Hook σ κ} {hooks : List (Hook σ κ)} {w w' w'' : Workspace σ κ}
    (call : (h.before w.request).run.run w = (.ok none, w')) (rest : Passes hooks w' w'') :
    Passes (h :: hooks) w w''

theorem Passes.action_eq (h : Passes hooks w w') (hkeeps : ∀ hook ∈ hooks, hook.KeepsAction) :
    w'.request.action = w.request.action := by
  induction h with
  | nil => rfl
  | @cons h hooks w w' w'' call rest ih =>
    obtain ⟨hfirst, hrest⟩ := List.forall_mem_cons.1 hkeeps
    rw [ih hrest, ← hfirst w, call]

theorem runBefore_of_passes (h : Passes (hooksFor v rs w) w w') (i : Nat) :
    runBefore v i rs w =
      ⟨.ok (.inr (hooksFor v rs w)), w', (List.range' i (hooksFor v rs w).length).map .before⟩ := by
  induction rs generalizing i w with
  | nil =>
    cases h
    rfl
  | cons r rs ih =>
    cases hr : r.resolve w.request.action v with
    | none =>
      simp only [hooksFor, hr] at h ⊢
      rw [runBefore, hr]
      exact ih h i
    | some hook =>
      simp only [hooksFor, hr] at h ⊢
      cases h with
      | cons call rest =>
        rw [call] at rest ⊢
        simp only [runBefore, hr, call, ih rest, List.length_cons, List.range'_succ, List.map_cons]
        rfl

/-- Either all hooks pass, or those ahead of the first that does not are called and then that one. -/
theorem runBefore_cases (v : Version) (i : Nat) (rs : List (Registry (Hook σ κ))) (w : Workspace σ κ) :
    (∃ w', Passes (hooksFor v rs w) w w') ∨
      ∃ k h w₁ result w₂, (hooksFor v rs w)[k]? = some h ∧ Passes ((hooksFor v rs w).take k) w w₁ ∧
        (h.before w₁.request).run.run w₁ = (result, w₂) ∧
        ((∃ e, result = .error e ∧ runBefore v i rs w = ⟨.error e, w₂, (List.range' i (k + 1)).map .before⟩) ∨
          ∃ r, result = .ok (some r) ∧ runBefore v i rs w = ⟨.ok (.inl r), w₂, (List.range' i (k + 1)).map .before⟩) := by
  induction rs generalizing i w with
  | nil => exact .inl ⟨w, .nil w⟩
  | cons r rs ih =>
    cases hr : r.resolve w.request.action v with
    | none =>
      simp only [hooksFor, runBefore, hr]
      exact ih i w
    | some h =>
      simp only [hooksFor, runBefore, hr]
      obtain ⟨result, w₁, hcall⟩ : ∃ result w₁, (h.before w.request).run.run w = (result, w₁) := ⟨_, _, rfl⟩
      rw [hcall]
      rcases result with e | _ | answer
      · exact .inr ⟨0, h, w, _, w₁, rfl, .nil w, hcall, .inl ⟨e, rfl, rfl⟩⟩
      · -- This hook passes, and the others come to one of the two ends.
        rcases ih (i + 1) w₁ with ⟨w', hp⟩ | ⟨k, h', w₂, result, w₃, hk, hp, hcall', hend⟩
        · exact .inl ⟨w', .cons hcall hp⟩
        · refine .inr ⟨k + 1, h', w₂, result, w₃, hk, .cons hcall hp, hcall', ?_⟩
          rcases hend with ⟨e, he, hrun⟩ | ⟨answer, hanswer, hrun⟩
          · exact .inl ⟨e, he, by simp only [hrun, List.range'_succ, List.map_cons]; rfl⟩
          · exact .inr ⟨answer, hanswer, by simp only [hrun, List.range'_succ, List.map_cons]; rfl⟩
      · exact .inr ⟨0, h, w, _, w₁, rfl, .nil w, hcall, .inr ⟨answer, rfl, rfl⟩⟩

/-! ## After the handler -/

/-- What a call after the handler makes of the response that it was given. -/
def revision (r : Response) : Except ApiError (Option Response) → Except ApiError Response
  | .ok replaced => .ok (replaced.getD r)
  | .error e => if e.code = .versionNotFoundForMethod then .ok r else .error e

/-- The hooks, in the order in which they are called, lead from one response and workspace to another. -/
inductive Revises : List (Hook σ κ) → Response → Workspace σ κ → Response → Workspace σ κ → Prop
  | nil (r : Response) (w : Workspace σ κ) : Revises [] r w r w
  | snoc {h : Hook σ κ} {hooks : List (Hook σ κ)} {r r' r'' : Response} {w w' w'' : Workspace σ κ}
    {result : Except ApiError (Option Response)} (ahead : Revises hooks r w r' w')
    (call : (h.after w'.request r').run.run w' = (result, w'')) (revised : revision r' result = .ok r'') :
    Revises (hooks ++ [h]) r w r'' w''

/-- The first hook is called last, with the response that the others have left. -/
theorem runAfter_cons {h : Hook σ κ} {i : Nat} {r₁ : Response} {w₁ w₂ : Workspace σ κ} {calls : List Phase}
    {result : Except ApiError (Option Response)} (hrest : runAfter (i + 1) hooks r w = ⟨.ok r₁, w₁, calls⟩)
    (hcall : (h.after w₁.request r₁).run.run w₁ = (result, w₂)) :
    runAfter i (h :: hooks) r w = ⟨revision r₁ result, w₂, calls ++ [.after i]⟩ := by
  simp only [runAfter, hrest, hcall]
  rcases result with e | _ | replaced
  · simp only [revision]
    split <;> rfl
  · rfl
  · rfl

/-- Either all hooks are called, the last one first, or the hooks are called as far as the first that fails. -/
theorem runAfter_cases (i : Nat) (hooks : List (Hook σ κ)) (r : Response) (w : Workspace σ κ) :
    (∃ r' w', Revises hooks.reverse r w r' w' ∧
      runAfter i hooks r w = ⟨.ok r', w', (List.range' i hooks.length).reverse.map .after⟩) ∨
    ∃ k h r₁ w₁ result e w₂, hooks.reverse[k]? = some h ∧ Revises (hooks.reverse.take k) r w r₁ w₁ ∧
      (h.after w₁.request r₁).run.run w₁ = (result, w₂) ∧ revision r₁ result = .error e ∧
      runAfter i hooks r w = ⟨.error e, w₂, ((List.range' i hooks.length).reverse.take (k + 1)).map .after⟩ := by
  induction hooks generalizing i with
  | nil => exact .inl ⟨r, w, .nil r w, rfl⟩
  | cons h hooks ih =>
    have hrange : (List.range' i (h :: hooks).length).reverse = (List.range' (i + 1) hooks.length).reverse ++ [i] := by
      rw [List.length_cons, List.range'_succ, List.reverse_cons]
    rw [hrange, List.reverse_cons]
    rcases ih (i + 1) with ⟨r₁, w₁, hrev, hrun⟩ | ⟨k, h', r₁, w₁, result, e, w₂, hk, hrev, hcall, hrevision, hrun⟩
    · obtain ⟨result, w₂, hcall⟩ : ∃ result w₂, (h.after w₁.request r₁).run.run w₁ = (result, w₂) := ⟨_, _, rfl⟩
      have hlast := runAfter_cons hrun hcall
      cases hrevision : revision r₁ result with
      | ok r₂ =>
        rw [hlast, hrevision, List.map_append]
        exact .inl ⟨r₂, w₂, .snoc hrev hcall hrevision, rfl⟩
      | error e =>
        have hk : (hooks.reverse ++ [h])[hooks.reverse.length]? = some h := List.getElem?_concat_length
        refine .inr ⟨hooks.reverse.length, h, r₁, w₁, result, e, w₂, hk, ?_, hcall, hrevision, ?_⟩
        · rwa [List.take_left]
        · rw [hlast, hrevision, List.take_of_length_le (by simp), List.map_append]
          rfl
    · -- A failure further on is the end, and this hook is not called.
      have hlt : k < hooks.reverse.length := (List.getElem?_eq_some_iff.1 hk).1
      have hle : k + 1 ≤ (List.range' (i + 1) hooks.length).reverse.length := by
        simpa [Nat.succ_le_iff] using hlt
      refine .inr ⟨k, h', r₁, w₁, result, e, w₂, ?_, ?_, hcall, hrevision, ?_⟩
      · rw [List.getElem?_append_left hlt, hk]
      · rwa [List.take_append_of_le_length hlt.le]
      · rw [List.take_append_of_le_length hle]
        simp only [runAfter, hrun]

/-! ## The handler -/

/-- The response that an outcome means for an action whose success has a certain status. A finished reply means none. -/
inductive Outcome.Means (status : Nat) : Outcome → Response → Prop
  | empty : Means status .empty { status, body := none }
  | value (j : Json) : Means status (.value j) { status, body := some j }
  | response (r : Response) : Means status (.response r) r

theorem settle_cases (status : Nat) (o : Outcome) :
    (∃ reply, o = .raw reply ∧ settle status o = .inr reply) ∨
      ∃ r, Outcome.Means status o r ∧ settle status o = .inl r := by
  cases o with
  | raw reply => exact .inl ⟨reply, rfl, rfl⟩
  | empty => exact .inr ⟨_, .empty, rfl⟩
  | value j => exact .inr ⟨_, .value j, rfl⟩
  | response r => exact .inr ⟨r, .response r, rfl⟩

/-- No hook answers or fails ahead of the handler, and then the handler of an action is called: it is bound at the
version, and its schema accepts the body. -/
structure Reaches (v : Version) (hooks : List (Hook σ κ)) (handlers : Registry (Action σ κ)) (w : Workspace σ κ)
    (a : Action σ κ) (w' : Workspace σ κ) : Prop where
  passes : Passes hooks w w'
  bound : handlers.resolve w'.request.action v = some a
  accepts : a.Accepts w'

theorem runHandler_of_accepts {handlers : Registry (Action σ κ)} {a : Action σ κ} {result : Except ApiError Outcome}
    (bound : handlers.resolve w.request.action v = some a) (accepts : a.Accepts w)
    (call : (a.handler w.request).run.run w = (result, w')) :
    runHandler v handlers w = ⟨result.map (settle a.status), w', [.handler]⟩ := by
  have hchecked : (a.schema.map (·.check (w.request.body.getD .null))).getD (.ok ()) = .ok () := by
    cases hs : a.schema with
    | none => rfl
    | some s => exact accepts s hs
  simp only [runHandler, bound, hchecked, call]

theorem runHandler_of_isPlain {handlers : Registry (Action σ κ)} {a : Action σ κ} {o : Outcome}
    (bound : handlers.resolve w.request.action v = some a) (accepts : a.Accepts w)
    (call : (a.handler w.request).run.run w = (.ok o, w')) (ho : o.IsPlain) :
    runHandler v handlers w = ⟨.ok (.inl { status := a.status, body := o.json? }), w', [.handler]⟩ := by
  rw [runHandler_of_accepts bound accepts call, Except.map, settle_of_isPlain ho]

theorem runHandler_of_unbound {handlers : Registry (Action σ κ)}
    (bound : handlers.resolve w.request.action v = none) :
    runHandler v handlers w = ⟨.error (.versionNotFound w.request.action), w, []⟩ := by
  simp only [runHandler, bound]

theorem runHandler_of_violation {handlers : Registry (Action σ κ)} {a : Action σ κ} {s : Schema} {x : Violation}
    (bound : handlers.resolve w.request.action v = some a) (schema : a.schema = some s)
    (violation : s.check (w.request.body.getD .null) = .error x) :
    runHandler v handlers w = ⟨.error (.ofViolation x), w, []⟩ := by
  simp only [runHandler, bound, schema, Option.map_some, Option.getD_some, violation]

/-- A request whose hooks only decorate succeeds as its handler does, and with the world that it leaves. -/
theorem Admitted.serve_of_call {d : Dispatcher σ κ} {req : Request} (a : Admitted d req)
    (hh : ∀ h ∈ hooksOf a.entry a.ctx, h.Decorates) {action : Action σ κ} {world : σ} {o : Outcome}
    (bound : a.handlers.resolve a.ctx.action a.ctx.effectiveVersion = some action)
    (accepts : action.Accepts (a.ctx.start world))
    (call : (action.handler a.ctx).run.run (a.ctx.start world) = (.ok o, w)) (ho : o.IsPlain) :
    (d.serve req world).reply.status = action.status ∧ (d.serve req world).world = w.world := by
  have hrun := runHandler_of_isPlain bound accepts call ho
  obtain ⟨r, ⟨response, hstatus, rfl⟩, hperform⟩ :=
    perform_of_decorates hh a.handlers (.ok (.inl { status := action.status, body := o.json? })) w.cache w.request
  obtain ⟨hresult, hworkspace⟩ := hperform world w.world (by rw [hrun]) (by rw [hrun])
  rw [a.serve_eq, Admitted.run, hresult, hworkspace]
  refine ⟨?_, rfl⟩
  simp only [Admitted.reply, status_stamp, status_toReply, hstatus]

/-- A request whose hooks only decorate fails as its handler does, and with the world that it leaves. -/
theorem Admitted.serve_of_failure {d : Dispatcher σ κ} {req : Request} (a : Admitted d req)
    (hh : ∀ h ∈ hooksOf a.entry a.ctx, h.Decorates) {action : Action σ κ} {world : σ} {e : ApiError}
    (bound : a.handlers.resolve a.ctx.action a.ctx.effectiveVersion = some action)
    (accepts : action.Accepts (a.ctx.start world))
    (call : (action.handler a.ctx).run.run (a.ctx.start world) = (.error e, w)) :
    (d.serve req world).reply = d.fault req a.version e ∧ (d.serve req world).world = w.world := by
  have hrun : runHandler a.ctx.effectiveVersion a.handlers (a.ctx.start world) = ⟨.error e, w, [.handler]⟩ :=
    runHandler_of_accepts bound accepts call
  obtain ⟨r, rfl, hperform⟩ := perform_of_decorates hh a.handlers (.error e) w.cache w.request
  obtain ⟨hresult, hworkspace⟩ := hperform world w.world (by rw [hrun]) (by rw [hrun])
  rw [a.serve_eq, Admitted.run, hresult, hworkspace]
  exact ⟨rfl, rfl⟩

/-! ## The whole course -/

/-- The calls of the first `n` hooks ahead of the handler. -/
def befores (n : Nat) : List Phase := (List.range n).map .before

/-- The calls of the last `k` of `n` hooks after the handler. -/
def afters (n k : Nat) : List Phase := ((List.range n).reverse.take k).map .after

/-- The calls that hooks and handler get, what comes of them, and the workspace that they leave. -/
inductive Course (v : Version) (hooks : List (Hook σ κ)) (handlers : Registry (Action σ κ)) (w : Workspace σ κ) :
    List Phase → Except ApiError Reply → Workspace σ κ → Prop
  /-- A hook answers. -/
  | answered {k : Nat} {h : Hook σ κ} {r : Response} {w₁ w₂ : Workspace σ κ} (passes : Passes (hooks.take k) w w₁)
    (hook : hooks[k]? = some h) (call : (h.before w₁.request).run.run w₁ = (.ok (some r), w₂)) :
    Course v hooks handlers w (befores (k + 1)) (.ok (serialize w₂ r)) w₂
  /-- A hook fails ahead of the handler. -/
  | stopped {k : Nat} {h : Hook σ κ} {e : ApiError} {w₁ w₂ : Workspace σ κ} (passes : Passes (hooks.take k) w w₁)
    (hook : hooks[k]? = some h) (call : (h.before w₁.request).run.run w₁ = (.error e, w₂)) :
    Course v hooks handlers w (befores (k + 1)) (.error e) w₂
  /-- No handler is bound at the version. -/
  | unbound {w₁ : Workspace σ κ} (passes : Passes hooks w w₁)
    (bound : handlers.resolve w₁.request.action v = none) :
    Course v hooks handlers w (befores hooks.length) (.error (.versionNotFound w₁.request.action)) w₁
  /-- The schema does not accept the body. -/
  | invalid {a : Action σ κ} {s : Schema} {x : Violation} {w₁ : Workspace σ κ} (passes : Passes hooks w w₁)
    (bound : handlers.resolve w₁.request.action v = some a) (schema : a.schema = some s)
    (violation : s.check (w₁.request.body.getD .null) = .error x) :
    Course v hooks handlers w (befores hooks.length) (.error (.ofViolation x)) w₁
  /-- The handler fails. -/
  | failed {a : Action σ κ} {e : ApiError} {w₁ w₂ : Workspace σ κ} (reaches : Reaches v hooks handlers w a w₁)
    (call : (a.handler w₁.request).run.run w₁ = (.error e, w₂)) :
    Course v hooks handlers w (befores hooks.length ++ [.handler]) (.error e) w₂
  /-- The handler gives a finished reply. -/
  | finished {a : Action σ κ} {reply : Reply} {w₁ w₂ : Workspace σ κ} (reaches : Reaches v hooks handlers w a w₁)
    (call : (a.handler w₁.request).run.run w₁ = (.ok (.raw reply), w₂)) :
    Course v hooks handlers w (befores hooks.length ++ [.handler]) (.ok reply) w₂
  /-- The handler gives a response, and no hook fails after it. -/
  | completed {a : Action σ κ} {o : Outcome} {r r' : Response} {w₁ w₂ w₃ : Workspace σ κ}
    (reaches : Reaches v hooks handlers w a w₁) (call : (a.handler w₁.request).run.run w₁ = (.ok o, w₂))
    (means : Outcome.Means a.status o r) (revises : Revises hooks.reverse r w₂ r' w₃) :
    Course v hooks handlers w (befores hooks.length ++ [.handler] ++ afters hooks.length hooks.length)
      (.ok (serialize w₃ r')) w₃
  /-- The handler gives a response, and a hook fails after it. -/
  | interrupted {a : Action σ κ} {o : Outcome} {r r' : Response} {k : Nat} {h : Hook σ κ}
    {result : Except ApiError (Option Response)} {e : ApiError} {w₁ w₂ w₃ w₄ : Workspace σ κ}
    (reaches : Reaches v hooks handlers w a w₁) (call : (a.handler w₁.request).run.run w₁ = (.ok o, w₂))
    (means : Outcome.Means a.status o r) (revises : Revises (hooks.reverse.take k) r w₂ r' w₃)
    (hook : hooks.reverse[k]? = some h) (last : (h.after w₃.request r').run.run w₃ = (result, w₄))
    (failure : revision r' result = .error e) :
    Course v hooks handlers w (befores hooks.length ++ [.handler] ++ afters hooks.length (k + 1)) (.error e) w₄

/-- The hooks that a resource has for a request in a workspace. -/
def hooksIn (e : Entry σ κ) (w : Workspace σ κ) : List (Hook σ κ) :=
  hooksFor w.request.effectiveVersion e.hooks w

/-- If no hook rewrites the action, they are those that the resource has for it. -/
theorem hooksIn_of_keepsAction {e : Entry σ κ} {ctx : Context} (h : ∀ hook ∈ hooksOf e ctx, hook.KeepsAction)
    (world : σ) : hooksIn e (ctx.start world) = hooksOf e ctx :=
  hooksFor_of_keepsAction h

section Performing
variable {e : Entry σ κ} {handlers : Registry (Action σ κ)} {a : Action σ κ}

theorem runBefore_eq_befores (h : Passes (hooksIn e w) w w') :
    runBefore w.request.effectiveVersion 0 e.hooks w =
      ⟨.ok (.inr (hooksIn e w)), w', befores (hooksIn e w).length⟩ := by
  rw [hooksIn, runBefore_of_passes h 0, befores, List.range_eq_range']

theorem course_of_reaches (h : Reaches w.request.effectiveVersion (hooksIn e w) handlers w a w') :
    Course w.request.effectiveVersion (hooksIn e w) handlers w (perform e handlers w).calls
      (perform e handlers w).result (perform e handlers w).workspace := by
  obtain ⟨result, w₂, hcall⟩ : ∃ result w₂, (a.handler w'.request).run.run w' = (result, w₂) := ⟨_, _, rfl⟩
  simp only [perform, runBefore_eq_befores h.passes, runHandler_of_accepts h.bound h.accepts hcall]
  cases result with
  | error err => exact .failed h hcall
  | ok o =>
    simp only [Except.map]
    rcases settle_cases a.status o with ⟨reply, rfl, hs⟩ | ⟨r, hmeans, hs⟩
    · rw [hs]
      exact .finished h hcall
    · rw [hs]
      rcases runAfter_cases 0 (hooksIn e w) r w₂ with
        ⟨r', w₃, hrev, hpost⟩ | ⟨k, hook, r', w₃, result, err, w₄, hk, hrev, hlast, hfail, hpost⟩
      · have hall : (List.range (hooksIn e w).length).reverse.map Phase.after =
            afters (hooksIn e w).length (hooksIn e w).length := by
          rw [afters, List.take_of_length_le (by simp)]
        simp only [hpost, ← List.range_eq_range', hall]
        exact .completed h hcall hmeans hrev
      · simp only [hpost, ← List.range_eq_range']
        exact .interrupted h hcall hmeans hrev hk hlast hfail

/-- What is called, and what comes of it, follows one of the courses. -/
theorem perform_course (e : Entry σ κ) (handlers : Registry (Action σ κ)) (w : Workspace σ κ) :
    Course w.request.effectiveVersion (hooksIn e w) handlers w (perform e handlers w).calls
      (perform e handlers w).result (perform e handlers w).workspace := by
  rcases runBefore_cases w.request.effectiveVersion 0 e.hooks w with
    ⟨w₁, hp⟩ | ⟨k, h, w₁, result, w₂, hk, hp, hcall, ⟨err, rfl, hrun⟩ | ⟨r, rfl, hrun⟩⟩
  · cases hb : handlers.resolve w₁.request.action w.request.effectiveVersion with
    | none =>
      simp only [perform, runBefore_eq_befores hp, runHandler_of_unbound hb, List.append_nil]
      exact .unbound hp hb
    | some a =>
      by_cases ha : a.Accepts w₁
      · exact course_of_reaches ⟨hp, hb, ha⟩
      · obtain ⟨s, hs, hv⟩ : ∃ s, a.schema = some s ∧ s.check (w₁.request.body.getD .null) ≠ .ok () := by
          simpa [Action.Accepts] using ha
        cases hc : s.check (w₁.request.body.getD .null) with
        | ok u => exact absurd hc hv
        | error x =>
          simp only [perform, runBefore_eq_befores hp, runHandler_of_violation hb hs hc, List.append_nil]
          exact .invalid hp hb hs hc
  · rw [← List.range_eq_range', ← befores] at hrun
    simp only [perform, hrun]
    exact .stopped hp hk hcall
  · rw [← List.range_eq_range', ← befores] at hrun
    simp only [perform, hrun]
    exact .answered hp hk hcall

/-! ## The call of the handler -/

theorem handler_notMem_befores (n : Nat) : Phase.handler ∉ befores n := by
  intro h
  obtain ⟨_, -, hi⟩ := List.mem_map.1 h
  cases hi

theorem handler_notMem_afters (n k : Nat) : Phase.handler ∉ afters n k := by
  intro h
  obtain ⟨_, -, hi⟩ := List.mem_map.1 h
  cases hi

theorem handler_mem_of_reaches (h : Reaches w.request.effectiveVersion (hooksIn e w) handlers w a w') :
    .handler ∈ (perform e handlers w).calls := by
  obtain ⟨result, w₂, hcall⟩ : ∃ result w₂, (a.handler w'.request).run.run w' = (result, w₂) := ⟨_, _, rfl⟩
  simp only [perform, runBefore_eq_befores h.passes, runHandler_of_accepts h.bound h.accepts hcall]
  split <;> simp

theorem Course.exists_reaches {calls : List Phase} {result : Except ApiError Reply}
    (h : Course v hooks handlers w calls result w') (hm : .handler ∈ calls) :
    ∃ a w₁, Reaches v hooks handlers w a w₁ := by
  cases h with
  | answered | stopped | unbound | invalid => exact absurd hm (handler_notMem_befores _)
  | failed reaches => exact ⟨_, _, reaches⟩
  | finished reaches => exact ⟨_, _, reaches⟩
  | completed reaches => exact ⟨_, _, reaches⟩
  | interrupted reaches => exact ⟨_, _, reaches⟩

theorem Course.count_handler {calls : List Phase} {result : Except ApiError Reply}
    (h : Course v hooks handlers w calls result w') : calls.count .handler ≤ 1 := by
  have hb : ∀ n, (befores n).count .handler = 0 := fun n => List.count_eq_zero.2 (handler_notMem_befores n)
  have ha : ∀ n k, (afters n k).count .handler = 0 := fun n k => List.count_eq_zero.2 (handler_notMem_afters n k)
  cases h <;> simp [List.count_append, hb, ha]

end Performing

/-- The calls of an admitted request whose action no hook rewrites: its hooks are those of its resource's own controllers
and then of those that its resource inherits, and they and the handler are called as one of the courses says. -/
theorem serve_course {d : Dispatcher σ κ} {extensions : ExtensionSet σ κ} (hd : d.IsBuiltFrom extensions)
    {req : Request} (a : Admitted d req) (hkeeps : ∀ h ∈ hooksOf a.entry a.ctx, h.KeepsAction) (world : σ) :
    (∃ rest, Inherit.Complete extensions.pointers (a.route.resource :: rest) ∧
      hooksOf a.entry a.ctx = (extensions.controllersFor (a.route.resource :: rest)).filterMap fun c =>
        c.hooks.resolve a.ctx.action a.ctx.effectiveVersion) ∧
    (∃ result w, Course a.ctx.effectiveVersion (hooksOf a.entry a.ctx) a.handlers (a.ctx.start world)
        (d.serve req world).calls result w ∧
      (d.serve req world).reply = a.reply w.request.version result ∧ (d.serve req world).world = w.world) ∧
    (d.serve req world).calls.count .handler ≤ 1 ∧
    (.handler ∈ (d.serve req world).calls ↔ ∃ action w,
      Reaches a.ctx.effectiveVersion (hooksOf a.entry a.ctx) a.handlers (a.ctx.start world) action w) ∧
    ∀ w, Passes (hooksOf a.entry a.ctx) (a.ctx.start world) w → w.request.action = a.ctx.action := by
  have hhooks := hooksIn_of_keepsAction hkeeps world
  have hcourse := perform_course a.entry a.handlers (a.ctx.start world)
  rw [hhooks] at hcourse
  rw [a.serve_eq]
  refine ⟨?_, ⟨_, _, hcourse, rfl, rfl⟩, hcourse.count_handler, ⟨hcourse.exists_reaches, ?_⟩, fun w h => ?_⟩
  · obtain ⟨-, -, rest, hrest, -, hadded⟩ := hd.entry a.lookup?_entry
    refine ⟨rest, hrest, ?_⟩
    rw [hooksOf, hadded, List.filterMap_map]
    rfl
  · rintro ⟨action, w, hr⟩
    exact handler_mem_of_reaches (hhooks ▸ hr)
  · exact h.action_eq hkeeps

/-- A resource at the root of the API that inherits from its trees. -/
def groveResource : Resource Unit Unit :=
  { collection := "grove"
    member := "grove"
    inherits := some "trees"
    root := true
    actions := ⟨[("index", [⟨.all, { handler := fun _ => pure .empty }⟩])]⟩ }

/-- The grove, its trees and a controller for each, both with a hook for the grove's action. -/
def grove (hook : Hook Unit Unit) : ExtensionSet Unit Unit :=
  let hooks : Registry (Hook Unit Unit) := ⟨[("index", [⟨.all, hook⟩])]⟩
  ⟨[{ name := "Grove"
      shortName := "grove"
      updated := ""
      resources := .ok [{ collection := "trees", member := "tree" }, groveResource]
      controllers := .ok [{ resource := "trees", hooks }, { resource := "grove", hooks }] }]⟩

def groveDispatcher (hook : Hook Unit Unit) : Dispatcher Unit Unit where
  router := ⟨some "grove", ["trees"], []⟩
  entries := (grove hook).resources.map fun r => (r.collection, entryOf (grove hook).resources (grove hook).controllers r)
  window := ⟨⟨1, 0⟩, ⟨1, 0⟩, ⟨1, 0⟩⟩
  offers := ⟨["application/json"], ["en"]⟩
  versionHeader := "version"
  service := "grove"
  publicEndpoint := none

def groveSettings : DispatchSettings := ⟨"version", "grove", ⟨1, 0⟩, ⟨1, 0⟩, "application/json", ["en"], none⟩

theorem build_grove (hook : Hook Unit Unit) : build groveSettings (grove hook) = .ok (groveDispatcher hook) := by
  have hparts : (grove hook).list.foldlM collect ([], []) = .ok ((grove hook).resources, (grove hook).controllers) := rfl
  have hrouter : (grove hook).resources.foldlM (addRoute ((grove hook).resources.map (·.collection))) {} =
      .ok (groveDispatcher hook).router := rfl
  have hmentioned : (groveDispatcher hook).entries.filterMap (fun (_, e) => e.latestMentioned?) = [] := by cbv
  rw [groveDispatcher] at hmentioned
  rw [build, hparts, bind_ok]
  simp only [hrouter, bind_ok, hmentioned]
  rfl

theorem isBuiltFrom_grove (hook : Hook Unit Unit) : (groveDispatcher hook).IsBuiltFrom (grove hook) :=
  ⟨groveSettings, build_grove hook⟩

/-- The hooks of the grove and of its trees. -/
theorem hooks_grove (hook : Hook Unit Unit) :
    (entryOf (grove hook).resources (grove hook).controllers groveResource).hooks =
      [⟨[("index", [⟨.all, hook⟩])]⟩, ⟨[("index", [⟨.all, hook⟩])]⟩] := by
  have hchain : chainOf (grove hook).resources groveResource = ["grove", "trees"] := by cbv
  rw [entryOf, hchain]
  rfl

/-- A visit to the grove. -/
def visit : Request := ⟨"GET", "/", none, [], []⟩

/-- The visit is admitted. -/
def admittedVisit (hook : Hook Unit Unit) : Admitted (groveDispatcher hook) visit :=
  ⟨_, _, some ⟨1, 0⟩, _, _, rfl, rfl, rfl⟩

/-- A visit to the grove: the hooks of the grove and of the trees, the handler, and the hooks in reverse. -/
theorem serve_course_grove : (groveDispatcher {}).IsBuiltFrom (grove {}) ∧
    ∃ a : Admitted (groveDispatcher {}) visit, (∀ h ∈ hooksOf a.entry a.ctx, h.KeepsAction) ∧
      ∃ result w, Course a.ctx.effectiveVersion (hooksOf a.entry a.ctx) a.handlers (a.ctx.start ())
        [.before 0, .before 1, .handler, .after 1, .after 0] result w := by
  have hhooks := hooks_grove {}
  have hkeeps : ∀ h ∈ hooksOf (admittedVisit {}).entry (admittedVisit {}).ctx, h.KeepsAction := by
    intro h hm
    rw [hooksOf, admittedVisit, hhooks] at hm
    rcases List.mem_pair.1 hm with rfl | rfl
    all_goals exact fun w => rfl
  have hcalls : ((admittedVisit {}).run ()).calls = [.before 0, .before 1, .handler, .after 1, .after 0] := by
    rw [Admitted.run, perform, admittedVisit, hhooks]
    rfl
  obtain ⟨-, ⟨result, w, hcourse, -⟩, -⟩ := serve_course (isBuiltFrom_grove {}) (admittedVisit {}) hkeeps ()
  rw [(admittedVisit {}).serve_eq, hcalls] at hcourse
  exact ⟨isBuiltFrom_grove {}, admittedVisit {}, hkeeps, result, w, hcourse⟩

end Dispatcher

end Standby
