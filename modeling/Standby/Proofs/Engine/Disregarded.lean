import Standby.Proofs.Engine.TwoRuns
/-!
# Headers that are disregarded

A handler disregards a header of the request if neither what it comes to nor what else it leaves depends on the lines of
the header. It may still write such lines. If all that a dispatcher calls disregards a header, then requests that
differ in its lines alone are performed alike.
-/

namespace Standby

variable {σ κ α : Type} {name : String}

/-- A request without the lines of a header. -/
def Context.hide (name : String) (c : Context) : Context := { c with headers := c.headers.without name }

/-- A workspace in which the request is without the lines of a header. -/
def Workspace.hide (name : String) (w : Workspace σ κ) : Workspace σ κ := { w with request := w.request.hide name }

/-- What calls see of a request does the same in workspaces that differ in the lines of a header alone, and leaves such
workspaces. -/
def Disregards (name : String) (call : Context → Step σ κ α) : Prop :=
  ∀ w w' : Workspace σ κ, w.hide name = w'.hide name →
    ((call w.request).run.run w).1 = ((call w'.request).run.run w').1 ∧
      ((call w.request).run.run w).2.hide name = ((call w'.request).run.run w').2.hide name

/-- Both calls of a hook disregard a header. -/
structure Hook.Disregards (name : String) (h : Hook σ κ) : Prop where
  before : Standby.Disregards name h.before
  after : ∀ r, Standby.Disregards name fun ctx => h.after ctx r

/-! ## Steps that leave the request alone -/

/-- A step that neither looks at the request in the workspace nor changes it. -/
def Aloof (m : Step σ κ α) : Prop :=
  ∀ (w : Workspace σ κ) (request : Context),
    m.run.run { w with request } = ((m.run.run w).1, { (m.run.run w).2 with request })

theorem Blind.aloof {m : Step σ κ α} (h : Blind m) : Aloof m := by
  obtain ⟨r, hr⟩ := h
  intro w request
  rw [hr, hr]

theorem aloof_pure (a : α) : Aloof (pure a : Step σ κ α) := (blind_pure a).aloof

theorem aloof_throw (e : ApiError) : Aloof (throw e : Step σ κ α) := (blind_throw e).aloof

theorem aloof_modify {f : Workspace σ κ → Workspace σ κ} (h : ∀ w request, f { w with request } = { f w with request }) :
    Aloof (modify f) := fun w request => congrArg (Prod.mk _) (h w request)

theorem Aloof.bind {β : Type} {x : Step σ κ α} {f : α → Step σ κ β} (hx : Aloof x) (hf : ∀ a, Aloof (f a)) :
    Aloof (x >>= f) := by
  intro w request
  rw [run_bind, run_bind, hx]
  rcases x.run.run w with ⟨r, w₁⟩
  cases r with
  | error e => rfl
  | ok a => exact hf a w₁ request

/-- Such a step leaves the request in the workspace as it is. -/
theorem Aloof.request {m : Step σ κ α} (h : Aloof m) (w : Workspace σ κ) : (m.run.run w).2.request = w.request :=
  congrArg (·.2.request) (h w w.request)

/-- A call that does not look at the headers of the request that it is given, and leaves the one in the workspace alone,
disregards each of the headers. -/
theorem Disregards.of_aloof {call : Context → Step σ κ α} (h : ∀ ctx, Aloof (call ctx))
    (hheaders : ∀ ctx headers, call { ctx with headers } = call ctx) : Disregards name call := by
  intro w w' hw
  have hrequest : w.request.hide name = w'.request.hide name := congrArg (·.request) hw
  have hbare := congrArg (fun c : Context => call { c with headers := [] }) hrequest
  have hcall : call w.request = call w'.request :=
    (hheaders w.request []).symm.trans (hbare.trans (hheaders w'.request []))
  obtain ⟨world, cache, request⟩ := w
  obtain ⟨world', cache', request'⟩ := w'
  cases (congrArg (·.world) hw : world = world')
  cases (congrArg (·.cache) hw : cache = cache')
  rw [hcall]
  have hrun := h request' ⟨world, cache, request⟩
  have hleft := congrArg (·.2.request.hide name) (hrun request)
  have hother := hrun request'
  refine ⟨(congrArg (·.1) hother).symm, ?_⟩
  rw [hother]
  exact congrArg (fun c => (⟨_, _, c⟩ : Workspace σ κ)) (hleft.trans hrequest)

/-! ## Runs side by side -/

/-- Two runs come to the same result by the same calls, and leave workspaces that differ in the lines of a header
alone. -/
structure Run.Alike (run : Run σ κ α) (name : String) (run' : Run σ κ α) : Prop where
  result : run.result = run'.result
  workspace : run.workspace.hide name = run'.workspace.hide name
  calls : run.calls = run'.calls

/-- Workspaces in which the requests differ in the lines of a header alone. -/
def Hidden (name : String) (w w' : Workspace σ κ) : Prop := w.hide name = w'.hide name

theorem unobserved_hidden (name : String) : Unobserved (@Hidden σ κ name) Eq where
  action h := congrArg (·.request.action) h
  effectiveVersion h := congrArg (·.request.effectiveVersion) h
  body h := congrArg (·.request.body) h
  responseType h := congrArg (·.request.responseType) h
  code h := congrArg (·.code) h
  refl _ := rfl

theorem Disregards.callsAgree {call : Context → Step σ κ α} (h : Disregards name call) :
    CallsAgree (Hidden name) Eq call call :=
  fun w w' hw => ⟨.of_eq (h w w' hw).1, (h w w' hw).2⟩

theorem Hook.Disregards.agree {h : Hook σ κ} (hh : h.Disregards name) : h.Agree (Hidden name) Eq h where
  before := hh.before.callsAgree
  after r := (hh.after r).callsAgree

namespace Dispatcher

variable {handlers : Registry (Action σ κ)} {e : Entry σ κ} {w w' : Workspace σ κ}

/-- In workspaces that differ in the lines of a header alone, a request is performed alike. -/
theorem alike_perform (hh : ∀ r ∈ e.hooks, ∀ action h, r.Binds action h → h.Disregards name)
    (ha : ∀ action a, handlers.Binds action a → Disregards name a.handler) (hw : w.hide name = w'.hide name) :
    (perform e handlers w).Alike name (perform e handlers w') := by
  have hhooks (v : Version) : List.Forall₂ (Registry.AgreeAt v (Hook.Agree (Hidden name) Eq)) e.hooks e.hooks := by
    refine List.forall₂_same.2 fun r hr action => ?_
    cases hbound : r.resolve action v with
    | none => exact .none
    | some h => exact .some (hh r hr action h (.of_resolve hbound)).agree
  have hhandlers (v : Version) : handlers.AgreeAt v (Action.Agree (Hidden name) Eq) handlers := by
    intro action
    cases hbound : handlers.resolve action v with
    | none => exact .none
    | some a => exact .some ⟨(ha action a (.of_resolve hbound)).callsAgree, rfl, rfl⟩
  obtain ⟨hresult, hworkspace, hcalls⟩ := agree_perform (unobserved_hidden name) hhooks hhandlers hw
  exact ⟨hresult.eq, hworkspace, hcalls⟩

end Dispatcher

end Standby
