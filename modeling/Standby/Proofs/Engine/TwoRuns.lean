import Mathlib.Data.List.Forall2
import Standby.Proofs.Engine.Calls
/-!
# Two runs side by side

One request is performed in two workspaces, or with the hooks and handlers of two dispatchers. If the workspaces are
related, and if each call leads from related workspaces to related ones and comes to a result that is the same in both,
or to related errors, then so do the runs.
-/

namespace Standby

variable {σ κ α β : Type} {S : Workspace σ κ → Workspace σ κ → Prop} {E : ApiError → ApiError → Prop}

/-- Both results are the same success, or failures with related errors. -/
inductive SameUpTo (E : ApiError → ApiError → Prop) : Except ApiError α → Except ApiError α → Prop
  | ok (a : α) : SameUpTo E (.ok a) (.ok a)
  | error {e e' : ApiError} (h : E e e') : SameUpTo E (.error e) (.error e')

namespace SameUpTo

variable {r r' : Except ApiError α}

theorem cases (h : SameUpTo E r r') :
    (∃ e e', r = .error e ∧ r' = .error e' ∧ E e e') ∨ ∃ a, r = .ok a ∧ r' = .ok a := by
  cases h with
  | error h => exact .inl ⟨_, _, rfl, rfl, h⟩
  | ok a => exact .inr ⟨a, rfl, rfl⟩

theorem map (h : SameUpTo E r r') (f : α → β) : SameUpTo E (r.map f) (r'.map f) := by
  cases h with
  | ok a => exact .ok (f a)
  | error h => exact .error h

theorem of_eq (h : r = r') : SameUpTo Eq r r' := by
  subst h
  cases r with
  | ok a => exact .ok a
  | error e => exact .error rfl

theorem eq (h : SameUpTo Eq r r') : r = r' := by
  cases h with
  | ok a => rfl
  | error h => rw [h]

end SameUpTo

/-- Two calls lead from related workspaces to related ones, and to the same results but for related errors. -/
def CallsAgree (S : Workspace σ κ → Workspace σ κ → Prop) (E : ApiError → ApiError → Prop)
    (call call' : Context → Step σ κ α) : Prop :=
  ∀ w w' : Workspace σ κ, S w w' →
    SameUpTo E ((call w.request).run.run w).1 ((call' w'.request).run.run w').1 ∧
      S ((call w.request).run.run w).2 ((call' w'.request).run.run w').2

structure Hook.Agree (S : Workspace σ κ → Workspace σ κ → Prop) (E : ApiError → ApiError → Prop) (h h' : Hook σ κ) :
    Prop where
  before : CallsAgree S E h.before h'.before
  after : ∀ r, CallsAgree S E (fun ctx => h.after ctx r) fun ctx => h'.after ctx r

structure Action.Agree (S : Workspace σ κ → Workspace σ κ → Prop) (E : ApiError → ApiError → Prop)
    (a a' : Action σ κ) : Prop where
  handler : CallsAgree S E a.handler a'.handler
  schema : a.schema = a'.schema
  status : a.status = a'.status

/-- What the server itself looks at in workspaces and errors is the same in related ones. -/
structure Unobserved (S : Workspace σ κ → Workspace σ κ → Prop) (E : ApiError → ApiError → Prop) : Prop where
  action : ∀ {w w'}, S w w' → w.request.action = w'.request.action
  effectiveVersion : ∀ {w w'}, S w w' → w.request.effectiveVersion = w'.request.effectiveVersion
  body : ∀ {w w'}, S w w' → w.request.body = w'.request.body
  responseType : ∀ {w w'}, S w w' → w.request.responseType = w'.request.responseType
  code : ∀ {e e'}, E e e' → e.code = e'.code
  refl : ∀ e, E e e

/-- Two runs come to the same results but for related errors, by the same calls, and leave related workspaces. -/
structure Run.Agree (S : Workspace σ κ → Workspace σ κ → Prop) (E : ApiError → ApiError → Prop) (run run' : Run σ κ α) :
    Prop where
  result : SameUpTo E run.result run'.result
  workspace : S run.workspace run'.workspace
  calls : run.calls = run'.calls

theorem rel_cases {γ δ : Type} {R : γ → δ → Prop} {x : Option γ} {y : Option δ} (h : Option.Rel R x y) :
    (x = none ∧ y = none) ∨ ∃ a b, x = some a ∧ y = some b ∧ R a b := by
  cases h with
  | none => exact .inl ⟨rfl, rfl⟩
  | some h => exact .inr ⟨_, _, rfl, rfl, h⟩

/-- Two registries have related things under every name at a version. -/
def Registry.AgreeAt (v : Version) (R : α → β → Prop) (r : Registry α) (r' : Registry β) : Prop :=
  ∀ name, Option.Rel R (r.resolve name v) (r'.resolve name v)

namespace Dispatcher

variable {hooks hooks' : List (Hook σ κ)} {rs rs' : List (Registry (Hook σ κ))}
  {handlers handlers' : Registry (Action σ κ)} {e e' : Entry σ κ} {v : Version} {w w' : Workspace σ κ}

/-- What the calls ahead of the handler come to in two runs: related errors, the same answer, or related hooks that have
passed. -/
inductive PassAlike (S : Workspace σ κ → Workspace σ κ → Prop) (E : ApiError → ApiError → Prop) :
    Except ApiError (Response ⊕ List (Hook σ κ)) → Except ApiError (Response ⊕ List (Hook σ κ)) → Prop
  | error {err err' : ApiError} (h : E err err') : PassAlike S E (.error err) (.error err')
  | answer (r : Response) : PassAlike S E (.ok (.inl r)) (.ok (.inl r))
  | passed {hooks hooks' : List (Hook σ κ)} (h : List.Forall₂ (Hook.Agree S E) hooks hooks') :
    PassAlike S E (.ok (.inr hooks)) (.ok (.inr hooks'))

theorem agree_runBefore (hS : Unobserved S E) (h : List.Forall₂ (Registry.AgreeAt v (Hook.Agree S E)) rs rs')
    (hw : S w w') (i : Nat) :
    PassAlike S E (runBefore v i rs w).result (runBefore v i rs' w').result ∧
      S (runBefore v i rs w).workspace (runBefore v i rs' w').workspace ∧
      (runBefore v i rs w).calls = (runBefore v i rs' w').calls := by
  induction h generalizing i w w' with
  | nil => exact ⟨.passed .nil, hw, rfl⟩
  | @cons r r' rs rs' hr _ ih =>
    simp only [runBefore, ← hS.action hw]
    rcases rel_cases (hr w.request.action) with ⟨hnone, hnone'⟩ | ⟨h, h', hsome, hsome', hh⟩
    · rw [hnone, hnone']
      exact ih hw i
    rw [hsome, hsome']
    obtain ⟨hresult, hafter⟩ := hh.before w w' hw
    simp only
    generalize (h.before w.request).run.run w = p at hresult hafter
    generalize (h'.before w'.request).run.run w' = p' at hresult hafter
    obtain ⟨result, w₁⟩ := p
    obtain ⟨result', w₁'⟩ := p'
    cases hresult with
    | error he => exact ⟨.error he, hafter, rfl⟩
    | ok answer =>
      cases answer with
      | some answer => exact ⟨.answer _, hafter, rfl⟩
      | none =>
        obtain ⟨hrest, hworkspace, hcalls⟩ := ih hafter (i + 1)
        refine ⟨?_, hworkspace, congrArg (List.cons _) hcalls⟩
        simp only
        generalize (runBefore v (i + 1) rs w₁).result = result at hrest
        generalize (runBefore v (i + 1) rs' w₁').result = result' at hrest
        cases hrest with
        | error he => exact .error he
        | answer r => exact .answer r
        | passed hhooks => exact .passed (.cons hh hhooks)

/-- A failure that is passed over in one of two runs is passed over in the other one. -/
theorem sameUpTo_revision (hS : Unobserved S E) (r : Response) {result result' : Except ApiError (Option Response)}
    (h : SameUpTo E result result') : SameUpTo E (revision r result) (revision r result') := by
  cases h with
  | ok replaced => exact .ok _
  | error he =>
    simp only [revision, hS.code he]
    split
    · exact .ok r
    · exact .error he

theorem agree_runAfter (hS : Unobserved S E) (h : List.Forall₂ (Hook.Agree S E) hooks hooks') (hw : S w w') (i : Nat)
    (r : Response) : (runAfter i hooks r w).Agree S E (runAfter i hooks' r w') := by
  induction h generalizing i with
  | nil => exact ⟨.ok r, hw, rfl⟩
  | @cons h h' hooks hooks' hh _ ih =>
    -- The hooks further on are called first, and where one of them fails this one is not called.
    obtain ⟨hresult, hworkspace, hcalls⟩ := ih (i + 1)
    rcases hrun : runAfter (i + 1) hooks r w with ⟨result, w₁, calls⟩
    rcases hrun' : runAfter (i + 1) hooks' r w' with ⟨result', w₁', calls'⟩
    rw [hrun, hrun'] at hresult hworkspace hcalls
    cases hcalls
    cases hresult with
    | error he =>
      simp only [runAfter, hrun, hrun']
      exact ⟨.error he, hworkspace, rfl⟩
    | ok r₁ =>
      obtain ⟨hlast, hleft⟩ := hh.after r₁ w₁ w₁' hworkspace
      rw [runAfter_cons hrun rfl, runAfter_cons hrun' rfl]
      exact ⟨sameUpTo_revision hS r₁ hlast, hleft, rfl⟩

theorem agree_runHandler (hS : Unobserved S E) (h : handlers.AgreeAt v (Action.Agree S E) handlers') (hw : S w w') :
    (runHandler v handlers w).Agree S E (runHandler v handlers' w') := by
  simp only [runHandler, ← hS.action hw]
  rcases rel_cases (h w.request.action) with ⟨hnone, hnone'⟩ | ⟨a, a', hsome, hsome', ha⟩
  · rw [hnone, hnone']
    exact ⟨.error (hS.refl _), hw, rfl⟩
  · simp only [hsome, hsome', ha.schema, ha.status, hS.body hw]
    split
    · exact ⟨.error (hS.refl _), hw, rfl⟩
    · obtain ⟨hresult, hafter⟩ := ha.handler w w' hw
      exact ⟨hresult.map _, hafter, rfl⟩

/-- A request is performed alike, if the calls of the hooks and of the handlers that it can come to are. -/
theorem agree_perform (hS : Unobserved S E)
    (hhooks : ∀ v, List.Forall₂ (Registry.AgreeAt v (Hook.Agree S E)) e.hooks e'.hooks)
    (hhandlers : ∀ v, handlers.AgreeAt v (Action.Agree S E) handlers') (hw : S w w') :
    (perform e handlers w).Agree S E (perform e' handlers' w') := by
  have htype {w w' : Workspace σ κ} (h : S w w') : serialize w = serialize w' :=
    funext fun r => by rw [serialize, serialize, hS.responseType h]
  obtain ⟨hbefore, hpre, hcalls⟩ := agree_runBefore hS (hhooks w.request.effectiveVersion) hw 0
  simp only [perform, ← hS.effectiveVersion hw, hcalls]
  generalize runBefore w.request.effectiveVersion 0 e.hooks w = pre at hbefore hpre
  generalize runBefore w.request.effectiveVersion 0 e'.hooks w' = pre' at hbefore hpre
  obtain ⟨before, w₁, _⟩ := pre
  obtain ⟨before', w₁', _⟩ := pre'
  cases hbefore with
  | error herr => exact ⟨.error herr, hpre, rfl⟩
  | answer answer => exact ⟨htype hpre ▸ .ok _, hpre, rfl⟩
  | passed hpassed =>
    obtain ⟨hresult, hmain, hcalls⟩ := agree_runHandler hS (hhandlers w.request.effectiveVersion) hpre
    simp only [hcalls]
    generalize runHandler w.request.effectiveVersion handlers w₁ = main at hresult hmain
    generalize runHandler w.request.effectiveVersion handlers' w₁' = main' at hresult hmain
    rcases hresult.cases with ⟨err, err', herror, herror', herr⟩ | ⟨out, hok, hok'⟩
    · rw [herror, herror']
      exact ⟨.error herr, hmain, rfl⟩
    rw [hok, hok']
    cases out with
    | inr reply => exact ⟨.ok _, hmain, rfl⟩
    | inl response =>
      obtain ⟨hresult, hpost, hcalls⟩ := agree_runAfter hS hpassed hmain 0 response
      simp only [hcalls, htype hpost]
      exact ⟨hresult.map _, hpost, rfl⟩

end Dispatcher

end Standby
