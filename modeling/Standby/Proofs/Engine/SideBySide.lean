import Standby.Proofs.Basic
import Standby.Proofs.Engine.Disregarded
/-!
# Two steps side by side

Two steps are run in workspaces that are related, and come to results that are related in workspaces that are related
again. This is how two requests are compared, or one request in two worlds: step by step, where what the later steps
need of the earlier ones is said by the relation of their values.
-/

namespace Standby

variable {σ κ α α' β β' : Type} {R : α → α' → Prop} {Q : β → β' → Prop}

/-- Two steps lead from related workspaces to related results and related workspaces. -/
def Relates (S : Workspace σ κ → Workspace σ κ → Prop) (R : α → α' → Prop) (m : Step σ κ α) (m' : Step σ κ α') : Prop :=
  ∀ w w', S w w' → Results R (m.run.run w).1 (m'.run.run w').1 ∧ S (m.run.run w).2 (m'.run.run w').2

variable {S : Workspace σ κ → Workspace σ κ → Prop}

theorem relates_pure {a : α} {a' : α'} (h : R a a') : Relates S R (pure a) (pure a') := fun _ _ hw => ⟨.ok h, hw⟩

theorem relates_throw (e : ApiError) : Relates S R (throw e) (throw e) := fun _ _ hw => ⟨.error e, hw⟩

/-- What does not look at the workspace does the same in both. -/
theorem Blind.relates {m : Step σ κ α} (h : Blind m) : Relates S Eq m m := by
  obtain ⟨r, hr⟩ := h
  intro w w' hw
  rw [hr, hr]
  exact ⟨results_refl r, hw⟩

theorem relates_get : Relates S S get get := fun _ _ hw => ⟨.ok hw, hw⟩

theorem relates_modify {f f' : Workspace σ κ → Workspace σ κ} (h : ∀ w w', S w w' → S (f w) (f' w')) :
    Relates S Eq (modify f) (modify f') := fun w w' hw => ⟨.ok rfl, h w w' hw⟩

theorem Relates.bind {x : Step σ κ α} {x' : Step σ κ α'} {f : α → Step σ κ β} {f' : α' → Step σ κ β'}
    (hx : Relates S R x x') (hf : ∀ a a', R a a' → Relates S Q (f a) (f' a')) :
    Relates S Q (x >>= f) (x' >>= f') := by
  intro w w' hw
  obtain ⟨hresults, hafter⟩ := hx w w' hw
  rw [run_bind, run_bind]
  generalize x.run.run w = p at hresults hafter
  generalize x'.run.run w' = p' at hresults hafter
  obtain ⟨r, w₁⟩ := p
  obtain ⟨r', w₁'⟩ := p'
  cases hresults with
  | error e => exact ⟨.error e, hafter⟩
  | ok h => exact hf _ _ h w₁ w₁' hafter

theorem Relates.ite {c c' : Prop} [Decidable c] [Decidable c'] {x y : Step σ κ α} {x' y' : Step σ κ α'} (hc : c ↔ c')
    (hx : Relates S R x x') (hy : Relates S R y y') : Relates S R (if c then x else y) (if c' then x' else y') := by
  by_cases h : c
  · rwa [if_pos h, if_pos (hc.1 h)]
  · rwa [if_neg h, if_neg fun h' => h (hc.2 h')]

/-- Steps that leave the request alone lead to workspaces with the same request, if they begin with the same one. -/
theorem Relates.with_request {m : Step σ κ α} {m' : Step σ κ α'} (h : Relates S R m m') (hm : Aloof m) (hm' : Aloof m') :
    Relates (fun w w' => S w w' ∧ w.request = w'.request) R m m' := by
  rintro w w' ⟨hw, hrequest⟩
  obtain ⟨hresults, hafter⟩ := h w w' hw
  exact ⟨hresults, hafter, (hm.request w).trans (hrequest.trans (hm'.request w').symm)⟩

/-- Without hooks, a request ends alike in two worlds if its handler does. -/
theorem Dispatcher.perform_of_relates {e : Entry σ κ} {ctx : Context} {handlers : Registry (Action σ κ)}
    (hhooks : hooksOf e ctx = [])
    (hhandler : ∀ a, handlers.resolve ctx.action ctx.effectiveVersion = some a →
      Relates S Eq (a.handler ctx) (a.handler ctx))
    (hS : ∀ w w', S w w' → w.request.responseType = w'.request.responseType) {world world' : σ}
    (hw : S (ctx.start world) (ctx.start world')) :
    (perform e handlers (ctx.start world)).result = (perform e handlers (ctx.start world')).result ∧
      S (perform e handlers (ctx.start world)).workspace (perform e handlers (ctx.start world')).workspace := by
  have hdecorates : ∀ h ∈ hooksOf e ctx, h.Decorates := by
    intro h hm
    rw [hhooks] at hm
    cases hm
  have hpre := runBefore_start_of_decorates hdecorates
  simp only [hhooks] at hpre
  simp only [perform, request_start, hpre]
  rcases runHandler_cases ctx handlers with ⟨err, -, hrun⟩ | ⟨a, hbound, -, hrun⟩
  · rw [hrun, hrun]
    exact ⟨rfl, hw⟩
  · rw [hrun, hrun]
    obtain ⟨hresult, hafter⟩ := hhandler a hbound _ _ hw
    rw [← hresult.eq]
    cases ((a.handler ctx).run.run (ctx.start world)).1.map (settle a.status) with
    | error err => exact ⟨rfl, hafter⟩
    | ok out =>
      cases out with
      | inr reply => exact ⟨rfl, hafter⟩
      | inl response =>
        refine ⟨?_, hafter⟩
        simp only [runAfter, Except.map, serialize, hS _ _ hafter]

end Standby
