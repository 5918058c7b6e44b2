import Standby.Proofs.Engine.Calls
/-!
# What a call sees

Each call of a request is made in the workspace that the calls ahead of it have left, and so it sees the request as they
have left it. What none of them changes is as it was at first; what no call at all changes is so in the end.
-/

namespace Standby

variable {σ κ α : Type}

/-- A call comes ahead of another one: the hooks by their numbers, then the handler, then the hooks in reverse. -/
inductive Phase.Ahead : Phase → Phase → Prop
  | before {i j : Nat} (h : i < j) : Ahead (.before i) (.before j)
  | handler (i : Nat) : Ahead (.before i) .handler
  | across (i j : Nat) : Ahead (.before i) (.after j)
  | after (j : Nat) : Ahead .handler (.after j)
  | reverse {i j : Nat} (h : i < j) : Ahead (.after j) (.after i)

namespace Dispatcher

variable {v : Version} {hooks : List (Hook σ κ)} {handlers : Registry (Action σ κ)} {r r' : Response} {p : Phase}
  {w w' w₁ w₂ : Workspace σ κ}

/-- A call of a request is made in one workspace and leaves another one. -/
inductive Makes (v : Version) (hooks : List (Hook σ κ)) (handlers : Registry (Action σ κ)) (w : Workspace σ κ) :
    Phase → Workspace σ κ → Workspace σ κ → Prop
  | before {k : Nat} {h : Hook σ κ} {w₁ : Workspace σ κ} (passes : Passes (hooks.take k) w w₁)
    (hook : hooks[k]? = some h) :
    Makes v hooks handlers w (.before k) w₁ ((h.before w₁.request).run.run w₁).2
  | handler {a : Action σ κ} {w₁ : Workspace σ κ} (reaches : Reaches v hooks handlers w a w₁) :
    Makes v hooks handlers w .handler w₁ ((a.handler w₁.request).run.run w₁).2
  | after {a : Action σ κ} {o : Outcome} {r r' : Response} {k : Nat} {h : Hook σ κ} {w₁ w₂ w₃ : Workspace σ κ}
    (reaches : Reaches v hooks handlers w a w₁) (call : (a.handler w₁.request).run.run w₁ = (.ok o, w₂))
    (means : Outcome.Means a.status o r) (revises : Revises (hooks.reverse.take k) r w₂ r' w₃)
    (hook : hooks.reverse[k]? = some h) :
    Makes v hooks handlers w (.after (hooks.length - 1 - k)) w₃ ((h.after w₃.request r').run.run w₃).2

/-! ## Every call is made in a workspace -/

/-- If all hooks pass, then so do the first of them. -/
theorem Passes.exists_take (h : Passes hooks w w') (k : Nat) : ∃ w₁, Passes (hooks.take k) w w₁ := by
  induction h generalizing k with
  | nil w => exact ⟨w, by rw [List.take_nil]; exact .nil w⟩
  | @cons h hooks w w₁ w' call rest ih =>
    cases k with
    | zero => exact ⟨w, .nil w⟩
    | succ k =>
      obtain ⟨w₂, hrest⟩ := ih k
      exact ⟨w₂, .cons call hrest⟩

theorem Revises.exists_take (h : Revises hooks r w r' w') (k : Nat) : ∃ r₁ w₁, Revises (hooks.take k) r w r₁ w₁ := by
  induction h with
  | nil r w => exact ⟨r, w, by rw [List.take_nil]; exact .nil r w⟩
  | @snoc h hooks r r' r'' w w' w'' result ahead call revised ih =>
    by_cases hk : k ≤ hooks.length
    · rw [List.take_append_of_le_length hk]
      exact ih
    · rw [List.take_of_length_le (by simp; omega)]
      exact ⟨r'', w'', .snoc ahead call revised⟩

/-- The calls ahead of the handler, up to the first hook that does not pass. -/
theorem Makes.of_mem_befores {n m : Nat} (h : Passes (hooks.take n) w w') (hm : m ≤ n + 1) (hlen : m ≤ hooks.length)
    (hp : p ∈ befores m) : ∃ w₁ w₂, Makes v hooks handlers w p w₁ w₂ := by
  obtain ⟨k, hk, rfl⟩ := List.mem_map.1 hp
  have hlt := List.mem_range.1 hk
  obtain ⟨w₁, htake⟩ := h.exists_take k
  rw [List.take_take, Nat.min_eq_left (by omega)] at htake
  exact ⟨w₁, _, .before htake (List.getElem?_eq_getElem (by omega))⟩

/-- The calls after the handler, up to the first that fails. -/
theorem Makes.of_mem_afters {a : Action σ κ} {o : Outcome} {n m : Nat} (reaches : Reaches v hooks handlers w a w₁)
    (call : (a.handler w₁.request).run.run w₁ = (.ok o, w₂)) (means : Outcome.Means a.status o r)
    (h : Revises (hooks.reverse.take n) r w₂ r' w') (hm : m ≤ n + 1) (hp : p ∈ afters hooks.length m) :
    ∃ w₁ w₂, Makes v hooks handlers w p w₁ w₂ := by
  obtain ⟨i, hi, rfl⟩ := List.mem_map.1 hp
  obtain ⟨k, hk⟩ := List.mem_iff_getElem?.1 hi
  rw [List.getElem?_take] at hk
  split at hk
  · rename_i hkm
    obtain ⟨hlt, hi⟩ := List.getElem?_eq_some_iff.1 hk
    rw [List.getElem_reverse, List.getElem_range] at hi
    rw [List.length_reverse, List.length_range] at hlt
    rw [List.length_range] at hi
    obtain ⟨r₁, w₃, htake⟩ := h.exists_take k
    rw [List.take_take, Nat.min_eq_left (by omega)] at htake
    obtain ⟨hook, hhook⟩ : ∃ hook, hooks.reverse[k]? = some hook :=
      ⟨_, List.getElem?_eq_getElem (by rwa [List.length_reverse])⟩
    rw [← hi]
    exact ⟨w₃, _, .after reaches call means htake hhook⟩
  · cases hk

/-- A call that is made is made in some workspace. -/
theorem Course.exists_makes {calls : List Phase} {result : Except ApiError Reply}
    (h : Course v hooks handlers w calls result w') (hp : p ∈ calls) : ∃ w₁ w₂, Makes v hooks handlers w p w₁ w₂ := by
  have hfirst {w' : Workspace σ κ} (passes : Passes hooks w w') (hp : p ∈ befores hooks.length) :
      ∃ w₁ w₂, Makes v hooks handlers w p w₁ w₂ :=
    Makes.of_mem_befores (n := hooks.length) (by rwa [List.take_length]) (Nat.le_succ _) (Nat.le_refl _) hp
  have hmain {a : Action σ κ} {w' : Workspace σ κ} (reaches : Reaches v hooks handlers w a w')
      (hp : p ∈ befores hooks.length ++ [.handler]) : ∃ w₁ w₂, Makes v hooks handlers w p w₁ w₂ := by
    rcases List.mem_append.1 hp with hp | hp
    · exact hfirst reaches.passes hp
    · rw [List.mem_singleton.1 hp]
      exact ⟨_, _, .handler reaches⟩
  cases h with
  | answered passes hook => exact Makes.of_mem_befores passes (Nat.le_refl _) (List.getElem?_eq_some_iff.1 hook).1 hp
  | stopped passes hook => exact Makes.of_mem_befores passes (Nat.le_refl _) (List.getElem?_eq_some_iff.1 hook).1 hp
  | unbound passes => exact hfirst passes hp
  | invalid passes => exact hfirst passes hp
  | failed reaches => exact hmain reaches hp
  | finished reaches => exact hmain reaches hp
  | completed reaches call means revises =>
    rcases List.mem_append.1 hp with hp | hp
    · exact hmain reaches hp
    · rw [← List.take_of_length_le (l := hooks.reverse) (i := hooks.length) (by simp)] at revises
      exact Makes.of_mem_afters reaches call means revises (Nat.le_succ _) hp
  | interrupted reaches call means revises =>
    rcases List.mem_append.1 hp with hp | hp
    · exact hmain reaches hp
    · exact Makes.of_mem_afters reaches call means revises (Nat.le_refl _) hp

/-! ## What the calls leave as it is -/

section Unchanged
variable (f : Workspace σ κ → α)

theorem Passes.unchanged (h : Passes hooks w w')
    (hcalls : ∀ k hook w₁, hooks[k]? = some hook → Passes (hooks.take k) w w₁ →
      f ((hook.before w₁.request).run.run w₁).2 = f w₁) : f w' = f w := by
  induction h with
  | nil => rfl
  | @cons h hooks w w₁ w' call rest ih =>
    have hfirst := hcalls 0 h w rfl (.nil w)
    rw [call] at hfirst
    exact (ih fun k hook w₂ hk hp => hcalls (k + 1) hook w₂ hk (.cons call hp)).trans hfirst

theorem Passes.unchanged_take {n : Nat} (h : Passes (hooks.take n) w w')
    (hcalls : ∀ k hook w₁, k < n → hooks[k]? = some hook → Passes (hooks.take k) w w₁ →
      f ((hook.before w₁.request).run.run w₁).2 = f w₁) : f w' = f w := by
  refine h.unchanged f fun k hook w₁ hk hp => ?_
  obtain ⟨hkn, hk⟩ := Option.ite_none_right_eq_some.1 (List.getElem?_take.symm.trans hk)
  rw [List.take_take, Nat.min_eq_left hkn.le] at hp
  exact hcalls k hook w₁ hkn hk hp

theorem Revises.unchanged (h : Revises hooks r w r' w')
    (hcalls : ∀ k hook r₁ w₁, hooks[k]? = some hook → Revises (hooks.take k) r w r₁ w₁ →
      f ((hook.after w₁.request r₁).run.run w₁).2 = f w₁) : f w' = f w := by
  induction h with
  | nil => rfl
  | @snoc h hooks r r₁ r' w w₁ w' result ahead call revised ih =>
    have hlast := hcalls hooks.length h r₁ w₁ List.getElem?_concat_length (by rwa [List.take_left])
    rw [call] at hlast
    refine hlast.trans (ih fun k hook r₂ w₂ hk hrev => hcalls k hook r₂ w₂ ?_ ?_)
    · rwa [List.getElem?_append_left (List.getElem?_eq_some_iff.1 hk).1]
    · rwa [List.take_append_of_le_length (List.getElem?_eq_some_iff.1 hk).1.le]

theorem Revises.unchanged_take {n : Nat} (h : Revises (hooks.take n) r w r' w')
    (hcalls : ∀ k hook r₁ w₁, k < n → hooks[k]? = some hook → Revises (hooks.take k) r w r₁ w₁ →
      f ((hook.after w₁.request r₁).run.run w₁).2 = f w₁) : f w' = f w := by
  refine h.unchanged f fun k hook r₁ w₁ hk hrev => ?_
  obtain ⟨hkn, hk⟩ := Option.ite_none_right_eq_some.1 (List.getElem?_take.symm.trans hk)
  rw [List.take_take, Nat.min_eq_left hkn.le] at hrev
  exact hcalls k hook r₁ w₁ hkn hk hrev

/-- What no hook changes ahead of the handler is there when the handler is reached. -/
theorem Reaches.unchanged {a : Action σ κ} (h : Reaches v hooks handlers w a w')
    (hcalls : ∀ k w₁ w₂, Makes v hooks handlers w (.before k) w₁ w₂ → f w₂ = f w₁) : f w' = f w :=
  h.passes.unchanged f fun k _ w₁ hk hp => hcalls k w₁ _ (.before hp hk)

/-- What none of the calls ahead of a call changes is there when it is made. -/
theorem Makes.unchanged (h : Makes v hooks handlers w p w₁ w₂)
    (hcalls : ∀ p' w₁' w₂', Makes v hooks handlers w p' w₁' w₂' → p'.Ahead p → f w₂' = f w₁') : f w₁ = f w := by
  cases h with
  | before passes hook =>
    exact passes.unchanged_take f fun j _ _ hjk hj hp => hcalls _ _ _ (.before hp hj) (.before hjk)
  | handler reaches => exact reaches.unchanged f fun k _ _ hm => hcalls _ _ _ hm (.handler k)
  | @after a o r r' k hook w' w'' _ reaches call means revises hk =>
    have hlt := (List.getElem?_eq_some_iff.1 hk).1
    rw [List.length_reverse] at hlt
    have hhandler := hcalls _ _ _ (.handler reaches) (.after _)
    rw [call] at hhandler
    calc f w₁
      _ = f w'' := revises.unchanged_take f fun j _ _ _ hjk hj hrev =>
        hcalls _ _ _ (.after reaches call means hrev hj) (.reverse (by omega))
      _ = f w' := hhandler
      _ = f w := reaches.unchanged f fun j _ _ hm => hcalls _ _ _ hm (.across j _)

/-- What no call changes is there in the end. -/
theorem Course.unchanged {calls : List Phase} {result : Except ApiError Reply}
    (h : Course v hooks handlers w calls result w')
    (hcalls : ∀ p w₁ w₂, Makes v hooks handlers w p w₁ w₂ → f w₂ = f w₁) : f w' = f w := by
  have hfirst {k : Nat} {hook : Hook σ κ} {result : Except ApiError (Option Response)} {w₁ w₂ : Workspace σ κ}
      (passes : Passes (hooks.take k) w w₁) (hk : hooks[k]? = some hook)
      (call : (hook.before w₁.request).run.run w₁ = (result, w₂)) : f w₂ = f w := by
    have hcall := hcalls _ _ _ (.before passes hk)
    rw [call] at hcall
    exact hcall.trans (passes.unchanged_take f fun _ _ _ _ hj hp => hcalls _ _ _ (.before hp hj))
  have hpassed {w₁ : Workspace σ κ} (passes : Passes hooks w w₁) : f w₁ = f w :=
    passes.unchanged f fun _ _ _ hj hp => hcalls _ _ _ (.before hp hj)
  have hmain {a : Action σ κ} {result : Except ApiError Outcome} {w₁ w₂ : Workspace σ κ}
      (reaches : Reaches v hooks handlers w a w₁) (call : (a.handler w₁.request).run.run w₁ = (result, w₂)) :
      f w₂ = f w := by
    have hcall := hcalls _ _ _ (.handler reaches)
    rw [call] at hcall
    exact hcall.trans (hpassed reaches.passes)
  cases h with
  | answered passes hook call => exact hfirst passes hook call
  | stopped passes hook call => exact hfirst passes hook call
  | unbound passes => exact hpassed passes
  | invalid passes => exact hpassed passes
  | failed reaches call => exact hmain reaches call
  | finished reaches call => exact hmain reaches call
  | completed reaches call means revises =>
    refine (revises.unchanged f fun k _ _ _ hk hrev => ?_).trans (hmain reaches call)
    exact hcalls _ _ _ (.after reaches call means hrev hk)
  | interrupted reaches call means revises hook last =>
    have hlast := hcalls _ _ _ (.after reaches call means revises hook)
    rw [last] at hlast
    refine hlast.trans ((revises.unchanged_take f fun k _ _ _ _ hk hrev => ?_).trans (hmain reaches call))
    exact hcalls _ _ _ (.after reaches call means hrev hk)

end Unchanged

/-! ## Admitted requests -/

section Admitted
variable {d : Dispatcher σ κ} {req : Request}

/-- A call that is made for an admitted request. -/
def Admitted.Makes (a : Admitted d req) (world : σ) : Phase → Workspace σ κ → Workspace σ κ → Prop :=
  Dispatcher.Makes a.ctx.effectiveVersion (hooksIn a.entry (a.ctx.start world)) a.handlers (a.ctx.start world)

/-- Its calls follow one of the courses. -/
theorem Admitted.course (a : Admitted d req) (world : σ) :
    Course a.ctx.effectiveVersion (hooksIn a.entry (a.ctx.start world)) a.handlers (a.ctx.start world)
      (d.serve req world).calls (a.run world).result (a.run world).workspace := by
  rw [a.serve_eq]
  exact perform_course a.entry a.handlers (a.ctx.start world)

end Admitted

end Dispatcher

end Standby
