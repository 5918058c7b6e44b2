import Standby.Engine.Action
import Standby.Proofs.Basic
/-!
# What steps do to the world

A step reads if it leaves the world as it is, whether it succeeds or fails; it is atomic if it leaves the world as
it is when it fails. A step that reads first and then does something atomic is atomic. A step is blind if neither
its result nor anything else about it depends on the workspace. A step answers if what it fails with is among certain
errors and its outcomes leave the status of the reply to its action.
-/

namespace Standby

variable {σ κ α β : Type}

/-! ## Running a step -/

/-- A step made of two succeeds exactly if the first one does and then the second one. -/
theorem run_bind_eq_ok {x : Step σ κ α} {f : α → Step σ κ β} {w w' : Workspace σ κ} {b : β} :
    (x >>= f).run.run w = (.ok b, w') ↔
      ∃ a w₁, x.run.run w = (.ok a, w₁) ∧ (f a).run.run w₁ = (.ok b, w') := by
  rw [run_bind]
  rcases x.run.run w with ⟨r, w₁⟩
  cases r with
  | error e =>
    constructor
    · intro h
      cases h
    · rintro ⟨a, w₂, h, -⟩
      cases h
  | ok a =>
    refine ⟨fun h => ⟨a, w₁, rfl, h⟩, ?_⟩
    rintro ⟨a, w₂, h, hf⟩
    cases h
    exact hf

/-- A step made of two fails if the first one does, or if the second one does after it. -/
theorem run_bind_eq_error {x : Step σ κ α} {f : α → Step σ κ β} {w w' : Workspace σ κ} {e : ApiError} :
    (x >>= f).run.run w = (.error e, w') ↔
      x.run.run w = (.error e, w') ∨
        ∃ a w₁, x.run.run w = (.ok a, w₁) ∧ (f a).run.run w₁ = (.error e, w') := by
  rw [run_bind]
  rcases x.run.run w with ⟨r, w₁⟩
  cases r with
  | error e' =>
    refine ⟨fun h => .inl (by cases h; rfl), ?_⟩
    rintro (h | ⟨a, w₂, h, -⟩)
    · cases h
      rfl
    · cases h
  | ok a =>
    refine ⟨fun h => .inr ⟨a, w₁, rfl, h⟩, ?_⟩
    rintro (h | ⟨a, w₂, h, hf⟩)
    · cases h
    · cases h
      exact hf

/-! ## Steps that read -/

/-- A step that leaves the world as it is. -/
def Reads (m : Step σ κ α) : Prop := ∀ w, (m.run.run w).2.world = w.world

theorem reads_pure (a : α) : Reads (pure a : Step σ κ α) := fun _ => rfl

theorem reads_throw (e : ApiError) : Reads (throw e : Step σ κ α) := fun _ => rfl

theorem reads_get : Reads (get : Step σ κ (Workspace σ κ)) := fun _ => rfl

theorem Reads.bind {x : Step σ κ α} {f : α → Step σ κ β} (hx : Reads x) (hf : ∀ a, Reads (f a)) :
    Reads (x >>= f) := by
  intro w
  have hw := hx w
  rw [run_bind]
  generalize x.run.run w = p at hw ⊢
  rcases p with ⟨r, w₁⟩
  cases r with
  | error e => exact hw
  | ok a => exact (hf a w₁).trans hw

theorem Reads.ite {c : Prop} [Decidable c] {x y : Step σ κ α} (hx : Reads x) (hy : Reads y) :
    Reads (if c then x else y) := by
  split
  · exact hx
  · exact hy

/-! ## Steps that are atomic -/

/-- A step that leaves the world as it is when it fails. -/
def Atomic (m : Step σ κ α) : Prop := ∀ w e w', m.run.run w = (.error e, w') → w'.world = w.world

theorem Reads.atomic {m : Step σ κ α} (h : Reads m) : Atomic m := by
  intro w e w' hm
  have hw := h w
  rw [hm] at hw
  exact hw

theorem Atomic.bind {x : Step σ κ α} {f : α → Step σ κ β} (hx : Reads x) (hf : ∀ a, Atomic (f a)) :
    Atomic (x >>= f) := by
  intro w e w' h
  rcases run_bind_eq_error.1 h with h | ⟨a, w₁, h, hfa⟩
  · exact hx.atomic w e w' h
  · have hw := hx w
    rw [h] at hw
    exact (hf a w₁ e w' hfa).trans hw

/-- An outcome that leaves the status of the reply to its action. -/
def Outcome.IsPlain (o : Outcome) : Prop := o = .empty ∨ ∃ j, o = .value j

theorem Outcome.isPlain_empty : Outcome.empty.IsPlain := .inl rfl

theorem Outcome.isPlain_value (j : Json) : (Outcome.value j).IsPlain := .inr ⟨j, rfl⟩

/-- The body of a plain outcome. -/
def Outcome.json? : Outcome → Option Json
  | .value j => some j
  | _ => none

/-- An atomic step with plain outcomes, which changes the world as it should when it succeeds. -/
structure Transacts (change : σ → σ → Prop) (m : Step σ κ Outcome) : Prop where
  atomic : Atomic m
  plain : ∀ w o w', m.run.run w = (.ok o, w') → o.IsPlain
  changes : ∀ w o w', m.run.run w = (.ok o, w') → change w.world w'.world

/-- A step transacts if all that it does, in every workspace, is to fail or to make a change. -/
theorem Transacts.of_cases {change : σ → σ → Prop} {m : Step σ κ Outcome}
    (hm : ∀ w, (∃ e, m.run.run w = (.error e, w)) ∨
      ∃ o w', o.IsPlain ∧ change w.world w'.world ∧ m.run.run w = (.ok o, w')) : Transacts change m where
  atomic w e w' h := by
    rcases hm w with ⟨e', hrun⟩ | ⟨o, w₁, -, -, hrun⟩
    · rw [hrun] at h
      cases h
      rfl
    · rw [hrun] at h
      cases h
  plain w o w' h := by
    rcases hm w with ⟨e, hrun⟩ | ⟨o', w₁, ho, -, hrun⟩
    · rw [hrun] at h
      cases h
    · rw [hrun] at h
      cases h
      exact ho
  changes w o w' h := by
    rcases hm w with ⟨e, hrun⟩ | ⟨o', w₁, -, hc, hrun⟩
    · rw [hrun] at h
      cases h
    · rw [hrun] at h
      cases h
      exact hc

theorem Transacts.bind {change : σ → σ → Prop} {x : Step σ κ α} {f : α → Step σ κ Outcome} (hx : Reads x)
    (hf : ∀ a, Transacts change (f a)) : Transacts change (x >>= f) where
  atomic := Atomic.bind hx fun a => (hf a).atomic
  plain w o w' h := by
    obtain ⟨a, w₁, -, hfa⟩ := run_bind_eq_ok.1 h
    exact (hf a).plain w₁ o w' hfa
  changes w o w' h := by
    obtain ⟨a, w₁, hxa, hfa⟩ := run_bind_eq_ok.1 h
    have hw := hx w
    rw [hxa] at hw
    exact hw ▸ (hf a).changes w₁ o w' hfa

/-! ## Steps that are blind -/

/-- A step that does the same in every workspace and leaves it as it is. -/
def Blind (m : Step σ κ α) : Prop := ∃ r, ∀ w, m.run.run w = (r, w)

theorem blind_pure (a : α) : Blind (pure a : Step σ κ α) := ⟨.ok a, fun _ => rfl⟩

theorem blind_throw (e : ApiError) : Blind (throw e : Step σ κ α) := ⟨.error e, fun _ => rfl⟩

theorem Blind.bind {x : Step σ κ α} {f : α → Step σ κ β} (hx : Blind x) (hf : ∀ a, Blind (f a)) :
    Blind (x >>= f) := by
  obtain ⟨r, hr⟩ := hx
  cases r with
  | error e => exact ⟨.error e, fun w => by rw [run_bind, hr]⟩
  | ok a =>
    obtain ⟨r, hfa⟩ := hf a
    exact ⟨r, fun w => by rw [run_bind, hr]; exact hfa w⟩

/-- A step that begins with a failure is blind, whatever would follow. -/
theorem blind_bind_of_error {x : Step σ κ α} {e : ApiError} (hx : ∀ w, x.run.run w = (.error e, w))
    (f : α → Step σ κ β) : Blind (x >>= f) :=
  ⟨.error e, fun w => by rw [run_bind, hx]⟩

/-! ## What steps fail with -/

theorem ErrorCode.status_ne_success (c : ErrorCode) : c.status ≠ 200 := by cases c <;> decide

section Results
variable {ε : Type} {P : ε → Prop}

/-- A result that is no failure, or one with certain errors. -/
def FailsWith (P : ε → Prop) (r : Except ε α) : Prop := ∀ e, r = .error e → P e

theorem failsWith_ok (a : α) : FailsWith P (.ok a) := fun _ h => by cases h

theorem failsWith_error {e : ε} (h : P e) : FailsWith P (.error e : Except ε α) := by
  intro e' he
  cases he
  exact h

theorem FailsWith.bind {x : Except ε α} {f : α → Except ε β} (hx : FailsWith P x) (hf : ∀ a, FailsWith P (f a)) :
    FailsWith P (x >>= f) := by
  cases x with
  | error e => exact failsWith_error (hx e rfl)
  | ok a => exact hf a

theorem FailsWith.map {x : Except ε α} (f : α → β) (hx : FailsWith P x) : FailsWith P (x.map f) := by
  cases x with
  | error e => exact failsWith_error (hx e rfl)
  | ok a => exact failsWith_ok (f a)

theorem FailsWith.mapError {ε' : Type} {x : Except ε' α} (f : ε' → ε) (hx : FailsWith (fun e => P (f e)) x) :
    FailsWith P (x.mapError f) := by
  cases x with
  | error e => exact failsWith_error (hx e rfl)
  | ok a => exact failsWith_ok a

theorem FailsWith.ite {c : Prop} [Decidable c] {x y : Except ε α} (hx : FailsWith P x) (hy : FailsWith P y) :
    FailsWith P (if c then x else y) := by
  split
  · exact hx
  · exact hy

end Results

variable {P : ApiError → Prop}

/-- A step that fails only with certain errors. -/
def StopsWith (P : ApiError → Prop) (m : Step σ κ α) : Prop := ∀ w, FailsWith P (m.run.run w).1

theorem stopsWith_pure (a : α) : StopsWith P (pure a : Step σ κ α) := fun _ => failsWith_ok a

theorem stopsWith_throw {e : ApiError} (h : P e) : StopsWith P (throw e : Step σ κ α) := fun _ => failsWith_error h

theorem StopsWith.bind {x : Step σ κ α} {f : α → Step σ κ β} (hx : StopsWith P x) (hf : ∀ a, StopsWith P (f a)) :
    StopsWith P (x >>= f) := by
  intro w
  have hw := hx w
  rw [run_bind]
  generalize x.run.run w = p at hw ⊢
  rcases p with ⟨r, w₁⟩
  cases r with
  | error e => exact failsWith_error (hw e rfl)
  | ok a => exact hf a w₁

/-- A step that fails only with certain errors, and whose outcomes are plain. -/
structure Answers (P : ApiError → Prop) (m : Step σ κ Outcome) : Prop where
  stops : StopsWith P m
  plain : ∀ w o, (m.run.run w).1 = .ok o → o.IsPlain

theorem Answers.mono {Q : ApiError → Prop} {m : Step σ κ Outcome} (h : Answers P m) (hq : ∀ e, P e → Q e) :
    Answers Q m where
  stops w e he := hq e (h.stops w e he)
  plain := h.plain

theorem answers_pure {o : Outcome} (h : o.IsPlain) : Answers P (pure o : Step σ κ Outcome) where
  stops := stopsWith_pure o
  plain w o' ho := by
    cases ho
    exact h

theorem answers_throw {e : ApiError} (h : P e) : Answers P (throw e : Step σ κ Outcome) where
  stops := stopsWith_throw h
  plain w o ho := by cases ho

theorem Answers.bind {x : Step σ κ α} {f : α → Step σ κ Outcome} (hx : StopsWith P x) (hf : ∀ a, Answers P (f a)) :
    Answers P (x >>= f) where
  stops := hx.bind fun a => (hf a).stops
  plain w o ho := by
    rw [run_bind] at ho
    generalize x.run.run w = p at ho
    rcases p with ⟨r, w₁⟩
    cases r with
    | error e => cases ho
    | ok a => exact (hf a).plain w₁ o ho

end Standby
