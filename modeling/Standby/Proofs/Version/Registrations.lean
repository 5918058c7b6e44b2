import Mathlib.Data.List.Induction
import Mathlib.Data.List.Pairwise
import Standby.Proofs.Engine.Origin
import Standby.Proofs.Version.Overlap
/-!
# Registering under names

A sequence of registrations is made one after the other, and those that are refused are left out. One is accepted exactly
if its range is not inverted and shares no version with one accepted before under its name. In the end a name and a
version select at most one of those accepted, and a registry in which all are accepted is the same in any order.
-/

namespace Standby

variable {α : Type}

/-- What is asked of a registry: to bind something to a name for a range of versions. -/
structure Registration (α : Type) where
  name : String
  range : VersionRange
  target : α

namespace Registration

def binding (c : Registration α) : Binding α := ⟨c.range, c.target⟩

/-- Two registrations of one name share no version. -/
def Agrees (a b : Registration α) : Prop := a.name = b.name → a.range.Apart b.range

theorem Agrees.symm {a b : Registration α} (h : a.Agrees b) : b.Agrees a := fun hn => (h hn.symm).symm

/-- The range of a registration is not inverted and shares no version with those accepted under its name. -/
def Fits (c : Registration α) (accepted : List (Registration α)) : Prop :=
  c.range.isInverted = false ∧ ∀ a ∈ accepted, a.Agrees c

/-- Whether a registration binds a name at a version. -/
def covers (c : Registration α) (name : String) (v : Version) : Bool := c.name == name && c.range.contains v

end Registration

namespace Registry

/-- Makes a registration, and notes it if it is accepted. -/
def attempt (s : Registry α × List (Registration α)) (c : Registration α) : Registry α × List (Registration α) :=
  match s.1.register c.name c.range c.target with
  | .ok r => (r, s.2 ++ [c])
  | .error _ => s

/-- A registry after registrations, and those that were accepted. -/
def attempts (calls : List (Registration α)) : Registry α × List (Registration α) := calls.foldl attempt (.empty, [])

/-- A registry keeps what has been accepted. -/
structure Keeps (r : Registry α) (accepted : List (Registration α)) : Prop where
  listed : ∀ name, (r.bindings name).Perm ((accepted.filter (·.name == name)).map (·.binding))
  ordered : ∀ name, (r.bindings name).Pairwise fun a b => isBefore a b = true
  proper : ∀ c ∈ accepted, c.range.isInverted = false
  apart : accepted.Pairwise Registration.Agrees

theorem keeps_empty : (empty : Registry α).Keeps [] where
  listed _ := .refl _
  ordered _ := .nil
  proper _ h := nomatch h
  apart := .nil

section Keeping
variable {r r' : Registry α} {accepted : List (Registration α)} {name : String} {v : Version}

theorem Keeps.mem_bindings (h : r.Keeps accepted) {b : Binding α} :
    b ∈ r.bindings name ↔ ∃ c ∈ accepted, c.name = name ∧ c.binding = b := by
  rw [(h.listed name).mem_iff, List.mem_map]
  simp only [List.mem_filter, beq_iff_eq, and_assoc]

theorem Keeps.isInverted (h : r.Keeps accepted) {b : Binding α} (hb : b ∈ r.bindings name) :
    b.range.isInverted = false := by
  obtain ⟨c, hc, -, rfl⟩ := h.mem_bindings.1 hb
  exact h.proper c hc

theorem Keeps.pairwise_bindings (h : r.Keeps accepted) (name : String) :
    (r.bindings name).Pairwise fun a b => a.range.Apart b.range := by
  rw [(h.listed name).pairwise_iff fun h => h.symm, List.pairwise_map]
  refine (h.apart.sublist List.filter_sublist).imp_of_mem fun {a b} ha hb hab => hab ?_
  have hna := (List.mem_filter.1 ha).2
  have hnb := (List.mem_filter.1 hb).2
  rw [beq_iff_eq] at hna hnb
  exact hna.trans hnb.symm

/-- Whether a registration is refused is the outcome of the walk along the bounds of its name. -/
theorem Keeps.overlap_iff (h : r.Keeps accepted) {c : Registration α} (hc : c.range.isInverted = false) :
    VersionRange.overlap ((r.bindings c.name).map (·.range) ++ [c.range]) = true ↔ ¬∀ a ∈ accepted, a.Agrees c := by
  have hranges : ∀ s ∈ (r.bindings c.name).map (·.range), s.isInverted = false := by
    intro s hs
    obtain ⟨b, hb, rfl⟩ := List.mem_map.1 hs
    exact h.isInverted hb
  rw [VersionRange.overlap_concat_iff hranges hc (List.pairwise_map.2 (h.pairwise_bindings c.name))]
  simp only [List.mem_map, h.mem_bindings, Registration.Agrees, Classical.not_forall]
  constructor
  · rintro ⟨_, ⟨_, ⟨a, ha, hn, rfl⟩, rfl⟩, hshared⟩
    exact ⟨a, ha, hn, hshared⟩
  · rintro ⟨a, ha, hn, hshared⟩
    exact ⟨a.range, ⟨a.binding, ⟨a, ha, hn, rfl⟩, rfl⟩, hshared⟩

theorem Keeps.register_iff (h : r.Keeps accepted) (c : Registration α) :
    (∃ r', r.register c.name c.range c.target = .ok r') ↔ c.Fits accepted := by
  unfold register Registration.Fits
  cases hi : c.range.isInverted with
  | true =>
    -- An inverted range has both bounds, which the error names.
    obtain ⟨lo, hi', hmin, hmax⟩ : ∃ lo hi, c.range.min = some lo ∧ c.range.max = some hi := by
      unfold VersionRange.isInverted at hi
      split at hi
      · rename_i lo hi' hmin hmax
        exact ⟨lo, hi', hmin, hmax⟩
      · cases hi
    simp [hmin, hmax]
  | false =>
    have hoverlap := h.overlap_iff hi
    simp only [true_and]
    split
    · rename_i hfit
      rw [hoverlap] at hfit
      exact iff_of_false (by rintro ⟨_, ⟨⟩⟩) hfit
    · rename_i hfit
      rw [hoverlap, Classical.not_not] at hfit
      exact iff_of_true ⟨_, rfl⟩ hfit

theorem isBefore_iff {a b : Binding α} : isBefore a b = true ↔ b.range.lower.rank ≤ a.range.lower.rank :=
  Version.le_iff_rank

theorem pairwise_mergeSort_isBefore (l : List (Binding α)) :
    (l.mergeSort isBefore).Pairwise fun a b => isBefore a b = true := by
  refine List.pairwise_mergeSort (fun a b c hab hbc => ?_) (fun a b => ?_) l
  · rw [isBefore_iff] at hab hbc ⊢
    omega
  · rw [Bool.or_eq_true, isBefore_iff, isBefore_iff]
    omega

/-- No two bindings of a name have the same lower bound: they would share it. -/
theorem Keeps.descending (h : r.Keeps accepted) (name : String) :
    (r.bindings name).Pairwise fun a b => ¬a.range.lower.le b.range.lower = true := by
  refine ((h.ordered name).and (h.pairwise_bindings name)).imp_of_mem fun {a b} ha hb hab hle => ?_
  obtain ⟨hbefore, hapart⟩ := hab
  have heq : a.range.lower = b.range.lower :=
    Version.rank_inj.1 (Nat.le_antisymm (Version.le_iff_rank.1 hle) (isBefore_iff.1 hbefore))
  refine hapart a.range.lower ⟨VersionRange.contains_lower (h.isInverted ha), ?_⟩
  rw [heq]
  exact VersionRange.contains_lower (h.isInverted hb)

theorem bindings_register {c : Registration α} (hr : r.register c.name c.range c.target = .ok r') (name : String) :
    r'.bindings name =
      if c.name = name then (r.bindings name ++ [c.binding]).mergeSort isBefore else r.bindings name := by
  rw [register_eq_ok hr, bindings, lookup?_insertKey]
  split
  · rename_i hn
    rw [← hn]
    rfl
  · rfl

/-- A registration that is accepted is kept with the others. -/
theorem Keeps.register (h : r.Keeps accepted) {c : Registration α} (hc : c.Fits accepted)
    (hr : r.register c.name c.range c.target = .ok r') : r'.Keeps (accepted ++ [c]) where
  listed name := by
    rw [bindings_register hr, List.filter_append, List.map_append]
    split
    · rename_i hn
      have hsingle : ([c].filter (·.name == name)).map (·.binding) = [c.binding] := by simp [hn]
      rw [hsingle]
      exact (List.mergeSort_perm _ _).trans ((h.listed name).append_right _)
    · rename_i hn
      have hnone : ([c].filter (·.name == name)).map (·.binding) = [] := by simp [hn]
      rw [hnone, List.append_nil]
      exact h.listed name
  ordered name := by
    rw [bindings_register hr]
    split
    · exact pairwise_mergeSort_isBefore _
    · exact h.ordered name
  proper a ha := by
    rcases List.mem_append.1 ha with ha | ha
    · exact h.proper a ha
    · rw [List.mem_singleton.1 ha]
      exact hc.1
  apart := by
    refine List.pairwise_append.2 ⟨h.apart, List.pairwise_singleton _ _, fun a ha b hb => ?_⟩
    rw [List.mem_singleton.1 hb]
    exact hc.2 a ha

/-- A list of registrations that is accepted in full is kept in full. -/
theorem Keeps.of_foldlM {l : List (String × VersionRange × α)} {accepted : List (Registration α)} {r r' : Registry α}
    (h : l.foldlM (fun r (name, range, target) => r.register name range target) r = .ok r') (hr : r.Keeps accepted) :
    r'.Keeps (accepted ++ l.map fun c => ⟨c.1, c.2.1, c.2.2⟩) := by
  induction l generalizing r accepted with
  | nil =>
    cases h
    rwa [List.map_nil, List.append_nil]
  | cons c l ih =>
    obtain ⟨name, range, target⟩ := c
    rw [List.foldlM_cons] at h
    obtain ⟨r₁, h₁, h⟩ := bind_eq_ok.1 h
    rw [List.map_cons, List.append_cons]
    exact ih h (hr.register ((hr.register_iff ⟨name, range, target⟩).1 ⟨r₁, h₁⟩) h₁)

/-! ## What a name stands for -/

/-- Of the registrations that are accepted, at most one covers a name at a version. -/
theorem Keeps.countP_covers (h : r.Keeps accepted) (name : String) (v : Version) :
    accepted.countP (·.covers name v) ≤ 1 := by
  refine VersionRange.countP_le_one (h.apart.imp fun {a b} hab hcovers => ?_)
  simp only [Registration.covers, Bool.and_eq_true, beq_iff_eq] at hcovers
  obtain ⟨⟨hna, hva⟩, hnb, hvb⟩ := hcovers
  exact hab (hna.trans hnb.symm) v ⟨hva, hvb⟩

/-- A name stands for the target of the registration that covers it at the version. -/
theorem Keeps.resolve_eq_some_iff (h : r.Keeps accepted) {t : α} :
    r.resolve name v = some t ↔ ∃ c ∈ accepted, c.covers name v = true ∧ c.target = t := by
  rw [resolve, Option.map_eq_some_iff]
  simp only [Registration.covers, Bool.and_eq_true, beq_iff_eq]
  constructor
  · rintro ⟨b, hb, rfl⟩
    have hv := List.find?_some hb
    obtain ⟨c, hc, hn, rfl⟩ := h.mem_bindings.1 (List.mem_of_find?_eq_some hb)
    exact ⟨c, hc, ⟨hn, hv⟩, rfl⟩
  · rintro ⟨c, hc, ⟨hn, hv⟩, rfl⟩
    cases hf : (r.bindings name).find? (·.range.contains v) with
    | none => exact absurd hv (List.find?_eq_none.1 hf c.binding (h.mem_bindings.2 ⟨c, hc, hn, rfl⟩))
    | some b =>
      have hv' := List.find?_some hf
      obtain ⟨c', hc', hn', rfl⟩ := h.mem_bindings.1 (List.mem_of_find?_eq_some hf)
      -- The two bindings are the same one: else they would share the version.
      have hsame : c.binding = c'.binding := by
        by_contra hne
        have : Std.Symm fun a b : Binding α => a.range.Apart b.range := ⟨fun _ _ h => h.symm⟩
        exact (h.pairwise_bindings name).forall (h.mem_bindings.2 ⟨c, hc, hn, rfl⟩)
          (h.mem_bindings.2 ⟨c', hc', hn', rfl⟩) hne v ⟨hv, hv'⟩
      exact ⟨c'.binding, rfl, congrArg Binding.target hsame.symm⟩

theorem Keeps.resolve_eq (h : r.Keeps accepted) (name : String) (v : Version) :
    r.resolve name v = (accepted.find? (·.covers name v)).map (·.target) := by
  cases hf : accepted.find? (·.covers name v) with
  | none =>
    refine Option.eq_none_iff_forall_ne_some.2 fun t ht => ?_
    obtain ⟨c, hc, hcovers, -⟩ := h.resolve_eq_some_iff.1 ht
    exact List.find?_eq_none.1 hf c hc hcovers
  | some c =>
    have hcovers := List.find?_some (p := fun c : Registration α => c.covers name v) hf
    exact h.resolve_eq_some_iff.2 ⟨c, List.mem_of_find?_eq_some hf, hcovers, rfl⟩

end Keeping

/-! ## Sequences of registrations -/

section Sequences
variable {calls calls' : List (Registration α)}

theorem attempts_concat (calls : List (Registration α)) (c : Registration α) :
    attempts (calls ++ [c]) = attempt (attempts calls) c := by
  simp [attempts]

theorem attempt_of_fits {s : Registry α × List (Registration α)} (h : s.1.Keeps s.2) {c : Registration α}
    (hc : c.Fits s.2) : (attempt s c).1.Keeps (attempt s c).2 ∧ (attempt s c).2 = s.2 ++ [c] := by
  obtain ⟨r, hr⟩ := (h.register_iff c).2 hc
  simp only [attempt, hr]
  exact ⟨h.register hc hr, trivial⟩

theorem attempt_of_not_fits {s : Registry α × List (Registration α)} (h : s.1.Keeps s.2) {c : Registration α}
    (hc : ¬c.Fits s.2) : attempt s c = s := by
  unfold attempt
  split
  · rename_i r hr
    exact absurd ((h.register_iff c).1 ⟨r, hr⟩) hc
  · rfl

/-- A registry keeps what it has accepted, registration by registration. -/
theorem keeps_attempts (calls : List (Registration α)) : (attempts calls).1.Keeps (attempts calls).2 := by
  induction calls using List.reverseRecOn with
  | nil => exact keeps_empty
  | append_singleton calls c ih =>
    rw [attempts_concat]
    by_cases hc : c.Fits (attempts calls).2
    · exact (attempt_of_fits ih hc).1
    · rw [attempt_of_not_fits ih hc]
      exact ih

/-- All of the registrations are accepted exactly if none is inverted and any two agree, in whatever order they come. -/
theorem attempts_eq_all_iff (calls : List (Registration α)) :
    (attempts calls).2 = calls ↔
      (∀ c ∈ calls, c.range.isInverted = false) ∧ calls.Pairwise Registration.Agrees := by
  constructor
  · intro h
    have hkeeps := keeps_attempts calls
    rw [h] at hkeeps
    exact ⟨hkeeps.proper, hkeeps.apart⟩
  · rintro ⟨hproper, hapart⟩
    induction calls using List.reverseRecOn with
    | nil => rfl
    | append_singleton calls c ih =>
      obtain ⟨hcalls, -, hc⟩ := List.pairwise_append.1 hapart
      have hih := ih (fun a ha => hproper a (List.mem_append_left _ ha)) hcalls
      have hfits : c.Fits (attempts calls).2 := by
        refine ⟨hproper c (List.mem_append_right _ List.mem_cons_self), fun a ha => ?_⟩
        rw [hih] at ha
        exact hc a ha c List.mem_cons_self
      rw [attempts_concat, (attempt_of_fits (keeps_attempts calls) hfits).2, hih]

/-- In another order as many are accepted, and every name stands for the same. -/
theorem attempts_perm (hperm : calls'.Perm calls) (hall : (attempts calls).2 = calls) :
    (attempts calls').2 = calls' ∧ ∀ name v, (attempts calls').1.resolve name v = (attempts calls).1.resolve name v := by
  obtain ⟨hproper, hapart⟩ := (attempts_eq_all_iff calls).1 hall
  have hall' : (attempts calls').2 = calls' :=
    (attempts_eq_all_iff calls').2
      ⟨fun c hc => hproper c (hperm.mem_iff.1 hc), (hperm.pairwise_iff fun h => h.symm).2 hapart⟩
  refine ⟨hall', fun name v => Option.ext fun t => ?_⟩
  rw [(keeps_attempts calls').resolve_eq_some_iff, (keeps_attempts calls).resolve_eq_some_iff, hall, hall']
  simp only [hperm.mem_iff]

/-- **Registrations.** After any sequence of registrations, the next one is accepted exactly if its range is not
inverted and shares no version with those accepted under its name, and else changes nothing. At most one of those
accepted covers a name at a version, and the name then stands for its target. The bindings of a name are those accepted,
the highest lower bound first. The order of the registrations decides neither whether all of them are accepted nor, if
they are, what a name stands for. -/
theorem attempts_disjoint (calls : List (Registration α)) :
    (∀ c : Registration α,
      ((∃ r, (attempts calls).1.register c.name c.range c.target = .ok r) ↔ c.Fits (attempts calls).2) ∧
      attempts (calls ++ [c]) =
        match (attempts calls).1.register c.name c.range c.target with
        | .ok r => (r, (attempts calls).2 ++ [c])
        | .error _ => attempts calls) ∧
    (∀ name v, (attempts calls).2.countP (·.covers name v) ≤ 1 ∧
      (attempts calls).1.resolve name v = ((attempts calls).2.find? (·.covers name v)).map (·.target)) ∧
    (∀ name, ((attempts calls).1.bindings name).Perm
        (((attempts calls).2.filter (·.name == name)).map (·.binding)) ∧
      ((attempts calls).1.bindings name).Pairwise fun a b => ¬a.range.lower.le b.range.lower = true) ∧
    (∀ calls', calls'.Perm calls → ((attempts calls').2 = calls' ↔ (attempts calls).2 = calls) ∧
      ((attempts calls).2 = calls →
        ∀ name v, (attempts calls').1.resolve name v = (attempts calls).1.resolve name v)) := by
  have hkeeps := keeps_attempts calls
  refine ⟨fun c => ⟨hkeeps.register_iff c, attempts_concat calls c⟩,
    fun name v => ⟨hkeeps.countP_covers name v, hkeeps.resolve_eq name v⟩,
    fun name => ⟨hkeeps.listed name, hkeeps.descending name⟩, fun calls' hperm => ⟨⟨fun h => ?_, fun h => ?_⟩, ?_⟩⟩
  · exact (attempts_perm hperm.symm h).1
  · exact (attempts_perm hperm h).1
  · exact fun h => (attempts_perm hperm h).2

/-- Ranges that touch are refused, and the next one that does not is accepted. -/
example : (attempts [⟨"show", .between ⟨1, 0⟩ ⟨1, 2⟩, 0⟩, ⟨"show", .since ⟨1, 2⟩, 1⟩, ⟨"show", .since ⟨1, 3⟩, 2⟩]).2.map
    (·.target) = [0, 2] := by
  cbv

end Sequences

end Registry

end Standby
