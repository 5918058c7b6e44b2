import Standby.Proofs.Version.Registrations
/-!
# Which registration is refused

A list of registrations is made in full exactly if it is proper: no range in it is inverted, and no two of one name share
a version. Any other list comes to the error of the first registration that does not go with those before it.
-/

namespace Standby

variable {α : Type}

/-- Registrations of which none is inverted and no two of one name share a version. -/
structure Registration.Proper (calls : List (Registration α)) : Prop where
  upright : ∀ c ∈ calls, c.range.isInverted = false
  apart : calls.Pairwise Registration.Agrees

/-- A registration is refused after others that have been accepted: its range is inverted, or shares a version with that of
one of them under the same name. -/
inductive Registration.Refused (accepted : List (Registration α)) (c : Registration α) : RegistryError → Prop
  | inverted {min max : Version} (hmin : c.range.min = some min) (hmax : c.range.max = some max)
      (h : min.le max = false) : Refused accepted c (.inverted c.name min max)
  | overlapping {a : Registration α} {v : Version} (h : c.range.isInverted = false) (ha : a ∈ accepted)
      (hname : a.name = c.name) (hav : a.range.contains v = true) (hcv : c.range.contains v = true) :
      Refused accepted c (.overlapping c.name)

/-- The first registration of a list that is refused, and why. -/
def Registration.RefusedIn (calls : List (Registration α)) (err : RegistryError) : Prop :=
  ∃ before c after, calls = before ++ c :: after ∧ Proper before ∧ Refused before c err

namespace Registry

/-- Makes registrations one after the other, until one is refused. -/
def ofList (calls : List (Registration α)) : Except RegistryError (Registry α) :=
  calls.foldlM (fun r c => r.register c.name c.range c.target) .empty

section Lists
variable {r : Registry α} {accepted calls : List (Registration α)} {c : Registration α} {err : RegistryError}

/-- An inverted range has both bounds. -/
theorem exists_of_isInverted {range : VersionRange} (h : range.isInverted = true) :
    ∃ min max, range.min = some min ∧ range.max = some max ∧ min.le max = false := by
  unfold VersionRange.isInverted at h
  split at h
  · rename_i min max hmin hmax
    exact ⟨min, max, hmin, hmax, by simpa using h⟩
  · cases h

/-- A registry refuses what does not go with what it keeps. -/
theorem Keeps.register_eq_error_iff (h : r.Keeps accepted) :
    r.register c.name c.range c.target = .error err ↔ c.Refused accepted err := by
  unfold Registry.register
  cases hi : c.range.isInverted with
  | true =>
    obtain ⟨min, max, hmin, hmax, hle⟩ := exists_of_isInverted hi
    simp only [hmin, hmax]
    constructor
    · rintro ⟨⟩
      exact .inverted hmin hmax hle
    · intro hrefused
      cases hrefused with
      | inverted hmin' hmax' _ =>
        cases hmin.symm.trans hmin'
        cases hmax.symm.trans hmax'
        rfl
      | overlapping hi' => exact absurd (hi.symm.trans hi') (by decide)
  | false =>
    have hoverlap := h.overlap_iff hi
    simp only
    split
    · rename_i hshared
      rw [hoverlap] at hshared
      simp only [Registration.Agrees, VersionRange.Apart, Classical.not_forall, Classical.not_not] at hshared
      obtain ⟨a, ha, hname, v, hav, hcv⟩ := hshared
      constructor
      · rintro ⟨⟩
        exact .overlapping hi ha hname hav hcv
      · intro hrefused
        cases hrefused with
        | inverted hmin hmax hle => simp [VersionRange.isInverted, hmin, hmax, hle] at hi
        | overlapping => rfl
    · rename_i hfits
      rw [hoverlap, Classical.not_not] at hfits
      refine iff_of_false (by simp) fun hrefused => ?_
      cases hrefused with
      | inverted hmin hmax hle => simp [VersionRange.isInverted, hmin, hmax, hle] at hi
      | overlapping _ ha hname hav hcv => exact hfits _ ha hname _ ⟨hav, hcv⟩

theorem keeps_of_ofList (h : ofList calls = .ok r) : r.Keeps calls := by
  have hkeeps : r.Keeps ([] ++ (calls.map fun c => (c.name, c.range, c.target)).map fun c => ⟨c.1, c.2.1, c.2.2⟩) := by
    refine Keeps.of_foldlM ?_ keeps_empty
    rw [List.foldlM_map]
    exact h
  rwa [List.nil_append, List.map_map, List.map_id''] at hkeeps
  exact fun _ => rfl

/-- All registrations of a list are accepted exactly if the list is proper. -/
theorem exists_ofList_iff : (∃ r, ofList calls = .ok r) ↔ Registration.Proper calls := by
  constructor
  · rintro ⟨r, h⟩
    have hkeeps := keeps_of_ofList h
    exact ⟨hkeeps.proper, hkeeps.apart⟩
  · rintro ⟨hupright, hapart⟩
    induction calls using List.reverseRecOn with
    | nil => exact ⟨_, rfl⟩
    | append_singleton calls c ih =>
      obtain ⟨hcalls, -, hc⟩ := List.pairwise_append.1 hapart
      obtain ⟨r, hr⟩ := ih (fun a ha => hupright a (List.mem_append_left _ ha)) hcalls
      have hfits : c.Fits calls :=
        ⟨hupright c (List.mem_append_right _ List.mem_cons_self), fun a ha => hc a ha c List.mem_cons_self⟩
      obtain ⟨r', hr'⟩ := ((keeps_of_ofList hr).register_iff c).2 hfits
      refine ⟨r', ?_⟩
      rw [ofList, List.foldlM_append]
      exact bind_eq_ok.2 ⟨r, hr, bind_eq_ok.2 ⟨r', hr', rfl⟩⟩

/-- A list that is not accepted in full comes to the error of the first registration that is refused. -/
theorem ofList_eq_error_iff : ofList calls = .error err ↔ Registration.RefusedIn calls err := by
  rw [ofList, foldlM_eq_error_iff]
  constructor
  · rintro ⟨before, c, after, r, hcalls, hr, herr⟩
    exact ⟨before, c, after, hcalls, exists_ofList_iff.1 ⟨r, hr⟩, (keeps_of_ofList hr).register_eq_error_iff.1 herr⟩
  · rintro ⟨before, c, after, hcalls, hproper, hrefused⟩
    obtain ⟨r, hr⟩ := exists_ofList_iff.2 hproper
    exact ⟨before, c, after, r, hcalls, hr, (keeps_of_ofList hr).register_eq_error_iff.2 hrefused⟩

end Lists

end Registry

end Standby
