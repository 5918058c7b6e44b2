import Standby.Version.Basic
/-!
# The order of versions

Versions are ordered as their ranks are: numbers of 64 bits, the major number in the upper half. The window of a server
resolves requests to versions inside it.
-/

namespace Standby

namespace Version

/-- The place of a version among all pairs of numbers. -/
def rank (v : Version) : Nat := UInt32.size * v.major.toNat + v.minor.toNat

theorem le_iff_rank {a b : Version} : a.le b = true ↔ a.rank ≤ b.rank := by
  have ha := a.minor.toNat_lt_size
  have hb := b.minor.toNat_lt_size
  simp only [le, rank, Bool.or_eq_true, Bool.and_eq_true, decide_eq_true_eq, beq_iff_eq, UInt32.lt_iff_toNat_lt,
    UInt32.le_iff_toNat_le, ← UInt32.toNat_inj]
  simp only [UInt32.size] at ha hb ⊢
  omega

theorem rank_inj {a b : Version} : a.rank = b.rank ↔ a = b := by
  refine ⟨fun h => ?_, congrArg rank⟩
  have ha := a.minor.toNat_lt_size
  have hb := b.minor.toNat_lt_size
  simp only [rank, UInt32.size] at h ha hb
  have hmajor : a.major = b.major := UInt32.toNat_inj.1 (by omega)
  have hminor : a.minor = b.minor := UInt32.toNat_inj.1 (by omega)
  cases a
  cases b
  simp_all

theorem rank_le_greatest (v : Version) : v.rank ≤ greatest.rank := by
  have h₁ := v.major.toNat_lt_size
  have h₂ := v.minor.toNat_lt_size
  have h : greatest.rank = 4294967296 * 4294967295 + 4294967295 := rfl
  simp only [rank, UInt32.size] at h₁ h₂ ⊢
  simp only [rank, UInt32.size] at h
  omega

theorem le_refl (a : Version) : a.le a = true := le_iff_rank.2 (Nat.le_refl _)

theorem le_trans {a b c : Version} (hab : a.le b = true) (hbc : b.le c = true) : a.le c = true :=
  le_iff_rank.2 (Nat.le_trans (le_iff_rank.1 hab) (le_iff_rank.1 hbc))

theorem le_antisymm {a b : Version} (hab : a.le b = true) (hba : b.le a = true) : a = b :=
  rank_inj.1 (Nat.le_antisymm (le_iff_rank.1 hab) (le_iff_rank.1 hba))

theorem le_max_left (a b : Version) : a.le (a.max b) = true := by
  unfold max
  split
  · assumption
  · exact le_refl a

theorem le_max_right (a b : Version) : b.le (a.max b) = true := by
  unfold max
  split
  · exact le_refl b
  · rename_i h
    rw [le_iff_rank] at h ⊢
    omega

theorem le_foldl_max (vs : List Version) (a : Version) : a.le (vs.foldl max a) = true := by
  induction vs generalizing a with
  | nil => exact le_refl a
  | cons v vs ih => exact le_trans (le_max_left a v) (ih (a.max v))

theorem le_foldl_max_of_mem {vs : List Version} {v : Version} (h : v ∈ vs) (a : Version) :
    v.le (vs.foldl max a) = true := by
  induction vs generalizing a with
  | nil => cases h
  | cons u vs ih =>
    rcases List.mem_cons.1 h with rfl | h
    · exact le_trans (le_max_right a v) (le_foldl_max vs (a.max v))
    · exact ih h (a.max u)

/-- The greatest of versions is one of them. -/
theorem foldl_max_mem (vs : List Version) (a : Version) : vs.foldl max a = a ∨ vs.foldl max a ∈ vs := by
  induction vs generalizing a with
  | nil => exact .inl rfl
  | cons v vs ih =>
    rw [List.foldl_cons]
    rcases ih (a.max v) with h | h
    · rw [h]
      unfold max
      split
      · exact .inr List.mem_cons_self
      · exact .inl rfl
    · exact .inr (List.mem_cons_of_mem v h)

end Version

namespace Window

/-- The version lies between the bounds of the window. -/
def Supports (w : Window) (v : Version) : Prop := w.min.le v = true ∧ v.le w.max = true

theorem supports_default {min max default : Version} {w : Window} (h : ofBounds min max default = .ok w) :
    w.Supports w.default := by
  unfold ofBounds at h
  split at h
  · rename_i hb
    cases h
    simpa [Supports] using hb
  · cases h

/-- Requests are served at versions that the window supports. -/
theorem supports_of_resolve {w : Window} (hw : w.Supports w.default) {token : Option VersionToken} {v : Version}
    (h : w.resolve token = .ok v) : w.Supports v := by
  unfold Window.resolve at h
  split at h
  · cases h
    exact hw
  · cases h
    exact hw
  · cases h
    exact ⟨Version.le_trans hw.1 hw.2, Version.le_refl _⟩
  · split at h
    · rename_i hv
      cases h
      simpa [Version.isWithin, Supports] using hv
    · cases h

end Window

end Standby
