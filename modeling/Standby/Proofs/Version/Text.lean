import Standby.Proofs.Text.Roundtrip
import Standby.Version.Basic
/-!
# Versions as texts

A version is read as it was written. Its numbers are written without a zero in front, and a text whose major number is
zero is none of a version.
-/

namespace Standby

namespace Version

/-! ## Numbers -/

theorem isCanonical_toString (n : Nat) : isCanonical (toString n) = true := by
  have hdigits : ∀ c ∈ Nat.toDigits 10 n, c.isDigit = true := fun c hc => Text.isDigit_of_mem_toDigits hc
  by_cases h : n = 0
  · subst h
    rfl
  · simpa [isCanonical, Text.head?_toDigits_ne h] using hdigits

/-- A number of 32 bits is read as it was written. -/
theorem part?_toString (n : UInt32) : part? (toString n.toNat) = some n := by
  rw [part?, Text.toList_toString, Text.digitsValue_toDigits, isCanonical_toString,
    if_pos (by simpa using n.toNat_lt_size), UInt32.ofNat_toNat]

/-! ## Versions -/

variable {v : Version}

theorem toList_text (v : Version) :
    v.text.toList = (toString v.major.toNat).toList ++ '.' :: (toString v.minor.toNat).toList := by
  simp [text, String.toList_append]

theorem mem_text {c : Char} (h : c ∈ v.text.toList) : c.isDigit = true ∨ c = '.' := by
  rw [toList_text, List.mem_append, List.mem_cons, Text.toList_toString, Text.toList_toString] at h
  rcases h with h | h | h
  · exact .inl (Text.isDigit_of_mem_toDigits h)
  · exact .inr h
  · exact .inl (Text.isDigit_of_mem_toDigits h)

/-- A version is read as it was written. -/
theorem parse_text (h : v.major ≠ 0) : parse v.text = .ok v := by
  have hdot : '.' ∉ (toString v.major.toNat).toList := by
    rw [Text.toList_toString]
    exact fun hm => absurd (Text.isDigit_of_mem_toDigits hm) (by decide)
  have hread : ofText? v.text = some v := by
    rw [ofText?, Text.cut?_eq_some (toList_text v) hdot]
    simp only [Option.bind_eq_bind, Option.bind_some, part?_toString, if_neg h]
  rw [parse, hread]

theorem major_ne_zero_of_parse {s : String} (h : parse s = .ok v) : v.major ≠ 0 := by
  unfold parse at h
  split at h
  · rename_i hread
    cases h
    obtain ⟨⟨_, _⟩, -, hread⟩ := Option.bind_eq_some_iff.1 hread
    obtain ⟨major, -, hread⟩ := Option.bind_eq_some_iff.1 hread
    obtain ⟨minor, -, hread⟩ := Option.bind_eq_some_iff.1 hread
    split at hread
    · cases hread
    · rename_i hmajor
      cases hread
      exact hmajor
  · cases h

end Version

end Standby
