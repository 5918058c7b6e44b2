import Standby.Proofs.Version.Text
import Standby.Version.Header
/-!
# The entry of a version

A service writes the version that it has answered at as an entry of the version header. Taken for a header of its own,
the entry asks for this version.
-/

namespace Standby

/-! ## Words -/

namespace Text

theorem trim_of_not_blank {s : String} (h : ∀ c ∈ s.toList, isBlank c = false) : trim s = s := by
  rw [trim, trimChars_of_not_blank h, String.ofList_toList]

end Text

/-! ## Entries -/

namespace Version

variable {v : Version}

theorem not_blank_of_mem_text {c : Char} (h : c ∈ v.text.toList) : Text.isBlank c = false := by
  rcases mem_text h with h | rfl
  · exact Text.isBlank_of_isDigit h
  · decide

theorem dot_mem_text (v : Version) : '.' ∈ v.text.toList := by
  rw [toList_text]
  exact List.mem_append_right _ List.mem_cons_self

end Version

/-- A token that is written as a version asks for this version. -/
theorem VersionToken.parse_text {v : Version} (h : v.major ≠ 0) : parse v.text = .ok (.version v) := by
  -- The keyword has no dot in it.
  have hkeyword : Text.sameIgnoringCase v.text latestKeyword = false := by
    refine beq_eq_false_iff_ne.2 fun heq => ?_
    have hdot : '.' ∈ latestKeyword.toList.map Char.toLower := heq ▸ List.mem_map.2 ⟨'.', v.dot_mem_text, rfl⟩
    exact absurd hdot (by decide)
  rw [parse, Text.trim_of_not_blank fun _ => Version.not_blank_of_mem_text]
  simp [hkeyword, Version.parse_text h, Except.map]

namespace VersionHeader

/-- A name that an entry can begin with: visible characters of ASCII, at least one, and none of them a comma. -/
structure IsServiceName (s : String) : Prop where
  nonempty : s ≠ ""
  visible : ∀ c ∈ s.toList, 33 ≤ c.toNat ∧ c.toNat ≤ 126
  comma : ',' ∉ s.toList

variable {service : String} {v : Version}

theorem IsServiceName.isValue (h : IsServiceName service) : Headers.isValue service = true := by
  refine List.all_eq_true.2 fun c hc => ?_
  have hrange := h.visible c hc
  simp only [Bool.or_eq_true, Bool.and_eq_true, decide_eq_true_eq]
  omega

end VersionHeader

end Standby
