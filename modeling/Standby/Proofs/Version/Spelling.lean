import Standby.Proofs.Basic
import Standby.Proofs.Version.Header
/-!
# The spelling of versions

A version has one spelling. A run of digits without a zero in front is the way in which its value is written, so a text
that is read as a version is the one that this version is written as, and any other text is refused with itself in the
error. A token is the keyword, in whatever case, or a version, with blanks around it.
-/

namespace Standby

/-! ## Numbers -/

namespace Text

theorem digitChar_of_isDigit {c : Char} (h : c.isDigit = true) : (c.toNat - 48).digitChar = c := by
  have hrange := toNat_of_isDigit h
  refine Char.toNat_inj.1 ?_
  rw [Nat.toNat_digitChar_of_lt_ten (by omega)]
  omega

/-- Digits that follow those of a number are the last ones of the number that they go on with. -/
theorem toDigits_foldl {cs : List Char} (h : ∀ c ∈ cs, c.isDigit = true) {n : Nat} (hn : 0 < n) :
    Nat.toDigits 10 (cs.foldl (fun n c => 10 * n + (c.toNat - 48)) n) = Nat.toDigits 10 n ++ cs := by
  induction cs generalizing n with
  | nil => rw [List.foldl_nil, List.append_nil]
  | cons c cs ih =>
    have hc := h c List.mem_cons_self
    have hrange := toNat_of_isDigit hc
    have hlt : c.toNat - 48 < 10 := by omega
    have hpos : 0 < 10 * n + (c.toNat - 48) := by omega
    have hdigit : Nat.toDigits 10 (c.toNat - 48) = [c] := by
      rw [Nat.toDigits_of_lt_base hlt, digitChar_of_isDigit hc]
    calc Nat.toDigits 10 ((c :: cs).foldl (fun n c => 10 * n + (c.toNat - 48)) n)
      _ = Nat.toDigits 10 (10 * n + (c.toNat - 48)) ++ cs :=
        ih (fun d hd => h d (List.mem_cons_of_mem _ hd)) hpos
      _ = Nat.toDigits 10 n ++ Nat.toDigits 10 (c.toNat - 48) ++ cs := by
        rw [Nat.toDigits_append_toDigits (by decide) hn hlt]
      _ = Nat.toDigits 10 n ++ c :: cs := by rw [hdigit, List.append_assoc, List.singleton_append]

/-- A run of digits without a zero in front is the way in which its value is written. -/
theorem toDigits_digitsValue {c : Char} {cs : List Char} (h : ∀ d ∈ c :: cs, d.isDigit = true) (hc : c ≠ '0') :
    Nat.toDigits 10 (digitsValue (c :: cs)) = c :: cs := by
  have hdigit := h c List.mem_cons_self
  have hrange := toNat_of_isDigit hdigit
  have hpos : c.toNat ≠ 48 := fun h => hc (Char.toNat_inj.1 h)
  have hvalue : digitsValue (c :: cs) = cs.foldl (fun n c => 10 * n + (c.toNat - 48)) (c.toNat - 48) := by
    simp [digitsValue]
  rw [hvalue, toDigits_foldl (fun d hd => h d (List.mem_cons_of_mem _ hd)) (by omega),
    Nat.toDigits_of_lt_base (by omega), digitChar_of_isDigit hdigit, List.singleton_append]

/-- A text that is cut is what comes before and after the character that it is cut at. -/
theorem toList_of_cut? {sep : Char} {s a b : String} (h : cut? sep s = some (a, b)) :
    s.toList = a.toList ++ sep :: b.toList := by
  have hparts := List.takeWhile_append_dropWhile (p := fun c => decide (c ≠ sep)) (l := s.toList)
  unfold cut? at h
  rw [List.span_eq_takeWhile_dropWhile] at h
  split at h
  · cases h
  · rename_i before found after hspan
    obtain ⟨hbefore, hafter⟩ := Prod.mk.inj hspan
    have hfound : found = sep := by
      have hhead := List.head?_dropWhile_not (fun c => decide (c ≠ sep)) s.toList
      rw [hafter] at hhead
      simpa using hhead
    cases h
    rw [← hparts, hbefore, hafter, hfound, String.toList_ofList, String.toList_ofList]

end Text

namespace Version

variable {s : String} {v : Version}

theorem toString_digitsValue (h : isCanonical s = true) : toString (Text.digitsValue s.toList) = s := by
  simp only [isCanonical, Bool.and_eq_true, Bool.or_eq_true, Bool.not_eq_true', String.isEmpty_eq_false_iff,
    List.all_eq_true, beq_iff_eq, bne_iff_ne] at h
  obtain ⟨⟨hne, hdigits⟩, rfl | hhead⟩ := h
  · rfl
  · obtain ⟨c, cs, hcs⟩ := List.exists_cons_of_ne_nil fun hnil => hne (String.toList_eq_nil_iff.1 hnil)
    rw [hcs] at hdigits hhead
    apply String.ext
    rw [Text.toList_toString, hcs, Text.toDigits_digitsValue hdigits fun hc => hhead (congrArg some hc)]

/-- What is read as a part of a version is a number of 32 bits, as it is written. -/
theorem part?_eq_some_iff {n : UInt32} : part? s = some n ↔ s = toString n.toNat := by
  constructor
  · intro h
    unfold part? at h
    simp only at h
    split at h
    · rename_i hread
      simp only [Bool.and_eq_true, decide_eq_true_eq] at hread
      cases h
      rw [UInt32.toNat_ofNat_of_lt' hread.2, toString_digitsValue hread.1]
    · cases h
  · rintro rfl
    exact part?_toString n

/-! ## Versions -/

/-- What is read as a version is the text of a version, whose major number is not zero. -/
theorem ofText?_eq_some_iff : ofText? s = some v ↔ v.major ≠ 0 ∧ s = v.text := by
  constructor
  · intro h
    obtain ⟨⟨a, b⟩, hcut, h⟩ := Option.bind_eq_some_iff.1 h
    obtain ⟨major, hmajor, h⟩ := Option.bind_eq_some_iff.1 h
    obtain ⟨minor, hminor, h⟩ := Option.bind_eq_some_iff.1 h
    split at h
    · cases h
    · rename_i hne
      cases h
      refine ⟨hne, String.ext ?_⟩
      rw [Text.toList_of_cut? hcut, part?_eq_some_iff.1 hmajor, part?_eq_some_iff.1 hminor, toList_text]
  · rintro ⟨hmajor, rfl⟩
    have hread := parse_text hmajor
    unfold parse at hread
    split at hread
    · rename_i v' hv
      cases hread
      exact hv
    · cases hread

theorem parse_eq_ok_iff : parse s = .ok v ↔ v.major ≠ 0 ∧ s = v.text := by
  rw [← ofText?_eq_some_iff, parse]
  cases ofText? s <;> simp

theorem parse_eq_error_iff {e : VersionError} :
    parse s = .error e ↔ e = .invalidText s ∧ ∀ v : Version, v.major ≠ 0 → s ≠ v.text := by
  have hnone : ofText? s = none ↔ ∀ v : Version, v.major ≠ 0 → s ≠ v.text := by
    rw [Option.eq_none_iff_forall_ne_some]
    exact forall_congr' fun v => (not_congr ofText?_eq_some_iff).trans not_and
  rw [← hnone, parse]
  cases ofText? s <;> simp [eq_comm]

end Version

/-! ## Tokens -/

/-- **Spelling.** A text is read as a version exactly if it is the text of this version and its major number is at least
one, and any other text is refused with itself in the error. A token is the keyword exactly if it is written as the
keyword, blanks around it and the case of its letters apart. Any other token is read as what is between its blanks is
read as a version, and none is read as no version at all. -/
theorem VersionToken.parse_spelling (s : String) :
    (∀ v : Version, Version.parse s = .ok v ↔ 1 ≤ v.major.toNat ∧ s = v.text) ∧
    (∀ e, Version.parse s = .error e ↔ e = .invalidText s ∧ ∀ v : Version, 1 ≤ v.major.toNat → s ≠ v.text) ∧
    (parse s = .ok .latest ↔ Text.sameIgnoringCase (Text.trim s) "latest" = true) ∧
    (parse s = .ok .latest ∨ parse s = (Version.parse (Text.trim s)).map .version) ∧
    parse s ≠ .ok .null := by
  have hone : ∀ v : Version, 1 ≤ v.major.toNat ↔ v.major ≠ 0 := fun v =>
    Nat.one_le_iff_ne_zero.trans (not_congr (UInt32.toNat_inj (b := 0)))
  simp only [hone]
  refine ⟨fun v => Version.parse_eq_ok_iff, fun e => Version.parse_eq_error_iff, ?_⟩
  cases hlatest : Text.sameIgnoringCase (Text.trim s) "latest" with
  | true =>
    have hparse : parse s = .ok .latest := by simp [parse, latestKeyword, hlatest]
    rw [hparse]
    exact ⟨by simp, .inl rfl, by simp⟩
  | false =>
    have hparse : parse s = (Version.parse (Text.trim s)).map .version := by simp [parse, latestKeyword, hlatest]
    -- What is read as a version is a version, and not the keyword.
    have hversion : ∀ token, parse s = .ok token → ∃ v, token = .version v := by
      intro token htoken
      obtain ⟨v, -, rfl⟩ := map_eq_ok.1 (hparse ▸ htoken)
      exact ⟨v, rfl⟩
    refine ⟨iff_of_false (fun h => ?_) (by decide), .inr hparse, fun h => ?_⟩
    · obtain ⟨v, hv⟩ := hversion _ h
      cases hv
    · obtain ⟨v, hv⟩ := hversion _ h
      cases hv

/-- The keyword may have blanks around it, of which a version that is read by itself may have none. -/
example : VersionToken.parse " Latest\t" = .ok .latest ∧ Version.parse " 1.0" = .error (.invalidText " 1.0") := by
  decide +kernel

end Standby
