import Standby.Proofs.Text.Roundtrip
import Standby.Time.Timestamp
/-!
# Timestamps in both forms

What reads in the strict form reads in the wider one, as the same instant (`lenient?_of_strict?`). The parts of a
strict timestamp begin with a digit or a mark, never with a blank, so the wider form skips nothing before them.
-/

namespace Standby.Time.Timestamp

open Text

variable {cs rest : List Char} {c : Char} {n width most : Nat}

theorem skipBlanks_cons (h : isBlank c = false) : skipBlanks (c :: cs) = c :: cs :=
  List.dropWhile_cons_of_neg (by simp [h])

/-! ## Numbers -/

theorem number?_of_fixed? (h : fixed? width cs = some (n, rest)) : number? width cs = some (n, rest) := by
  unfold fixed? at h
  obtain ⟨p, hdigits, hwidth⟩ := Option.bind_eq_some_iff.1 h
  obtain ⟨-, hvalue⟩ := Option.ite_none_right_eq_some.1 hwidth
  rw [number?, hdigits]
  exact hvalue

theorem exists_digit_of_number? (h : number? most cs = some (n, rest)) :
    ∃ c cs', cs = c :: cs' ∧ c.isDigit = true := by
  obtain ⟨p, hdigits, -⟩ := Option.map_eq_some_iff.1 h
  unfold digits? at hdigits
  obtain ⟨hne, -⟩ := Option.ite_none_left_eq_some.1 hdigits
  cases cs with
  | nil => simp at hne
  | cons c cs' =>
    refine ⟨c, cs', rfl, ?_⟩
    by_contra hc
    cases most with
    | zero => simp at hne
    | succ most => simp [hc] at hne

theorem skipBlanks_of_number? (h : number? most cs = some (n, rest)) : skipBlanks cs = cs := by
  obtain ⟨c, cs', rfl, hc⟩ := exists_digit_of_number? h
  exact skipBlanks_cons (isBlank_of_isDigit hc)

theorem lenientPart?_of_fixed? (h : fixed? 2 cs = some (n, rest)) : lenientPart? cs = some (n, rest) := by
  have hn := number?_of_fixed? h
  rw [lenientPart?, skipBlanks_of_number? hn]
  exact hn

theorem lenientYear?_of_fixed? (h : fixed? 4 cs = some (n, rest)) : lenientYear? cs = some ((n : Int), rest) := by
  have hn := number?_of_fixed? h
  obtain ⟨c, cs', rfl, hc⟩ := exists_digit_of_number? hn
  unfold lenientYear?
  rw [skipBlanks_of_number? hn]
  -- A digit is neither of the signs.
  split
  · rename_i heq
    cases heq
    exact absurd hc (by decide)
  · rename_i heq
    cases heq
    exact absurd hc (by decide)
  · simp [hn]

/-! ## Marks -/

theorem char?_eq_some (h : char? c cs = some rest) : cs = c :: rest := by
  cases cs with
  | nil => cases h
  | cons d cs =>
    unfold char? at h
    obtain ⟨rfl, hrest⟩ := Option.ite_none_right_eq_some.1 h
    rw [Option.some.inj hrest]

theorem lenientChar?_of_char? (hc : isBlank c = false) (h : char? c cs = some rest) :
    lenientChar? c cs = some rest := by
  rw [lenientChar?, char?_eq_some h, skipBlanks_cons hc, ← char?_eq_some h]
  exact h

/-! ## Offsets -/

/-- An offset begins with a mark, which is no blank and no letter of `UTC`. -/
theorem exists_mark_of_offset? {between : List Char → Option (List Char)} {p : Int × List Char}
    (h : offset? between cs = some p) : ∃ c cs', cs = c :: cs' ∧ isBlank c = false ∧ c.toUpper ≠ 'U' := by
  cases cs with
  | nil => cases h
  | cons c cs =>
    refine ⟨c, cs, rfl, ?_⟩
    simp only [offset?] at h
    split at h
    · rename_i hz
      simp only [Bool.or_eq_true, decide_eq_true_eq] at hz
      rcases hz with rfl | rfl <;> decide
    split at h
    · rename_i hsign
      simp only [Bool.or_eq_true, decide_eq_true_eq] at hsign
      rcases hsign with (rfl | rfl) | rfl <;> decide
    · cases h

/-- A colon between hours and minutes is all that the wider form skips there, since minutes begin with a digit. -/
theorem offset?_of_colon {p : Int × List Char} (h : offset? (char? ':') cs = some p) :
    offset? (fun cs => some (cs.dropWhile fun c => c == ':' || isBlank c)) cs = some p := by
  cases cs with
  | nil => cases h
  | cons c cs =>
    simp only [offset?] at h ⊢
    split at h
    · rename_i hz
      rw [if_pos hz]
      exact h
    rename_i hz
    rw [if_neg hz]
    split at h
    · rename_i hsign
      rw [if_pos hsign]
      obtain ⟨⟨hours, afterHours⟩, hhours, h⟩ := Option.bind_eq_some_iff.1 h
      obtain ⟨afterColon, hcolon, h⟩ := Option.bind_eq_some_iff.1 h
      obtain ⟨⟨minutes, afterMinutes⟩, hminutes, hresult⟩ := Option.bind_eq_some_iff.1 h
      obtain ⟨d, ds, rfl, hd⟩ := exists_digit_of_number? (number?_of_fixed? hminutes)
      have hcolon' : d ≠ ':' := by
        rintro rfl
        exact absurd hd (by decide)
      have hskip : afterHours.dropWhile (fun c => c == ':' || isBlank c) = d :: ds := by
        have hcolon : afterHours = ':' :: d :: ds := char?_eq_some hcolon
        rw [hcolon, List.dropWhile_cons_of_pos (by simp)]
        exact List.dropWhile_cons_of_neg (by simp [hcolon', isBlank_of_isDigit hd])
      simp only [Option.bind_eq_bind, hhours, Option.bind_some, hskip, hminutes]
      exact hresult
    · cases h

theorem lenientOffset?_of_offset? {p : Int × List Char} (h : offset? (char? ':') cs = some p) :
    lenientOffset? cs = some p := by
  obtain ⟨c, cs', rfl, hblank, hupper⟩ := exists_mark_of_offset? h
  unfold lenientOffset?
  rw [skipBlanks_cons hblank, if_neg]
  · exact offset?_of_colon h
  · intro hutc
    simp [hupper] at hutc

/-! ## Timestamps -/

/-- The two forms agree where the strict one applies. -/
theorem lenient?_of_strict? {s : String} {t : Instant} (h : strict? s = some t) : lenient? s = some t := by
  unfold strict? at h
  simp only [Option.bind_eq_bind, Option.bind_eq_some_iff, Prod.exists] at h
  obtain ⟨year, c₁, hyear, c₂, hdash₁, month, c₃, hmonth, c₄, hdash₂, day, c₅, hday, c₆, hseparator, h⟩ := h
  obtain ⟨hour, c₇, hhour, c₈, hcolon₁, minute, c₉, hminute, c₁₀, hcolon₂, second, c₁₁, hsecond, h⟩ := h
  obtain ⟨nanos, c₁₂, hfraction, offset, c₁₃, hoffset, h⟩ := h
  obtain ⟨hend, hinstant⟩ := Option.ite_none_right_eq_some.1 h
  have hdash {cs rest} : char? '-' cs = some rest → lenientChar? '-' cs = some rest :=
    lenientChar?_of_char? (by decide)
  have hcolon {cs rest} : char? ':' cs = some rest → lenientChar? ':' cs = some rest :=
    lenientChar?_of_char? (by decide)
  unfold lenient?
  simp only [Option.bind_eq_bind, Option.bind_some, lenientYear?_of_fixed? hyear, hdash hdash₁,
    lenientPart?_of_fixed? hmonth, hdash hdash₂, lenientPart?_of_fixed? hday, hseparator,
    lenientPart?_of_fixed? hhour, hcolon hcolon₁, lenientPart?_of_fixed? hminute, hcolon hcolon₂,
    lenientPart?_of_fixed? hsecond, hfraction, lenientOffset?_of_offset? hoffset]
  rw [List.isEmpty_iff.1 hend]
  exact hinstant

end Standby.Time.Timestamp
