import Mathlib.Data.List.TakeDrop
import Standby.Proofs.Text.Utf8
import Standby.Text.Percent
import Standby.Text.Blank
/-!
# What is written is read back

Bytes in percent signs and digits, pairs in a form-encoded text and numbers in decimal digits are read as what was
written, whatever characters they have.
-/

namespace Standby.Text

/-! ## Pieces -/

section Pieces
variable {sep : Char}

theorem splitAt_of_notMem {cs : List Char} (h : sep ∉ cs) : splitAt sep cs = [cs] := by
  induction cs with
  | nil => rfl
  | cons c cs ih =>
    obtain ⟨hc, hcs⟩ := List.ne_and_not_mem_of_not_mem_cons h
    simp only [splitAt, if_neg (Ne.symm hc), ih hcs]

theorem splitAt_append_sep {cs : List Char} (h : sep ∉ cs) (rest : List Char) :
    splitAt sep (cs ++ sep :: rest) = cs :: splitAt sep rest := by
  induction cs with
  | nil => simp [splitAt]
  | cons c cs ih =>
    obtain ⟨hc, hcs⟩ := List.ne_and_not_mem_of_not_mem_cons h
    simp only [List.cons_append, splitAt, if_neg (Ne.symm hc), ih hcs]

/-- Texts joined by a character that none of them has are its pieces. -/
theorem pieces_intercalate {s : String} (hs : s.toList = [sep]) {l : List String} (hl : l ≠ [])
    (h : ∀ t ∈ l, sep ∉ t.toList) : pieces sep (s.intercalate l) = l := by
  suffices hsplit : splitAt sep (s.intercalate l).toList = l.map String.toList by
    rw [pieces, hsplit, List.map_map]
    exact (List.map_congr_left fun t _ => String.ofList_toList).trans (List.map_id l)
  rw [String.toList_intercalate, hs]
  induction l with
  | nil => exact absurd rfl hl
  | cons t l ih =>
    have ht := h t List.mem_cons_self
    cases l with
    | nil => simpa using splitAt_of_notMem ht
    | cons u l =>
      have hrest := ih (List.cons_ne_nil u l) fun v hv => h v (List.mem_cons_of_mem _ hv)
      simp only [List.map_cons, List.intercalate_cons_cons, List.append_assoc, List.singleton_append] at hrest ⊢
      rw [splitAt_append_sep ht, hrest]

theorem mem_intercalate {s : String} {l : List String} {c : Char} (h : c ∈ (s.intercalate l).toList) :
    c ∈ s.toList ∨ ∃ t ∈ l, c ∈ t.toList := by
  rw [String.toList_intercalate] at h
  induction l with
  | nil => cases h
  | cons t l ih =>
    cases l with
    | nil => exact .inr ⟨t, List.mem_singleton_self t, by simpa using h⟩
    | cons u l =>
      simp only [List.map_cons, List.intercalate_cons_cons, List.mem_append] at h ih
      rcases h with (h | h) | h
      · exact .inr ⟨t, List.mem_cons_self, h⟩
      · exact .inl h
      · exact (ih h).imp_right fun ⟨v, hv, hc⟩ => ⟨v, List.mem_cons_of_mem _ hv, hc⟩

/-- Joined texts end with the last of them. -/
theorem suffix_intercalate (s : String) (l : List String) (t : String) :
    t.toList <:+ (s.intercalate (l ++ [t])).toList := by
  rw [String.toList_intercalate]
  induction l with
  | nil => simp
  | cons u l ih =>
    obtain ⟨v, l', hl⟩ := List.exists_cons_of_ne_nil (List.append_ne_nil_of_right_ne_nil l (List.cons_ne_nil t []))
    rw [List.cons_append, List.map_cons, hl, List.map_cons, List.intercalate_cons_cons, ← List.map_cons, ← hl]
    exact ih.trans (List.suffix_append _ _)

theorem cut?_eq_some {s a b : String} (hs : s.toList = a.toList ++ sep :: b.toList) (ha : sep ∉ a.toList) :
    cut? sep s = some (a, b) := by
  have hall : ∀ c ∈ a.toList, decide (c ≠ sep) = true := fun c hc =>
    decide_eq_true fun hcs => ha (hcs ▸ hc)
  have hspan : s.toList.span (· ≠ sep) = (a.toList, sep :: b.toList) := by
    rw [List.span_eq_takeWhile_dropWhile, hs, List.takeWhile_append_of_pos hall, List.dropWhile_append_of_pos hall]
    simp
  simp only [cut?, hspan, String.ofList_toList]

end Pieces

/-! ## Bytes in digits -/

theorem hexValue?_hexDigit : ∀ n < 16, hexValue? (hexDigit n) = some n := by decide

namespace Percent

theorem decode_encodeByte (b : UInt8) (rest : List Char) : decode (encodeByte b ++ rest) = b :: decode rest := by
  have hb := b.toNat_lt
  have hbyte : UInt8.ofNat (16 * (b.toNat / 16) + b.toNat % 16) = b := by
    rw [Nat.div_add_mod, UInt8.ofNat_toNat]
  simp only [encodeByte, List.cons_append, List.nil_append]
  rw [decode]
  simp only [if_true, hexValue?_hexDigit (b.toNat / 16) (by omega), hexValue?_hexDigit (b.toNat % 16) (by omega), hbyte]

theorem decode_encodeBytes (bs : List UInt8) (rest : List Char) :
    decode (bs.flatMap encodeByte ++ rest) = bs ++ decode rest := by
  induction bs with
  | nil => rfl
  | cons b bs ih => rw [List.flatMap_cons, List.append_assoc, decode_encodeByte, ih, List.cons_append]

/-- The text that an encoded one spells. -/
theorem decodeText_encodeText (s : String) : decodeText (encodeText s) = s := by
  have hbytes := decode_encodeBytes (Utf8.encode s) []
  rw [decode, List.append_nil, List.append_nil] at hbytes
  rw [decodeText, encodeText, String.toList_ofList, hbytes, Utf8.decodeLossy_encode]

/-- No text but the empty one spells the empty text. -/
theorem decodeText_ne_empty {s : String} (h : s ≠ "") : decodeText s ≠ "" := by
  have hdecode : decode s.toList ≠ [] := by
    cases hs : s.toList with
    | nil => exact absurd (String.toList_eq_nil_iff.1 hs) h
    | cons c cs =>
      have hchar : String.utf8EncodeChar c ≠ [] := by
        obtain ⟨b, bs, hc, -⟩ := Utf8.first_encodeChar c []
        rw [hc]
        exact List.cons_ne_nil b bs
      rw [decode.eq_def]
      simp only
      repeat' split
      all_goals simp [hchar]
  intro hempty
  obtain ⟨b, bs, hbytes⟩ := List.exists_cons_of_ne_nil hdecode
  have hchars := congrArg String.toList hempty
  rw [decodeText, Utf8.decodeLossy, hbytes, Utf8.chars] at hchars
  simp at hchars

theorem encodeText_ne_empty {s : String} (h : s ≠ "") : encodeText s ≠ "" := by
  intro hempty
  have hspelled := decodeText_encodeText s
  rw [hempty] at hspelled
  exact h (hspelled.symm.trans (by decide +kernel))

/-- An encoded text has percent signs and digits. -/
theorem notMem_encodeText {c : Char} (hpercent : c ≠ '%') (hdigit : ∀ n < 16, c ≠ hexDigit n) (s : String) :
    c ∉ (encodeText s).toList := by
  intro h
  rw [encodeText, String.toList_ofList] at h
  obtain ⟨b, -, hc⟩ := List.mem_flatMap.1 h
  have hb := b.toNat_lt
  simp only [encodeByte, List.mem_cons, List.not_mem_nil, or_false] at hc
  rcases hc with hc | hc | hc
  · exact hpercent hc
  · exact hdigit _ (by omega) hc
  · exact hdigit _ (by omega) hc

theorem decode_cons_of_ne {c : Char} (h : c ≠ '%') (cs : List Char) :
    decode (c :: cs) = String.utf8EncodeChar c ++ decode cs := by
  rw [decode.eq_def]
  exact if_neg h

end Percent

/-! ## Form-encoded pairs -/

namespace Form

/-- What a character stands for in an encoded part, before the digits are read. -/
def unplus (c : Char) : Char := if c = '+' then ' ' else c

theorem isPlain_hexDigit : ∀ n < 16, isPlain (hexDigit n) = true := by decide

/-- An encoded part has plain characters, plus signs and percent signs. -/
theorem mem_encodeChar {c d : Char} (h : d ∈ encodeChar c) : isPlain d = true ∨ d = '+' ∨ d = '%' := by
  unfold encodeChar at h
  split at h
  · rename_i hplain
    exact .inl (List.mem_singleton.1 h ▸ hplain)
  · split at h
    · exact .inr (.inl (List.mem_singleton.1 h))
    · obtain ⟨b, -, hd⟩ := List.mem_flatMap.1 h
      have hb := b.toNat_lt
      simp only [Percent.encodeByte, List.mem_cons, List.not_mem_nil, or_false] at hd
      rcases hd with rfl | rfl | rfl
      · exact .inr (.inr rfl)
      · exact .inl (isPlain_hexDigit _ (by omega))
      · exact .inl (isPlain_hexDigit _ (by omega))

/-- A text of characters that stand for themselves is written as it is. -/
theorem encodePart_of_isPlain {s : String} (h : ∀ c ∈ s.toList, isPlain c = true) : encodePart s = s := by
  have hchars : s.toList.map encodeChar = s.toList.map fun c => [c] := List.map_congr_left fun c hc => if_pos (h c hc)
  rw [encodePart, List.flatMap_def, hchars, ← List.flatMap_def, List.flatMap_singleton', String.ofList_toList]

theorem mem_encodePart {s : String} {d : Char} (h : d ∈ (encodePart s).toList) :
    isPlain d = true ∨ d = '+' ∨ d = '%' := by
  rw [encodePart, String.toList_ofList] at h
  obtain ⟨c, -, hd⟩ := List.mem_flatMap.1 h
  exact mem_encodeChar hd

theorem eq_notMem_encodePart (s : String) : '=' ∉ (encodePart s).toList := fun h =>
  absurd (mem_encodePart h) (by decide)

theorem unplus_of_isPlain {c : Char} (h : isPlain c = true) : unplus c = c ∧ c ≠ '%' := by
  refine ⟨if_neg ?_, ?_⟩
  · rintro rfl
    exact absurd h (by decide)
  · rintro rfl
    exact absurd h (by decide)

theorem map_unplus_encodeBytes (bs : List UInt8) :
    (bs.flatMap Percent.encodeByte).map unplus = bs.flatMap Percent.encodeByte := by
  refine (List.map_congr_left fun c hc => ?_).trans (List.map_id _)
  obtain ⟨b, -, hc⟩ := List.mem_flatMap.1 hc
  have hb := b.toNat_lt
  simp only [Percent.encodeByte, List.mem_cons, List.not_mem_nil, or_false] at hc
  rcases hc with rfl | rfl | rfl
  · rfl
  · exact (unplus_of_isPlain (isPlain_hexDigit _ (by omega))).1
  · exact (unplus_of_isPlain (isPlain_hexDigit _ (by omega))).1

theorem decode_encodeChar (c : Char) (rest : List Char) :
    Percent.decode ((encodeChar c).map unplus ++ rest) = String.utf8EncodeChar c ++ Percent.decode rest := by
  unfold encodeChar
  split
  · rename_i hplain
    obtain ⟨hc, hne⟩ := unplus_of_isPlain hplain
    rw [List.map_singleton, hc, List.singleton_append, Percent.decode_cons_of_ne hne]
  · split
    · rename_i hspace
      rw [hspace]
      exact Percent.decode_cons_of_ne (by decide) rest
    · rw [map_unplus_encodeBytes, Percent.decode_encodeBytes]

theorem decode_encodeChars (cs rest : List Char) :
    Percent.decode ((cs.flatMap encodeChar).map unplus ++ rest) =
      cs.flatMap String.utf8EncodeChar ++ Percent.decode rest := by
  induction cs with
  | nil => rfl
  | cons c cs ih =>
    rw [List.flatMap_cons, List.map_append, List.append_assoc, decode_encodeChar, ih, List.flatMap_cons,
      List.append_assoc]

theorem decodePart_encodePart (s : String) : decodePart (encodePart s) = s := by
  have h := decode_encodeChars s.toList []
  rw [List.append_nil, Percent.decode, List.append_nil] at h
  rw [decodePart, encodePart, String.toList_ofList]
  exact (congrArg Utf8.decodeLossy h).trans (Utf8.decodeLossy_encode s)

/-- A pair as it is written. -/
def encodePair (p : String × String) : String := encodePart p.1 ++ "=" ++ encodePart p.2

theorem toList_encodePair (p : String × String) :
    (encodePair p).toList = (encodePart p.1).toList ++ '=' :: (encodePart p.2).toList := by
  simp [encodePair, String.toList_append]

/-- What an encoded text has of characters. -/
theorem mem_encodePair {p : String × String} {d : Char} (h : d ∈ (encodePair p).toList) :
    isPlain d = true ∨ d = '+' ∨ d = '%' ∨ d = '=' := by
  rw [toList_encodePair, List.mem_append, List.mem_cons] at h
  rcases h with h | rfl | h
  · rcases mem_encodePart h with h | h | h <;> simp [h]
  · simp
  · rcases mem_encodePart h with h | h | h <;> simp [h]

theorem mem_encodePairs {l : List (String × String)} {d : Char} (h : d ∈ (encodePairs l).toList) :
    isPlain d = true ∨ d = '+' ∨ d = '%' ∨ d = '=' ∨ d = '&' := by
  rcases mem_intercalate h with h | ⟨t, ht, hd⟩
  · have hamp : d = '&' := List.mem_singleton.1 h
    simp [hamp]
  · obtain ⟨p, -, rfl⟩ := List.mem_map.1 ht
    rcases mem_encodePair hd with h | h | h | h <;> simp [h]

/-- **Pairs are read as they were written.** -/
theorem decodePairs_encodePairs (l : List (String × String)) : decodePairs (encodePairs l) = l := by
  cases hl : l with
  | nil => rfl
  | cons p ps =>
    rw [← hl]
    have hpieces : pieces '&' (encodePairs l) = l.map encodePair := by
      refine pieces_intercalate rfl (by simp [hl]) fun t ht => ?_
      obtain ⟨q, -, rfl⟩ := List.mem_map.1 ht
      exact fun h => absurd (mem_encodePair h) (by decide)
    have hne : ∀ t ∈ l.map encodePair, decide (t ≠ "") = true := by
      intro t ht
      obtain ⟨q, -, rfl⟩ := List.mem_map.1 ht
      refine decide_eq_true fun h => ?_
      have := congrArg String.toList h
      simp [toList_encodePair] at this
    rw [decodePairs, hpieces, List.filter_eq_self.2 hne, List.map_map]
    refine (List.map_congr_left fun q _ => ?_).trans (List.map_id l)
    simp only [Function.comp, cut?_eq_some (toList_encodePair q) (eq_notMem_encodePart q.1), decodePart_encodePart]
    rfl

end Form

/-! ## Numbers -/

theorem isDigit_of_mem_toDigits {n : Nat} {c : Char} (h : c ∈ Nat.toDigits 10 n) : c.isDigit = true :=
  Nat.isDigit_of_mem_toDigits (by decide) (by decide) h

/-- A number is written without a zero in front. -/
theorem head?_toDigits_ne {n : Nat} (h : n ≠ 0) : (Nat.toDigits 10 n).head? ≠ some '0' := by
  induction n using Nat.strongRecOn with
  | _ n ih =>
    by_cases hlt : n < 10
    · have hdigit : ∀ n < 10, n ≠ 0 → [n.digitChar].head? ≠ some '0' := by decide
      rw [Nat.toDigits_of_lt_base hlt]
      exact hdigit n hlt h
    · have hrest := ih (n / 10) (by omega) (by omega)
      rw [Nat.toDigits_of_base_le (by decide) (by omega)]
      cases hdigits : Nat.toDigits 10 (n / 10) with
      | nil => exact absurd hdigits Nat.toDigits_ne_nil
      | cons c cs => rwa [hdigits] at hrest

theorem toList_toString (n : Nat) : (toString n).toList = Nat.toDigits 10 n := by
  rw [Nat.toString_eq_repr, Nat.toList_repr]

theorem digitsValue_toDigits (n : Nat) : digitsValue (Nat.toDigits 10 n) = n :=
  Nat.ofDigitChars_toDigits (by decide) (by decide)

theorem natural?_toDigits (n : Nat) : natural? (Nat.toDigits 10 n) = some n := by
  have hall : (Nat.toDigits 10 n).all Char.isDigit = true :=
    List.all_eq_true.2 fun c hc => isDigit_of_mem_toDigits hc
  have hne : (Nat.toDigits 10 n).isEmpty = false := List.isEmpty_eq_false_iff.2 Nat.toDigits_ne_nil
  simp [natural?, hall, hne, digitsValue_toDigits]

theorem toNat_of_isDigit {c : Char} (h : c.isDigit = true) : 48 ≤ c.toNat ∧ c.toNat ≤ 57 := by
  simp only [Char.isDigit, Bool.and_eq_true, decide_eq_true_eq, ge_iff_le, UInt32.le_iff_toNat_le] at h
  exact h

theorem isBlank_of_isDigit {c : Char} (h : c.isDigit = true) : isBlank c = false := by
  have hrange := toNat_of_isDigit h
  simp only [isBlank, Bool.or_eq_false_iff, Bool.and_eq_false_iff, decide_eq_false_iff_not, beq_eq_false_iff_ne]
  omega

theorem trimChars_of_not_blank {cs : List Char} (h : ∀ c ∈ cs, isBlank c = false) : trimChars cs = cs := by
  have hskip : ∀ l : List Char, (∀ c ∈ l, isBlank c = false) → skipBlanks l = l := by
    intro l hl
    cases l with
    | nil => rfl
    | cons c l => exact List.dropWhile_cons_of_neg (by simp [hl c List.mem_cons_self])
  rw [trimChars, hskip cs h, hskip cs.reverse fun c hc => h c (List.mem_reverse.1 hc), List.reverse_reverse]

/-- A number is read as it was written, if it is one of 64 bits with a sign. -/
theorem int64?_toString {n : Nat} (h : n < 9223372036854775808) : int64? (trim (toString n)) = some (n : Int) := by
  have htrim : trim (toString n) = toString n := by
    rw [trim, trimChars_of_not_blank, String.ofList_toList]
    intro c hc
    rw [Nat.toString_eq_repr, Nat.toList_repr] at hc
    exact isBlank_of_isDigit (isDigit_of_mem_toDigits hc)
  rw [htrim, int64?, integerIn?, Nat.toString_eq_repr, Nat.toList_repr]
  have hrange : ((-9223372036854775808 : Int) ≤ n && (n : Int) ≤ 9223372036854775807) = true := by
    simp only [Bool.and_eq_true, decide_eq_true_eq]
    omega
  -- The first character is a digit, and so neither of the signs.
  split
  · rename_i cs hcs
    exact absurd (isDigit_of_mem_toDigits (hcs ▸ List.mem_cons_self)) (by decide)
  · rename_i cs hcs
    exact absurd (isDigit_of_mem_toDigits (hcs ▸ List.mem_cons_self)) (by decide)
  · rw [natural?_toDigits]
    exact if_pos hrange

end Standby.Text
