import Mathlib.Tactic.Common
import Standby.Text.Utf8
/-!
# Reading UTF-8 back

The bytes of a text are read as its characters again. What is read of a run of bytes that ends with an ASCII
character ends with that character, whether or not the bytes ahead of it are well formed.
-/

namespace Standby.Text.Utf8

theorem toNat_ofNat {n : Nat} (h : n < 256) : (UInt8.ofNat n).toNat = n := by
  rw [UInt8.toNat_ofNat', Nat.mod_eq_of_lt h]

/-! ## First bytes -/

theorem lead?_two {b : Nat} (h : 0xC2 ≤ b) (h' : b ≤ 0xDF) : lead? b = some (b - 0xC0, 1, 0x80, 0xBF) := by
  simp [lead?, h, h']

theorem lead?_three {b : Nat} (h : 0xE0 ≤ b) (h' : b ≤ 0xEF) :
    lead? b = some (b - 0xE0, 2, if b = 0xE0 then 0xA0 else 0x80, if b = 0xED then 0x9F else 0xBF) := by
  have hrange : ¬b ≤ 0xDF := by omega
  unfold lead?
  by_cases hE0 : b = 0xE0
  · simp [hE0]
  · by_cases hED : b = 0xED
    · simp [hED]
    · have hlow : 0xE1 ≤ b := by omega
      simp [hrange, hE0, hED, hlow, h']

theorem lead?_four {b : Nat} (h : 0xF0 ≤ b) (h' : b ≤ 0xF4) :
    lead? b = some (b - 0xF0, 3, if b = 0xF0 then 0x90 else 0x80, if b = 0xF4 then 0x8F else 0xBF) := by
  have h₂ : ¬b ≤ 0xDF := by omega
  have h₃ : ¬b ≤ 0xEF := by omega
  unfold lead?
  by_cases hF0 : b = 0xF0
  · simp [hF0]
  · by_cases hF4 : b = 0xF4
    · simp [hF4]
    · have hlow : 0xF1 ≤ b := by omega
      have hhigh : b ≤ 0xF3 := by omega
      have hE0 : b ≠ 0xE0 := by omega
      have hED : b ≠ 0xED := by omega
      simp [h₂, h₃, hE0, hED, hF0, hF4, hlow, hhigh]

theorem le_lead {b code n lo hi : Nat} (h : lead? b = some (code, n, lo, hi)) : 0x80 ≤ lo := by
  unfold lead? at h
  split_ifs at h
  all_goals
    simp only [Option.some.injEq, Prod.mk.injEq] at h
    omega

/-! ## Further bytes -/

theorem tail_zero (lo hi code : Nat) (bs : List UInt8) : tail 0 lo hi code bs = (some code, bs) := rfl

theorem tail_cons {n lo hi code b : Nat} (bs : List UInt8) (hb : b < 256) (hlo : lo ≤ b) (hhi : b ≤ hi) :
    tail (n + 1) lo hi code (UInt8.ofNat b :: bs) = tail n 0x80 0xBF (64 * code + (b - 0x80)) bs := by
  simp [tail, toNat_ofNat hb, hlo, hhi]

/-- A byte that carries the last six bits of a number. -/
theorem tail_cons_mod {n code : Nat} (v : Nat) (bs : List UInt8) :
    tail (n + 1) 0x80 0xBF code (UInt8.ofNat (v % 64 + 128) :: bs) = tail n 0x80 0xBF (64 * code + v % 64) bs := by
  rw [tail_cons bs (by omega) (by omega) (by omega), Nat.add_sub_cancel]

/-! ## Characters -/

theorem toNat_valid (c : Char) : c.toNat < 0xD800 ∨ 0xDFFF < c.toNat ∧ c.toNat < 0x110000 := c.valid

/-- A character is read off the front of its bytes. -/
theorem first_encodeChar (c : Char) (rest : List UInt8) :
    ∃ b bs, String.utf8EncodeChar c = b :: bs ∧ first b (bs ++ rest) = (some c, rest) := by
  have hvalid := toNat_valid c
  have hc : Char.ofNat c.toNat = c := Char.ofNat_toNat c
  unfold String.utf8EncodeChar
  simp only [show c.val.toNat = c.toNat from rfl]
  generalize c.toNat = v at hvalid hc
  -- One case for each number of bytes.
  by_cases h₁ : v ≤ 127
  · refine ⟨_, _, if_pos h₁, ?_⟩
    rw [first, toNat_ofNat (by omega), if_pos (by omega), hc]
    rfl
  by_cases h₂ : v ≤ 2047
  · refine ⟨_, _, by rw [if_neg h₁, if_pos h₂], ?_⟩
    rw [first, toNat_ofNat (by omega), if_neg (by omega), lead?_two (by omega) (by omega)]
    simp only [List.cons_append, List.nil_append, tail_cons_mod, tail_zero, Option.map_some]
    rw [show 64 * (v / 64 % 32 + 192 - 192) + v % 64 = v by omega, hc]
  by_cases h₃ : v ≤ 65535
  · refine ⟨_, _, by rw [if_neg h₁, if_neg h₂, if_pos h₃], ?_⟩
    rw [first, toNat_ofNat (by omega), if_neg (by omega), lead?_three (by omega) (by omega)]
    have hlo : (if v / 4096 % 16 + 224 = 0xE0 then 0xA0 else 0x80) ≤ v / 64 % 64 + 128 := by split <;> omega
    have hhi : v / 64 % 64 + 128 ≤ if v / 4096 % 16 + 224 = 0xED then 0x9F else 0xBF := by split <;> omega
    simp only [List.cons_append, List.nil_append, tail_cons _ (by omega : v / 64 % 64 + 128 < 256) hlo hhi,
      tail_cons_mod, tail_zero, Option.map_some]
    rw [show 64 * (64 * (v / 4096 % 16 + 224 - 224) + (v / 64 % 64 + 128 - 128)) + v % 64 = v by omega, hc]
  · refine ⟨_, _, by rw [if_neg h₁, if_neg h₂, if_neg h₃], ?_⟩
    rw [first, toNat_ofNat (by omega), if_neg (by omega), lead?_four (by omega) (by omega)]
    have hlo : (if v / 262144 % 8 + 240 = 0xF0 then 0x90 else 0x80) ≤ v / 4096 % 64 + 128 := by split <;> omega
    have hhi : v / 4096 % 64 + 128 ≤ if v / 262144 % 8 + 240 = 0xF4 then 0x8F else 0xBF := by split <;> omega
    simp only [List.cons_append, List.nil_append, tail_cons _ (by omega : v / 4096 % 64 + 128 < 256) hlo hhi,
      tail_cons_mod, tail_zero, Option.map_some]
    rw [show 64 * (64 * (64 * (v / 262144 % 8 + 240 - 240) + (v / 4096 % 64 + 128 - 128)) + v / 64 % 64) + v % 64 = v by
      omega, hc]

theorem chars_encode_append (cs : List Char) (rest : List UInt8) :
    chars (cs.flatMap String.utf8EncodeChar ++ rest) = cs.map some ++ chars rest := by
  induction cs with
  | nil => rfl
  | cons c cs ih =>
    obtain ⟨b, bs, hc, hfirst⟩ := first_encodeChar c (cs.flatMap String.utf8EncodeChar ++ rest)
    rw [List.flatMap_cons, hc, List.append_assoc, List.cons_append, chars, hfirst, ih]
    rfl

theorem chars_encode (s : String) : chars (encode s) = s.toList.map some := by
  have h := chars_encode_append s.toList []
  rw [List.append_nil] at h
  rw [encode, h, chars, List.append_nil]

/-- The bytes of a text spell it. -/
theorem decodeLossy_encode (s : String) : decodeLossy (encode s) = s := by
  rw [decodeLossy, chars_encode, List.map_map]
  exact (congrArg String.ofList (List.map_id _)).trans String.ofList_toList

/-- The bytes of a text are well formed. -/
theorem decode?_encode (s : String) : decode? (encode s) = some s := by
  have h : (s.toList.map some).mapM id = some s.toList := by
    rw [List.mapM_map]
    exact List.mapM_pure.trans (congrArg some (List.map_id _))
  rw [decode?, chars_encode, h, Option.map_some, String.ofList_toList]

/-! ## The last character -/

/-- An ASCII character ends what has been begun ahead of it, as the end of the bytes does. -/
theorem tail_concat {lo : Nat} (n hi code : Nat) (bs : List UInt8) {b : UInt8} (hb : b.toNat < 0x80) (hlo : 0x80 ≤ lo) :
    tail n lo hi code (bs ++ [b]) = ((tail n lo hi code bs).1, (tail n lo hi code bs).2 ++ [b]) := by
  induction n generalizing lo hi code bs with
  | zero => rfl
  | succ n ih =>
    cases bs with
    | nil =>
      have hout : ¬lo ≤ b.toNat := by omega
      simp [tail, hout]
    | cons a bs =>
      simp only [List.cons_append, tail]
      split
      · exact ih _ _ _ (Nat.le_refl _)
      · rfl

theorem first_concat (a : UInt8) (bs : List UInt8) {b : UInt8} (hb : b.toNat < 0x80) :
    first a (bs ++ [b]) = ((first a bs).1, (first a bs).2 ++ [b]) := by
  unfold first
  split
  · rfl
  · split
    · rfl
    · rename_i hlead
      rw [tail_concat _ _ _ bs hb (le_lead hlead)]

theorem chars_concat (bs : List UInt8) {b : UInt8} (hb : b.toNat < 0x80) :
    chars (bs ++ [b]) = chars bs ++ [some (Char.ofNat b.toNat)] := by
  induction bs using chars.induct with
  | case1 => simp [chars, first, hb]
  | case2 a bs ih => rw [List.cons_append, chars, first_concat a bs hb, ih, chars, List.cons_append]

end Standby.Text.Utf8
