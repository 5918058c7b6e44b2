/-!
# UTF-8

`decode?` reads bytes that are well-formed UTF-8 throughout. `decodeLossy` reads any bytes: the longest
beginning of a character that goes no further stands for one U+FFFD, and so does a byte that begins none.
-/

namespace Standby.Text.Utf8

/-- The bytes of a text. -/
def encode (s : String) : List UInt8 := s.toList.flatMap String.utf8EncodeChar

/-- How many bytes a text has. -/
def size (s : String) : Nat := s.utf8ByteSize

/-- What the first byte of a character of several bytes says: its own share of the code point, how many bytes
follow, and the bounds of the next one. The bounds leave out overlong forms, surrogates and what is beyond
U+10FFFF. -/
def lead? (b : Nat) : Option (Nat × Nat × Nat × Nat) :=
  if 0xC2 ≤ b && b ≤ 0xDF then some (b - 0xC0, 1, 0x80, 0xBF)
  else if b = 0xE0 then some (0, 2, 0xA0, 0xBF)
  else if b = 0xED then some (0xD, 2, 0x80, 0x9F)
  else if 0xE1 ≤ b && b ≤ 0xEF then some (b - 0xE0, 2, 0x80, 0xBF)
  else if b = 0xF0 then some (0, 3, 0x90, 0xBF)
  else if 0xF1 ≤ b && b ≤ 0xF3 then some (b - 0xF0, 3, 0x80, 0xBF)
  else if b = 0xF4 then some (4, 3, 0x80, 0x8F)
  else none

/-- Reads `n` more bytes of a character, the first of them between `lo` and `hi`, and gives what is left. -/
def tail : (n lo hi code : Nat) → List UInt8 → Option Nat × List UInt8
  | 0, _, _, code, bs => (some code, bs)
  | _ + 1, _, _, _, [] => (none, [])
  | n + 1, lo, hi, code, b :: bs =>
    if lo ≤ b.toNat && b.toNat ≤ hi then tail n 0x80 0xBF (64 * code + (b.toNat - 0x80)) bs
    else (none, b :: bs)

/-- The character that a byte and those after it begin with, if it is well formed, and what is left. -/
def first (b : UInt8) (bs : List UInt8) : Option Char × List UInt8 :=
  if b.toNat < 0x80 then (some (Char.ofNat b.toNat), bs)
  else
    match lead? b.toNat with
    | none => (none, bs)
    | some (code, n, lo, hi) =>
      let (code, rest) := tail n lo hi code bs
      (code.map Char.ofNat, rest)

theorem length_tail_le (n lo hi code : Nat) (bs : List UInt8) :
    (tail n lo hi code bs).2.length ≤ bs.length := by
  induction n generalizing lo hi code bs with
  | zero => simp [tail]
  | succ n ih =>
    cases bs with
    | nil => simp [tail]
    | cons b bs =>
      simp only [tail]
      split
      · exact Nat.le_succ_of_le (ih _ _ _ _)
      · simp

theorem length_first_le (b : UInt8) (bs : List UInt8) : (first b bs).2.length ≤ bs.length := by
  unfold first
  split
  · simp
  · split
    · simp
    · exact length_tail_le _ _ _ _ _

/-- The characters of a run of bytes; `none` stands for bytes that are none. -/
def chars : List UInt8 → List (Option Char)
  | [] => []
  | b :: bs => (first b bs).1 :: chars (first b bs).2
termination_by bs => bs.length
decreasing_by
  have := length_first_le b bs
  simp only [List.length_cons]
  omega

/-- The text that well-formed bytes spell. -/
def decode? (bs : List UInt8) : Option String := ((chars bs).mapM id).map String.ofList

/-- The text that bytes spell, with U+FFFD for what is not well formed. -/
def decodeLossy (bs : List UInt8) : String := String.ofList ((chars bs).map (·.getD '\uFFFD'))

end Standby.Text.Utf8
