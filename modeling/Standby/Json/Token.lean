import Standby.Decimal.Reader
import Standby.Json.Basic
import Standby.Text.Ascii
/-!
# JSON tokens

A document is first cut into tokens. `Token.read?` takes one token off the front of a text that begins with
one, and `Token.readAll?` cuts up a whole text, leaving out the blanks between tokens.
-/

namespace Standby.Json

/-- The smallest parts of a document. -/
inductive Token where
  | openObj
  | closeObj
  | openArr
  | closeArr
  | colon
  | comma
  | null
  | bool (b : Bool)
  | num (n : Number)
  | str (s : String)

/-- The blanks that may stand between tokens. -/
def isSpace (c : Char) : Bool := c == ' ' || c == '\n' || c == '\r' || c == '\t'

/-- The value of four hexadecimal digits at the front of a text, and the rest of it. -/
def hex4? : List Char → Option (Nat × List Char)
  | a :: b :: c :: d :: rest => do
    let a ← Text.hexValue? a
    let b ← Text.hexValue? b
    let c ← Text.hexValue? c
    let d ← Text.hexValue? d
    some (4096 * a + 256 * b + 16 * c + d, rest)
  | _ => none

/-- The character that follows a backslash and a `u`. One beyond U+FFFF is written as two units, of which
the second needs a backslash and a `u` of its own; half of such a pair alone is refused. -/
def unicode? (cs : List Char) : Option (Char × List Char) := do
  let (n, rest) ← hex4? cs
  if 0xDC00 ≤ n && n ≤ 0xDFFF then none
  else if n < 0xD800 || 0xDFFF < n then some (Char.ofNat n, rest)
  else
    match rest with
    | '\x5c' :: 'u' :: low =>
      let (k, rest) ← hex4? low
      if 0xDC00 ≤ k && k ≤ 0xDFFF then
        some (Char.ofNat (0x10000 + 1024 * (n - 0xD800) + (k - 0xDC00)), rest)
      else none
    | _ => none

/-- One character of a string and the rest of the text, not for a text that begins with a quote. -/
def stringChar? : List Char → Option (Char × List Char)
  | '\x5c' :: '\x22' :: rest => some ('\x22', rest)
  | '\x5c' :: '\x5c' :: rest => some ('\x5c', rest)
  | '\x5c' :: '/' :: rest => some ('/', rest)
  | '\x5c' :: 'b' :: rest => some ('\x08', rest)
  | '\x5c' :: 'f' :: rest => some ('\x0c', rest)
  | '\x5c' :: 'n' :: rest => some ('\n', rest)
  | '\x5c' :: 'r' :: rest => some ('\r', rest)
  | '\x5c' :: 't' :: rest => some ('\t', rest)
  | '\x5c' :: 'u' :: rest => unicode? rest
  | '\x5c' :: _ => none
  | c :: rest => if c.toNat < 32 then none else some (c, rest)
  | [] => none

theorem length_of_hex4? {cs rest : List Char} {n : Nat} (h : hex4? cs = some (n, rest)) :
    rest.length < cs.length := by
  unfold hex4? at h
  split at h
  · simp only [Option.bind_eq_bind, Option.bind_eq_some_iff, Option.some.injEq, Prod.mk.injEq] at h
    obtain ⟨_, _, _, _, _, _, _, _, _, rfl⟩ := h
    simp only [List.length_cons]
    omega
  · simp at h

theorem length_of_unicode? {cs rest : List Char} {c : Char} (h : unicode? cs = some (c, rest)) :
    rest.length < cs.length := by
  simp only [unicode?, Option.bind_eq_bind, Option.bind_eq_some_iff] at h
  obtain ⟨⟨n, r⟩, hn, h⟩ := h
  have hr := length_of_hex4? hn
  split at h
  · simp at h
  split at h
  · simp only [Option.some.injEq, Prod.mk.injEq] at h
    exact h.2 ▸ hr
  split at h
  · rename_i heq
    simp only [Option.bind_eq_some_iff] at h
    obtain ⟨⟨k, s⟩, hk, h⟩ := h
    have hs := length_of_hex4? hk
    have hr : r.length = _ := congrArg List.length heq
    simp only [List.length_cons] at hr
    split at h
    · simp only [Option.some.injEq, Prod.mk.injEq] at h
      rw [← h.2]
      omega
    · simp at h
  · simp at h

theorem length_of_stringChar? {cs rest : List Char} {c : Char} (h : stringChar? cs = some (c, rest)) :
    rest.length < cs.length := by
  fun_cases stringChar? cs
  case case9 r =>
    have := length_of_unicode? h
    simp only [List.length_cons]
    omega
  all_goals grind [stringChar?]

/-- The rest of a string after its opening quote and the characters `done`, which are in reverse. -/
def stringRest? (done : List Char) : List Char → Option (String × List Char)
  | '\x22' :: rest => some (String.ofList done.reverse, rest)
  | cs =>
    match h : stringChar? cs with
    | none => none
    | some (c, rest) =>
      have := length_of_stringChar? h
      stringRest? (c :: done) rest
termination_by cs => cs.length
decreasing_by exact this

theorem length_of_stringRest? {done cs rest : List Char} {s : String}
    (h : stringRest? done cs = some (s, rest)) : rest.length < cs.length := by
  fun_induction stringRest? done cs with
  | case1 => simp_all
  | case2 => simp at h
  | case3 done cs c r _ hc hr ih => exact Nat.lt_trans (ih h) hr

/-- The longest run of digits at the front of a text, and the rest of it. -/
def digits (cs : List Char) : List Char × List Char := (cs.takeWhile Char.isDigit, cs.dropWhile Char.isDigit)

theorem length_digits_le (cs : List Char) : (digits cs).2.length ≤ cs.length :=
  (List.dropWhile_suffix _).length_le

theorem length_digits {cs : List Char} (h : (digits cs).1 ≠ []) : (digits cs).2.length < cs.length := by
  have e : cs.takeWhile Char.isDigit ++ cs.dropWhile Char.isDigit = cs := List.takeWhile_append_dropWhile
  have := congrArg List.length e
  have := List.length_pos_iff.2 h
  simp only [List.length_append, digits] at *
  omega

/-- The fraction of a number, if a point begins it; the point must be followed by a digit. -/
def fraction? : List Char → Option (Option (List Char) × List Char)
  | '.' :: cs =>
    let (ds, rest) := digits cs
    if ds.isEmpty then none else some (some ds, rest)
  | cs => some (none, cs)

theorem length_of_fraction? {cs rest : List Char} {f : Option (List Char)} (h : fraction? cs = some (f, rest)) :
    rest.length ≤ cs.length := by
  unfold fraction? at h
  split at h
  · rename_i cs
    have := length_digits_le cs
    split at h
    simp_all
    omega
  · simp_all

/-- Whether a minus sign begins a text, and the rest of the text. -/
def takeMinus : List Char → Bool × List Char
  | '-' :: cs => (true, cs)
  | cs => (false, cs)

theorem length_takeMinus (cs : List Char) : (takeMinus cs).2.length ≤ cs.length := by
  unfold takeMinus
  split <;> simp

/-- Whether a minus sign begins a text, and the rest of the text after a sign. -/
def takeSign : List Char → Bool × List Char
  | '+' :: cs => (false, cs)
  | cs => takeMinus cs

theorem length_takeSign (cs : List Char) : (takeSign cs).2.length ≤ cs.length := by
  unfold takeSign
  split
  · simp
  · exact length_takeMinus _

/-- The exponent of a number, if there is one; it needs a digit. -/
def exponent? : List Char → Option (Option Int × List Char)
  | c :: cs =>
    if c = 'e' || c = 'E' then
      let (negative, cs) := takeSign cs
      let (ds, rest) := digits cs
      if ds.isEmpty then none
      else
        let n : Int := Text.digitsValue ds
        some (some (if negative then -n else n), rest)
    else some (none, c :: cs)
  | [] => some (none, [])

theorem length_of_exponent? {cs rest : List Char} {e : Option Int} (h : exponent? cs = some (e, rest)) :
    rest.length ≤ cs.length := by
  unfold exponent? at h
  split at h
  · rename_i c cs
    have := length_takeSign cs
    have := length_digits_le (takeSign cs).2
    split at h
    · simp_all
      omega
    · simp_all
  · simp_all

/-- The number with the given digits before and after the point, if it is in range. One without a fraction
and an exponent is an integer if it fits 64 bits; a negative zero is a double. -/
def number? (negative : Bool) (whole : List Char) (fraction : Option (List Char)) (exponent : Option Int) :
    Option Number :=
  let n := Text.digitsValue whole
  if fraction.isNone && exponent.isNone && !negative && n < Nat.pow 2 64 then some (.int n)
  else if fraction.isNone && exponent.isNone && negative && 0 < n && n ≤ Nat.pow 2 63 then some (.int (-n))
  else
    let kept := (Decimal.Kept.ofWhole 0 whole).addFraction (fraction.getD [])
    let scaled : Decimal.Kept := ⟨kept.significand, kept.exponent + exponent.getD 0⟩
    scaled.toFloat?.map fun x => .real (if negative then -x else x)

/-- A number at the front of a text. No zero comes before another digit. -/
def readNumber? (cs : List Char) : Option (Number × List Char) := do
  let (negative, cs) := takeMinus cs
  let (whole, rest) := digits cs
  if whole.isEmpty || (whole.head? == some '0' && whole.length > 1) then none
  else
    let (fraction, rest) ← fraction? rest
    let (exponent, rest) ← exponent? rest
    let n ← number? negative whole fraction exponent
    some (n, rest)

theorem length_of_readNumber? {cs rest : List Char} {n : Number} (h : readNumber? cs = some (n, rest)) :
    rest.length < cs.length := by
  have hm := length_takeMinus cs
  simp only [readNumber?, Option.bind_eq_bind] at h
  split at h
  · simp at h
  · rename_i hw
    have hd : (digits (takeMinus cs).2).1 ≠ [] := by
      intro he
      simp [he] at hw
    have hd := length_digits hd
    simp only [Option.bind_eq_some_iff] at h
    obtain ⟨⟨f, r⟩, hf, ⟨e, r'⟩, he, _, _, h⟩ := h
    have hf := length_of_fraction? hf
    have he := length_of_exponent? he
    simp only [Option.some.injEq, Prod.mk.injEq] at h
    rw [← h.2]
    simp only at hf he ⊢
    omega

/-- The token at the front of a text, and the rest of the text. -/
def Token.read? : List Char → Option (Token × List Char)
  | '\x7b' :: cs => some (.openObj, cs)
  | '\x7d' :: cs => some (.closeObj, cs)
  | '[' :: cs => some (.openArr, cs)
  | ']' :: cs => some (.closeArr, cs)
  | ':' :: cs => some (.colon, cs)
  | ',' :: cs => some (.comma, cs)
  | 'n' :: 'u' :: 'l' :: 'l' :: cs => some (.null, cs)
  | 't' :: 'r' :: 'u' :: 'e' :: cs => some (.bool true, cs)
  | 'f' :: 'a' :: 'l' :: 's' :: 'e' :: cs => some (.bool false, cs)
  | '\x22' :: cs => (stringRest? [] cs).map fun (s, rest) => (.str s, rest)
  | cs => (readNumber? cs).map fun (n, rest) => (.num n, rest)

theorem length_of_read? {cs rest : List Char} {t : Token} (h : Token.read? cs = some (t, rest)) :
    rest.length < cs.length := by
  unfold Token.read? at h
  split at h
  case h_10 =>
    simp only [Option.map_eq_some_iff, Prod.mk.injEq] at h
    obtain ⟨⟨s, r⟩, hs, _, h⟩ := h
    have := length_of_stringRest? hs
    rw [← h]
    simp only [List.length_cons]
    omega
  case h_11 =>
    simp only [Option.map_eq_some_iff, Prod.mk.injEq] at h
    obtain ⟨⟨n, r⟩, hn, _, h⟩ := h
    exact h ▸ length_of_readNumber? hn
  all_goals
    simp only [Option.some.injEq, Prod.mk.injEq] at h
    rw [← h.2]
    simp only [List.length_cons]
    omega

/-- The tokens of a text after the tokens `done`, which are in reverse. -/
def Token.readAll? (done : List Token) (cs : List Char) : Option (List Token) :=
  match cs with
  | [] => some done.reverse
  | c :: rest =>
    if isSpace c then readAll? done rest
    else
      match h : Token.read? (c :: rest) with
      | none => none
      | some (t, after) =>
        have := length_of_read? h
        readAll? (t :: done) after
termination_by cs.length
decreasing_by
  · exact Nat.lt_succ_self _
  · exact this

end Standby.Json
