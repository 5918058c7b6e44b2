import Standby.Json.Parser
import Standby.Json.Printer
import Standby.Proofs.Basic
import Standby.Proofs.Text.Roundtrip
/-!
# Values read as they were written

Every character of a string is written in a way that reads back, and so is every string, and every natural number of 64
bits if what follows cannot be part of it. The text of a value without other numbers falls into the tokens that it was
put together from, and these lead back to the value.
-/

namespace Standby.Json

theorem hexValue?_toLower_hexDigit : ∀ n < 16, Text.hexValue? (Text.hexDigit n).toLower = some n := by decide

theorem hex4?_small {n : Nat} (h : n < 32) (rest : List Char) :
    hex4? ('0' :: '0' :: (Text.hexDigit (n / 16)).toLower :: (Text.hexDigit (n % 16)).toLower :: rest) =
      some (n, rest) := by
  have hzero : Text.hexValue? '0' = some 0 := by decide
  simp only [hex4?, hzero, hexValue?_toLower_hexDigit (n / 16) (by omega),
    hexValue?_toLower_hexDigit (n % 16) (by omega), Option.bind_eq_bind, Option.bind_some]
  rw [show 4096 * 0 + 256 * 0 + 16 * (n / 16) + n % 16 = n by omega]

/-- A character is read off the front of its text, which does not begin with a quote. -/
theorem stringChar?_escaped (c : Char) (rest : List Char) :
    ∃ d cs, (escaped c).toList = d :: cs ∧ d ≠ '\x22' ∧ stringChar? (d :: (cs ++ rest)) = some (c, rest) := by
  have hof {n : Nat} (h : c.toNat = n) : c = Char.ofNat n := by rw [← h, Char.ofNat_toNat]
  unfold escaped
  split
  · subst_vars
    exact ⟨'\x5c', ['\x22'], rfl, by decide, rfl⟩
  split
  · subst_vars
    exact ⟨'\x5c', ['\x5c'], rfl, by decide, rfl⟩
  split
  · subst_vars
    exact ⟨'\x5c', ['n'], rfl, by decide, rfl⟩
  split
  · subst_vars
    exact ⟨'\x5c', ['r'], rfl, by decide, rfl⟩
  split
  · subst_vars
    exact ⟨'\x5c', ['t'], rfl, by decide, rfl⟩
  split
  · rename_i h
    rw [hof h]
    exact ⟨'\x5c', ['b'], rfl, by decide, rfl⟩
  split
  · rename_i h
    rw [hof h]
    exact ⟨'\x5c', ['f'], rfl, by decide, rfl⟩
  split
  · rename_i h
    refine ⟨'\x5c', 'u' :: '0' :: '0' :: (Text.hexDigit (c.toNat / 16)).toLower ::
      [(Text.hexDigit (c.toNat % 16)).toLower], by simp, by decide, ?_⟩
    simp only [stringChar?, unicode?, List.cons_append, List.nil_append, hex4?_small h, Option.bind_eq_bind,
      Option.bind_some]
    rw [if_neg (by simp; omega), if_pos (by simp; omega), Char.ofNat_toNat]
  · rename_i hquote hslash _ _ _ _ _ hcontrol
    refine ⟨c, [], by simp, hquote, ?_⟩
    simp [stringChar?, hslash, hcontrol]

/-- A string is read up to the quote that ends it. -/
theorem stringRest?_escaped (cs done rest : List Char) :
    stringRest? done ((cs.flatMap fun c => (escaped c).toList) ++ '\x22' :: rest) =
      some (String.ofList (done.reverse ++ cs), rest) := by
  induction cs generalizing done with
  | nil => simp [stringRest?]
  | cons c cs ih =>
    obtain ⟨d, ds, htext, hquote, hread⟩ :=
      stringChar?_escaped c ((cs.flatMap fun c => (escaped c).toList) ++ '\x22' :: rest)
    rw [List.flatMap_cons, htext, List.cons_append, List.cons_append, List.append_assoc, stringRest?]
    · split
      · rename_i hnone
        cases hread.symm.trans hnone
      · rename_i hsome
        cases hread.symm.trans hsome
        simpa using ih (c :: done)
    · intro rest' h
      exact hquote (List.cons.inj h).1

theorem toList_quoted (s : String) :
    (quoted s).toList = '\x22' :: ((s.toList.flatMap fun c => (escaped c).toList) ++ ['\x22']) := by
  simp [quoted, List.flatMap_map]

/-- A string is read as it was written. -/
theorem read?_quoted (s : String) (rest : List Char) :
    Token.read? ((quoted s).toList ++ rest) = some (.str s, rest) := by
  rw [toList_quoted]
  simp only [List.cons_append, List.append_assoc, List.nil_append, Token.read?, stringRest?_escaped]
  simp

/-- A token that does not begin with a blank is taken off the front of a text. -/
theorem readAll?_token {c : Char} {rest after : List Char} {t : Token} (done : List Token)
    (hspace : isSpace c = false) (h : Token.read? (c :: rest) = some (t, after)) :
    Token.readAll? done (c :: rest) = Token.readAll? (t :: done) after := by
  rw [Token.readAll?, if_neg (by simp [hspace])]
  split
  · rename_i hnone
    cases h.symm.trans hnone
  · rename_i hsome
    cases h.symm.trans hsome
    rfl

/-! ## Numbers -/

/-- Whether a number is a natural number of 64 bits. -/
def isCount : Number → Bool
  | .int (.ofNat n) => n < Nat.pow 2 64
  | _ => false

theorem isCount_iff {x : Number} : isCount x = true ↔ ∃ n : Nat, n < Nat.pow 2 64 ∧ x = .int n := by
  constructor
  · intro h
    match x with
    | .int (.ofNat n) => exact ⟨n, of_decide_eq_true h, rfl⟩
  · rintro ⟨n, hn, rfl⟩
    exact decide_eq_true hn

/-- Whether a text can follow a number and is no part of it. -/
def endsNumber (rest : List Char) : Bool :=
  rest.head?.all fun c => !(c.isDigit || c == '.' || c == 'e' || c == 'E')

section Numbers
variable {n : Nat} {rest : List Char}

theorem digits_append {ds : List Char} (hds : ∀ d ∈ ds, d.isDigit = true) (hrest : endsNumber rest = true) :
    digits (ds ++ rest) = (ds, rest) := by
  rw [digits, List.takeWhile_append_of_pos hds, List.dropWhile_append_of_pos hds]
  cases rest with
  | nil => simp
  | cons c rest =>
    have hc : c.isDigit = false := by simp_all [endsNumber]
    simp [hc]

theorem fraction?_of_endsNumber (hrest : endsNumber rest = true) : fraction? rest = some (none, rest) := by
  unfold fraction?
  split
  · simp [endsNumber] at hrest
  · rfl

theorem exponent?_of_endsNumber (hrest : endsNumber rest = true) : exponent? rest = some (none, rest) := by
  unfold exponent?
  split
  · rw [if_neg (by simp_all [endsNumber])]
  · rfl

theorem exists_toDigits (n : Nat) : ∃ d ds, Nat.toDigits 10 n = d :: ds ∧ d.isDigit = true := by
  obtain ⟨d, ds, hds⟩ := List.exists_cons_of_ne_nil (Nat.toDigits_ne_nil (n := n) (b := 10))
  exact ⟨d, ds, hds, Text.isDigit_of_mem_toDigits (hds ▸ List.mem_cons_self)⟩

/-- A natural number of 64 bits is read as it was written. -/
theorem readNumber?_toString (hn : n < Nat.pow 2 64) (hrest : endsNumber rest = true) :
    readNumber? ((toString n).toList ++ rest) = some (.int n, rest) := by
  obtain ⟨d, ds, hds, hd⟩ := exists_toDigits n
  have hminus : takeMinus (Nat.toDigits 10 n ++ rest) = (false, Nat.toDigits 10 n ++ rest) := by
    unfold takeMinus
    split
    · rename_i heq
      rw [hds, List.cons_append] at heq
      cases (List.cons.inj heq).1
      exact absurd hd (by decide)
    · rfl
  have hzero : ((Nat.toDigits 10 n).isEmpty ||
      ((Nat.toDigits 10 n).head? == some '0' && decide ((Nat.toDigits 10 n).length > 1))) = false := by
    by_cases h : n = 0
    · subst h
      decide
    · simp [Text.head?_toDigits_ne h, Nat.toDigits_ne_nil]
  have hwhole : number? false (Nat.toDigits 10 n) none none = some (.int n) := by
    simp [number?, Text.digitsValue_toDigits, hn]
  rw [Text.toList_toString, readNumber?, hminus]
  simp only [digits_append (fun _ => Text.isDigit_of_mem_toDigits) hrest, hzero, fraction?_of_endsNumber hrest,
    exponent?_of_endsNumber hrest, hwhole, Option.bind_eq_bind, Option.bind_some, Bool.false_eq_true, if_false]

theorem isSpace_of_isDigit {d : Char} (hd : d.isDigit = true) : isSpace d = false := by
  have hne {c : Char} (hc : c.isDigit = false) : d ≠ c := fun h => by simp [h ▸ hd] at hc
  simp only [isSpace, Bool.or_eq_false_iff, beq_eq_false_iff_ne]
  exact ⟨⟨⟨hne rfl, hne rfl⟩, hne rfl⟩, hne rfl⟩

/-- A text that begins with a digit begins with a number or with no token. -/
theorem read?_of_isDigit {d : Char} (hd : d.isDigit = true) (cs : List Char) :
    Token.read? (d :: cs) = (readNumber? (d :: cs)).map fun (n, rest) => (.num n, rest) := by
  unfold Token.read?
  split
  case h_11 => rfl
  all_goals
    rename_i heq
    rw [(List.cons.inj heq).1] at hd
    exact absurd hd (by decide)

/-- A number is a token if what follows is no part of it. -/
theorem readAll?_number (hn : n < Nat.pow 2 64) (done : List Token) (hrest : endsNumber rest = true) :
    Token.readAll? done ((toString n).toList ++ rest) = Token.readAll? (.num (.int n) :: done) rest := by
  obtain ⟨d, ds, hds, hd⟩ := exists_toDigits n
  have hnumber := readNumber?_toString hn hrest
  rw [Text.toList_toString, hds, List.cons_append] at hnumber ⊢
  refine readAll?_token done (isSpace_of_isDigit hd) ?_
  rw [read?_of_isDigit hd, hnumber]
  rfl

end Numbers

/-! ## Tokens -/

mutual

/-- The tokens that a value is written with. -/
def tokens : Json → List Token
  | .null => [.null]
  | .bool b => [.bool b]
  | .num n => [.num n]
  | .str s => [.str s]
  | .arr items => .openArr :: (itemsTokens items ++ [.closeArr])
  | .obj members => .openObj :: (membersTokens members ++ [.closeObj])

def itemsTokens : List Json → List Token
  | [] => []
  | [j] => tokens j
  | j :: js => tokens j ++ .comma :: itemsTokens js

def membersTokens : List (String × Json) → List Token
  | [] => []
  | [(k, v)] => .str k :: .colon :: tokens v
  | (k, v) :: rest => .str k :: .colon :: (tokens v ++ .comma :: membersTokens rest)

end

mutual

/-- Whether the numbers in a value are natural ones of 64 bits, it nests no deeper than `depth`, and no object in it has a
key twice. -/
def isPlain (depth : Nat) : Json → Bool
  | .null => true
  | .bool _ => true
  | .num n => isCount n
  | .str _ => true
  | .arr items => 0 < depth && itemsPlain (depth - 1) items
  | .obj members => 0 < depth && (members.map (·.1)).Nodup && membersPlain (depth - 1) members

def itemsPlain (depth : Nat) : List Json → Bool
  | [] => true
  | j :: js => isPlain depth j && itemsPlain depth js

def membersPlain (depth : Nat) : List (String × Json) → Bool
  | [] => true
  | (_, v) :: rest => isPlain depth v && membersPlain depth rest

end

/-- A token that ends whatever follows it is taken off the front of a text. -/
theorem readAll?_sign {c : Char} {t : Token} (hspace : isSpace c = false)
    (h : ∀ rest, Token.read? (c :: rest) = some (t, rest)) (done : List Token) (rest : List Char) :
    Token.readAll? done (c :: rest) = Token.readAll? (t :: done) rest :=
  readAll?_token done hspace (h rest)

theorem readAll?_quoted (s : String) (done : List Token) (rest : List Char) :
    Token.readAll? done ((quoted s).toList ++ rest) = Token.readAll? (.str s :: done) rest := by
  have h := read?_quoted s rest
  rw [toList_quoted, List.cons_append] at h ⊢
  exact readAll?_token done rfl h

mutual

/-- A value is read off the front of a text token by token, if what follows is no part of a number. -/
theorem readAll?_text (depth : Nat) (j : Json) (h : isPlain depth j = true) (done : List Token) {rest : List Char}
    (hrest : endsNumber rest = true) :
    Token.readAll? done (j.text.toList ++ rest) = Token.readAll? ((tokens j).reverse ++ done) rest := by
  match j with
  | .null => exact readAll?_token done rfl rfl
  | .bool true => exact readAll?_token done rfl rfl
  | .bool false => exact readAll?_token done rfl rfl
  | .num n =>
    obtain ⟨m, hm, rfl⟩ := isCount_iff.1 h
    exact readAll?_number hm done hrest
  | .str s => exact readAll?_quoted s done rest
  | .arr items =>
    simp only [isPlain, Bool.and_eq_true] at h
    have htext : (Json.arr items).text.toList ++ rest = '[' :: ((itemsText items).toList ++ ']' :: rest) := by
      simp [text]
    rw [htext, readAll?_sign rfl (fun _ => rfl), readAll?_items _ items h.2 _ rfl, readAll?_sign rfl fun _ => rfl]
    simp [tokens]
  | .obj members =>
    simp only [isPlain, Bool.and_eq_true] at h
    have htext : (Json.obj members).text.toList ++ rest =
        '\x7b' :: ((membersText members).toList ++ '\x7d' :: rest) := by
      simp [text]
    rw [htext, readAll?_sign rfl (fun _ => rfl), readAll?_members _ members h.2 _ rfl,
      readAll?_sign rfl fun _ => rfl]
    simp [tokens]

theorem readAll?_items (depth : Nat) (items : List Json) (h : itemsPlain depth items = true) (done : List Token)
    {rest : List Char} (hrest : endsNumber rest = true) :
    Token.readAll? done ((itemsText items).toList ++ rest) =
      Token.readAll? ((itemsTokens items).reverse ++ done) rest := by
  match items with
  | [] => rfl
  | [j] =>
    simp only [itemsPlain, Bool.and_eq_true] at h
    exact readAll?_text depth j h.1 done hrest
  | j :: k :: js =>
    simp only [itemsPlain, Bool.and_eq_true] at h
    have htext : (itemsText (j :: k :: js)).toList ++ rest =
        j.text.toList ++ ',' :: ((itemsText (k :: js)).toList ++ rest) := by
      simp [itemsText]
    rw [htext, readAll?_text depth j h.1 _ rfl, readAll?_sign rfl (fun _ => rfl),
      readAll?_items depth (k :: js) (by simp [itemsPlain, h.2]) _ hrest]
    simp [itemsTokens]

theorem readAll?_members (depth : Nat) (members : List (String × Json)) (h : membersPlain depth members = true)
    (done : List Token) {rest : List Char} (hrest : endsNumber rest = true) :
    Token.readAll? done ((membersText members).toList ++ rest) =
      Token.readAll? ((membersTokens members).reverse ++ done) rest := by
  match members with
  | [] => rfl
  | [(k, v)] =>
    simp only [membersPlain, Bool.and_eq_true] at h
    have htext : (membersText [(k, v)]).toList ++ rest = (quoted k).toList ++ ':' :: (v.text.toList ++ rest) := by
      simp [membersText]
    rw [htext, readAll?_quoted, readAll?_sign rfl (fun _ => rfl), readAll?_text depth v h.1 _ hrest]
    simp [membersTokens]
  | (k, v) :: p :: ps =>
    simp only [membersPlain, Bool.and_eq_true] at h
    have htext : (membersText ((k, v) :: p :: ps)).toList ++ rest =
        (quoted k).toList ++ ':' :: (v.text.toList ++ ',' :: ((membersText (p :: ps)).toList ++ rest)) := by
      simp [membersText]
    rw [htext, readAll?_quoted, readAll?_sign rfl (fun _ => rfl), readAll?_text depth v h.1 _ rfl,
      readAll?_sign rfl (fun _ => rfl), readAll?_members depth (p :: ps) (by simp [membersPlain, h.2]) _ hrest]
    simp [membersTokens]

end

/-! ## Values -/

/-- The first item of an array is read as any other. -/
theorem foldlM_firstItem (j : Json) (frames : List Frame) (ts : List Token) :
    (tokens j ++ ts).foldlM Reading.step? ⟨frames, .firstItem⟩ =
      (tokens j ++ ts).foldlM Reading.step? ⟨.arr [] :: frames, .value⟩ := by
  cases j <;> rfl

theorem itemsTokens_cons (j : Json) (js : List Json) : ∃ ts, itemsTokens (j :: js) = tokens j ++ ts := by
  cases js with
  | nil => exact ⟨[], (List.append_nil _).symm⟩
  | cons k ks => exact ⟨_, rfl⟩

theorem foldlM_key (k : String) (done : List (String × Json)) (mayClose : Bool) (frames : List Frame)
    (ts : List Token) :
    (Token.str k :: .colon :: ts).foldlM Reading.step? ⟨frames, .key done mayClose⟩ =
      ts.foldlM Reading.step? ⟨.obj done k :: frames, .value⟩ := by
  cases mayClose <;> rfl

/-- A member with a new key goes to the end of those before it. -/
theorem insertKey_of_nodup {k : String} (v : Json) {done rest : List (String × Json)}
    (h : ((done ++ (k, v) :: rest).map (·.1)).Nodup) : insertKey k v done = done ++ [(k, v)] := by
  refine insertKey_of_fresh v (lookup?_eq_none_iff.2 fun hk => ?_)
  rw [List.map_append, List.map_cons] at h
  exact (List.nodup_append.1 h).2.2 k hk k List.mem_cons_self rfl

mutual

/-- The tokens of a value lead from the place before it to the place after it. -/
theorem foldlM_tokens (depth : Nat) (j : Json) (h : isPlain depth j = true) (frames : List Frame)
    (hdepth : frames.length + depth ≤ maxDepth) (ts : List Token) :
    (tokens j ++ ts).foldlM Reading.step? ⟨frames, .value⟩ = ts.foldlM Reading.step? ⟨frames, .after j⟩ := by
  match j with
  | .null => rfl
  | .bool b => rfl
  | .num n => rfl
  | .str s => rfl
  | .arr items =>
    simp only [isPlain, Bool.and_eq_true, decide_eq_true_eq] at h
    have hroom : frames.length < maxDepth := by omega
    have hopen : Reading.step? ⟨frames, .value⟩ .openArr = some ⟨frames, .firstItem⟩ := if_pos hroom
    have htokens : tokens (.arr items) ++ ts = .openArr :: (itemsTokens items ++ .closeArr :: ts) := by
      simp [tokens]
    rw [htokens, List.foldlM_cons, hopen]
    cases items with
    | nil => rfl
    | cons j js =>
      have hfirst : (itemsTokens (j :: js) ++ .closeArr :: ts).foldlM Reading.step? ⟨frames, .firstItem⟩ =
          (itemsTokens (j :: js) ++ .closeArr :: ts).foldlM Reading.step? ⟨.arr [] :: frames, .value⟩ := by
        obtain ⟨rest, hrest⟩ := itemsTokens_cons j js
        rw [hrest, List.append_assoc]
        exact foldlM_firstItem j frames _
      exact hfirst.trans (foldlM_items (depth - 1) _ h.2 (List.cons_ne_nil j js) [] frames (by omega) ts)
  | .obj members =>
    simp only [isPlain, Bool.and_eq_true, decide_eq_true_eq] at h
    have hroom : frames.length < maxDepth := by omega
    have hopen : Reading.step? ⟨frames, .value⟩ .openObj = some ⟨frames, .key [] true⟩ := if_pos hroom
    have htokens : tokens (.obj members) ++ ts = .openObj :: (membersTokens members ++ .closeObj :: ts) := by
      simp [tokens]
    rw [htokens, List.foldlM_cons, hopen]
    cases members with
    | nil => rfl
    | cons p rest => exact foldlM_members (depth - 1) _ h.2 (List.cons_ne_nil p rest) [] true frames (by omega) h.1.2 ts

theorem foldlM_items (depth : Nat) (items : List Json) (h : itemsPlain depth items = true) (hitems : items ≠ [])
    (done : List Json) (frames : List Frame) (hdepth : frames.length + 1 + depth ≤ maxDepth) (ts : List Token) :
    (itemsTokens items ++ .closeArr :: ts).foldlM Reading.step? ⟨.arr done :: frames, .value⟩ =
      ts.foldlM Reading.step? ⟨frames, .after (.arr (done.reverse ++ items))⟩ := by
  match items with
  | [] => exact absurd rfl hitems
  | [j] =>
    simp only [itemsPlain, Bool.and_eq_true] at h
    rw [itemsTokens, foldlM_tokens depth j h.1 (.arr done :: frames) hdepth, List.foldlM_cons]
    simp [Reading.step?, Reading.continue?]
  | j :: k :: js =>
    rw [itemsPlain, Bool.and_eq_true] at h
    have hrest := foldlM_items depth (k :: js) h.2 (List.cons_ne_nil k js) (j :: done) frames hdepth ts
    rw [itemsTokens.eq_3 j (k :: js) (List.cons_ne_nil k js), List.append_assoc,
      foldlM_tokens depth j h.1 (.arr done :: frames) hdepth, List.cons_append, List.foldlM_cons]
    simpa [Reading.step?, Reading.continue?] using hrest

theorem foldlM_members (depth : Nat) (members : List (String × Json)) (h : membersPlain depth members = true)
    (hmembers : members ≠ []) (done : List (String × Json)) (mayClose : Bool) (frames : List Frame)
    (hdepth : frames.length + 1 + depth ≤ maxDepth) (hkeys : ((done ++ members).map (·.1)).Nodup) (ts : List Token) :
    (membersTokens members ++ .closeObj :: ts).foldlM Reading.step? ⟨frames, .key done mayClose⟩ =
      ts.foldlM Reading.step? ⟨frames, .after (.obj (done ++ members))⟩ := by
  match members with
  | [] => exact absurd rfl hmembers
  | [(k, v)] =>
    simp only [membersPlain, Bool.and_eq_true] at h
    rw [membersTokens, List.cons_append, List.cons_append, foldlM_key,
      foldlM_tokens depth v h.1 (.obj done k :: frames) hdepth, List.foldlM_cons]
    simp [Reading.step?, Reading.continue?, insertKey_of_nodup v hkeys]
  | (k, v) :: p :: rest =>
    rw [membersPlain, Bool.and_eq_true] at h
    have hrest := foldlM_members depth (p :: rest) h.2 (List.cons_ne_nil p rest) (done ++ [(k, v)]) false frames hdepth
      (by simpa using hkeys) ts
    rw [membersTokens.eq_3 k v (p :: rest) (List.cons_ne_nil p rest), List.cons_append, List.cons_append, foldlM_key,
      List.append_assoc, foldlM_tokens depth v h.1 (.obj done k :: frames) hdepth, List.cons_append, List.foldlM_cons]
    simpa [Reading.step?, Reading.continue?, insertKey_of_nodup v hkeys] using hrest

end

/-- A value whose numbers are natural ones of 64 bits is read as it was written, if it does not nest too deep. -/
theorem parse?_text {j : Json} (h : isPlain maxDepth j = true) : parse? j.text = some j := by
  have htokens : Token.readAll? [] j.text.toList = some (tokens j) := by
    have hread := @readAll?_text maxDepth j h [] [] rfl
    rw [List.append_nil, List.append_nil] at hread
    rw [hread, Token.readAll?, List.reverse_reverse]
  have hfold := foldlM_tokens maxDepth j h [] (by simp) []
  rw [List.append_nil] at hfold
  simp [parse?, htokens, Reading.start, hfold]

end Standby.Json
