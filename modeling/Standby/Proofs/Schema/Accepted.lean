import Standby.Proofs.Schema.Paths
/-!
# Values that a schema accepts

What is known of a value that a schema accepts, one statement for each kind of schema. An object has its required
keys and no unexpected ones, and its named values are accepted by their own schemas (`checkAt_object_eq_ok`); a
string obeys its rules, and a flag stands for a truth value.
-/

namespace Standby

/-- What the rules ask of a string. -/
structure TextRules.Allow (rules : TextRules) (s : String) : Prop where
  options : ∀ l, rules.options = some l → s ∈ l
  minLength : ∀ n, rules.minLength = some n → n ≤ s.length
  maxLength : ∀ n, rules.maxLength = some n → s.length ≤ n
  pattern : ∀ p, rules.pattern = some p → p.isIn s = true
  format : ∀ f, rules.format = some f → f.accepts s = true

namespace Schema

variable {field : Option String} {value : Json} {properties : List (String × Schema)}
  {patterns : List (Text.Pattern × Schema)} {required : List String} {anyOf : List (List String)} {additional : Bool}
  {members : List (String × Json)}

/-! ## Strings, integers and flags -/

/-- A rule that is there decides, and one that is missing leaves it to the rules after it. -/
theorem ite_any_eq_none {α β : Type} {rule : Option α} {breaks : α → Bool} {complaint rest : Option β}
    (hc : rule ≠ none → complaint ≠ none) :
    (if rule.any breaks then complaint else rest) = none ↔ (∀ a, rule = some a → breaks a = false) ∧ rest = none := by
  cases rule with
  | none => simp
  | some a => cases hb : breaks a <;> simp [hb, hc]

theorem textComplaint?_eq_none_iff {rules : TextRules} {s : String} :
    textComplaint? rules s = none ↔ rules.Allow s := by
  unfold textComplaint?
  rw [ite_any_eq_none (by simp), ite_any_eq_none (by simp), ite_any_eq_none (by simp), ite_any_eq_none (by simp)]
  simp only [Bool.not_eq_false', List.contains_iff_mem, decide_eq_false_iff_not, Nat.not_lt]
  constructor
  · rintro ⟨hoptions, hmin, hmax, hpattern, hformat⟩
    refine ⟨hoptions, hmin, hmax, hpattern, fun f hf => ?_⟩
    simpa [hf] using hformat
  · rintro ⟨hoptions, hmin, hmax, hpattern, hformat⟩
    refine ⟨hoptions, hmin, hmax, hpattern, ?_⟩
    cases hf : rules.format with
    | none => rfl
    | some f => exact if_pos (hformat f hf)

theorem checkAt_string_eq_ok {rules : TextRules} :
    (string rules).checkAt field value = .ok () ↔ ∃ s, value = .str s ∧ rules.Allow s := by
  simp only [← textComplaint?_eq_none_iff]
  rw [checkAt]
  unfold checkText
  cases value with
  | str s => cases hc : textComplaint? rules s <;> simp [hc]
  | _ => simp

theorem int64?_eq_some {n : Int} : value.int64? = some n ↔
    value = .num (.int n) ∧ -9223372036854775808 ≤ n ∧ n < 9223372036854775808 := by
  constructor
  · intro h
    unfold Json.int64? at h
    split at h
    · split at h
      · cases h
        exact ⟨rfl, ‹_›⟩
      · cases h
    · cases h
  · rintro ⟨rfl, hfits⟩
    exact if_pos hfits

theorem checkAt_integer_eq_ok {min max : Option Int} :
    (integer min max).checkAt field value = .ok () ↔
      ∃ n, value.int64? = some n ∧ (∀ lo, min = some lo → lo ≤ n) ∧ ∀ hi, max = some hi → n ≤ hi := by
  rw [checkAt]
  unfold checkInteger
  cases value.int64? with
  | none => simp
  | some n =>
    have hmin : min.filter (n < ·) = none ↔ ∀ lo, min = some lo → lo ≤ n := by
      simp [Option.filter_eq_none_iff]
    have hmax : max.filter (· < n) = none ↔ ∀ hi, max = some hi → n ≤ hi := by
      simp [Option.filter_eq_none_iff]
    simp only [Option.some.injEq, exists_eq_left', ← hmin, ← hmax]
    cases min.filter (n < ·) <;> cases max.filter (· < n) <;> simp

theorem checkAt_flag_eq_ok : flag.checkAt field value = .ok () ↔ ∃ b, Flag.ofJson? value = some b := by
  rw [checkAt]
  unfold require
  cases Flag.ofJson? value <;> simp

theorem checkAt_nullable_eq_ok {inner : Schema} :
    (nullable inner).checkAt field value = .ok () ↔ value = .null ∨ inner.checkAt field value = .ok () := by
  cases value <;> simp [checkAt]

/-! ## Objects -/

theorem checkKeys_eq_ok_iff :
    checkKeys properties patterns required anyOf additional field members = .ok () ↔
      (∀ key ∈ required, (lookup? key members).isSome = true) ∧
        (anyOf ≠ [] → ∃ group ∈ anyOf, ∀ key ∈ group, (lookup? key members).isSome = true) ∧
        (additional = false → ∀ p ∈ members, isKnown properties patterns p.1 = true) := by
  have hrequired : required.find? (fun key => !(lookup? key members).isSome) = none ↔
      ∀ key ∈ required, (lookup? key members).isSome = true := by
    simp only [List.find?_eq_none, Bool.not_eq_true', Bool.not_eq_false]
  have hgroups : (!anyOf.isEmpty && !anyOf.any (·.all fun key => (lookup? key members).isSome)) ≠ true ↔
      (anyOf ≠ [] → ∃ group ∈ anyOf, ∀ key ∈ group, (lookup? key members).isSome = true) := by
    simp only [ne_eq, Bool.and_eq_true, Bool.not_eq_true', not_and, Bool.not_eq_false, List.isEmpty_eq_false_iff,
      List.any_eq_true, List.all_eq_true]
  have hknown : members.find? (fun p => !isKnown properties patterns p.1) = none ↔
      ∀ p ∈ members, isKnown properties patterns p.1 = true := by
    simp only [List.find?_eq_none, Bool.not_eq_true', Bool.not_eq_false]
  rw [← hrequired, ← hgroups, ← hknown]
  clear hrequired hgroups hknown
  unfold checkKeys
  simp only
  split
  · rename_i hmissing
    rw [hmissing]
    simp
  rename_i hrequired
  rw [hrequired]
  split
  · simp [*]
  rename_i hgroups
  split
  · simp [*]
  rename_i hclosed
  split
  · simp [*]
  · simp [*]

theorem checkNamed_eq_ok_iff :
    checkNamed properties members = .ok () ↔ ∀ p ∈ properties, ∀ child, lookup? p.1 members = some child →
      p.2.checkAt (some p.1) child = .ok () := by
  induction properties with
  | nil => simp [checkNamed]
  | cons p properties ih =>
    obtain ⟨n, s⟩ := p
    rw [List.forall_mem_cons, ← ih, checkNamed]
    cases hc : lookup? n members with
    | none => simp [bind_ok]
    | some child =>
      simp only [bind_eq_ok, Option.some.injEq, forall_eq']
      exact ⟨fun ⟨_, h⟩ => h, fun h => ⟨(), h⟩⟩

/-- An object that is accepted has the required keys, none that is not known unless others are allowed, and values
that the schemas of their keys accept. -/
theorem checkAt_object_eq_ok
    (h : (object properties patterns required anyOf additional).checkAt field value = .ok ()) :
    ∃ members, value = .obj members ∧ (∀ key ∈ required, (lookup? key members).isSome = true) ∧
      (additional = false → ∀ p ∈ members, isKnown properties patterns p.1 = true) ∧
      ∀ name schema, (name, schema) ∈ properties → ∀ child, lookup? name members = some child →
        schema.checkAt (some name) child = .ok () := by
  cases value with
  | obj members =>
    rw [checkAt] at h
    obtain ⟨_, hkeys, h⟩ := bind_eq_ok.1 h
    obtain ⟨_, hnamed, -⟩ := bind_eq_ok.1 h
    obtain ⟨hrequired, -, hknown⟩ := checkKeys_eq_ok_iff.1 hkeys
    exact ⟨members, rfl, hrequired, hknown, fun name schema hp => checkNamed_eq_ok_iff.1 hnamed _ hp⟩
  | _ => simp [checkAt] at h

/-- An object that is accepted with some properties is accepted with more, and with more groups, if none of the keys it
has is asked for more. -/
theorem checkAt_object_mono {properties' : List (String × Schema)} {anyOf' : List (List String)}
    (hknown : ∀ p ∈ properties, ∃ q ∈ properties', q.1 = p.1)
    (hasked : ∀ q ∈ properties', isKnown properties [] q.1 = true → ∃ p ∈ properties, p.1 = q.1 ∧
      ∀ child, p.2.checkAt (some p.1) child = .ok () → q.2.checkAt (some q.1) child = .ok ())
    (hgroups : anyOf ⊆ anyOf') (hempty : anyOf = [] → anyOf' = [])
    (h : (object properties [] required anyOf false).checkAt field value = .ok ()) :
    (object properties' [] required anyOf' false).checkAt field value = .ok () := by
  cases value with
  | obj members =>
    rw [checkAt] at h ⊢
    obtain ⟨_, hkeys, h⟩ := bind_eq_ok.1 h
    obtain ⟨_, hnamed, -⟩ := bind_eq_ok.1 h
    obtain ⟨hrequired, hgroup, hclosed⟩ := checkKeys_eq_ok_iff.1 hkeys
    have hkeys' : checkKeys properties' [] required anyOf' false field members = .ok () := by
      refine checkKeys_eq_ok_iff.2 ⟨hrequired, fun hne => ?_, fun _ p hp => ?_⟩
      · obtain ⟨group, hg, hall⟩ := hgroup fun hnil => hne (hempty hnil)
        exact ⟨group, hgroups hg, hall⟩
      · have hp := hclosed rfl p hp
        simp only [isKnown, List.any_nil, Bool.or_false, List.any_eq_true, beq_iff_eq] at hp ⊢
        obtain ⟨p', hp', hname⟩ := hp
        obtain ⟨q, hq, hsame⟩ := hknown p' hp'
        exact ⟨q, hq, hsame.trans hname⟩
    have hnamed' : checkNamed properties' members = .ok () := by
      refine checkNamed_eq_ok_iff.2 fun q hq child hc => ?_
      obtain ⟨p, hp, hname, haccepts⟩ := hasked q hq (hclosed rfl (q.1, child) (mem_of_lookup?_eq_some hc))
      exact haccepts child (checkNamed_eq_ok_iff.1 hnamed p hp child (hname ▸ hc))
    rw [hkeys', bind_ok, hnamed', bind_ok]
    refine forM_eq_ok.2 fun p _ => ?_
    -- Nothing is asked of the values of other keys.
    simp [checkMatching]
  | _ => simp [checkAt] at h

end Schema

end Standby
