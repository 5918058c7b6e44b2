import Standby.Proofs.Schema.Accepted
/-!
# What a schema asks

`Schema.Satisfies` says what a schema asks of a document, without the order in which a check looks at it: which keys are
there, and what the values under them are in turn. A check looks at a value that is not under a name by one pattern only,
the first that its key matches (`Schema.Asks`); so the two agree where no key of an object is covered twice
(`checkAt_eq_ok_iff`).
`Schema.Governs` says which values of a document come under a schema, and which part of the schema they come under.
-/

namespace Standby.Schema

/-- What an object schema asks of the keys of an object. -/
structure AllowsKeys (properties : List (String × Schema)) (patterns : List (Text.Pattern × Schema))
    (required : List String) (anyOf : List (List String)) (additional : Bool) (keys : List String) : Prop where
  required : ∀ key ∈ required, key ∈ keys
  group : anyOf ≠ [] → ∃ group ∈ anyOf, ∀ key ∈ group, key ∈ keys
  known : additional = false → ∀ key ∈ keys, (∃ p ∈ properties, p.1 = key) ∨ ∃ q ∈ patterns, q.1.isIn key = true

/-- The documents that satisfy a schema. -/
inductive Satisfies : Schema → Json → Prop
  | object {properties patterns required anyOf additional members}
      (hkeys : AllowsKeys properties patterns required anyOf additional (members.map (·.1)))
      (hnamed : ∀ p ∈ properties, ∀ child, lookup? p.1 members = some child → Satisfies p.2 child)
      (hmatched : ∀ q ∈ patterns, ∀ m ∈ members, q.1.isIn m.1 = true → Satisfies q.2 m.2) :
      Satisfies (object properties patterns required anyOf additional) (.obj members)
  | string {rules s} (h : rules.Allow s) : Satisfies (string rules) (.str s)
  | integer {min max n} (hfits : -9223372036854775808 ≤ n ∧ n < 9223372036854775808)
      (hmin : ∀ lo, min = some lo → lo ≤ n) (hmax : ∀ hi, max = some hi → n ≤ hi) :
      Satisfies (integer min max) (.num (.int n))
  | flag {j b} (h : Flag.ofJson? j = some b) : Satisfies flag j
  | null {inner} : Satisfies (nullable inner) .null
  | nullable {inner j} (h : Satisfies inner j) : Satisfies (nullable inner) j
  | any {j} : Satisfies any j

/-! ## Satisfaction by the kind of the schema -/

section Kinds

variable {properties : List (String × Schema)} {patterns : List (Text.Pattern × Schema)} {required : List String}
  {anyOf : List (List String)} {additional : Bool} {members : List (String × Json)} {j : Json}

theorem satisfies_object_iff :
    (object properties patterns required anyOf additional).Satisfies (.obj members) ↔
      AllowsKeys properties patterns required anyOf additional (members.map (·.1)) ∧
        (∀ p ∈ properties, ∀ child, lookup? p.1 members = some child → p.2.Satisfies child) ∧
        ∀ q ∈ patterns, ∀ m ∈ members, q.1.isIn m.1 = true → q.2.Satisfies m.2 := by
  constructor
  · intro h
    cases h with
    | object hkeys hnamed hmatched => exact ⟨hkeys, hnamed, hmatched⟩
  · rintro ⟨hkeys, hnamed, hmatched⟩
    exact .object hkeys hnamed hmatched

theorem not_satisfies_object (h : ∀ members, j ≠ .obj members) :
    ¬(object properties patterns required anyOf additional).Satisfies j := by
  intro hs
  cases hs with
  | object => exact h _ rfl

theorem satisfies_string_iff {rules : TextRules} : (string rules).Satisfies j ↔ ∃ s, j = .str s ∧ rules.Allow s := by
  constructor
  · intro h
    cases h with
    | string hallow => exact ⟨_, rfl, hallow⟩
  · rintro ⟨s, rfl, hallow⟩
    exact .string hallow

theorem satisfies_integer_iff {min max : Option Int} :
    (integer min max).Satisfies j ↔
      ∃ n, j.int64? = some n ∧ (∀ lo, min = some lo → lo ≤ n) ∧ ∀ hi, max = some hi → n ≤ hi := by
  simp only [int64?_eq_some]
  constructor
  · intro h
    cases h with
    | integer hfits hmin hmax => exact ⟨_, ⟨rfl, hfits⟩, hmin, hmax⟩
  · rintro ⟨n, ⟨rfl, hfits⟩, hmin, hmax⟩
    exact .integer hfits hmin hmax

theorem satisfies_flag_iff : flag.Satisfies j ↔ ∃ b, Flag.ofJson? j = some b := by
  constructor
  · intro h
    cases h with
    | flag hb => exact ⟨_, hb⟩
  · rintro ⟨b, hb⟩
    exact .flag hb

theorem not_satisfies_flag (h : Flag.ofJson? j = none) : ¬flag.Satisfies j := by
  rw [satisfies_flag_iff, h]
  nofun

theorem satisfies_nullable_iff {inner : Schema} : (nullable inner).Satisfies j ↔ j = .null ∨ inner.Satisfies j := by
  constructor
  · intro h
    cases h with
    | null => exact .inl rfl
    | nullable h => exact .inr h
  · rintro (rfl | h)
    · exact .null
    · exact .nullable h

end Kinds

/-! ## Schemas and the values they are for -/

/-- A value comes under a part of a schema: the document under the schema, and in an object the value under a key under
the schema of the property with that name, and of each pattern that the key matches. -/
inductive Governs : Schema → Json → Schema → Json → Prop
  | self {s j} : Governs s j s j
  | nullable {inner j t k} (h : Governs inner j t k) : Governs (nullable inner) j t k
  | named {properties patterns required anyOf additional members t k p child} (hp : p ∈ properties)
      (hc : lookup? p.1 members = some child) (h : Governs p.2 child t k) :
      Governs (object properties patterns required anyOf additional) (.obj members) t k
  | matched {properties patterns required anyOf additional members t k q m} (hq : q ∈ patterns) (hm : m ∈ members)
      (hkey : q.1.isIn m.1 = true) (h : Governs q.2 m.2 t k) :
      Governs (object properties patterns required anyOf additional) (.obj members) t k

/-- How often a schema speaks of a key: once if it names it, and once with each pattern that the key matches. -/
def coverage : Schema → String → Nat
  | object properties patterns _ _ _, key =>
    (if properties.any (·.1 == key) then 1 else 0) + patterns.countP (·.1.isIn key)
  | _, _ => 0

/-- No key of an object in the document is covered twice by what the object comes under. -/
def CoversOnce (schema : Schema) (document : Json) : Prop :=
  ∀ t members, Governs schema document t (.obj members) → ∀ m ∈ members, t.coverage m.1 ≤ 1

variable {schema : Schema} {field : Option String} {value document : Json} {properties : List (String × Schema)}
  {patterns : List (Text.Pattern × Schema)} {required : List String} {anyOf : List (List String)} {additional : Bool}
  {members : List (String × Json)}

theorem CoversOnce.of_nullable (h : (nullable schema).CoversOnce document) : schema.CoversOnce document :=
  fun t members hg => h t members (.nullable hg)

theorem Governs.eq_of_not_obj {t : Schema} (h : schema.Governs document t value) (hplain : document.members? = none) :
    value = document := by
  induction h with
  | self => rfl
  | nullable _ ih => exact ih hplain
  | named | matched => cases hplain

/-- Of an object without objects in it, only its own keys are to be looked at. -/
theorem coversOnce_of_flat
    (h : ∀ m ∈ members, m.2.members? = none ∧
      (object properties patterns required anyOf additional).coverage m.1 ≤ 1) :
    (object properties patterns required anyOf additional).CoversOnce (.obj members) := by
  intro t inner hg
  cases hg with
  | self => exact fun m hm => (h m hm).2
  | named hp hc hg =>
    have hplain := (h _ (mem_of_lookup?_eq_some hc)).1
    rw [← hg.eq_of_not_obj hplain] at hplain
    cases hplain
  | matched hq hm hkey hg =>
    have hplain := (h _ hm).1
    rw [← hg.eq_of_not_obj hplain] at hplain
    cases hplain

section Inside

variable (h : (object properties patterns required anyOf additional).CoversOnce (.obj members))

include h

theorem CoversOnce.named {p : String × Schema} (hp : p ∈ properties) {child : Json}
    (hc : lookup? p.1 members = some child) : p.2.CoversOnce child :=
  fun t inner hg => h t inner (.named hp hc hg)

theorem CoversOnce.matched {q : Text.Pattern × Schema} (hq : q ∈ patterns) {m : String × Json} (hm : m ∈ members)
    (hkey : q.1.isIn m.1 = true) : q.2.CoversOnce m.2 :=
  fun t inner hg => h t inner (.matched hq hm hkey hg)

theorem CoversOnce.coverage_le {m : String × Json} (hm : m ∈ members) :
    (object properties patterns required anyOf additional).coverage m.1 ≤ 1 :=
  h _ _ .self m hm

end Inside

/-! ## Induction over schemas -/

/-- What holds of each schema if it holds of those inside it holds of all of them. -/
@[elab_as_elim]
theorem inside_induction {motive : Schema → Prop}
    (object : ∀ properties patterns required anyOf additional, (∀ p ∈ properties, motive p.2) →
      (∀ q ∈ patterns, motive q.2) → motive (object properties patterns required anyOf additional))
    (string : ∀ rules, motive (string rules)) (integer : ∀ min max, motive (integer min max)) (flag : motive flag)
    (nullable : ∀ inner, motive inner → motive (nullable inner)) (any : motive any) (schema : Schema) :
    motive schema :=
  match schema with
  | .object properties patterns required anyOf additional =>
    object properties patterns required anyOf additional
      (fun p _ => inside_induction object string integer flag nullable any p.2)
      (fun q _ => inside_induction object string integer flag nullable any q.2)
  | .string rules => string rules
  | .integer min max => integer min max
  | .flag => flag
  | .nullable inner => nullable inner (inside_induction object string integer flag nullable any inner)
  | .any => any
termination_by schema
decreasing_by
  all_goals simp_wf
  · have hlt := List.sizeOf_lt_of_mem ‹p ∈ properties›
    have hp : sizeOf p = 1 + sizeOf p.1 + sizeOf p.2 := rfl
    omega
  · have hlt := List.sizeOf_lt_of_mem ‹q ∈ patterns›
    have hq : sizeOf q = 1 + sizeOf q.1 + sizeOf q.2 := rfl
    omega

/-! ## Schemas that are asked -/

theorem checkKeys_eq_ok_iff_allowsKeys :
    checkKeys properties patterns required anyOf additional field members = .ok () ↔
      AllowsKeys properties patterns required anyOf additional (members.map (·.1)) := by
  have hhas (key : String) : (lookup? key members).isSome = true ↔ key ∈ members.map (·.1) := by
    rw [Option.isSome_iff_ne_none, ne_eq, lookup?_eq_none_iff, not_not]
  rw [checkKeys_eq_ok_iff]
  simp only [hhas, isKnown, Bool.or_eq_true, List.any_eq_true, beq_iff_eq]
  constructor
  · rintro ⟨hrequired, hgroup, hknown⟩
    exact ⟨hrequired, hgroup, fun hclosed => List.forall_mem_map.2 (hknown hclosed)⟩
  · rintro ⟨hrequired, hgroup, hknown⟩
    exact ⟨hrequired, hgroup, fun hclosed => List.forall_mem_map.1 (hknown hclosed)⟩

/-- The first pattern that a key matches decides. -/
theorem checkMatching_eq (patterns : List (Text.Pattern × Schema)) (key : String) (child : Json) :
    checkMatching patterns key child =
      match patterns.find? (·.1.isIn key) with
      | some q => q.2.checkAt (some key) child
      | none => .ok () := by
  induction patterns with
  | nil => rfl
  | cons q patterns ih =>
    obtain ⟨p, s⟩ := q
    rw [checkMatching, ih, List.find?_cons]
    cases p.isIn key <;> rfl

/-- A schema is asked about the value of a key: that of each property with its name, and else that of the first pattern
that the key matches. -/
inductive Asks (properties : List (String × Schema)) (patterns : List (Text.Pattern × Schema))
    (members : List (String × Json)) : String → Schema → Json → Prop
  | named {name s child} (hp : (name, s) ∈ properties) (hc : lookup? name members = some child) :
      Asks properties patterns members name s child
  | matched {key q child} (hm : (key, child) ∈ members) (hother : ∀ p ∈ properties, p.1 ≠ key)
      (hfirst : patterns.find? (·.1.isIn key) = some q) : Asks properties patterns members key q.2 child

theorem Asks.mem {key : String} {s : Schema} {child : Json} (h : Asks properties patterns members key s child) :
    (∃ p ∈ properties, p.2 = s) ∨ ∃ q ∈ patterns, q.2 = s := by
  cases h with
  | named hp _ => exact .inl ⟨_, hp, rfl⟩
  | matched _ _ hfirst => exact .inr ⟨_, List.mem_of_find?_eq_some hfirst, rfl⟩

/-- A pattern is asked about the value of a key that matches it and none of those before it, and that has no name. -/
theorem Asks.of_first {before after : List (Text.Pattern × Schema)} {q : Text.Pattern × Schema} {m : String × Json}
    (hm : m ∈ members) (hother : ∀ p ∈ properties, p.1 ≠ m.1) (hkey : q.1.isIn m.1 = true)
    (hbefore : ∀ q' ∈ before, q'.1.isIn m.1 = false) : Asks properties (before ++ q :: after) members m.1 q.2 m.2 := by
  refine .matched hm hother (List.find?_eq_some_iff_append.2 ⟨hkey, before, after, rfl, fun q' hq' => ?_⟩)
  rw [hbefore q' hq']
  rfl

theorem any_name_eq_false {key : String} :
    properties.any (·.1 == key) = false ↔ ∀ p ∈ properties, p.1 ≠ key := by
  simp

/-- An object is accepted if its keys are allowed and every schema that is asked accepts. -/
theorem checkAt_object_eq_ok_iff_asks :
    (object properties patterns required anyOf additional).checkAt field (.obj members) = .ok () ↔
      AllowsKeys properties patterns required anyOf additional (members.map (·.1)) ∧
        ∀ key s child, Asks properties patterns members key s child → s.checkAt (some key) child = .ok () := by
  rw [checkAt]
  constructor
  · intro h
    obtain ⟨_, hkeys, h⟩ := bind_eq_ok.1 h
    obtain ⟨_, hnamed, hothers⟩ := bind_eq_ok.1 h
    refine ⟨checkKeys_eq_ok_iff_allowsKeys.1 hkeys, fun key s child hasks => ?_⟩
    cases hasks with
    | named hp hc => exact checkNamed_eq_ok_iff.1 hnamed _ hp child hc
    | matched hm hother hfirst =>
      have hchild := forM_eq_ok.1 hothers _ hm
      simpa only [any_name_eq_false.2 hother, Bool.false_eq_true, if_false, checkMatching_eq, hfirst] using hchild
  · rintro ⟨hkeys, hasked⟩
    refine bind_eq_ok.2 ⟨(), checkKeys_eq_ok_iff_allowsKeys.2 hkeys, bind_eq_ok.2 ⟨(), ?_, ?_⟩⟩
    · exact checkNamed_eq_ok_iff.2 fun p hp child hc => hasked p.1 p.2 child (.named hp hc)
    · -- Keys with names of their own are passed over here, whatever patterns they match.
      refine forM_eq_ok.2 fun m hm => ?_
      obtain ⟨key, child⟩ := m
      cases hnamed : properties.any (·.1 == key) with
      | true => simp only [hnamed, if_true]
      | false =>
        simp only [hnamed, Bool.false_eq_true, if_false, checkMatching_eq]
        split
        · next q hfirst => exact hasked key q.2 child (.matched hm (any_name_eq_false.1 hnamed) hfirst)
        · rfl

/-! ## Checks and satisfaction -/

/-- Where a key is covered once at most, the schema of a pattern that it matches is asked about its value. -/
theorem asks_of_coverage_le {q : Text.Pattern × Schema} {m : String × Json}
    (h : (object properties patterns required anyOf additional).coverage m.1 ≤ 1) (hq : q ∈ patterns)
    (hm : m ∈ members) (hkey : q.1.isIn m.1 = true) : Asks properties patterns members m.1 q.2 m.2 := by
  obtain ⟨before, after, rfl⟩ := List.append_of_mem hq
  simp only [coverage] at h
  rw [List.countP_append, List.countP_cons_of_pos (by exact hkey)] at h
  have hnamed : properties.any (·.1 == m.1) = false := by
    rw [← Bool.not_eq_true]
    intro hnamed
    rw [if_pos hnamed] at h
    omega
  have hbefore : before.countP (·.1.isIn m.1) = 0 := by omega
  exact .of_first hm (any_name_eq_false.1 hnamed) hkey fun q' hq' => by simpa using List.countP_eq_zero.1 hbefore q' hq'

/-- Where no key is covered twice, all the values that a schema speaks of are checked, and each by what covers it. -/
theorem checkAt_object_eq_ok_iff
    (h : ∀ m ∈ members, (object properties patterns required anyOf additional).coverage m.1 ≤ 1) :
    (object properties patterns required anyOf additional).checkAt field (.obj members) = .ok () ↔
      AllowsKeys properties patterns required anyOf additional (members.map (·.1)) ∧
        (∀ p ∈ properties, ∀ child, lookup? p.1 members = some child → p.2.checkAt (some p.1) child = .ok ()) ∧
        ∀ q ∈ patterns, ∀ m ∈ members, q.1.isIn m.1 = true → q.2.checkAt (some m.1) m.2 = .ok () := by
  rw [checkAt_object_eq_ok_iff_asks]
  refine and_congr_right fun _ => ⟨fun hasked => ?_, fun ⟨hnamed, hmatched⟩ key s child hasks => ?_⟩
  · exact ⟨fun p hp child hc => hasked p.1 p.2 child (.named hp hc),
      fun q hq m hm hkey => hasked m.1 q.2 m.2 (asks_of_coverage_le (h m hm) hq hm hkey)⟩
  · cases hasks with
    | named hp hc => exact hnamed _ hp child hc
    | matched hm _ hfirst =>
      exact hmatched _ (List.mem_of_find?_eq_some hfirst) _ hm (by simpa using List.find?_some hfirst)

/-- A check accepts what satisfies the schema, and nothing else. -/
theorem checkAt_eq_ok_iff (h : schema.CoversOnce document) :
    schema.checkAt field document = .ok () ↔ schema.Satisfies document := by
  induction schema using inside_induction generalizing field document with
  | object properties patterns required anyOf additional hproperties hpatterns =>
    cases document with
    | obj members =>
      rw [checkAt_object_eq_ok_iff fun m hm => h.coverage_le hm, satisfies_object_iff]
      refine and_congr_right fun _ => and_congr ?_ ?_
      · exact forall₂_congr fun p hp => forall₂_congr fun child hc => hproperties p hp (h.named hp hc)
      · exact forall₂_congr fun q hq => forall₂_congr fun m hm => forall_congr' fun hkey =>
          hpatterns q hq (h.matched hq hm hkey)
    | _ => exact iff_of_false (by simp [checkAt]) (not_satisfies_object (by simp))
  | string rules => rw [checkAt_string_eq_ok, satisfies_string_iff]
  | integer min max => rw [checkAt_integer_eq_ok, satisfies_integer_iff]
  | flag => rw [checkAt_flag_eq_ok, satisfies_flag_iff]
  | nullable inner ih => rw [checkAt_nullable_eq_ok, satisfies_nullable_iff, ih h.of_nullable]
  | any => exact iff_of_true (by rw [checkAt]) .any

theorem check_iff_satisfies (h : schema.CoversOnce document) :
    schema.check document = .ok () ↔ schema.Satisfies document := by
  rw [check_eq]
  exact checkAt_eq_ok_iff h

end Standby.Schema
