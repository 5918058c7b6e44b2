import Standby.Proofs.Schema.Patterns
/-!
# What a violation is about

A check goes from a document to the values under its keys. `Schema.Reaches` says which keys lead to a value, and to the
part of the schema that the value comes under; `Schema.Complains` says what can be wrong with a value itself, apart from
the values under its keys. A document is rejected exactly if something is wrong with a value that is reached
(`check_ne_ok_iff`), and a violation is about such a value: if it names a field, this is the last key that leads to the
value (`check_eq_error`).
-/

namespace Standby

/-- What is wrong with a string by the rules for it. -/
inductive TextRules.Breaks (rules : TextRules) (s : String) : Complaint → Prop
  | notOneOf {l} (h : rules.options = some l) (hs : s ∉ l) : Breaks rules s (.notOneOf l)
  | tooShort {n} (h : rules.minLength = some n) (hs : s.length < n) : Breaks rules s .tooShort
  | tooLong {n} (h : rules.maxLength = some n) (hs : n < s.length) : Breaks rules s .tooLong
  | noMatch {p} (h : rules.pattern = some p) (hs : p.isIn s = false) : Breaks rules s (.noMatch p.source)
  | badName (h : rules.format = some .name) (hs : TextFormat.name.accepts s = false) : Breaks rules s .badName
  | badFormat {f} (h : rules.format = some f) (hf : f ≠ .name) (hs : f.accepts s = false) :
      Breaks rules s (.badFormat f)

/-- A value as a violation shows it: a string as it is, and anything else as JSON. -/
def Json.plain : Json → String
  | .str s => s
  | j => j.text

namespace Schema

/-- What is wrong with a value by its schema, whatever the values under its keys are. An unexpected key is the first one
of an object. -/
inductive Complains : Schema → Json → Complaint → Prop
  | notObject {properties patterns required anyOf additional value} (h : ∀ members, value ≠ .obj members) :
      Complains (object properties patterns required anyOf additional) value (.notOfType "object")
  | missingKey {properties patterns required anyOf additional members key} (hr : key ∈ required)
      (h : key ∉ members.map (·.1)) :
      Complains (object properties patterns required anyOf additional) (.obj members) (.missingKey key)
  | noGroup {properties patterns required anyOf additional members} (hne : anyOf ≠ [])
      (h : ∀ group ∈ anyOf, ∃ key ∈ group, key ∉ members.map (·.1)) :
      Complains (object properties patterns required anyOf additional) (.obj members) .noGroup
  | unexpectedKey {properties patterns required anyOf before key child after}
      (hbefore : ∀ m ∈ before, isKnown properties patterns m.1 = true) (h : isKnown properties patterns key = false) :
      Complains (object properties patterns required anyOf false) (.obj (before ++ (key, child) :: after))
        (.unexpectedKey key)
  | notString {rules value} (h : ∀ s, value ≠ .str s) : Complains (string rules) value (.notOfType "string")
  | text {rules s c} (h : rules.Breaks s c) : Complains (string rules) (.str s) c
  | notInteger {min max value} (h : value.int64? = none) : Complains (integer min max) value (.notOfType "integer")
  | tooSmall {lo max value n} (hn : value.int64? = some n) (h : n < lo) :
      Complains (integer (some lo) max) value (.tooSmall n lo)
  | tooLarge {min hi value n} (hn : value.int64? = some n) (h : hi < n) :
      Complains (integer min (some hi)) value (.tooLarge n hi)
  | notAFlag {value} (h : Flag.ofJson? value = none) : Complains flag value .notAFlag

/-- Keys lead from a document to a value in it, and from the schema of the document to the one that the value comes under.
-/
inductive Reaches : Schema → Json → List String → Schema → Json → Prop
  | here {schema value} : Reaches schema value [] schema value
  | nullable {inner document path node value} (hnull : document ≠ .null)
      (h : Reaches inner document path node value) : Reaches (nullable inner) document path node value
  | member {properties patterns required anyOf additional members key s child path node value}
      (hasks : Asks properties patterns members key s child) (h : Reaches s child path node value) :
      Reaches (object properties patterns required anyOf additional) (.obj members) (key :: path) node value

variable {schema node : Schema} {field : Option String} {value document : Json} {path : List String} {v : Violation}
  {c : Complaint} {properties : List (String × Schema)} {patterns : List (Text.Pattern × Schema)}
  {required : List String} {anyOf : List (List String)} {additional : Bool} {members : List (String × Json)}

/-! ## Complaints -/

/-- A rule that is there complains, or what comes after it does. -/
theorem ite_any_eq_some {α β : Type} {rule : Option α} {breaks : α → Bool} {complaint rest : Option β} {b : β}
    (h : (if rule.any breaks then complaint else rest) = some b) :
    (∃ a, rule = some a ∧ breaks a = true ∧ complaint = some b) ∨ rest = some b := by
  split at h
  · next hbreaks =>
    obtain ⟨a, ha, hbreaks⟩ := (Option.any_eq_true _ _).1 hbreaks
    exact .inl ⟨a, ha, hbreaks, h⟩
  · exact .inr h

theorem breaks_of_textComplaint? {rules : TextRules} {s : String} (h : textComplaint? rules s = some c) :
    rules.Breaks s c := by
  unfold textComplaint? at h
  obtain ⟨l, hl, hs, hc⟩ | h := ite_any_eq_some h
  · rw [hl] at hc
    cases hc
    exact .notOneOf hl (by simpa using hs)
  obtain ⟨n, hn, hs, hc⟩ | h := ite_any_eq_some h
  · cases hc
    exact .tooShort hn (of_decide_eq_true hs)
  obtain ⟨n, hn, hs, hc⟩ | h := ite_any_eq_some h
  · cases hc
    exact .tooLong hn (of_decide_eq_true hs)
  obtain ⟨p, hp, hs, hc⟩ | h := ite_any_eq_some h
  · rw [hp] at hc
    cases hc
    exact .noMatch hp (by simpa using hs)
  split at h
  · cases h
  · next f hf =>
    cases haccepts : f.accepts s with
    | true =>
      rw [if_pos haccepts] at h
      cases h
    | false =>
      rw [if_neg (by simp [haccepts])] at h
      cases h
      split
      · next hname =>
        subst hname
        exact .badName hf haccepts
      · next hname => exact .badFormat hf hname haccepts

theorem not_allow_of_breaks {rules : TextRules} {s : String} (h : rules.Breaks s c) : ¬rules.Allow s := by
  intro hallow
  cases h with
  | notOneOf h hs => exact hs (hallow.options _ h)
  | tooShort h hs => exact absurd (hallow.minLength _ h) (Nat.not_le.2 hs)
  | tooLong h hs => exact absurd (hallow.maxLength _ h) (Nat.not_le.2 hs)
  | noMatch h hs => exact absurd (hallow.pattern _ h) (by simp [hs])
  | badName h hs => exact absurd (hallow.format _ h) (by simp [hs])
  | badFormat h _ hs => exact absurd (hallow.format _ h) (by simp [hs])

theorem complains_of_string {rules : TextRules} (h : (string rules).checkAt field value = .error v) :
    ∃ c, Complains (string rules) value c ∧ v = .located field value c := by
  rw [checkAt] at h
  unfold checkText at h
  split at h
  · split at h
    · cases h
    · next c hc =>
      cases h
      exact ⟨c, .text (breaks_of_textComplaint? hc), rfl⟩
  · next hs =>
    cases h
    exact ⟨_, .notString hs, rfl⟩

theorem complains_of_integer {min max : Option Int} (h : (integer min max).checkAt field value = .error v) :
    ∃ c, Complains (integer min max) value c ∧ v = .located field value c := by
  rw [checkAt] at h
  unfold checkInteger at h
  split at h
  · next hn =>
    cases h
    exact ⟨_, .notInteger hn, rfl⟩
  · next n hn =>
    split at h
    · next lo hlo =>
      cases h
      obtain ⟨rfl, hless⟩ := Option.filter_eq_some_iff.1 hlo
      exact ⟨_, .tooSmall hn (of_decide_eq_true hless), rfl⟩
    · next hi _ hhi =>
      cases h
      obtain ⟨rfl, hless⟩ := Option.filter_eq_some_iff.1 hhi
      exact ⟨_, .tooLarge hn (of_decide_eq_true hless), rfl⟩
    · cases h

theorem complains_of_flag (h : flag.checkAt field value = .error v) :
    ∃ c, Complains flag value c ∧ v = .located field value c := by
  rw [checkAt] at h
  unfold require at h
  split at h
  · cases h
  · next hflag =>
    cases h
    exact ⟨_, .notAFlag (by simpa using hflag), rfl⟩

/-- What is wrong with the keys of an object is wrong with the object. -/
theorem complains_of_checkKeys
    (h : checkKeys properties patterns required anyOf additional field members = .error v) :
    ∃ c, Complains (object properties patterns required anyOf additional) (.obj members) c ∧
      v = .located field (.obj members) c := by
  have hhas (key : String) : (lookup? key members).isSome = false ↔ key ∉ members.map (·.1) := by
    rw [Option.isSome_eq_false_iff, Option.isNone_iff_eq_none, lookup?_eq_none_iff]
  unfold checkKeys at h
  simp only at h
  split at h
  · next key hkey =>
    cases h
    refine ⟨_, .missingKey (List.mem_of_find?_eq_some hkey) ((hhas key).1 ?_), rfl⟩
    simpa using List.find?_some hkey
  split at h
  · next hgroups =>
    cases h
    simp only [Bool.and_eq_true, Bool.not_eq_true', List.isEmpty_eq_false_iff, List.any_eq_false, List.all_eq_true,
      not_forall, Bool.not_eq_true, hhas] at hgroups
    exact ⟨_, .noGroup hgroups.1 fun group hg => by simpa using hgroups.2 group hg, rfl⟩
  split at h
  · cases h
  split at h
  · next key child hkey =>
    cases h
    -- The search for unexpected keys stops at the first one.
    obtain ⟨hunknown, before, after, rfl, hbefore⟩ := List.find?_eq_some_iff_append.1 hkey
    cases additional
    · exact ⟨_, .unexpectedKey (by simpa using hbefore) (by simpa using hunknown), rfl⟩
    · contradiction
  · cases h

/-- What complains rejects. -/
theorem Complains.rejects (h : Complains schema value c) : schema.check value ≠ .ok () := by
  intro hok
  rw [check_eq] at hok
  cases h with
  | notObject h =>
    obtain ⟨members, rfl, -⟩ := checkAt_object_eq_ok hok
    exact h members rfl
  | missingKey hr h => exact h ((checkAt_object_eq_ok_iff_asks.1 hok).1.required _ hr)
  | noGroup hne h =>
    obtain ⟨group, hg, hall⟩ := (checkAt_object_eq_ok_iff_asks.1 hok).1.group hne
    obtain ⟨key, hk, hmissing⟩ := h group hg
    exact hmissing (hall key hk)
  | unexpectedKey _ h =>
    obtain ⟨members, hm, -, hknown, -⟩ := checkAt_object_eq_ok hok
    cases hm
    rw [hknown rfl _ (List.mem_append_right _ List.mem_cons_self)] at h
    cases h
  | notString h =>
    obtain ⟨s, rfl, -⟩ := checkAt_string_eq_ok.1 hok
    exact h s rfl
  | text h =>
    obtain ⟨s, hs, hallow⟩ := checkAt_string_eq_ok.1 hok
    cases hs
    exact not_allow_of_breaks h hallow
  | notInteger h =>
    obtain ⟨n, hn, -⟩ := checkAt_integer_eq_ok.1 hok
    rw [h] at hn
    cases hn
  | tooSmall hn h =>
    obtain ⟨n, hn', hmin, -⟩ := checkAt_integer_eq_ok.1 hok
    rw [hn] at hn'
    cases hn'
    exact absurd (hmin _ rfl) (Int.not_le.2 h)
  | tooLarge hn h =>
    obtain ⟨n, hn', -, hmax⟩ := checkAt_integer_eq_ok.1 hok
    rw [hn] at hn'
    cases hn'
    exact absurd (hmax _ rfl) (Int.not_le.2 h)
  | notAFlag h =>
    obtain ⟨b, hb⟩ := checkAt_flag_eq_ok.1 hok
    rw [h] at hb
    cases hb

/-! ## Values that are reached -/

theorem Reaches.eq_of_nil (h : Reaches schema document [] node value) : value = document := by
  generalize hp : ([] : List String) = path at h
  induction h with
  | here => rfl
  | nullable _ _ ih => exact ih hp
  | member => cases hp

/-- What accepts a document accepts every value in it that is reached. -/
theorem Reaches.accepts (h : Reaches schema document path node value) (hok : schema.check document = .ok ()) :
    node.check value = .ok () := by
  induction h with
  | here => exact hok
  | nullable hnull _ ih =>
    rw [check_eq] at hok
    exact ih (checkAt_eq_ok_iff_check.1 ((checkAt_nullable_eq_ok.1 hok).resolve_left hnull))
  | member hasks _ ih =>
    rw [check_eq] at hok
    exact ih (checkAt_eq_ok_iff_check.1 ((checkAt_object_eq_ok_iff_asks.1 hok).2 _ _ _ hasks))

/-! ## Violations -/

theorem exists_of_checkNamed_eq_error (h : checkNamed properties members = .error v) :
    ∃ p ∈ properties, ∃ child, lookup? p.1 members = some child ∧ p.2.checkAt (some p.1) child = .error v := by
  induction properties with
  | nil => cases h
  | cons p properties ih =>
    obtain ⟨name, s⟩ := p
    rw [checkNamed] at h
    cases hc : lookup? name members with
    | none =>
      obtain ⟨p, hp, hfails⟩ := ih (by simpa only [hc, bind_ok] using h)
      exact ⟨p, List.mem_cons_of_mem _ hp, hfails⟩
    | some child =>
      simp only [hc] at h
      obtain hchild | ⟨_, -, hrest⟩ := bind_eq_error.1 h
      · exact ⟨(name, s), List.mem_cons_self, child, hc, hchild⟩
      · obtain ⟨p, hp, hfails⟩ := ih hrest
        exact ⟨p, List.mem_cons_of_mem _ hp, hfails⟩

/-- A violation in an object is about the object itself, or about the value of a key and found by a schema that is asked
about it. -/
theorem checkAt_object_eq_error
    (h : (object properties patterns required anyOf additional).checkAt field (.obj members) = .error v) :
    (∃ c, Complains (object properties patterns required anyOf additional) (.obj members) c ∧
        v = .located field (.obj members) c) ∨
      ∃ key s child, Asks properties patterns members key s child ∧ s.checkAt (some key) child = .error v := by
  rw [checkAt] at h
  obtain hkeys | ⟨_, -, h⟩ := bind_eq_error.1 h
  · exact .inl (complains_of_checkKeys hkeys)
  obtain hnamed | ⟨_, -, hothers⟩ := bind_eq_error.1 h
  · obtain ⟨p, hp, child, hc, hfails⟩ := exists_of_checkNamed_eq_error hnamed
    exact .inr ⟨p.1, p.2, child, .named hp hc, hfails⟩
  obtain ⟨m, hm, hfails⟩ := exists_of_forM_eq_error hothers
  obtain ⟨key, child⟩ := m
  cases hnamed : properties.any (·.1 == key) with
  | true => simp [hnamed] at hfails
  | false =>
    simp only [hnamed, Bool.false_eq_true, if_false, checkMatching_eq] at hfails
    split at hfails
    · next q hfirst => exact .inr ⟨key, q.2, child, .matched hm (any_name_eq_false.1 hnamed) hfirst, hfails⟩
    · cases hfails

/-- The last of some keys that lead on from the one under which a value is looked at. -/
theorem getLast?_cons_or (key : String) (path : List String) (field : Option String) :
    (key :: path).getLast?.or field = path.getLast?.or (some key) := by
  rw [List.getLast?_cons]
  cases path.getLast? <;> rfl

/-- A violation comes from a complaint about a value that is reached, and names the last key on the way to it. -/
theorem checkAt_eq_error (h : schema.checkAt field document = .error v) :
    ∃ path node value c, Reaches schema document path node value ∧ Complains node value c ∧
      v = .located (path.getLast?.or field) value c := by
  -- Whatever key leads to a value, the keys that lead on from there come after it.
  induction schema using inside_induction generalizing field document with
  | object properties patterns required anyOf additional hproperties hpatterns =>
    cases document with
    | obj members =>
      obtain ⟨c, hc, hv⟩ | ⟨key, s, child, hasks, hfails⟩ := checkAt_object_eq_error h
      · exact ⟨[], _, _, c, .here, hc, hv⟩
      · have hinside : ∃ path node value c, Reaches s child path node value ∧ Complains node value c ∧
            v = .located (path.getLast?.or (some key)) value c := by
          obtain ⟨p, hp, rfl⟩ | ⟨q, hq, rfl⟩ := hasks.mem
          · exact hproperties p hp hfails
          · exact hpatterns q hq hfails
        obtain ⟨path, node, value, c, hreaches, hc, hv⟩ := hinside
        exact ⟨key :: path, node, value, c, .member hasks hreaches, hc, by rw [getLast?_cons_or, hv]⟩
    | _ =>
      rw [checkAt] at h
      · cases h
        exact ⟨[], _, _, _, .here, .notObject (by simp), rfl⟩
      · simp
  | string rules =>
    obtain ⟨c, hc, hv⟩ := complains_of_string h
    exact ⟨[], _, _, c, .here, hc, hv⟩
  | integer min max =>
    obtain ⟨c, hc, hv⟩ := complains_of_integer h
    exact ⟨[], _, _, c, .here, hc, hv⟩
  | flag =>
    obtain ⟨c, hc, hv⟩ := complains_of_flag h
    exact ⟨[], _, _, c, .here, hc, hv⟩
  | nullable inner ih =>
    by_cases hnull : document = .null
    · subst hnull
      simp [checkAt] at h
    · rw [checkAt] at h
      · obtain ⟨path, node, value, c, hreaches, hc, hv⟩ := ih h
        exact ⟨path, node, value, c, .nullable hnull hreaches, hc, hv⟩
      · exact hnull
  | any => simp [checkAt] at h

/-- A document is rejected exactly if something is wrong with a value that is reached. -/
theorem check_ne_ok_iff : schema.check document ≠ .ok () ↔
    ∃ path node value c, Reaches schema document path node value ∧ Complains node value c := by
  constructor
  · intro h
    cases hcheck : schema.check document with
    | ok _ => exact absurd hcheck h
    | error v =>
      rw [check_eq] at hcheck
      obtain ⟨path, node, value, c, hreaches, hc, -⟩ := checkAt_eq_error hcheck
      exact ⟨path, node, value, c, hreaches, hc⟩
  · rintro ⟨path, node, value, c, hreaches, hc⟩ hok
    exact hc.rejects (hreaches.accepts hok)

/-- What a violation says of the value that it is about: the last key that leads to it and the value as text, or neither.
It is silent about a whole document, about the keys of an object and about a name that is none. -/
inductive Says (document : Json) (path : List String) (value : Json) (c : Complaint) :
    Option String → Option String → Prop
  | field {key} (hlast : path.getLast? = some key) : Says document path value c (some key) (some value.plain)
  | document (hpath : path = []) (hvalue : value = document) : Says document path value c none none
  | missingKey {key} (h : c = .missingKey key) : Says document path value c none none
  | noGroup (h : c = .noGroup) : Says document path value c none none
  | unexpectedKey {key} (h : c = .unexpectedKey key) : Says document path value c none none
  | badName (h : c = .badName) : Says document path value c none none

theorem Reaches.says (h : Reaches schema document path node value) (c : Complaint) :
    Says document path value c (Violation.located path.getLast? value c).field
      (Violation.located path.getLast? value c).shownValue? := by
  cases hbare : c.isBare with
  | true =>
    have hfield : (Violation.located path.getLast? value c).field = none := if_pos hbare
    rw [Violation.shownValue?, hfield]
    cases c with
    | missingKey => exact .missingKey rfl
    | noGroup => exact .noGroup rfl
    | unexpectedKey => exact .unexpectedKey rfl
    | badName => exact .badName rfl
    | _ => cases hbare
  | false =>
    have hfield : (Violation.located path.getLast? value c).field = path.getLast? := if_neg (by simp [hbare])
    rw [Violation.shownValue?, hfield]
    cases hlast : path.getLast? with
    | none =>
      obtain rfl := List.getLast?_eq_none_iff.1 hlast
      exact .document rfl h.eq_of_nil
    | some key => exact .field hlast

/-- **What a violation is about.** Something is wrong with a value that is reached in the document, and the schema that it
comes under rejects it; this is the reason that the violation gives. If the violation names a field and shows a value, the
field is the last of the keys that lead to this value, and the text is the value. It names none only if the value is the
document, or an object whose keys are not what they have to be, or a name that is none. -/
theorem check_eq_error (h : schema.check document = .error v) :
    ∃ path node value c, Reaches schema document path node value ∧ Complains node value c ∧ node.check value ≠ .ok () ∧
      v.reason = c.reason value ∧ Says document path value c v.field v.shownValue? := by
  rw [check_eq] at h
  obtain ⟨path, node, value, c, hreaches, hc, rfl⟩ := checkAt_eq_error h
  rw [Option.or_none]
  exact ⟨path, node, value, c, hreaches, hc, hc.rejects, rfl, hreaches.says c⟩

/-- Words under marked keys, deep inside a parcel, and a count beside them. -/
def parcel : Schema :=
  object
    [("box", object [("inner", nullable (object [] [(marked, string {})] [] [] false))] [] ["inner"] [] false),
      ("count", integer none (some 3))]
    [] [] [] false

/-- The words are as they have to be; the count that comes after them is not. -/
theorem check_eq_error_parcel :
    let document : Json :=
      .obj [("box", .obj [("inner", .obj [("x-a", .str "s"), ("x-b", .str "t")])]), ("count", .num (.int 7))]
    ∃ v, parcel.check document = .error v ∧ v.field = some "count" ∧ v.shownValue? = some "7" ∧
      ∃ path node value c, Reaches parcel document path node value ∧ Complains node value c ∧
        node.check value ≠ .ok () ∧ v.reason = c.reason value ∧ Says document path value c v.field v.shownValue? := by
  intro document
  have hfails : parcel.check document = .error ⟨some "count", .num (.int 7), .tooLarge 7 3⟩ := rfl
  exact ⟨_, hfails, rfl, by decide, check_eq_error hfails⟩

end Schema

end Standby
