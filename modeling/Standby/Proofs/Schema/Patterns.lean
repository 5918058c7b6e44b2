import Standby.Proofs.Schema.Satisfaction
/-!
# Which schema a key comes under

About the value of a key the schemas of the properties with its name are asked and, if no property has it, that of the
first pattern that the key matches. An object is accepted exactly if its keys are allowed and all of these accept
(`check_object_eq_ok_iff`). So a pattern has no say in the value of a key that has a name of its own, or that an earlier
pattern matches: `shelf` is such a case.
-/

namespace Standby.Schema

variable {schema : Schema} {field : Option String} {value document : Json} {properties : List (String × Schema)}
  {patterns : List (Text.Pattern × Schema)} {required : List String} {anyOf : List (List String)} {additional : Bool}
  {members : List (String × Json)}

/-- Whether a value is accepted does not depend on the key that leads to it. -/
theorem checkAt_eq_ok_congr (schema : Schema) (field field' : Option String) (value : Json) :
    schema.checkAt field value = .ok () ↔ schema.checkAt field' value = .ok () := by
  induction schema using inside_induction with
  | object properties patterns required anyOf additional =>
    cases value with
    | obj members =>
      -- The values under the keys are looked at with their own keys.
      rw [checkAt_object_eq_ok_iff_asks, checkAt_object_eq_ok_iff_asks]
    | _ => simp [checkAt]
  | string rules => rw [checkAt_string_eq_ok, checkAt_string_eq_ok]
  | integer min max => rw [checkAt_integer_eq_ok, checkAt_integer_eq_ok]
  | flag => rw [checkAt_flag_eq_ok, checkAt_flag_eq_ok]
  | nullable inner ih => rw [checkAt_nullable_eq_ok, checkAt_nullable_eq_ok, ih]
  | any => rw [checkAt, checkAt]

theorem checkAt_eq_ok_iff_check : schema.checkAt field value = .ok () ↔ schema.check value = .ok () := by
  rw [check_eq]
  exact checkAt_eq_ok_congr _ _ _ _

/-- **Which values are checked.** A document is accepted by an object schema exactly if it is an object with the keys that
it may and must have, the value under the name of each property is accepted by the schema of the property, and the value of
each key that matches a pattern is accepted by the schema of the pattern, unless a property has the key for its name or an
earlier pattern is matched by it. -/
theorem check_object_eq_ok_iff (properties : List (String × Schema)) (patterns : List (Text.Pattern × Schema))
    (required : List String) (anyOf : List (List String)) (additional : Bool) (document : Json) :
    (object properties patterns required anyOf additional).check document = .ok () ↔
      ∃ members, document = .obj members ∧
        AllowsKeys properties patterns required anyOf additional (members.map (·.1)) ∧
        (∀ p ∈ properties, ∀ child, lookup? p.1 members = some child → p.2.check child = .ok ()) ∧
        ∀ before q after, patterns = before ++ q :: after → ∀ m ∈ members, q.1.isIn m.1 = true →
          (∀ p ∈ properties, p.1 ≠ m.1) → (∀ q' ∈ before, q'.1.isIn m.1 = false) → q.2.check m.2 = .ok () := by
  rw [check_eq]
  constructor
  · intro h
    cases document with
    | obj members =>
      obtain ⟨hkeys, hasked⟩ := checkAt_object_eq_ok_iff_asks.1 h
      refine ⟨members, rfl, hkeys, fun p hp child hc => ?_, ?_⟩
      · exact checkAt_eq_ok_iff_check.1 (hasked p.1 p.2 child (.named hp hc))
      · rintro before q after rfl m hm hkey hother hbefore
        exact checkAt_eq_ok_iff_check.1 (hasked m.1 q.2 m.2 (.of_first hm hother hkey hbefore))
    | _ => simp [checkAt] at h
  · rintro ⟨members, rfl, hkeys, hnamed, hmatched⟩
    refine checkAt_object_eq_ok_iff_asks.2 ⟨hkeys, fun key s child hasks => ?_⟩
    cases hasks with
    | named hp hc => exact checkAt_eq_ok_iff_check.2 (hnamed _ hp child hc)
    | matched hm hother hfirst =>
      obtain ⟨hkey, before, after, hsplit, hbefore⟩ := List.find?_eq_some_iff_append.1 hfirst
      exact checkAt_eq_ok_iff_check.2
        (hmatched before _ after hsplit _ hm hkey hother fun q' hq' => by simpa using hbefore q' hq')

/-- The keys that begin with a mark. -/
def marked : Text.Pattern :=
  .ofExpression "^x-" ⟨true, [(.ranges [('x', 'x')], .once), (.ranges [('-', '-')], .once)], false⟩

/-- The keys that end with another mark. -/
def tailed : Text.Pattern := .ofExpression "b$" ⟨false, [(.ranges [('b', 'b')], .once)], true⟩

/-- Counts under keys that begin with a mark, words under keys that end with one, and anything under one of these keys. -/
def shelf : Schema := object [("x-a", any)] [(marked, integer none none), (tailed, string {})] [] [] false

/-- A shelf accepts a word where the pattern of counts is matched, as the key is named, and a count where the pattern of
words is matched, as the other one is matched too. -/
theorem check_shelf :
    shelf.check (.obj [("x-a", .str "s"), ("x-b", .num (.int 5))]) = .ok () ∧
      marked.isIn "x-a" = true ∧ (integer none none).check (.str "s") ≠ .ok () ∧
      tailed.isIn "x-b" = true ∧ (string {}).check (.num (.int 5)) ≠ .ok () := by
  refine ⟨rfl, by decide, ?_, by decide, ?_⟩
  · nofun
  · nofun

end Standby.Schema
