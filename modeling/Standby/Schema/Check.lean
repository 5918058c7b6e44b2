import Standby.Schema.Basic
import Standby.Error
/-!
# Checking a value against a schema

`Schema.check` stops at the first violation. Of an object, the required keys are looked at first, then the
groups, then unexpected keys, then the values of the named keys in the order of the schema, and last the values
of the other keys in the order of the object, each by the first pattern that its key matches. On the way it keeps the
keys that lead to the value that it looks at, as a violation names the last of them.
-/

namespace Standby.Schema

/-- Passes if `ok`, and else reports the complaint. -/
def require (ok : Bool) (field : Option String) (value : Json) (complaint : Complaint) :
    Except Violation Unit :=
  if ok then .ok () else .error (.located field value complaint)

/-- The first complaint about a string. -/
def textComplaint? (rules : TextRules) (s : String) : Option Complaint :=
  if rules.options.any fun l => !l.contains s then rules.options.map .notOneOf
  else if rules.minLength.any fun n => s.length < n then some .tooShort
  else if rules.maxLength.any fun n => n < s.length then some .tooLong
  else if rules.pattern.any fun p => !p.isIn s then rules.pattern.map (.noMatch ·.source)
  else
    match rules.format with
    | none => none
    | some f => if f.accepts s then none else some (if f = .name then .badName else .badFormat f)

def checkText (rules : TextRules) (field : Option String) (value : Json) : Except Violation Unit :=
  match value with
  | .str s =>
    match textComplaint? rules s with
    | none => .ok ()
    | some c => .error (.located field value c)
  | _ => .error (.located field value (.notOfType "string"))

def checkInteger (min max : Option Int) (field : Option String) (value : Json) : Except Violation Unit :=
  match value.int64? with
  | none => .error (.located field value (.notOfType "integer"))
  | some n =>
    match min.filter (n < ·), max.filter (· < n) with
    | some lo, _ => .error (.located field value (.tooSmall n lo))
    | none, some hi => .error (.located field value (.tooLarge n hi))
    | none, none => .ok ()

/-- Whether a key has a schema, by its name or by a pattern. -/
def isKnown (properties : List (String × Schema)) (patterns : List (Text.Pattern × Schema)) (key : String) :
    Bool :=
  (properties.any fun (name, _) => name == key) || patterns.any fun (p, _) => p.isIn key

def checkKeys (properties : List (String × Schema)) (patterns : List (Text.Pattern × Schema))
    (required : List String) (anyOf : List (List String)) (additional : Bool) (field : Option String)
    (members : List (String × Json)) : Except Violation Unit :=
  let has (key : String) : Bool := (lookup? key members).isSome
  let fail (c : Complaint) : Except Violation Unit := .error (.located field (.obj members) c)
  match required.find? (!has ·) with
  | some key => fail (.missingKey key)
  | none =>
    if !anyOf.isEmpty && !anyOf.any (·.all has) then fail .noGroup
    else if additional then .ok ()
    else
      match members.find? fun (key, _) => !isKnown properties patterns key with
      | some (key, _) => fail (.unexpectedKey key)
      | none => .ok ()

/-- A check on its way through a document, with the keys that lead from the document to where it is. -/
abbrev Walk := ExceptT Violation (StateM (List String)) Unit

/-- Checks the value that the walk is at. Its field is the last key on the way. -/
def atField (check : Option String → Except Violation Unit) : Walk := do
  let path ← get
  check path.getLast?

/-- Goes to the value under a key, and then back. A walk that fails there does not go back. -/
def inside (key : String) (walk : Walk) : Walk := do
  modify (· ++ [key])
  walk
  modify List.dropLast

mutual

/-- Checks the value that the walk is at, with what is in it. -/
def walk (schema : Schema) (value : Json) : Walk :=
  match schema with
  | .object properties patterns required anyOf additional =>
    match value with
    | .obj members => do
      atField (checkKeys properties patterns required anyOf additional · members)
      walkNamed properties members
      members.forM fun (key, child) =>
        if properties.any fun (name, _) => name == key then pure () else walkMatching patterns key child
    | _ => atField fun field => .error (.located field value (.notOfType "object"))
  | .string rules => atField (checkText rules · value)
  | .integer min max => atField (checkInteger min max · value)
  | .flag => atField (require (Flag.ofJson? value).isSome · value .notAFlag)
  | .nullable inner =>
    match value with
    | .null => pure ()
    | _ => walk inner value
  | .any => pure ()

def walkNamed (properties : List (String × Schema)) (members : List (String × Json)) : Walk :=
  match properties with
  | [] => pure ()
  | (name, schema) :: rest => do
    match lookup? name members with
    | some child => inside name (walk schema child)
    | none => pure ()
    walkNamed rest members

/-- Checks the value of a key by the first pattern that the key matches. -/
def walkMatching (patterns : List (Text.Pattern × Schema)) (key : String) (child : Json) : Walk :=
  match patterns with
  | [] => pure ()
  | (p, schema) :: rest => if p.isIn key then inside key (walk schema child) else walkMatching rest key child

end

/-- Checks a document. -/
def check (schema : Schema) (value : Json) : Except Violation Unit := ((walk schema value).run.run []).1

end Standby.Schema

def Standby.ApiError.ofViolation (v : Standby.Violation) : Standby.ApiError := .of .validationError v.message
