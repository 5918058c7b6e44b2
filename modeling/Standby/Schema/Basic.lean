import Standby.Json.Flag
import Standby.Json.Printer
import Standby.Text.Blank
import Standby.Text.Pattern
import Standby.Time.Timestamp
import Standby.Uuid
/-!
# Body schemas

A schema says which JSON values an action accepts. What is wrong with a value is a `Complaint`; a `Violation`
adds the value itself and the name of the field that holds it.
-/

namespace Standby

/-- Named forms of a string. -/
inductive TextFormat where
  | name
  | dateTime
  | uuid
  deriving DecidableEq, Repr

namespace TextFormat

/-- The word for a form. -/
def text : TextFormat → String
  | .name => "name"
  | .dateTime => "date-time"
  | .uuid => "uuid"

/-- Whether a character is a control character. -/
def isControl (c : Char) : Bool := c.toNat < 0x20 || (0x7F ≤ c.toNat && c.toNat ≤ 0x9F)

/-- Whether a string has the form. A name has no control characters and no blanks at its ends. -/
def accepts (f : TextFormat) (s : String) : Bool :=
  match f with
  | .name => !s.toList.any isControl && Text.trim s == s
  | .dateTime => (Time.Timestamp.strict? s).isSome
  | .uuid => Uuid.isText s

end TextFormat

/-- What a string must satisfy; a missing rule asks nothing. Lengths count characters. -/
structure TextRules where
  minLength : Option Nat := none
  maxLength : Option Nat := none
  pattern : Option Text.Pattern := none
  format : Option TextFormat := none
  options : Option (List String) := none

/-- Which JSON values are accepted. -/
inductive Schema where
  /-- An object. Schemas are given for named keys and for the keys that match a pattern. The `required` keys
  must be there, and so must all keys of one of the groups `anyOf` if there are any; other keys than those
  with a schema may be there only if `additional`. -/
  | object (properties : List (String × Schema)) (patterns : List (Text.Pattern × Schema))
      (required : List String) (anyOf : List (List String)) (additional : Bool)
  /-- A string. -/
  | string (rules : TextRules)
  /-- An integer of 64 bits with a sign, within bounds. -/
  | integer (min max : Option Int)
  /-- A flag. -/
  | flag
  /-- `null`, or what the inner schema accepts. -/
  | nullable (inner : Schema)
  /-- Any value. -/
  | any

instance : Inhabited Schema := ⟨.any⟩

/-- What can be wrong with a value. -/
inductive Complaint where
  | notOfType (type : String)
  | missingKey (key : String)
  | noGroup
  | unexpectedKey (key : String)
  | notOneOf (options : List String)
  | notAFlag
  | tooShort
  | tooLong
  | noMatch (pattern : String)
  | badName
  | badFormat (format : TextFormat)
  | tooSmall (n min : Int)
  | tooLarge (n max : Int)
  deriving DecidableEq, Repr

namespace Complaint

/-- A value inside a message: a string in single quotes, anything else as JSON. -/
def shown : Json → String
  | .str s => "'" ++ s ++ "'"
  | j => j.text

/-- Words in single quotes. -/
def quotedWords (l : List String) : List String := l.map fun s => "'" ++ s ++ "'"

/-- The wording of a complaint about a value. -/
def reason (value : Json) : Complaint → String
  | notOfType type => s!"{shown value} is not of type '{type}'"
  | missingKey key => s!"'{key}' is a required property"
  | noGroup => s!"{shown value} is not valid under any of the given schemas"
  | unexpectedKey key => s!"Additional properties are not allowed ('{key}' was unexpected)"
  | notOneOf options => s!"{shown value} is not one of [" ++ ", ".intercalate (quotedWords options) ++ "]"
  | notAFlag =>
    s!"{shown value} is not one of [" ++ ", ".intercalate
      ("true" :: quotedWords Flag.trueWords ++ "false" :: quotedWords Flag.falseWords) ++ "]"
  | tooShort => s!"{shown value} is too short"
  | tooLong => s!"{shown value} is too long"
  | noMatch pattern => s!"{shown value} does not match '{pattern}'"
  | badName =>
    "An invalid 'name' value was provided. The name must be: printable characters. "
      ++ "Can not start or end with whitespace."
  | badFormat format => s!"{shown value} is not a '{format.text}'"
  | tooSmall n min => s!"{n} is less than the minimum of {min}"
  | tooLarge n max => s!"{n} is greater than the maximum of {max}"

/-- Whether the complaint is reported without the field it arose at. -/
def isBare : Complaint → Bool
  | missingKey _ => true
  | noGroup => true
  | unexpectedKey _ => true
  | badName => true
  | _ => false

end Complaint

/-- A value that a schema does not accept. The field is that of the innermost key on the way to the value. -/
structure Violation where
  field : Option String
  value : Json
  complaint : Complaint

namespace Violation

/-- The violation at a value, which the key `field` leads to. -/
def located (field : Option String) (value : Json) (complaint : Complaint) : Violation :=
  ⟨if complaint.isBare then none else field, value, complaint⟩

def reason (v : Violation) : String := v.complaint.reason v.value

/-- The offending value as text, when the violation has a field. -/
def shownValue? (v : Violation) : Option String :=
  v.field.map fun _ =>
    match v.value with
    | .str s => s
    | j => j.text

/-- The violation as one sentence or more. -/
def message (v : Violation) : String :=
  match v.field, v.shownValue? with
  | some field, some value => s!"Invalid input for field/attribute {field}. Value: {value}. {v.reason}"
  | _, _ => v.reason

end Violation

end Standby
