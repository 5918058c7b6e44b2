import Standby.Json.Token
/-!
# JSON values from text

The tokens of a document drive a machine that keeps the containers that are still open. A document that nests
deeper than `maxDepth` is refused. When a key comes twice in an object, the later value takes the place of the
earlier one.
-/

namespace Standby.Json

/-- The deepest nesting of arrays and objects that is read. -/
def maxDepth : Nat := 127

/-- An open array with its items so far, in reverse, or an open object with its members so far and the key
whose value is being read. -/
inductive Frame where
  | arr (items : List Json)
  | obj (members : List (String × Json)) (key : String)

/-- What may come next: a value, the first item of an array or its end, a key of an object (and for the first
one its end), the colon after a key, or what follows the whole value `j`. -/
inductive Place where
  | value
  | firstItem
  | key (members : List (String × Json)) (mayClose : Bool)
  | colon (members : List (String × Json)) (key : String)
  | after (j : Json)

/-- The containers that a value at this place belongs to, the innermost first, and the place itself. -/
structure Reading where
  frames : List Frame
  place : Place

/-- The place before a document. -/
def Reading.start : Reading := ⟨[], .value⟩

/-- Opens a container, unless it would nest too deep. -/
def Reading.open? (frames : List Frame) (place : Place) : Option Reading :=
  if frames.length < maxDepth then some ⟨frames, place⟩ else none

/-- Reads the first token of a value. -/
def Reading.begin? (frames : List Frame) : Token → Option Reading
  | .null => some ⟨frames, .after .null⟩
  | .bool b => some ⟨frames, .after (.bool b)⟩
  | .num n => some ⟨frames, .after (.num n)⟩
  | .str s => some ⟨frames, .after (.str s)⟩
  | .openArr => open? frames .firstItem
  | .openObj => open? frames (.key [] true)
  | _ => none

/-- Reads the token after a value. -/
def Reading.continue? (frames : List Frame) (j : Json) (t : Token) : Option Reading :=
  match frames, t with
  | .arr items :: outer, .comma => some ⟨.arr (j :: items) :: outer, .value⟩
  | .arr items :: outer, .closeArr => some ⟨outer, .after (.arr (j :: items).reverse)⟩
  | .obj members key :: outer, .comma => some ⟨outer, .key (insertKey key j members) false⟩
  | .obj members key :: outer, .closeObj => some ⟨outer, .after (.obj (insertKey key j members))⟩
  | _, _ => none

def Reading.step? (r : Reading) (t : Token) : Option Reading :=
  match r.place, t with
  | .value, t => begin? r.frames t
  | .firstItem, .closeArr => some ⟨r.frames, .after (.arr [])⟩
  | .firstItem, t => begin? (.arr [] :: r.frames) t
  | .key _ true, .closeObj => some ⟨r.frames, .after (.obj [])⟩
  | .key members _, .str key => some ⟨r.frames, .colon members key⟩
  | .colon members key, .colon => some ⟨.obj members key :: r.frames, .value⟩
  | .after j, t => continue? r.frames j t
  | _, _ => none

/-- The value that a text denotes. -/
def parse? (s : String) : Option Json := do
  let tokens ← Token.readAll? [] s.toList
  let last ← tokens.foldlM Reading.step? Reading.start
  match last with
  | ⟨[], .after j⟩ => some j
  | _ => none

end Standby.Json
