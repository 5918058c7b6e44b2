import Standby.Http.MediaType
/-!
# Headers

The headers of a message are pairs of a lower-case name and a value, in the order in which they were added. A
name can come several times. `set` leaves a name with one value, `append` adds one, and `without` leaves none.
-/

namespace Standby

abbrev Headers := List (String × String)

namespace Headers

/-- Whether a text can be the name of a header: it is a token, and its length a number of 16 bits. -/
def isName (s : String) : Bool := !s.isEmpty && s.toList.length ≤ 65535 && s.toList.all isTokenChar

/-- Whether a text can be the value of a header: it has no control characters but the tab. -/
def isValue (s : String) : Bool := s.toList.all fun c => (32 ≤ c.toNat && c.toNat ≠ 127) || c == '\t'

/-- Whether a value is ASCII text. -/
def isText (s : String) : Bool := s.toList.all fun c => (32 ≤ c.toNat && c.toNat < 127) || c == '\t'

/-- The value without the spaces and tabs at its ends. -/
def trimValue (s : String) : String :=
  let skip (cs : List Char) : List Char := cs.dropWhile fun c => c == ' ' || c == '\t'
  String.ofList (skip (skip s.toList).reverse).reverse

/-- The headers as they come over a connection, where the ends of values are trimmed. -/
def received (h : Headers) : Headers := h.map fun (name, value) => (name, trimValue value)

/-- The values of a name. -/
def values (h : Headers) (name : String) : List String := (h.filter (·.1 == name)).map (·.2)

/-- The first value of a name, if it is ASCII text. -/
def text? (h : Headers) (name : String) : Option String := (h.values name).head?.filter isText

def append (h : Headers) (name value : String) : Headers := h ++ [(name, value)]

def without (h : Headers) (name : String) : Headers := h.filter (·.1 != name)

/-- Makes a value the only one of its name. -/
def set (h : Headers) (name value : String) : Headers := h.without name ++ [(name, value)]

/-- Makes a value the only one of its name if it can be the value of a header. -/
def setIfValid (h : Headers) (name value : String) : Headers := if isValue value then h.set name value else h

/-- The headers that pairs of texts make. A pair that cannot be a header is left out, and a later one replaces one
of its name. -/
def ofPairs (l : List (String × String)) : Headers :=
  l.foldl (fun h (name, value) => if isName name then setIfValid h (Text.lower name) value else h) []

/-- Changes the last value of a name. -/
def mapLast (name : String) (f : String → String) : Headers → Headers
  | [] => []
  | (n, v) :: rest =>
    if n == name && (values rest name).isEmpty then (n, f v) :: rest else (n, v) :: mapLast name f rest

end Headers

end Standby
