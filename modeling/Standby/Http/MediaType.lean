import Standby.Assoc
import Standby.Text.Ascii
import Standby.Text.Split
/-!
# Media types

A media type is a type and a subtype joined by a slash, and parameters. The subtype may end in a suffix after
a plus sign. Letter case counts only in the values of parameters.
-/

namespace Standby

/-- Whether a character may stand in a token of a header. -/
def isTokenChar (c : Char) : Bool := c.isAlphanum || "!#$%&'*+-.^_\x60|~".toList.contains c

/-- A media type or a range of them, in lower case. -/
structure MediaType where
  type : String
  /-- The subtype without its suffix. -/
  subtype : String
  suffix : Option String
  params : List (String × String)
  deriving DecidableEq, Repr

namespace MediaType

/-- The media type without its parameters. -/
def essence (m : MediaType) : String :=
  m.type ++ "/" ++ m.subtype ++ (match m.suffix with
    | some suffix => "+" ++ suffix
    | none => "")

/-- The first value of a parameter. -/
def param? (m : MediaType) (name : String) : Option String := lookup? name m.params

/-- The value of a parameter after its opening quote, and the parameters after it. A value has at least one
character before its closing quote, and only blanks before the next semicolon. -/
def quotedValue? (cs : List Char) : Option (String × List Char) :=
  match cs with
  | [] => none
  | c :: cs =>
    let allowed (c : Char) : Bool := 31 < c.toNat && c.toNat ≠ 127
    if !allowed c then none
    else
      let value := c :: cs.takeWhile fun c => c ≠ '\x22' && allowed c
      match cs.dropWhile fun c => c ≠ '\x22' && allowed c with
      | '\x22' :: rest =>
        match rest.dropWhile (· == ' ') with
        | [] => some (String.ofList value, [])
        | ';' :: rest => some (String.ofList value, rest)
        | _ => none
      | _ => none

/-- The value of a parameter, and the parameters after it. -/
def value? (cs : List Char) : Option (String × List Char) :=
  match cs with
  | '\x22' :: cs => quotedValue? cs
  | cs =>
    let value := cs.takeWhile isTokenChar
    match cs.dropWhile isTokenChar with
    | [] => some (String.ofList value, [])
    | ';' :: rest => if value.isEmpty then none else some (String.ofList value, rest)
    | _ => none

/-- The parameters that a text lists, in at most `fuel` steps. -/
def params? : (fuel : Nat) → List Char → Option (List (String × String))
  | _, [] => some []
  | 0, _ => none
  | fuel + 1, ' ' :: cs => params? fuel cs
  | fuel + 1, cs =>
    let name := cs.takeWhile isTokenChar
    match cs.dropWhile isTokenChar with
    | '=' :: rest =>
      if name.isEmpty then none
      else do
        let (value, rest) ← value? rest
        let params ← params? fuel rest
        some ((Text.lower (String.ofList name), value) :: params)
    | _ => none

/-- A subtype with its suffix, which begins after the last plus sign that is not the first character. -/
def splitSuffix (cs : List Char) : String × Option String :=
  let lowered (cs : List Char) : String := Text.lower (String.ofList cs)
  match cs.reverse.dropWhile (· ≠ '+') with
  | _ :: before@(_ :: _) => (lowered before.reverse, some (lowered (cs.drop (before.length + 1))))
  | _ => (lowered cs, none)

/-- The media type that a text writes. Its subtype may be empty, but only if nothing follows it. -/
def ofText? (s : String) : Option MediaType :=
  let cs := s.toList
  let type := cs.takeWhile isTokenChar
  match cs.dropWhile isTokenChar with
  | '/' :: rest =>
    let subtype := rest.takeWhile isTokenChar
    let params :=
      match rest.dropWhile isTokenChar with
      | [] => some []
      | c :: rest => if !subtype.isEmpty && c = ';' then params? rest.length rest else none
    let (name, suffix) := splitSuffix subtype
    if type.isEmpty then none
    else params.map fun params => ⟨Text.lower (String.ofList type), name, suffix, params⟩
  | _ => none

end MediaType

end Standby
