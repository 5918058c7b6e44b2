import Standby.Text.Ascii
import Standby.Text.Split
/-!
# UUID texts

A UUID is written as 32 hexadecimal digits, or in groups of 8, 4, 4, 4 and 12 with hyphens between them; the
grouped form may stand in braces or after `urn:uuid:`, in letters of either case.
-/

namespace Standby.Uuid

/-- Whether the characters are so many hexadecimal digits. -/
def isHex (count : Nat) (cs : List Char) : Bool :=
  cs.length == count && cs.all fun c => (Text.hexValue? c).isSome

/-- Whether the characters are the groups of a UUID with hyphens between them. -/
def isGrouped (cs : List Char) : Bool :=
  match Text.splitAt '-' cs with
  | [a, b, c, d, e] => isHex 8 a && isHex 4 b && isHex 4 c && isHex 4 d && isHex 12 e
  | _ => false

/-- What stands before a UUID in a name. -/
def urnStart : String := "urn:uuid:"

def isText (s : String) : Bool :=
  let cs := s.toList
  isHex 32 cs || isGrouped cs
    || (Text.sameIgnoringCase (String.ofList (cs.take urnStart.length)) urnStart
      && isGrouped (cs.drop urnStart.length))
    || match cs with
      | '\x7b' :: rest => rest.getLast? == some '\x7d' && isGrouped rest.dropLast
      | _ => false

end Standby.Uuid
