import Standby.Text.Ascii
import Standby.Text.Split
import Standby.Text.Utf8
/-!
# Percent-encoding and form-encoded pairs

A byte is written as a percent sign and two hexadecimal digits. In a path component every byte but those of
ASCII letters, digits and a few marks is written so; a percent sign that no two digits follow is read as
itself. Form-encoded pairs are joined by ampersands, each a key and a value joined by an equals sign, with a
plus sign for a space.
-/

namespace Standby.Text

namespace Percent

/-- A byte as a percent sign and two hexadecimal digits. -/
def encodeByte (b : UInt8) : List Char := ['%', hexDigit (b.toNat / 16), hexDigit (b.toNat % 16)]

/-- The bytes that a text spells. -/
def decode : List Char → List UInt8
  | [] => []
  | c :: cs =>
    if c = '%' then
      match cs with
      | h :: l :: rest =>
        match hexValue? h, hexValue? l with
        | some a, some b => UInt8.ofNat (16 * a + b) :: decode rest
        | _, _ => String.utf8EncodeChar c ++ decode (h :: l :: rest)
      | rest => String.utf8EncodeChar c ++ decode rest
    else String.utf8EncodeChar c ++ decode cs
termination_by cs => cs.length

/-- The text that a path component spells. -/
def decodeText (s : String) : String := Utf8.decodeLossy (decode s.toList)

/-- A path component that spells the given text, with every byte written in digits. -/
def encodeText (s : String) : String := String.ofList ((Utf8.encode s).flatMap encodeByte)

end Percent

namespace Form

/-- The ASCII characters that stand for themselves in a key or a value. -/
def isPlain (c : Char) : Bool := c.isAlphanum || c == '*' || c == '-' || c == '.' || c == '_'

/-- A character of a key or a value. -/
def encodeChar (c : Char) : List Char :=
  if isPlain c then [c]
  else if c = ' ' then ['+']
  else (String.utf8EncodeChar c).flatMap Percent.encodeByte

/-- A key or a value. -/
def encodePart (s : String) : String := String.ofList (s.toList.flatMap encodeChar)

/-- A key or a value as it is read. -/
def decodePart (s : String) : String :=
  Utf8.decodeLossy (Percent.decode (s.toList.map fun c => if c = '+' then ' ' else c))

/-- The pairs of a form-encoded text. One without an equals sign has an empty value. -/
def decodePairs (s : String) : List (String × String) :=
  ((pieces '&' s).filter (· ≠ "")).map fun p =>
    match cut? '=' p with
    | some (k, v) => (decodePart k, decodePart v)
    | none => (decodePart p, "")

def encodePairs (l : List (String × String)) : String :=
  "&".intercalate (l.map fun (k, v) => encodePart k ++ "=" ++ encodePart v)

end Form

end Standby.Text
