import Standby.Text.Utf8
/-!
# Targets of requests

A target is a path with a query, the same after a scheme and an authority, an authority alone, or an asterisk.
What follows a hash sign is no part of it. An authority names a host, with a user before it and a number after
it if need be; a target that is nothing else has an empty path.
-/

namespace Standby

/-- Where a request goes. -/
structure Target where
  path : String
  query : Option String
  deriving DecidableEq, Repr

namespace Target

/-- The most bytes that a target can have. -/
def maxSize : Nat := 65534

/-- Whether a character may stand in a path. -/
def isPathChar (c : Char) : Bool :=
  let n := c.toNat
  n == 0x21 || n == 0x22 || (0x24 ≤ n && n ≤ 0x3B) || n == 0x3D || (0x40 ≤ n && n ≤ 0x5F)
    || (0x61 ≤ n && n ≤ 0x7E) || 0x80 ≤ n

/-- Whether a character may stand in a query. -/
def isQueryChar (c : Char) : Bool :=
  let n := c.toNat
  n == 0x21 || (0x24 ≤ n && n ≤ 0x3B) || n == 0x3D || (0x3F ≤ n && n ≤ 0x7E) || 0x80 ≤ n

/-- A path and its query, either of which may be empty. -/
def ofPath? (cs : List Char) : Option Target :=
  let path := cs.takeWhile fun c => c ≠ '?' && c ≠ '#'
  if !path.all isPathChar then none
  else
    let pathText := if path.isEmpty then "/" else String.ofList path
    match cs.drop path.length with
    | '?' :: rest =>
      let query := rest.takeWhile (· ≠ '#')
      if query.all isQueryChar then some ⟨pathText, some (String.ofList query)⟩ else none
    | _ => some ⟨pathText, none⟩

/-- Whether a character may stand in an authority for itself. -/
def isAuthorityChar (c : Char) : Bool := c.isAlphanum || "-._~!$&'()*+,;=".toList.contains c

/-- What has been read of an authority: whether its brackets were opened and closed, and the colons and the
percent signs since its last `@` or closing bracket. -/
structure AuthorityScan where
  opened : Bool := false
  closed : Bool := false
  colons : Nat := 0
  percent : Bool := false
  deriving DecidableEq, Repr

/-- Reads one more character. There is one pair of brackets at most, no percent sign counts in front of it, and
never more than eight colons count. -/
def AuthorityScan.next? (s : AuthorityScan) (c : Char) : Option AuthorityScan :=
  if c = ':' then (if s.colons < 8 then some { s with colons := s.colons + 1 } else none)
  else if c = '%' then some { s with percent := true }
  else if c = '@' then some { s with colons := 0, percent := false }
  else if c = '[' then (if s.opened || s.percent then none else some { s with opened := true })
  else if c = ']' then
    (if s.opened && !s.closed then some { s with closed := true, colons := 0, percent := false } else none)
  else if isAuthorityChar c then some s
  else none

/-- Whether a text is an authority. After the user and the brackets it has one colon at most and no percent
sign, and something follows the user. -/
def isAuthority (cs : List Char) : Bool :=
  match cs.foldlM AuthorityScan.next? {} with
  | none => false
  | some s => s.opened == s.closed && s.colons ≤ 1 && !s.percent && cs.getLast?.any (· ≠ '@')

/-- Whether a character may stand in a scheme. -/
def isSchemeChar (c : Char) : Bool := c.isAlphanum || c == '+' || c == '-' || c == '.' || c == '~'

/-- What follows the scheme of an absolute target, which has 64 characters at most. -/
def afterScheme? (cs : List Char) : Option (List Char) :=
  let scheme := cs.takeWhile isSchemeChar
  match cs.drop scheme.length with
  | ':' :: '/' :: '/' :: rest => if scheme.length ≤ 64 then some rest else none
  | _ => none

def ofText? (s : String) : Option Target :=
  if maxSize < Text.Utf8.size s then none
  else
    match s.toList with
    | ['*'] => some ⟨"*", none⟩
    | '/' :: cs => ofPath? ('/' :: cs)
    | cs =>
      match afterScheme? cs with
      | some rest =>
        let authority := rest.takeWhile fun c => c ≠ '/' && c ≠ '?' && c ≠ '#'
        if isAuthority authority then ofPath? (rest.drop authority.length) else none
      | none => if isAuthority cs then some ⟨"", none⟩ else none

end Target

end Standby
