import Standby.Assoc
/-!
# JSON values

A number is an integer or a double; which of the two it is stays part of the value. An object is the list of
its members in the order in which their keys first came, with every key once: `insertKey` replaces the value
of a key that is there and adds a new key at the end.
-/

namespace Standby

/-- A JSON number. The integers are those of 64 bits, with or without a sign. -/
inductive Number where
  | int (n : Int)
  | real (x : Float)

/-- A JSON value. -/
inductive Json where
  | null
  | bool (b : Bool)
  | num (n : Number)
  | str (s : String)
  | arr (items : List Json)
  | obj (members : List (String × Json))

instance : Inhabited Json := ⟨.null⟩

namespace Json

def members? : Json → Option (List (String × Json))
  | .obj members => some members
  | _ => none

def str? : Json → Option String
  | .str s => some s
  | _ => none

/-- The value under a key of an object. -/
def get? (key : String) (j : Json) : Option Json := j.members?.bind (lookup? key)

/-- The integer that a number is, if it fits 64 bits with a sign. -/
def int64? : Json → Option Int
  | .num (.int n) => if -9223372036854775808 ≤ n ∧ n < 9223372036854775808 then some n else none
  | _ => none

def ofNat (n : Nat) : Json := .num (.int n)

/-- A truth value, or `null` when there is none. -/
def ofFlag? : Option Bool → Json
  | none => .null
  | some b => .bool b

/-- A text as a value, or `null` when there is none. -/
def ofText? : Option String → Json
  | none => .null
  | some s => .str s

def ofTexts (l : List String) : Json := .arr (l.map .str)

end Json

/-- Equality of numbers. An integer is never equal to a double, and doubles are compared as numbers. -/
def Number.same : Number → Number → Bool
  | .int a, .int b => a == b
  | .real x, .real y => x == y
  | _, _ => false

mutual

/-- Equality of values, in which the order of an object's members does not count. -/
def Json.same : Json → Json → Bool
  | .null, .null => true
  | .bool a, .bool b => a == b
  | .num a, .num b => a.same b
  | .str a, .str b => a == b
  | .arr a, .arr b => sameItems a b
  | .obj a, .obj b => a.length == b.length && sameMembers a b
  | _, _ => false

/-- Whether two lists of values are equal item by item. -/
def sameItems : List Json → List Json → Bool
  | [], [] => true
  | a :: as, b :: bs => a.same b && sameItems as bs
  | _, _ => false

/-- Whether every member of the first list is one of the second. -/
def sameMembers : List (String × Json) → List (String × Json) → Bool
  | [], _ => true
  | (k, v) :: rest, b =>
    (match lookup? k b with
      | some w => v.same w
      | none => false) && sameMembers rest b

end

end Standby
