/-!
# Text patterns

A pattern is known by how it is written and by the texts that it is found in. Which notation it is written in does
not matter to those who use it.

The notation here is that of expressions. An expression is a run of parts, each a class of characters that comes once,
any number of times, at least once or at most once. It is searched for anywhere in a text; an anchor ties it to the
beginning or to the end. In writing, `^` and `$` are the anchors, `[a-z_]` is a class of ranges and single characters, a
point is every character but a line feed, and any other character is itself; `*`, `+` and `?` follow the part they
repeat.
-/

namespace Standby.Text

inductive CharClass where
  | any
  | ranges (l : List (Char × Char))
  deriving DecidableEq, Repr

def CharClass.has : CharClass → Char → Bool
  | .any, c => c != '\n'
  | .ranges l, c => l.any fun (lo, hi) => lo ≤ c && c ≤ hi

/-- How often a part comes. -/
inductive Times where
  | once
  | many
  | some
  | perhaps
  deriving DecidableEq, Repr

structure Expression where
  fromStart : Bool
  parts : List (CharClass × Times)
  toEnd : Bool
  deriving DecidableEq, Repr

namespace Expression

/-- What is left of a text after any number of leading characters of a class. -/
def leftovers (p : Char → Bool) : List Char → List (List Char)
  | [] => [[]]
  | c :: cs => (c :: cs) :: if p c then leftovers p cs else []

/-- Whether a text begins with the parts, and ends with them if `toEnd`. -/
def matchParts (toEnd : Bool) : List (CharClass × Times) → List Char → Bool
  | [], cs => !toEnd || cs.isEmpty
  | (k, .once) :: ps, cs =>
    match cs with
    | c :: cs => k.has c && matchParts toEnd ps cs
    | [] => false
  | (k, .perhaps) :: ps, cs =>
    matchParts toEnd ps cs
      || match cs with
        | c :: cs => k.has c && matchParts toEnd ps cs
        | [] => false
  | (k, .many) :: ps, cs => (leftovers k.has cs).any (matchParts toEnd ps)
  | (k, .some) :: ps, cs =>
    match cs with
    | c :: cs => k.has c && (leftovers k.has cs).any (matchParts toEnd ps)
    | [] => false

/-- The text and everything that is left of it after dropping characters from its front. -/
def suffixes : List Char → List (List Char)
  | [] => [[]]
  | c :: cs => (c :: cs) :: suffixes cs

def isIn (e : Expression) (s : String) : Bool :=
  if e.fromStart then matchParts e.toEnd e.parts s.toList
  else (suffixes s.toList).any (matchParts e.toEnd e.parts)

/-- The ranges of a class up to its closing bracket, and the rest of the expression. -/
def readRanges : List Char → Option (List (Char × Char) × List Char)
  | [] => none
  | ']' :: rest => some ([], rest)
  | a :: '-' :: ']' :: rest => some ([(a, a), ('-', '-')], rest)
  | a :: '-' :: b :: rest => (readRanges rest).map fun (l, rest) => ((a, b) :: l, rest)
  | a :: rest => (readRanges rest).map fun (l, rest) => ((a, a) :: l, rest)

/-- How often the part just read comes, and the rest of the expression. -/
def readTimes : List Char → Times × List Char
  | '*' :: rest => (.many, rest)
  | '+' :: rest => (.some, rest)
  | '?' :: rest => (.perhaps, rest)
  | rest => (.once, rest)

/-- The parts of an expression and whether it is tied to the end, in at most `fuel` parts. -/
def readParts : (fuel : Nat) → List Char → Option (List (CharClass × Times) × Bool)
  | _, [] => some ([], false)
  | _, ['$'] => some ([], true)
  | 0, _ => none
  | fuel + 1, c :: rest => do
    let (k, rest) ←
      if c = '[' then (readRanges rest).map fun (l, rest) => (CharClass.ranges l, rest)
      else some (if c = '.' then .any else .ranges [(c, c)], rest)
    let (times, rest) := readTimes rest
    let (parts, toEnd) ← readParts fuel rest
    some ((k, times) :: parts, toEnd)

def ofText? (source : String) : Option Expression :=
  let (fromStart, cs) :=
    match source.toList with
    | '^' :: cs => (true, cs)
    | cs => (false, cs)
  (readParts cs.length cs).map fun (parts, toEnd) => ⟨fromStart, parts, toEnd⟩

end Expression

/-- A pattern: how it is written, and whether it is found in a text. -/
structure Pattern where
  source : String
  isIn : String → Bool

namespace Pattern

def ofExpression (source : String) (e : Expression) : Pattern := ⟨source, e.isIn⟩

def ofText? (source : String) : Option Pattern := (Expression.ofText? source).map (ofExpression source)

end Pattern

end Standby.Text
