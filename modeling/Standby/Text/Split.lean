/-!
# Cutting a text at a character

`pieces sep s` are the texts between the occurrences of `sep`: always one more than there are
occurrences, and joined with `sep` they are `s` again (`joinAt_splitAt`).
-/

namespace Standby.Text

/-- The runs of characters between the occurrences of `sep`, empty ones included. -/
def splitAt (sep : Char) : List Char → List (List Char)
  | [] => [[]]
  | c :: cs =>
    if c = sep then [] :: splitAt sep cs
    else
      match splitAt sep cs with
      | [] => [[c]]
      | p :: ps => (c :: p) :: ps

/-- The runs written one after the other with `sep` between them. -/
def joinAt (sep : Char) : List (List Char) → List Char
  | [] => []
  | [p] => p
  | p :: q :: ps => p ++ sep :: joinAt sep (q :: ps)

theorem splitAt_ne_nil (sep : Char) (cs : List Char) : splitAt sep cs ≠ [] := by
  cases cs with
  | nil => simp [splitAt]
  | cons c cs =>
    simp only [splitAt]
    split
    · simp
    · split <;> simp

theorem joinAt_splitAt (sep : Char) (cs : List Char) : joinAt sep (splitAt sep cs) = cs := by
  induction cs with
  | nil => rfl
  | cons c cs ih =>
    have hne := splitAt_ne_nil sep cs
    cases hs : splitAt sep cs with
    | nil => exact absurd hs hne
    | cons p ps =>
      rw [hs] at ih
      by_cases hc : c = sep
      · simp [splitAt, hc, hs, joinAt, ih]
      · cases ps with
        | nil => simp_all [splitAt, joinAt]
        | cons q ps => simp_all [splitAt, joinAt]

/-- The texts between the occurrences of `sep`, empty ones included. -/
def pieces (sep : Char) (s : String) : List String := (splitAt sep s.toList).map String.ofList

/-- The texts before and after the first `sep`. -/
def cut? (sep : Char) (s : String) : Option (String × String) :=
  match s.toList.span (· ≠ sep) with
  | (_, []) => none
  | (before, _ :: after) => some (String.ofList before, String.ofList after)

/-- What follows `start` in a text that begins with it. -/
def after? (start : String) (s : String) : Option String :=
  if start.toList.isPrefixOf s.toList then some (String.ofList (s.toList.drop start.length)) else none

/-- What comes before `finish` in a text that ends with it. -/
def before? (finish : String) (s : String) : Option String :=
  if finish.toList.isSuffixOf s.toList then
    some (String.ofList (s.toList.take (s.length - finish.length)))
  else none

end Standby.Text
