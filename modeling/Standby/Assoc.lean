/-!
# Lists of pairs

A list of pairs is read as a table: `lookup?` gives the value under a key, `insertKey` sets it and `eraseKey`
takes it out. What each of the last two does to look-ups is said by `lookup?_insertKey` and
`lookup?_eraseKey`.
-/

namespace Standby

/-- Looks up the value of a key in a list of pairs. -/
def lookup? {α : Type} (key : String) : List (String × α) → Option α
  | [] => none
  | (k, v) :: rest => if k = key then some v else lookup? key rest

/-- Sets the value of a key, in its old place if it has one and else at the end. -/
def insertKey {α : Type} (key : String) (value : α) : List (String × α) → List (String × α)
  | [] => [(key, value)]
  | (k, v) :: rest => if k = key then (k, value) :: rest else (k, v) :: insertKey key value rest

theorem lookup?_insertKey {α : Type} (key other : String) (value : α) (l : List (String × α)) :
    lookup? other (insertKey key value l) = if key = other then some value else lookup? other l := by
  induction l with
  | nil => simp [insertKey, lookup?]
  | cons p l ih =>
    obtain ⟨k, v⟩ := p
    by_cases hk : k = key
    · subst hk
      by_cases ho : k = other <;> simp [insertKey, lookup?, ho]
    · by_cases ho : k = other
      · subst ho
        simp [insertKey, lookup?, hk, Ne.symm hk]
      · simp [insertKey, lookup?, hk, ho, ih]

/-- Takes a key out. -/
def eraseKey {α : Type} (key : String) (l : List (String × α)) : List (String × α) := l.filter (·.1 != key)

theorem lookup?_eraseKey {α : Type} (key other : String) (l : List (String × α)) :
    lookup? other (eraseKey key l) = if key = other then none else lookup? other l := by
  induction l with
  | nil => simp [eraseKey, lookup?]
  | cons p l ih =>
    obtain ⟨k, v⟩ := p
    unfold eraseKey at ih ⊢
    by_cases hk : k = key
    · subst hk
      by_cases ho : k = other
      · subst ho
        simpa using ih
      · simpa [lookup?, ho] using ih
    · have hb : (k != key) = true := by simpa using hk
      rw [List.filter_cons, if_pos hb]
      by_cases ho : k = other
      · subst ho
        simp [lookup?, Ne.symm hk]
      · simpa [lookup?, ho] using ih

end Standby
