/-!
# The cache of a request

While a request is served, handlers and hooks share items under a name and a key. A later item takes the place
of an earlier one.
-/

namespace Standby

/-- The items that were put aside, each under a name and a key. -/
structure Cache (κ : Type) where
  items : List ((String × String) × κ)

namespace Cache

variable {κ : Type}

def empty : Cache κ := ⟨[]⟩

/-- Puts an item under a name and a key. -/
def insert (c : Cache κ) (name key : String) (item : κ) : Cache κ :=
  ⟨c.items.filter (·.1 != (name, key)) ++ [((name, key), item)]⟩

/-- The item under a name and a key. -/
def get? (c : Cache κ) (name key : String) : Option κ := (c.items.find? (·.1 == (name, key))).map (·.2)

/-- How many items there are. -/
def size (c : Cache κ) : Nat := c.items.length

theorem get?_insert_self (c : Cache κ) (name key : String) (item : κ) :
    (c.insert name key item).get? name key = some item := by
  simp only [get?, insert, List.find?_append]
  have h : (c.items.filter (·.1 != (name, key))).find? (·.1 == (name, key)) = none := by
    rw [List.find?_eq_none]
    intro p hp
    simpa [bne] using (List.mem_filter.1 hp).2
  simp [h]

theorem get?_insert_of_ne (c : Cache κ) {name key name' key' : String} (item : κ)
    (h : (name, key) ≠ (name', key')) : (c.insert name key item).get? name' key' = c.get? name' key' := by
  simp only [get?, insert, List.find?_append]
  have hs : [((name, key), item)].find? (fun p => p.1 == (name', key')) = none := by
    simp only [List.find?_cons, List.find?_nil, beq_eq_false_iff_ne.2 h]
  rw [hs, Option.or_none]
  congr 1
  induction c.items with
  | nil => rfl
  | cons p l ih =>
    by_cases hp : p.1 = (name, key)
    · have hq : (p.1 == (name', key')) = false := by rw [hp]; exact beq_eq_false_iff_ne.2 h
      have hk : (p.1 != (name, key)) = false := by simp [hp]
      rw [List.filter_cons, hk, List.find?_cons, hq]
      simpa using ih
    · have hk : (p.1 != (name, key)) = true := by simpa [bne] using hp
      rw [List.filter_cons, hk]
      simp only [if_true, List.find?_cons]
      split
      · rfl
      · exact ih

end Cache

end Standby
