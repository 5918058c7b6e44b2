import Standby.Assoc
/-!
# Inheritance

A resource may point to another one whose controllers it takes over, which may point to a third, and so on. The
chain of a resource is the resource itself and what the pointers lead to, each name once. Pointers may run in a
circle or lead to a resource that does not exist.
-/

namespace Standby.Inherit

/-- The resources with what each of them points to. -/
abbrev Pointers := List (String × Option String)

/-- The names among the pointers that a chain does not have yet. -/
def unseen (ps : Pointers) (chain : List String) : List String :=
  (ps.map (·.1)).filter fun n => decide (n ∉ chain)

theorem unseen_append (ps : Pointers) (chain : List String) (name : String) :
    unseen ps (chain ++ [name]) = (unseen ps chain).filter fun n => decide (n ≠ name) := by
  simp only [unseen, List.filter_filter]
  congr 1
  funext n
  by_cases h : n ∈ chain <;> by_cases h' : n = name <;> simp [h, h']

theorem unseen_append_length_lt {ps : Pointers} {chain : List String} {name : String}
    (hmem : name ∈ ps.map (·.1)) (hnot : name ∉ chain) :
    (unseen ps (chain ++ [name])).length < (unseen ps chain).length := by
  rw [unseen_append]
  refine List.length_filter_lt_length_iff_exists.2 ⟨name, ?_, by simp⟩
  exact List.mem_filter.2 ⟨hmem, by simpa using hnot⟩

theorem mem_of_lookup? {α : Type} {name : String} {l : List (String × α)} {v : α}
    (h : lookup? name l = some v) : name ∈ l.map (·.1) := by
  induction l with
  | nil => simp [lookup?] at h
  | cons p l ih =>
    obtain ⟨k, w⟩ := p
    by_cases hk : k = name
    · simp [hk]
    · rw [lookup?, if_neg hk] at h
      exact List.mem_cons_of_mem _ (ih h)

/-- The chain that goes on from `chain`, when the last resource on it points to `next`. -/
def extend (ps : Pointers) (chain : List String) (next : Option String) : List String :=
  match next with
  | none => chain
  | some name =>
    if _hc : name ∈ chain then chain
    else
      match _hp : lookup? name ps with
      | none => chain ++ [name]
      | some next => extend ps (chain ++ [name]) next
termination_by (unseen ps chain).length
decreasing_by exact unseen_append_length_lt (mem_of_lookup? _hp) _hc

/-- The chain of a resource that points to `next`. -/
def chain (ps : Pointers) (name : String) (next : Option String) : List String := extend ps [name] next

end Standby.Inherit
