import Standby.Proofs.Engine.Inheritance
import Standby.Proofs.Engine.Origin
/-!
# What a dispatcher is made of

The resources and controllers of a dispatcher are those of its extensions, in the order in which they were added.
The controllers of a resource are its own and then those of the resources that its pointers lead to.
-/

namespace Standby

variable {σ κ : Type}

/-! ## What extensions bring -/

namespace ExtensionSet

variable (s : ExtensionSet σ κ)

/-- The resources with what each of them inherits from. -/
def pointers : Inherit.Pointers := s.resources.map fun r => (r.collection, r.inherits)

/-- The controllers of some resources: those of the first resource in the order in which they were added, then those of
the second, and so on. -/
def controllersFor (collections : List String) : List (Controller σ κ) :=
  collections.flatMap fun c => s.controllers.filter (·.resource == c)

end ExtensionSet

namespace Dispatcher

/-- A dispatcher that was built from extensions. A catalog may have been added to it since. -/
def IsBuiltFrom (d : Dispatcher σ κ) (extensions : ExtensionSet σ κ) : Prop :=
  ∃ settings, build settings extensions = .ok { d with catalog := none }

theorem lookup?_map_collection {β : Type} (f : Resource σ κ → β) (c : String) (l : List (Resource σ κ)) :
    lookup? c (l.map fun r => (r.collection, f r)) = (l.find? (·.collection == c)).map f := by
  induction l with
  | nil => rfl
  | cons r l ih => by_cases hr : r.collection = c <;> simp [lookup?, hr, ih]

/-- What a dispatcher knows of a resource: the resource itself, and the controllers for it and for those that it
inherits from. -/
theorem IsBuiltFrom.entry {d : Dispatcher σ κ} {extensions : ExtensionSet σ κ} {collection : String}
    {e : Entry σ κ} (hd : d.IsBuiltFrom extensions) (he : lookup? collection d.entries = some e) :
    e.resource ∈ extensions.resources ∧ e.resource.collection = collection ∧
      ∃ rest, Inherit.Complete extensions.pointers (collection :: rest) ∧
        e.actions = (extensions.controllersFor (collection :: rest)).map (·.actions) ∧
        e.hooks = (extensions.controllersFor (collection :: rest)).map (·.hooks) := by
  obtain ⟨settings, hd⟩ := hd
  have hentries := congrArg Dispatcher.entries (build_eq_ok_iff.1 hd).2
  simp only [ofExtensions] at hentries
  rw [hentries, lookup?_map_collection] at he
  obtain ⟨r, hr, rfl⟩ := Option.map_eq_some_iff.1 he
  have hcollection : r.collection = collection := by simpa using List.find?_some hr
  subst hcollection
  have hpointer : lookup? r.collection extensions.pointers = some r.inherits := by
    rw [ExtensionSet.pointers, lookup?_map_collection]
    exact Option.map_eq_some_iff.2 ⟨r, hr, rfl⟩
  obtain ⟨rest, hchain, hcomplete⟩ := Inherit.complete_chain hpointer
  refine ⟨List.mem_of_find?_eq_some hr, rfl, rest, hcomplete, ?_, ?_⟩
  all_goals
    rw [ExtensionSet.controllersFor, ← hchain]
    rfl

/-- Its paths are those to the resources of the extensions. -/
theorem IsBuiltFrom.router {d : Dispatcher σ κ} {extensions : ExtensionSet σ κ} (hd : d.IsBuiltFrom extensions) :
    d.router = routerOf extensions.resources := by
  obtain ⟨settings, hd⟩ := hd
  exact congrArg Dispatcher.router (build_eq_ok_iff.1 hd).2

/-- What stands at the root is a resource that is meant to. -/
theorem IsBuiltFrom.root {d : Dispatcher σ κ} {extensions : ExtensionSet σ κ} {name : String}
    (hd : d.IsBuiltFrom extensions) (hname : d.router.root = some name) :
    ∃ r ∈ extensions.resources, r.root = true ∧ r.collection = name := by
  rw [hd.router] at hname
  obtain ⟨r, hr, hcollection⟩ := Option.map_eq_some_iff.1 hname
  obtain ⟨hmem, hroot⟩ := List.mem_filter.1 (List.mem_of_getLast? hr)
  exact ⟨r, hmem, hroot, hcollection⟩

end Dispatcher

end Standby
