import Standby.Proofs.Engine.Layout
/-!
# The parameters of paths

A path to a member or to its action endpoint has the parameter `id`, and a path to a collection below the members of
another one has the parameter that holds the parent's identifier. Which one that is the resource of the collection says.
-/

namespace Standby

variable {σ κ : Type}

/-- A path has a value for a parameter. -/
def Route.Has (route : Route) (name : String) : Prop := ∃ value, lookup? name route.params = some value

/-- The parameter that holds the identifier of a parent in the paths to a resource, if it stands below another one. -/
def Resource.parentParam (r : Resource σ κ) : Option String := if r.root then none else r.parent.map (·.param)

namespace Router

/-- Paths lead to a collection, and have a parameter for its parent if it stands below another one. -/
inductive Leads (r : Router) : String → Option String → Prop
  | root {collection} (h : r.root = some collection) : Leads r collection none
  | top {collection} (h : r.isCollection collection = true) : Leads r collection none
  | nested {n} (h : n ∈ r.nested) : Leads r n.collection (some n.param)

variable {r : Router} {resource : String} {target : RouteTarget} {params : List (String × String)}

/-- Below a collection the parameters stay as they are, and a member adds its own. -/
theorem within?_eq_some {collection : String} {known : List (String × String)} {rest : List String}
    (h : within? collection known rest = some (resource, target, params)) :
    resource = collection ∧
      (target = .collection ∧ params = known ∨ ∃ id, params = insertKey idParam id known) := by
  unfold within? at h
  split at h
  · cases h
    exact ⟨rfl, .inl ⟨rfl, rfl⟩⟩
  · cases h
    exact ⟨rfl, .inr ⟨_, rfl⟩⟩
  · split at h
    · cases h
      exact ⟨rfl, .inr ⟨_, rfl⟩⟩
    · cases h
  · cases h

/-- What the parameters of a place are good for. -/
structure Binds (r : Router) (place : Place) : Prop where
  leads : ∃ parent, r.Leads place.1 parent ∧ ∀ name ∈ parent, ∃ value, lookup? name place.2.2 = some value
  id : place.2.1 ≠ .collection → ∃ value, lookup? idParam place.2.2 = some value

/-- Below a collection whose own parameter is known there are places with all the parameters that they should have. -/
theorem binds_of_within? {collection : String} {parent : Option String} {known : List (String × String)}
    {rest : List String} {place : Place} (hleads : r.Leads collection parent)
    (hknown : ∀ name ∈ parent, ∃ value, lookup? name known = some value)
    (h : within? collection known rest = some place) : r.Binds place := by
  obtain ⟨resource, target, params⟩ := place
  obtain ⟨rfl, ⟨rfl, rfl⟩ | ⟨id, rfl⟩⟩ := within?_eq_some h
  · exact ⟨⟨parent, hleads, hknown⟩, fun htarget => absurd rfl htarget⟩
  · refine ⟨⟨parent, hleads, ?_⟩, ?_⟩
    · intro name hname
      obtain ⟨value, hvalue⟩ := hknown name hname
      rw [lookup?_insertKey]
      split
      · exact ⟨id, rfl⟩
      · exact ⟨value, hvalue⟩
    · intro htarget
      exact ⟨id, by rw [lookup?_insertKey, if_pos rfl]⟩

theorem binds_of_place? {comps : List String} {place : Place} (h : r.place? comps = some place) : r.Binds place := by
  unfold place? at h
  split at h
  · cases h
  split at h
  · rename_i htop
    split at h
    · rename_i hplace
      cases h
      exact binds_of_within? (.top htop) nofun hplace
    split at h
    · split at h
      · rename_i n hn
        refine binds_of_within? (.nested (List.mem_of_find?_eq_some hn)) ?_ h
        intro name hname
        cases hname
        exact ⟨_, by rw [lookup?, if_pos rfl]⟩
      · cases h
    · cases h
  · cases h

theorem binds_of_locate? {comps : List String} {project : Option String} {place : Place}
    (h : r.locate? comps = some (project, place)) : r.Binds place := by
  unfold locate? at h
  split at h
  · obtain ⟨root, hroot, hplace⟩ := Option.map_eq_some_iff.1 h
    cases hplace
    exact ⟨⟨none, .root hroot, nofun⟩, fun htarget => absurd rfl htarget⟩
  · split at h
    · obtain ⟨root, hroot, hplace⟩ := Option.map_eq_some_iff.1 h
      cases hplace
      exact ⟨⟨none, .root hroot, nofun⟩, fun htarget => ⟨versionSegment, rfl⟩⟩
    · cases h
  · split at h
    · obtain ⟨place', hplace, heq⟩ := Option.map_eq_some_iff.1 h
      cases heq
      exact binds_of_place? hplace
    · cases h

/-- A path leads to a collection that the router has, with the parameters that go with it. -/
theorem exists_of_route? {raw : String} {route : Route} (h : r.route? raw = some route) :
    ∃ parent, r.Leads route.resource parent ∧ (∀ name ∈ parent, route.Has name) ∧
      (route.target ≠ .collection → route.Has idParam) := by
  unfold route? at h
  obtain ⟨⟨project, resource, target, params⟩, hplace, rfl⟩ := Option.map_eq_some_iff.1 h
  obtain ⟨⟨parent, hleads, hparent⟩, hid⟩ := binds_of_locate? hplace
  exact ⟨parent, hleads, hparent, hid⟩

end Router

namespace Dispatcher

/-- Paths lead to the resources of which a router is, with the parameter for the parent, and nowhere else. -/
theorem exists_of_leads {rs : List (Resource σ κ)} {collection : String} {parent : Option String}
    (h : (routerOf rs).Leads collection parent) : ∃ r ∈ rs, r.collection = collection ∧ r.parentParam = parent := by
  cases h with
  | root h =>
    obtain ⟨r, hr, rfl⟩ := Option.map_eq_some_iff.1 h
    obtain ⟨hmem, hroot⟩ := List.mem_filter.1 (List.mem_of_getLast? hr)
    exact ⟨r, hmem, rfl, if_pos hroot⟩
  | top h =>
    obtain ⟨r, hr, htop, rfl⟩ := isCollection_routerOf.1 h
    obtain ⟨-, hparent⟩ := Bool.and_eq_true_iff.1 htop
    rw [Option.isNone_iff_eq_none] at hparent
    refine ⟨r, hr, rfl, ?_⟩
    rw [Resource.parentParam, hparent, Option.map_none, ite_self]
  | nested h =>
    obtain ⟨r, hr, hn⟩ := List.mem_filterMap.1 h
    obtain ⟨hroot, p, hp, rfl⟩ := nested?_eq_some_iff.1 hn
    exact ⟨r, hr, rfl, by rw [Resource.parentParam, hroot, hp]; rfl⟩

/-- A path leads to a resource of the extensions that a dispatcher is built from, and has a parameter for its parent, if
it stands below another one, and for the member, if it is not the collection that the path leads to. -/
theorem IsBuiltFrom.exists_resource {d : Dispatcher σ κ} {extensions : ExtensionSet σ κ} {raw : String} {route : Route}
    (hd : d.IsBuiltFrom extensions) (h : d.router.route? raw = some route) :
    ∃ r ∈ extensions.resources, r.collection = route.resource ∧ (∀ name ∈ r.parentParam, route.Has name) ∧
      (route.target ≠ .collection → route.Has Router.idParam) := by
  obtain ⟨parent, hleads, hparent, hid⟩ := Router.exists_of_route? h
  obtain ⟨r, hr, hcollection, rfl⟩ := exists_of_leads (hd.router ▸ hleads)
  exact ⟨r, hr, hcollection, hparent, hid⟩

end Dispatcher

end Standby
