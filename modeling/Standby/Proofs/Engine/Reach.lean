import Standby.Proofs.Engine.Building
import Standby.Proofs.Http.Addresses
/-!
# Which resources paths lead to

A dispatcher takes every resource whose parent is there, but its routes do not lead to all of them: of the resources
that are to stand at the root they lead to the last one, and of those below another one to those whose parent stands at
the top and which are not called as the action endpoint is. Exactly the resources that are placed so can be reached
(`build_reaches`).
-/

namespace Standby

/-! ## Routers -/

namespace Router

variable {r : Router} {collection : String}

/-- Some path leads to the collection. -/
def Reaches (r : Router) (collection : String) : Prop :=
  ∃ path route, r.route? path = some route ∧ route.resource = collection ∧ route.target = .collection

/-- A collection that a path leads to through the members of another one. -/
def Nests (r : Router) (collection : String) : Prop :=
  ∃ n ∈ r.nested, n.collection = collection ∧ r.isCollection n.parent = true ∧ collection ≠ actionSegment

theorem standing_of_place? {comps : List String} {params : List (String × String)}
    (h : r.place? comps = some (collection, .collection, params)) :
    r.isCollection collection = true ∨ r.Nests collection := by
  unfold place? at h
  split at h
  · cases h
  rename_i first rest
  split at h
  · rename_i htop
    split at h
    · rename_i hwithin
      cases h
      obtain ⟨-, rfl⟩ := within?_eq_collection hwithin
      exact .inl htop
    split at h
    · rename_i id name rest hnone
      split at h
      · rename_i n hfind
        have hsame := List.find?_some hfind
        simp only [Bool.and_eq_true, beq_iff_eq] at hsame
        obtain ⟨rfl, rfl⟩ := hsame
        obtain ⟨rfl, rfl⟩ := within?_eq_collection h
        refine .inr ⟨n, List.mem_of_find?_eq_some hfind, rfl, htop, fun haction => ?_⟩
        rw [within?, if_pos haction] at hnone
        cases hnone
      · cases h
    · cases h
  · cases h

theorem standing_of_locate? {comps : List String} {project : Option String} {params : List (String × String)}
    (h : r.locate? comps = some (project, collection, .collection, params)) :
    r.root = some collection ∨ r.isCollection collection = true ∨ r.Nests collection := by
  unfold locate? at h
  split at h
  · obtain ⟨root, hroot, heq⟩ := Option.map_eq_some_iff.1 h
    cases heq
    exact .inl hroot
  · split at h
    · obtain ⟨root, -, heq⟩ := Option.map_eq_some_iff.1 h
      cases heq
    · cases h
  · split at h
    · obtain ⟨place, hplace, heq⟩ := Option.map_eq_some_iff.1 h
      cases heq
      exact .inr (standing_of_place? hplace)
    · cases h

/-- What a path leads to stands at the root, at the top or below what stands at the top. -/
theorem Reaches.standing (h : r.Reaches collection) :
    r.root = some collection ∨ r.isCollection collection = true ∨ r.Nests collection := by
  obtain ⟨path, route, hroute, rfl, htarget⟩ := h
  exact standing_of_locate? (htarget ▸ (path_of_route? hroute).2)

theorem reaches_root (h : r.root = some collection) : r.Reaches collection := by
  have hcomponents : components "/" = [] := by decide
  have hsuffix : Text.before? ".json" "/" = none := by decide
  refine ⟨"/", ⟨collection, .collection, [], none, "/", none⟩, ?_, rfl, rfl⟩
  simp [route?, hcomponents, hsuffix, locate?, h]

/-- A path that spells an address leads to a collection if the components of its resource do. -/
theorem reaches_of_place? {a : Address} {params : List (String × String)} (h : a.In r)
    (hplace : r.place? (a.spot.components ++ a.part.components) = some (collection, .collection, params)) :
    r.Reaches collection := by
  refine ⟨a.path, ⟨collection, .collection, params, a.project, a.path, none⟩, ?_, rfl, rfl⟩
  simp only [route?, before?_path h, components_path h, locate?_of_place? h hplace, Option.map_some]

theorem reaches_top (h : r.isCollection collection = true) (hname : collection ≠ "") : r.Reaches collection := by
  have hin : (⟨none, .top collection, .collection⟩ : Address).In r :=
    ⟨nofun, h, by simpa [Address.rest, Spot.components, Part.components]⟩
  have hplace : r.place? [collection] = some (collection, .collection, []) := by simp [place?, h, within?]
  exact reaches_of_place? hin hplace

theorem reaches_nested {n : NestedCollection} (hn : n ∈ r.nested) (htop : r.isCollection n.parent = true)
    (haction : n.collection ≠ actionSegment) (hname : n.collection ≠ "") (hparent : n.parent ≠ "") :
    r.Reaches n.collection := by
  have hin : (⟨none, .below n idParam, .collection⟩ : Address).In r :=
    ⟨nofun, ⟨htop, hn⟩, by simp [Address.rest, Spot.components, Part.components, idParam, hname, hparent]⟩
  have hwithin : within? n.parent [] [idParam, n.collection] = none := if_neg haction
  -- Another collection of the same name below the same one may come first.
  cases hfind : r.nested.find? fun n' => n'.parent == n.parent && n'.collection == n.collection with
  | none => simpa using List.find?_eq_none.1 hfind n hn
  | some n' =>
    have hsame := List.find?_some hfind
    simp only [Bool.and_eq_true, beq_iff_eq] at hsame
    have hplace : r.place? [n.parent, idParam, n.collection] =
        some (n.collection, .collection, [(n'.param, idParam)]) := by
      rw [place?, if_pos htop, hwithin]
      simp only [hfind]
      rw [within?, hsame.2]
    exact reaches_of_place? hin hplace

/-- Paths lead to what stands at the root, at the top or below what stands at the top, if nothing is called nothing. -/
theorem reaches_iff (hname : collection ≠ "") (hparents : ∀ n ∈ r.nested, n.collection = collection → n.parent ≠ "") :
    r.Reaches collection ↔ r.root = some collection ∨ r.isCollection collection = true ∨ r.Nests collection := by
  constructor
  · exact Reaches.standing
  · rintro (hroot | htop | ⟨n, hn, rfl, htop, haction⟩)
    · exact reaches_root hroot
    · exact reaches_top htop hname
    · exact reaches_nested hn htop haction hname (hparents n hn rfl)

end Router

/-! ## Dispatchers -/

namespace Dispatcher

variable {σ κ : Type} {rs : List (Resource σ κ)} {r : Resource σ κ}

/-- The places at which resources can be found: the last of those that are to stand at the root, each that stands at the
top, and each below one that stands at the top unless it is called as the action endpoint is. -/
inductive Placed (rs : List (Resource σ κ)) (r : Resource σ κ) : Prop
  | root (h : (rs.filter (·.root)).getLast? = some r)
  | top (h : isTop r = true)
  | below {parent : Resource σ κ} {p : Parent} (hroot : r.root = false) (hp : r.parent = some p) (hparent : parent ∈ rs)
      (hname : parent.collection = p.collection) (htop : isTop parent = true)
      (haction : r.collection ≠ Router.actionSegment)

theorem placed_iff (honce : (rs.map (·.collection)).Nodup) (hr : r ∈ rs) :
    Placed rs r ↔ (routerOf rs).root = some r.collection ∨ (routerOf rs).isCollection r.collection = true ∨
      (routerOf rs).Nests r.collection := by
  have hsame : ∀ q ∈ rs, q.collection = r.collection → q = r := fun q hq h => List.inj_on_of_nodup_map honce hq hr h
  constructor
  · rintro (h | h | ⟨hroot, hp, hparent, hname, htop, haction⟩)
    · exact .inl (by rw [routerOf, h]; rfl)
    · exact .inr (.inl (isCollection_routerOf.2 ⟨r, hr, h, rfl⟩))
    · have hn := nested?_eq_some_iff.2 ⟨hroot, _, hp, rfl⟩
      exact .inr (.inr ⟨_, List.mem_filterMap.2 ⟨r, hr, hn⟩, rfl, isCollection_routerOf.2 ⟨_, hparent, htop, hname⟩,
        haction⟩)
  · rintro (hroot | htop | ⟨n, hn, hcollection, htop, haction⟩)
    · obtain ⟨q, hq, hcollection⟩ := Option.map_eq_some_iff.1 hroot
      have hmem := (List.mem_filter.1 (List.mem_of_getLast? hq)).1
      exact .root (hsame q hmem hcollection ▸ hq)
    · obtain ⟨q, hq, htop, hcollection⟩ := isCollection_routerOf.1 htop
      exact .top (hsame q hq hcollection ▸ htop)
    · obtain ⟨q, hq, hn⟩ := List.mem_filterMap.1 hn
      obtain ⟨hroot, p, hp, rfl⟩ := nested?_eq_some_iff.1 hn
      obtain rfl := hsame q hq hcollection
      obtain ⟨parent, hparent, htop, hname⟩ := isCollection_routerOf.1 htop
      exact .below hroot hp hparent hname htop haction

/-- **Reach.** If no resource of the extensions that a dispatcher is built from is called nothing, paths lead to the
collections of those that are placed, and to no others. -/
theorem build_reaches {settings : DispatchSettings} {extensions : ExtensionSet σ κ} {d : Dispatcher σ κ}
    (hd : build settings extensions = .ok d) (hnames : ∀ r ∈ extensions.resources, r.collection ≠ "") :
    ∀ r ∈ extensions.resources, d.router.Reaches r.collection ↔ Placed extensions.resources r := by
  obtain ⟨hbuildable, rfl⟩ := build_eq_ok_iff.1 hd
  intro r hr
  have honce : (extensions.resources.map (·.collection)).Nodup := hbuildable.together.once
  rw [placed_iff honce hr]
  refine Router.reaches_iff (hnames r hr) fun n hn hcollection => ?_
  -- The parent is called as some resource is.
  obtain ⟨q, hq, hn⟩ := List.mem_filterMap.1 hn
  obtain ⟨hroot, p, hp, rfl⟩ := nested?_eq_some_iff.1 hn
  obtain ⟨parent, hparent, hname⟩ := List.mem_map.1 (hbuildable.parents q hq hroot p hp)
  exact hname ▸ hnames parent hparent

/-- Racks, the units in them, and the ports of these. -/
def depot : ExtensionSet Unit Unit :=
  ⟨[{ name := "Depot"
      shortName := "depot"
      updated := ""
      resources := .ok
        [{ collection := "racks", member := "rack" },
          { collection := "units", member := "unit", parent := some ⟨"racks", "rack_id"⟩ },
          { collection := "ports", member := "port", parent := some ⟨"units", "unit_id"⟩ }] }]⟩

def depotSettings : DispatchSettings := ⟨"version", "depot", ⟨1, 0⟩, ⟨1, 0⟩, "application/json", ["en"], none⟩

theorem buildable_depot : Buildable depotSettings depot where
  together := ⟨by simp [depot], by simp [depot], by decide⟩
  parents := by decide
  order := by decide
  name := by decide

/-- Paths lead to the racks of the depot, which stand at the top, and to the units below them. -/
theorem build_reaches_depot :
    build depotSettings depot = .ok (ofExtensions depotSettings depot) ∧
    (∀ r ∈ depot.resources, r.collection ≠ "") ∧
    (ofExtensions depotSettings depot).router.Reaches "racks" ∧
    (ofExtensions depotSettings depot).router.Reaches "units" := by
  have hd := build_eq_ok_iff.2 ⟨buildable_depot, rfl⟩
  have hnames : ∀ r ∈ depot.resources, r.collection ≠ "" := by decide
  let racks : Resource Unit Unit := { collection := "racks", member := "rack" }
  let units : Resource Unit Unit := { collection := "units", member := "unit", parent := some ⟨"racks", "rack_id"⟩ }
  have hracks : racks ∈ depot.resources := List.mem_cons_self
  have hunits : units ∈ depot.resources := List.mem_cons_of_mem _ List.mem_cons_self
  have hreaches := build_reaches hd hnames
  exact ⟨hd, hnames, (hreaches racks hracks).2 (.top rfl),
    (hreaches units hunits).2 (.below rfl rfl hracks rfl rfl (by decide))⟩

/-- The ports are a resource of the depot, and their parent is one; but it does not stand at the top, and no path leads to
them. -/
theorem build_depot_ports :
    build depotSettings depot = .ok (ofExtensions depotSettings depot) ∧
    (∀ r ∈ depot.resources, r.collection ≠ "") ∧
    ∃ r ∈ depot.resources, r.collection = "ports" ∧
      ∀ path route, (ofExtensions depotSettings depot).router.route? path = some route →
        route.resource = r.collection → route.target ≠ .collection := by
  have hrouter : (ofExtensions depotSettings depot).router =
      ⟨none, ["racks"], [⟨"racks", "rack_id", "units"⟩, ⟨"units", "unit_id", "ports"⟩]⟩ := rfl
  refine ⟨build_eq_ok_iff.2 ⟨buildable_depot, rfl⟩, by decide, _,
    List.mem_cons_of_mem _ (List.mem_cons_of_mem _ List.mem_cons_self), rfl, ?_⟩
  intro path route hroute hresource htarget
  rw [hrouter] at hroute
  rcases Router.Reaches.standing ⟨path, route, hroute, hresource, htarget⟩ with h | h | ⟨n, hn, hcollection, htop, -⟩
  · cases h
  · exact absurd h (by decide)
  · rcases List.mem_pair.1 hn with rfl | rfl
    · exact absurd hcollection (by decide)
    · exact absurd htop (by decide)

end Dispatcher

end Standby
