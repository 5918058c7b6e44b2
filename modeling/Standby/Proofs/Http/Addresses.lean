import Standby.Proofs.Basic
import Standby.Proofs.Http.Routes
/-!
# Addresses

An address says which part of which resource is meant, and in which project. The path that spells it, each component
with all its bytes in percent signs and digits, leads to what it says whatever characters are in it; and a path that
leads anywhere below the root spells just one address (`route?_address`). The components of a path are those of its
address, so all of this is about `locate?`: what it makes of the components of an address, and of which components it
makes anything.
-/

namespace Standby.Router

/-- A resource as paths name it: at the top, or below a member of another one. -/
inductive Spot where
  | top (collection : String)
  | below (n : NestedCollection) (parentId : String)
  deriving DecidableEq, Repr

namespace Spot

def collection : Spot → String
  | top collection => collection
  | below n _ => n.collection

def params : Spot → List (String × String)
  | top _ => []
  | below n parentId => [(n.param, parentId)]

def components : Spot → List String
  | top collection => [collection]
  | below n parentId => [n.parent, parentId, n.collection]

/-- Whether a router has the resource. -/
def In (r : Router) : Spot → Prop
  | top collection => r.isCollection collection = true
  | below n _ => r.isCollection n.parent = true ∧ n ∈ r.nested

end Spot

/-- The part of a resource that a path leads to. -/
inductive Part where
  | collection
  | member (id : String)
  | action (id : String)
  deriving DecidableEq, Repr

namespace Part

def target : Part → RouteTarget
  | collection => .collection
  | member _ => .member
  | action _ => .action

def params : Part → List (String × String)
  | collection => []
  | member id => [(idParam, id)]
  | action id => [(idParam, id)]

def components : Part → List String
  | collection => []
  | member id => [id]
  | action id => [id, actionSegment]

end Part

/-- What a path is to lead to. -/
structure Address where
  project : Option String
  spot : Spot
  part : Part
  deriving DecidableEq, Repr

namespace Address

/-- The components after the version. -/
def rest (a : Address) : List String := a.project.toList ++ (a.spot.components ++ a.part.components)

def components (a : Address) : List String := versionSegment :: a.rest

/-- The path that spells the address. -/
def path (a : Address) : String := "/" ++ "/".intercalate (versionSegment :: a.rest.map Text.Percent.encodeText)

/-- The route to the address, by a path with a suffix or without. -/
def route (a : Address) (path : String) (suffix : Option String) : Route where
  resource := a.spot.collection
  target := a.part.target
  params := a.spot.params ++ a.part.params
  project := a.project
  path := path
  suffix := suffix

/-- The addresses of a router. A project is not called as a collection at the top is, and nothing is called nothing. -/
structure In (r : Router) (a : Address) : Prop where
  project : ∀ p ∈ a.project, r.isCollection p = false
  spot : a.spot.In r
  components : ∀ c ∈ a.rest, c ≠ ""

end Address

/-- A router in which no collection is there twice below the same one, and none is called as the action endpoint is, nor
its parameter as that of its members. -/
structure Orderly (r : Router) : Prop where
  once : ∀ n ∈ r.nested, ∀ n' ∈ r.nested, n'.parent = n.parent → n'.collection = n.collection → n' = n
  action : ∀ n ∈ r.nested, n.collection ≠ actionSegment
  id : ∀ n ∈ r.nested, n.param ≠ idParam

variable {r : Router} {a b : Address} {collection : String} {spot : Spot} {part : Part} {comps : List String}
  {place : Place} {project : Option String}

/-! ## The components of an address -/

theorem within?_part (collection : String) (known : List (String × String)) (part : Part)
    (hknown : lookup? idParam known = none) :
    within? collection known part.components = some (collection, part.target, known ++ part.params) := by
  cases part with
  | collection => simp [Part.components, Part.target, Part.params, within?]
  | member id => simp [Part.components, Part.target, Part.params, within?, insertKey_of_fresh id hknown]
  | action id => simp [Part.components, Part.target, Part.params, within?, insertKey_of_fresh id hknown]

theorem exists_part {known : List (String × String)} (hknown : lookup? idParam known = none)
    (h : within? collection known comps = some place) :
    ∃ part : Part, comps = part.components ∧ place = (collection, part.target, known ++ part.params) := by
  unfold within? at h
  split at h
  · cases h
    exact ⟨.collection, rfl, by simp [Part.target, Part.params]⟩
  · rename_i id
    cases h
    exact ⟨.member id, rfl, by rw [insertKey_of_fresh id hknown]; rfl⟩
  · rename_i id last
    split at h
    · rename_i hlast
      cases h
      exact ⟨.action id, by rw [hlast]; rfl, by rw [insertKey_of_fresh id hknown]; rfl⟩
    · cases h
  · cases h

theorem lookup?_param {n : NestedCollection} (hr : r.Orderly) (hn : n ∈ r.nested) (parentId : String) :
    lookup? idParam [(n.param, parentId)] = none := by
  rw [lookup?, if_neg (hr.id n hn), lookup?]

theorem find?_nested {n : NestedCollection} (hr : r.Orderly) (hn : n ∈ r.nested) :
    r.nested.find? (fun n' => n'.parent == n.parent && n'.collection == n.collection) = some n := by
  cases hfind : r.nested.find? fun n' => n'.parent == n.parent && n'.collection == n.collection with
  | none => simpa using List.find?_eq_none.1 hfind n hn
  | some n' =>
    have hsame := List.find?_some hfind
    simp only [Bool.and_eq_true, beq_iff_eq] at hsame
    rw [hr.once n hn n' (List.mem_of_find?_eq_some hfind) hsame.1 hsame.2]

theorem place?_spot (hr : r.Orderly) (h : spot.In r) (part : Part) :
    r.place? (spot.components ++ part.components) =
      some (spot.collection, part.target, spot.params ++ part.params) := by
  cases spot with
  | top collection =>
    have htop : r.isCollection collection = true := h
    simp only [Spot.components, List.cons_append, List.nil_append, place?, htop, if_true,
      within?_part collection [] part rfl]
    rfl
  | below n parentId =>
    obtain ⟨htop, hn⟩ := h
    have hnot : within? n.parent [] (parentId :: n.collection :: part.components) = none := by
      cases part <;> simp [within?, Part.components, hr.action n hn]
    simp only [Spot.components, List.cons_append, List.nil_append, place?, htop, if_true, hnot, find?_nested hr hn,
      within?_part n.collection _ part (lookup?_param hr hn parentId)]
    rfl

/-- What leads to a place below a collection at the top is a resource and a part of it. -/
theorem exists_spot (hr : r.Orderly) (h : r.place? comps = some place) :
    ∃ (spot : Spot) (part : Part), spot.In r ∧ comps = spot.components ++ part.components ∧
      place = (spot.collection, part.target, spot.params ++ part.params) := by
  unfold place? at h
  split at h
  · cases h
  rename_i collection rest
  split at h
  · rename_i htop
    split at h
    · rename_i hwithin
      cases h
      obtain ⟨part, rfl, rfl⟩ := exists_part rfl hwithin
      exact ⟨.top collection, part, htop, rfl, rfl⟩
    split at h
    · rename_i parentId name rest _
      split at h
      · rename_i n hfind
        have hn := List.mem_of_find?_eq_some hfind
        have hsame := List.find?_some hfind
        simp only [Bool.and_eq_true, beq_iff_eq] at hsame
        obtain ⟨rfl, rfl⟩ := hsame
        obtain ⟨part, rfl, rfl⟩ := exists_part (lookup?_param hr hn parentId) h
        exact ⟨.below n parentId, part, ⟨htop, hn⟩, rfl, rfl⟩
      · cases h
    · cases h
  · cases h

/-! ## The project -/

/-- The first component of a resource is a collection at the top. -/
theorem exists_head (h : spot.In r) : ∃ c rest, spot.components = c :: rest ∧ r.isCollection c = true := by
  cases spot with
  | top c => exact ⟨c, [], rfl, h⟩
  | below n parentId => exact ⟨n.parent, [parentId, n.collection], rfl, h.1⟩

theorem splitProject_rest (h : a.In r) :
    r.splitProject a.rest = (a.project, a.spot.components ++ a.part.components) := by
  obtain ⟨c, rest, hspot, hc⟩ := exists_head h.spot
  cases hproject : a.project with
  | none =>
    rw [Address.rest, hproject, hspot, Option.toList_none, List.nil_append, List.cons_append]
    cases hrest : rest ++ a.part.components with
    | nil => rfl
    | cons d ds => simp [splitProject, hc]
  | some p =>
    rw [Address.rest, hproject, hspot, Option.toList_some, List.singleton_append, List.cons_append]
    simp [splitProject, hc, h.project p hproject]

theorem exists_project {rest : List String} (h : r.splitProject comps = (project, rest)) :
    comps = project.toList ++ rest ∧ ∀ p ∈ project, r.isCollection p = false := by
  unfold splitProject at h
  split at h
  · split at h
    · rename_i hsplit
      cases h
      simp only [Bool.and_eq_true, Bool.not_eq_true'] at hsplit
      exact ⟨rfl, by rintro _ ⟨⟩; exact hsplit.1⟩
    · cases h
      exact ⟨rfl, nofun⟩
  · cases h
    exact ⟨rfl, nofun⟩

theorem components_ne_empty {path : String} : ∀ c ∈ components path, c ≠ "" := by
  intro c hc
  obtain ⟨t, ht, rfl⟩ := List.mem_map.1 hc
  exact Text.Percent.decodeText_ne_empty (of_decide_eq_true (List.mem_filter.1 ht).2)

/-! ## Where the components of an address lead -/

theorem Address.rest_ne_nil (a : Address) : a.rest ≠ [] := by
  unfold Address.rest
  cases a.spot <;> simp [Spot.components]

/-- The components of an address lead where those of its resource and part do. -/
theorem locate?_of_place? (h : a.In r) (hplace : r.place? (a.spot.components ++ a.part.components) = some place) :
    r.locate? a.components = some (a.project, place) := by
  obtain ⟨c, rest, hrest⟩ := List.exists_cons_of_ne_nil a.rest_ne_nil
  have hsplit := splitProject_rest h
  rw [Address.components, hrest, locate?, if_pos rfl, ← hrest, hsplit]
  simp only [hplace, Option.map_some]
  simp

theorem locate?_components (hr : r.Orderly) (h : a.In r) :
    r.locate? a.components =
      some (a.project, a.spot.collection, a.part.target, a.spot.params ++ a.part.params) :=
  locate?_of_place? h (place?_spot hr h.spot a.part)

/-- What leads anywhere else than to the root and its member is an address. -/
theorem exists_address (hr : r.Orderly) (hne : ∀ c ∈ comps, c ≠ "") (h : r.locate? comps = some (project, place)) :
    (comps = [] ∨ comps = [versionSegment]) ∧ r.root = some place.1 ∨
      ∃ a : Address, a.In r ∧ comps = a.components ∧ project = a.project ∧
        place = (a.spot.collection, a.part.target, a.spot.params ++ a.part.params) := by
  unfold locate? at h
  split at h
  · obtain ⟨root, hroot, heq⟩ := Option.map_eq_some_iff.1 h
    cases heq
    exact .inl ⟨.inl rfl, hroot⟩
  · split at h
    · rename_i hstart
      obtain ⟨root, hroot, heq⟩ := Option.map_eq_some_iff.1 h
      cases heq
      exact .inl ⟨.inr (by rw [hstart]), hroot⟩
    · cases h
  · rename_i start rest _
    split at h
    · rename_i hstart
      cases hsplit : r.splitProject rest with
      | mk project rest' =>
        rw [hsplit] at h
        obtain ⟨place', hplace, heq⟩ := Option.map_eq_some_iff.1 h
        cases heq
        obtain ⟨rfl, hproject⟩ := exists_project hsplit
        obtain ⟨spot, part, hspot, rfl, rfl⟩ := exists_spot hr hplace
        refine .inr ⟨⟨project, spot, part⟩, ⟨hproject, hspot, fun c hc => hne c (List.mem_cons_of_mem _ hc)⟩, ?_, rfl, rfl⟩
        rw [hstart]
        rfl
    · cases h

/-! ## One address for each list of components -/

theorem Part.components_inj {part' : Part} (h : part.components = part'.components) : part = part' := by
  cases part <;> cases part' <;> simp_all [Part.components]

/-- Below a member of a collection at the top, the name of a collection is not taken for the action endpoint. -/
theorem Part.components_ne {n : NestedCollection} (hn : n.collection ≠ actionSegment) (id : String) (rest : List String) :
    part.components ≠ id :: n.collection :: rest := by
  cases part <;> simp [Part.components, Ne.symm hn]

theorem spot_unique (hr : r.Orderly) {spot' : Spot} {part' : Part} (h : spot.In r) (h' : spot'.In r)
    (hcomps : spot.components ++ part.components = spot'.components ++ part'.components) :
    spot = spot' ∧ part = part' := by
  cases spot with
  | top c =>
    cases spot' with
    | top c' =>
      obtain ⟨rfl, hpart⟩ := List.cons.inj hcomps
      exact ⟨rfl, Part.components_inj hpart⟩
    | below n' parentId' => exact absurd (List.cons.inj hcomps).2 (Part.components_ne (hr.action n' h'.2) _ _)
  | below n parentId =>
    cases spot' with
    | top c' => exact absurd (List.cons.inj hcomps).2.symm (Part.components_ne (hr.action n h.2) _ _)
    | below n' parentId' =>
      simp only [Spot.components, List.cons_append, List.nil_append, List.cons.injEq] at hcomps
      obtain ⟨hparent, rfl, hcollection, hpart⟩ := hcomps
      obtain rfl := hr.once n' h'.2 n h.2 hparent hcollection
      exact ⟨rfl, Part.components_inj hpart⟩

theorem address_unique (hr : r.Orderly) (ha : a.In r) (hb : b.In r) (h : a.components = b.components) : a = b := by
  have hrest : a.rest = b.rest := List.tail_eq_of_cons_eq h
  have hsplit := (splitProject_rest ha).symm.trans ((congrArg r.splitProject hrest).trans (splitProject_rest hb))
  obtain ⟨hproject, hcomps⟩ := Prod.mk.inj hsplit
  obtain ⟨hspot, hpart⟩ := spot_unique hr ha.spot hb.spot hcomps
  cases a
  cases b
  simp_all

/-! ## The path that spells an address -/

theorem path_eq (a : Address) :
    a.path = "/".intercalate ("" :: versionSegment :: a.rest.map Text.Percent.encodeText) := by
  apply String.ext
  simp [Address.path, String.toList_intercalate]

theorem components_path (h : a.In r) : components a.path = a.components := by
  have hpieces : Text.pieces '/' a.path = "" :: versionSegment :: a.rest.map Text.Percent.encodeText := by
    rw [path_eq]
    refine Text.pieces_intercalate rfl (List.cons_ne_nil _ _) fun t ht => ?_
    simp only [List.mem_cons, List.mem_map] at ht
    rcases ht with rfl | rfl | ⟨c, -, rfl⟩
    · decide
    · decide
    · exact Text.Percent.notMem_encodeText (by decide) (by decide) c
  have hversion : Text.Percent.decodeText versionSegment = versionSegment := by decide +kernel
  have hdecode : (a.rest.map Text.Percent.encodeText).map Text.Percent.decodeText = a.rest := by
    rw [List.map_map]
    exact (List.map_congr_left fun c _ => Text.Percent.decodeText_encodeText c).trans (List.map_id _)
  have hnonempty : (a.rest.map Text.Percent.encodeText).filter (· ≠ "") = a.rest.map Text.Percent.encodeText := by
    rw [List.filter_eq_self, List.forall_mem_map]
    exact fun c hc => decide_eq_true (Text.Percent.encodeText_ne_empty (h.components c hc))
  rw [components, hpieces, List.filter_cons_of_neg (by decide), List.filter_cons_of_pos (by decide), hnonempty,
    List.map_cons, hversion, hdecode]
  rfl

/-- The path that spells an address does not end as a format suffix does. -/
theorem before?_path (h : a.In r) : Text.before? ".json" a.path = none := by
  obtain ⟨init, last, hrest⟩ := List.eq_nil_or_concat a.rest |>.resolve_left a.rest_ne_nil
  have hlast : last ≠ "" := h.components last (by simp [hrest])
  obtain ⟨front, hfront⟩ : (Text.Percent.encodeText last).toList <:+ a.path.toList := by
    have hpath := Text.suffix_intercalate "/" ("" :: versionSegment :: init.map Text.Percent.encodeText)
      (Text.Percent.encodeText last)
    rwa [path_eq, hrest, List.concat_eq_append, List.map_append]
  obtain ⟨c, hc⟩ := Option.ne_none_iff_exists'.1 fun hnone =>
    Text.Percent.encodeText_ne_empty hlast (String.toList_eq_nil_iff.1 (List.getLast?_eq_none_iff.1 hnone))
  cases hbefore : Text.before? ".json" a.path with
  | none => rfl
  | some path =>
    have hn : a.path.toList.getLast? = some 'n' := by
      rw [before?_eq_some hbefore, List.getLast?_append]
      rfl
    rw [← hfront, List.getLast?_append, hc] at hn
    cases hn
    exact absurd (List.mem_of_getLast? hc) (Text.Percent.notMem_encodeText (by decide) (by decide) last)

theorem before?_append (front finish : String) : Text.before? finish (front ++ finish) = some front := by
  have hsuffix : finish.toList.isSuffixOf (front ++ finish).toList = true := by
    rw [List.isSuffixOf_iff_suffix, String.toList_append]
    exact List.suffix_append _ _
  rw [Text.before?, if_pos hsuffix, String.toList_append, String.length_append, Nat.add_sub_cancel,
    List.take_left' String.length_toList, String.ofList_toList]

/-- A path without its format suffix. -/
def unsuffixed (raw : String) : String := (Text.before? ".json" raw).getD raw

theorem path_of_route? {raw : String} {route : Route} (h : r.route? raw = some route) :
    route.path = unsuffixed raw ∧
      r.locate? (components route.path) = some (route.project, route.resource, route.target, route.params) := by
  unfold route? at h
  unfold unsuffixed
  obtain ⟨⟨project, resource, target, params⟩, hplace, rfl⟩ := Option.map_eq_some_iff.1 h
  refine ⟨?_, hplace⟩
  cases Text.before? ".json" raw <;> rfl

/-- **Routing and addresses.** In an orderly router, the path that spells an address of the router leads to what the
address says, with the suffix of a format or without it; and what leads anywhere leads to the root, or has without its
suffix the components of just one address of the router and leads to what that says. -/
theorem route?_address (hr : r.Orderly) :
    (∀ a : Address, a.In r → r.route? a.path = some (a.route a.path none) ∧
      r.route? (a.path ++ ".json") = some (a.route a.path (some "json"))) ∧
    ∀ raw route, r.route? raw = some route →
      (components (unsuffixed raw) = [] ∨ components (unsuffixed raw) = [versionSegment]) ∧
          r.root = some route.resource ∨
        ∃ a : Address, a.In r ∧ components (unsuffixed raw) = a.components ∧
          route = a.route (unsuffixed raw) route.suffix ∧
          ∀ b : Address, b.In r → components (unsuffixed raw) = b.components → b = a := by
  constructor
  · intro a ha
    have hlocate := locate?_components hr ha
    rw [← components_path ha] at hlocate
    constructor
    · simp only [route?, before?_path ha, hlocate, Option.map_some]
      rfl
    · simp only [route?, before?_append, hlocate, Option.map_some]
      rfl
  · intro raw route h
    obtain ⟨hpath, hlocate⟩ := path_of_route? h
    rw [← hpath]
    rcases exists_address hr components_ne_empty hlocate with hroot | ⟨a, ha, hcomps, hproject, hplace⟩
    · exact .inl hroot
    · refine .inr ⟨a, ha, hcomps, ?_, fun b hb hb' => address_unique hr hb ha (hb'.symm.trans hcomps)⟩
      cases route
      cases hplace
      cases hproject
      rfl

/-- A collection at the top, and one below its members. -/
def racks : Router := { root := some "versions", topLevel := ["racks"], nested := [⟨"racks", "rack_id", "units"⟩] }

/-- The action endpoint of a unit called as the collection at the top, below a rack called as the endpoint, in a project
with a slash and a format suffix in its name. -/
def contrived : Address := ⟨some "a/b.json", .below ⟨"racks", "rack_id", "units"⟩ "action", .action "racks"⟩

/-- The theorem at the contrived address, whose path leads to it and to nothing else. -/
theorem route?_address_contrived :
    racks.Orderly ∧ contrived.In racks ∧
      racks.route? contrived.path = some
        { resource := "units", target := .action, params := [("rack_id", "action"), ("id", "racks")],
          project := some "a/b.json", path := contrived.path, suffix := none } ∧
      ∃ a : Address, a.In racks ∧ components (unsuffixed contrived.path) = a.components ∧
        ∀ b : Address, b.In racks → components (unsuffixed contrived.path) = b.components → b = a := by
  have hr : racks.Orderly := ⟨by decide, by decide, by decide⟩
  have ha : contrived.In racks := ⟨by decide, ⟨by decide, by decide⟩, by decide⟩
  obtain ⟨hforward, hback⟩ := route?_address hr
  have hroute := (hforward contrived ha).1
  refine ⟨hr, ha, hroute, ?_⟩
  rcases hback _ _ hroute with ⟨-, hroot⟩ | ⟨a, ha', hcomps, -, hunique⟩
  · exact absurd hroot (by decide)
  · exact ⟨a, ha', hcomps, hunique⟩

end Standby.Router
