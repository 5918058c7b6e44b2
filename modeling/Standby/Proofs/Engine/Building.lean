import Mathlib.Data.List.Induction
import Standby.Engine.Dispatcher
import Standby.Proofs.Basic
import Standby.Proofs.Version.Order
/-!
# Building a dispatcher

Three things are gone through when a dispatcher is built: the extensions, the routes of their resources, and the
versions. Each is gone through without a fault exactly if something holds of all of it, and what comes out then does not
hang on the order in which it is computed: the resources and controllers of the extensions, the router of the resources
and the latest of the versions.
-/

namespace Standby

variable {σ κ : Type}

/-! ## Extensions -/

/-- The resources that an extension brings, none if it fails to. -/
def Extension.resourceList (e : Extension σ κ) : List (Resource σ κ) := e.resources.toOption.getD []

theorem Extension.mem_resourceList {e : Extension σ κ} {r : Resource σ κ} :
    r ∈ e.resourceList ↔ ∃ rs, e.resources = .ok rs ∧ r ∈ rs := by
  unfold resourceList
  cases e.resources <;> simp [Except.toOption]

def Extension.controllerList (e : Extension σ κ) : List (Controller σ κ) := e.controllers.toOption.getD []

theorem Extension.mem_controllerList {e : Extension σ κ} {c : Controller σ κ} :
    c ∈ e.controllerList ↔ ∃ cs, e.controllers = .ok cs ∧ c ∈ cs := by
  unfold controllerList
  cases e.controllers <;> simp [Except.toOption]

namespace ExtensionSet

variable (s : ExtensionSet σ κ)

def resources : List (Resource σ κ) := s.list.flatMap (·.resourceList)

def controllers : List (Controller σ κ) := s.list.flatMap (·.controllerList)

end ExtensionSet

/-- Extensions of which each can bring what it is to bring, and no two resources of which have the same collection. -/
structure GoTogether (l : List (Extension σ κ)) : Prop where
  resources : ∀ e ∈ l, ∃ rs, e.resources = .ok rs
  controllers : ∀ e ∈ l, ∃ cs, e.controllers = .ok cs
  once : ((l.flatMap (·.resourceList)).map (·.collection)).Nodup

theorem Extension.resourceList_eq {e : Extension σ κ} {rs : List (Resource σ κ)} (h : e.resources = .ok rs) :
    e.resourceList = rs := by
  rw [resourceList, h]
  rfl

theorem Extension.controllerList_eq {e : Extension σ κ} {cs : List (Controller σ κ)} (h : e.controllers = .ok cs) :
    e.controllerList = cs := by
  rw [controllerList, h]
  rfl

theorem goTogether_nil : GoTogether ([] : List (Extension σ κ)) where
  resources _ h := nomatch h
  controllers _ h := nomatch h
  once := List.nodup_nil

theorem goTogether_concat_iff {l : List (Extension σ κ)} {e : Extension σ κ} :
    GoTogether (l ++ [e]) ↔ GoTogether l ∧ (∃ rs, e.resources = .ok rs) ∧ (∃ cs, e.controllers = .ok cs) ∧
      ((l.flatMap (·.resourceList) ++ e.resourceList).map (·.collection)).Nodup := by
  have hall : (l ++ [e]).flatMap (·.resourceList) = l.flatMap (·.resourceList) ++ e.resourceList := by simp
  constructor
  · rintro ⟨hrs, hcs, honce⟩
    rw [hall] at honce
    refine ⟨⟨fun e' he' => hrs e' (List.mem_append_left _ he'), fun e' he' => hcs e' (List.mem_append_left _ he'), ?_⟩,
      hrs e (List.mem_append_right _ List.mem_cons_self), hcs e (List.mem_append_right _ List.mem_cons_self), honce⟩
    rw [List.map_append] at honce
    exact (List.nodup_append.1 honce).1
  · rintro ⟨h, hrs, hcs, honce⟩
    refine ⟨fun e' he' => ?_, fun e' he' => ?_, hall ▸ honce⟩
    · rcases List.mem_append.1 he' with he' | he'
      · exact h.resources e' he'
      · exact List.mem_singleton.1 he' ▸ hrs
    · rcases List.mem_append.1 he' with he' | he'
      · exact h.controllers e' he'
      · exact List.mem_singleton.1 he' ▸ hcs

namespace Dispatcher

section Resources
variable {known l all : List (Resource σ κ)} {err : BuildError}

theorem any_collection_iff {r : Resource σ κ} :
    (known.any (·.collection == r.collection)) = true ↔ r.collection ∈ known.map (·.collection) := by
  simp

/-- With a new collection resources have different collections exactly if they had before. -/
theorem nodup_concat_iff {r : Resource σ κ} (hnew : r.collection ∉ known.map (·.collection)) :
    ((known ++ [r]).map (·.collection)).Nodup ↔ (known.map (·.collection)).Nodup := by
  rw [List.map_append, List.map_singleton, List.nodup_append]
  constructor
  · exact fun h => h.1
  · refine fun h => ⟨h, List.nodup_singleton _, fun a ha b hb hab => hnew ?_⟩
    rw [List.mem_singleton.1 hb] at hab
    exact hab ▸ ha

theorem addResources_eq_ok_iff (hknown : (known.map (·.collection)).Nodup) :
    addResources known l = .ok all ↔ all = known ++ l ∧ ((known ++ l).map (·.collection)).Nodup := by
  induction l generalizing known with
  | nil =>
    rw [addResources, Except.ok.injEq, List.append_nil]
    exact ⟨fun h => ⟨h.symm, hknown⟩, fun h => h.1.symm⟩
  | cons r l ih =>
    rw [addResources]
    split
    · rename_i hold
      refine iff_of_false nofun fun ⟨_, hnodup⟩ => ?_
      rw [List.map_append, List.map_cons] at hnodup
      exact (List.nodup_append.1 hnodup).2.2 _ (any_collection_iff.1 hold) _ List.mem_cons_self rfl
    · rename_i hnew
      rw [List.append_cons known r l]
      exact ih ((nodup_concat_iff fun h => hnew (any_collection_iff.2 h)).2 hknown)

/-- Resources cannot be added exactly if one of them has a collection that is there before it. -/
theorem addResources_eq_error_iff (hknown : (known.map (·.collection)).Nodup) :
    addResources known l = .error err ↔ ∃ first r rest, l = first ++ r :: rest ∧
      ((known ++ first).map (·.collection)).Nodup ∧ r.collection ∈ (known ++ first).map (·.collection) ∧
      err = .extension (.duplicateResource r.collection) := by
  induction l generalizing known with
  | nil => exact iff_of_false nofun fun ⟨first, r, rest, h, _⟩ => by simp at h
  | cons r l ih =>
    rw [addResources]
    split
    · rename_i hold
      have hold := any_collection_iff.1 hold
      constructor
      · rintro ⟨⟩
        exact ⟨[], r, l, rfl, by rwa [List.append_nil], by rwa [List.append_nil], rfl⟩
      · rintro ⟨first, r', rest, hl, hnodup, -, rfl⟩
        cases first with
        | nil =>
          cases hl
          rfl
        | cons r₁ first =>
          obtain ⟨rfl, -⟩ := List.cons.inj hl
          rw [List.map_append, List.map_cons] at hnodup
          exact absurd rfl ((List.nodup_append.1 hnodup).2.2 _ hold _ List.mem_cons_self)
    · rename_i hnew
      have hnew := mt any_collection_iff.2 hnew
      rw [ih ((nodup_concat_iff hnew).2 hknown)]
      constructor
      · rintro ⟨first, r', rest, rfl, h⟩
        rw [List.append_assoc, List.singleton_append] at h
        exact ⟨r :: first, r', rest, rfl, h⟩
      · rintro ⟨first, r', rest, hl, hnodup, hmem, rfl⟩
        cases first with
        | nil =>
          cases hl
          exact absurd (List.append_nil known ▸ hmem) hnew
        | cons r₁ first =>
          obtain ⟨rfl, rfl⟩ := List.cons.inj hl
          rw [List.append_cons] at hnodup hmem
          exact ⟨first, r', rest, rfl, hnodup, hmem, rfl⟩

end Resources

/-- Extensions are gone through without a fault exactly if they go together. -/
theorem foldlM_collect_eq_ok_iff {l : List (Extension σ κ)} {parts : Parts σ κ} :
    l.foldlM collect ([], []) = .ok parts ↔
      GoTogether l ∧ parts = (l.flatMap (·.resourceList), l.flatMap (·.controllerList)) := by
  induction l using List.reverseRecOn generalizing parts with
  | nil =>
    rw [List.foldlM_nil]
    exact ⟨fun h => ⟨goTogether_nil, (Except.ok.inj h).symm⟩, fun h => congrArg Except.ok h.2.symm⟩
  | append_singleton l e ih =>
    rw [List.foldlM_append, goTogether_concat_iff]
    constructor
    · intro h
      obtain ⟨parts₁, h₁, h⟩ := bind_eq_ok.1 h
      obtain ⟨hl, rfl⟩ := ih.1 h₁
      obtain ⟨parts₂, h, hparts⟩ := bind_eq_ok.1 h
      cases hparts
      obtain ⟨rs, hrs, h⟩ := bind_eq_ok.1 h
      obtain ⟨all, hall, h⟩ := bind_eq_ok.1 h
      obtain ⟨cs, hcs, h⟩ := bind_eq_ok.1 h
      cases h
      have hrs := mapError_eq_ok.1 hrs
      have hcs := mapError_eq_ok.1 hcs
      obtain ⟨rfl, honce⟩ := (addResources_eq_ok_iff hl.once).1 hall
      refine ⟨⟨hl, ⟨rs, hrs⟩, ⟨cs, hcs⟩, by rwa [Extension.resourceList_eq hrs]⟩, ?_⟩
      simp [Extension.resourceList_eq hrs, Extension.controllerList_eq hcs]
    · rintro ⟨⟨hl, ⟨rs, hrs⟩, ⟨cs, hcs⟩, honce⟩, rfl⟩
      rw [Extension.resourceList_eq hrs] at honce
      refine bind_eq_ok.2 ⟨_, ih.2 ⟨hl, rfl⟩, bind_eq_ok.2 ⟨_, ?_, rfl⟩⟩
      refine bind_eq_ok.2 ⟨rs, mapError_eq_ok.2 hrs, bind_eq_ok.2 ⟨_, (addResources_eq_ok_iff hl.once).2 ⟨rfl, honce⟩, ?_⟩⟩
      refine bind_eq_ok.2 ⟨cs, mapError_eq_ok.2 hcs, ?_⟩
      simp [Extension.resourceList_eq hrs, Extension.controllerList_eq hcs]

/-! ## Routes -/

/-- The parent of a resource that stands below another one is among some collections. -/
def HasParent (collections : List String) (r : Resource σ κ) : Prop :=
  r.root = false → ∀ p ∈ r.parent, p.collection ∈ collections

instance (collections : List String) (r : Resource σ κ) : Decidable (HasParent collections r) :=
  inferInstanceAs (Decidable (r.root = false → ∀ p ∈ r.parent, p.collection ∈ collections))

/-- Where the resource stands at the top, it is one of the collections there. -/
def isTop (r : Resource σ κ) : Bool := !r.root && r.parent.isNone

/-- The resource as a collection below the members of another one, if it stands there. -/
def nested? (r : Resource σ κ) : Option NestedCollection :=
  if r.root then none else r.parent.map fun p => ⟨p.collection, p.param, r.collection⟩

/-- The router of some resources. -/
def routerOf (rs : List (Resource σ κ)) : Router where
  root := ((rs.filter (·.root)).getLast?).map (·.collection)
  topLevel := (rs.filter isTop).map (·.collection)
  nested := rs.filterMap nested?

section Routes
variable {collections : List String} {rs : List (Resource σ κ)} {r : Resource σ κ} {router : Router} {err : BuildError}

theorem isCollection_routerOf {name : String} :
    (routerOf rs).isCollection name = true ↔ ∃ r ∈ rs, isTop r = true ∧ r.collection = name := by
  simp [Router.isCollection, routerOf, and_assoc]

theorem nested?_eq_some_iff {n : NestedCollection} :
    nested? r = some n ↔ r.root = false ∧ ∃ p, r.parent = some p ∧ n = ⟨p.collection, p.param, r.collection⟩ := by
  unfold nested?
  cases r.root with
  | true => simp
  | false =>
    simp only [Bool.false_eq_true, if_false, Option.map_eq_some_iff, true_and]
    exact exists_congr fun p => and_congr_right fun _ => eq_comm

/-- A route is added as it is if the parent is there. -/
theorem addRoute_of_hasParent (h : HasParent collections r) :
    addRoute collections (routerOf rs) r = .ok (routerOf (rs ++ [r])) := by
  unfold addRoute
  cases hroot : r.root with
  | true => simp [routerOf, Router.addRoot, isTop, nested?, hroot]
  | false =>
    cases hparent : r.parent with
    | none => simp [routerOf, Router.addCollection, isTop, nested?, hroot, hparent]
    | some p =>
      have hknown := h hroot p hparent
      simp [routerOf, Router.addNested, isTop, nested?, hroot, hparent, hknown]

theorem addRoute_eq_error_iff :
    addRoute collections router r = .error err ↔ r.root = false ∧ ∃ p, r.parent = some p ∧
      p.collection ∉ collections ∧ err = .extension (.unknownParent r.collection p.collection) := by
  unfold addRoute
  cases hroot : r.root with
  | true => simp
  | false =>
    cases hparent : r.parent with
    | none => simp
    | some p => by_cases hknown : p.collection ∈ collections <;> simp [hknown, eq_comm]

theorem addRoute_eq_ok_iff :
    addRoute collections (routerOf rs) r = .ok router ↔ HasParent collections r ∧ router = routerOf (rs ++ [r]) := by
  constructor
  · intro h
    have hparent : HasParent collections r := by
      intro hroot p hp
      by_contra hunknown
      have herror : addRoute collections (routerOf rs) r = .error _ :=
        addRoute_eq_error_iff.2 ⟨hroot, p, hp, hunknown, rfl⟩
      cases h.symm.trans herror
    exact ⟨hparent, Except.ok.inj (h.symm.trans (addRoute_of_hasParent hparent))⟩
  · rintro ⟨hparent, rfl⟩
    exact addRoute_of_hasParent hparent

/-- The routes of resources are added without a fault exactly if their parents are there. -/
theorem foldlM_addRoute_eq_ok_iff :
    rs.foldlM (addRoute collections) {} = .ok router ↔ (∀ r ∈ rs, HasParent collections r) ∧ router = routerOf rs := by
  induction rs using List.reverseRecOn generalizing router with
  | nil =>
    rw [List.foldlM_nil]
    exact ⟨fun h => ⟨nofun, (Except.ok.inj h).symm⟩, fun h => congrArg Except.ok h.2.symm⟩
  | append_singleton rs r ih =>
    rw [List.foldlM_append, List.forall_mem_append, List.forall_mem_singleton]
    constructor
    · intro h
      obtain ⟨router₁, h₁, h⟩ := bind_eq_ok.1 h
      obtain ⟨hrs, rfl⟩ := ih.1 h₁
      obtain ⟨router₂, h₂, h⟩ := bind_eq_ok.1 h
      cases h
      obtain ⟨hr, rfl⟩ := addRoute_eq_ok_iff.1 h₂
      exact ⟨⟨hrs, hr⟩, rfl⟩
    · rintro ⟨⟨hrs, hr⟩, rfl⟩
      exact bind_eq_ok.2 ⟨_, ih.2 ⟨hrs, rfl⟩, bind_eq_ok.2 ⟨_, addRoute_eq_ok_iff.2 ⟨hr, rfl⟩, rfl⟩⟩

end Routes

/-! ## Versions -/

/-- The end of the window, as it is computed from the settings and what the resources mention. -/
def latest (settings : DispatchSettings) (resources : List (Resource σ κ)) (controllers : List (Controller σ κ)) :
    Version :=
  ((resources.map fun r => (r.collection, entryOf resources controllers r)).filterMap fun (_, e) =>
    e.latestMentioned?).foldl Version.max (settings.defaultVersion.max settings.minVersion)

theorem latest_eq (settings : DispatchSettings) (resources : List (Resource σ κ)) (controllers : List (Controller σ κ)) :
    latest settings resources controllers =
      (resources.filterMap fun r => (entryOf resources controllers r).latestMentioned?).foldl Version.max
        (settings.defaultVersion.max settings.minVersion) := by
  rw [latest, List.filterMap_map]
  rfl

/-- The default version is never after the latest one. -/
theorem default_le_latest (settings : DispatchSettings) (resources : List (Resource σ κ))
    (controllers : List (Controller σ κ)) : settings.defaultVersion.le (latest settings resources controllers) = true :=
  Version.le_trans (Version.le_max_left _ _) (Version.le_foldl_max _ _)

/-! ## The dispatcher -/

/-- A dispatcher can be built: the extensions go together, their resources have parents, the versions are in order, and
the version header has a proper name. -/
structure Buildable (settings : DispatchSettings) (extensions : ExtensionSet σ κ) : Prop where
  together : GoTogether extensions.list
  parents : ∀ r ∈ extensions.resources, HasParent (extensions.resources.map (·.collection)) r
  order : settings.minVersion.le settings.defaultVersion = true
  name : Headers.isName settings.versionHeader = true

/-- The dispatcher of some extensions. -/
def ofExtensions (settings : DispatchSettings) (extensions : ExtensionSet σ κ) : Dispatcher σ κ where
  router := routerOf extensions.resources
  entries := extensions.resources.map fun r => (r.collection, entryOf extensions.resources extensions.controllers r)
  window := ⟨settings.minVersion, latest settings extensions.resources extensions.controllers, settings.defaultVersion⟩
  offers := Offers.ofPrimary settings.primaryMediaType settings.languages
  versionHeader := Text.lower settings.versionHeader
  service := settings.service
  publicEndpoint := settings.publicEndpoint

theorem build_eq_ok_iff {settings : DispatchSettings} {extensions : ExtensionSet σ κ} {d : Dispatcher σ κ} :
    build settings extensions = .ok d ↔ Buildable settings extensions ∧ d = ofExtensions settings extensions := by
  have hlatest := default_le_latest settings extensions.resources extensions.controllers
  constructor
  · intro h
    obtain ⟨parts, hparts, h⟩ := bind_eq_ok.1 h
    obtain ⟨htogether, rfl⟩ := foldlM_collect_eq_ok_iff.1 hparts
    obtain ⟨router, hrouter, h⟩ := bind_eq_ok.1 h
    obtain ⟨hparents, rfl⟩ := foldlM_addRoute_eq_ok_iff.1 hrouter
    obtain ⟨window, hwindow, h⟩ := bind_eq_ok.1 h
    have hwindow := mapError_eq_ok.1 hwindow
    unfold Window.ofBounds at hwindow
    split at hwindow
    · rename_i hbounds
      cases hwindow
      split at h
      · cases h
      · rename_i hname
        cases h
        exact ⟨⟨htogether, hparents, (Bool.and_eq_true_iff.1 hbounds).1, by simpa using hname⟩, rfl⟩
    · cases hwindow
  · rintro ⟨⟨htogether, hparents, horder, hname⟩, rfl⟩
    refine bind_eq_ok.2 ⟨_, foldlM_collect_eq_ok_iff.2 ⟨htogether, rfl⟩, ?_⟩
    refine bind_eq_ok.2 ⟨_, foldlM_addRoute_eq_ok_iff.2 ⟨hparents, rfl⟩, ?_⟩
    refine bind_eq_ok.2 ⟨_, mapError_eq_ok.2 (if_pos (Bool.and_eq_true_iff.2 ⟨horder, hlatest⟩)), ?_⟩
    rw [hname]
    rfl

end Dispatcher

end Standby
