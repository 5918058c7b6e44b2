import Standby.Proofs.Engine.Window
import Standby.Proofs.Version.Refusals
/-!
# What comes of building a dispatcher

A dispatcher can be built exactly if its extensions go together, the parents of their resources are there, the versions
of the settings are in order and the version header has a proper name; and if it cannot, the error says what goes wrong
first (`build_outcome`). An extension that registers according to a plan brings what is in it exactly if no range in it is
inverted and no two of them overlap. Where resources point to has no part in any of this.
-/

namespace Standby

variable {σ κ : Type}

/-! ## Plans -/

/-- What an extension registers, in the order in which it does: the actions of its resources, and the actions and then
the hooks of its controllers. -/
structure Plan (σ κ : Type) where
  resources : List (Resource σ κ × List (Registration (Action σ κ)))
  controllers : List (Controller σ κ × List (Registration (Action σ κ)) × List (Registration (Hook σ κ)))

namespace Plan

def makeResource (p : Resource σ κ × List (Registration (Action σ κ))) : Except RegistryError (Resource σ κ) := do
  let actions ← Registry.ofList p.2
  .ok { p.1 with actions }

def makeController (p : Controller σ κ × List (Registration (Action σ κ)) × List (Registration (Hook σ κ))) :
    Except RegistryError (Controller σ κ) := do
  let actions ← Registry.ofList p.2.1
  let hooks ← Registry.ofList p.2.2
  .ok { p.1 with actions, hooks }

theorem exists_makeResource_iff {p : Resource σ κ × List (Registration (Action σ κ))} :
    (∃ r, makeResource p = .ok r) ↔ Registration.Proper p.2 := by
  rw [← Registry.exists_ofList_iff]
  constructor
  · rintro ⟨r, h⟩
    obtain ⟨actions, hactions, -⟩ := bind_eq_ok.1 h
    exact ⟨actions, hactions⟩
  · rintro ⟨actions, hactions⟩
    exact ⟨_, bind_eq_ok.2 ⟨actions, hactions, rfl⟩⟩

theorem makeResource_eq_error_iff {p : Resource σ κ × List (Registration (Action σ κ))} {err : RegistryError} :
    makeResource p = .error err ↔ Registration.RefusedIn p.2 err := by
  rw [← Registry.ofList_eq_error_iff, makeResource, bind_eq_error]
  exact or_iff_left nofun

theorem exists_makeController_iff
    {p : Controller σ κ × List (Registration (Action σ κ)) × List (Registration (Hook σ κ))} :
    (∃ c, makeController p = .ok c) ↔ Registration.Proper p.2.1 ∧ Registration.Proper p.2.2 := by
  rw [← Registry.exists_ofList_iff, ← Registry.exists_ofList_iff]
  constructor
  · rintro ⟨c, h⟩
    obtain ⟨actions, hactions, h⟩ := bind_eq_ok.1 h
    obtain ⟨hooks, hhooks, -⟩ := bind_eq_ok.1 h
    exact ⟨⟨actions, hactions⟩, hooks, hhooks⟩
  · rintro ⟨⟨actions, hactions⟩, hooks, hhooks⟩
    exact ⟨_, bind_eq_ok.2 ⟨actions, hactions, bind_eq_ok.2 ⟨hooks, hhooks, rfl⟩⟩⟩

theorem makeController_eq_error_iff
    {p : Controller σ κ × List (Registration (Action σ κ)) × List (Registration (Hook σ κ))} {err : RegistryError} :
    makeController p = .error err ↔
      Registration.RefusedIn p.2.1 err ∨ Registration.Proper p.2.1 ∧ Registration.RefusedIn p.2.2 err := by
  rw [← Registry.ofList_eq_error_iff, ← Registry.ofList_eq_error_iff, ← Registry.exists_ofList_iff, makeController,
    bind_eq_error]
  refine or_congr_right ⟨?_, ?_⟩
  · rintro ⟨actions, hactions, h⟩
    exact ⟨⟨actions, hactions⟩, (bind_eq_error.1 h).resolve_right nofun⟩
  · rintro ⟨⟨actions, hactions⟩, h⟩
    exact ⟨actions, hactions, bind_eq_error.2 (.inl h)⟩

end Plan

/-- An extension brings what it registers according to a plan, or fails with the first registration that is refused. -/
structure Extension.Follows (e : Extension σ κ) (plan : Plan σ κ) : Prop where
  resources : e.resources = plan.resources.mapM Plan.makeResource
  controllers : e.controllers = plan.controllers.mapM Plan.makeController

namespace Extension.Follows

variable {e : Extension σ κ} {plan : Plan σ κ} {err : RegistryError}

theorem exists_resources_iff (h : e.Follows plan) :
    (∃ rs, e.resources = .ok rs) ↔ ∀ p ∈ plan.resources, Registration.Proper p.2 := by
  rw [h.resources, exists_mapM_iff]
  exact forall₂_congr fun _ _ => Plan.exists_makeResource_iff

theorem resources_eq_error_iff (h : e.Follows plan) :
    e.resources = .error err ↔ ∃ before p after, plan.resources = before ++ p :: after ∧
      (∀ q ∈ before, Registration.Proper q.2) ∧ Registration.RefusedIn p.2 err := by
  rw [h.resources, mapM_eq_error_iff]
  simp only [Plan.exists_makeResource_iff, Plan.makeResource_eq_error_iff]

theorem exists_controllers_iff (h : e.Follows plan) :
    (∃ cs, e.controllers = .ok cs) ↔
      ∀ p ∈ plan.controllers, Registration.Proper p.2.1 ∧ Registration.Proper p.2.2 := by
  rw [h.controllers, exists_mapM_iff]
  exact forall₂_congr fun _ _ => Plan.exists_makeController_iff

theorem controllers_eq_error_iff (h : e.Follows plan) :
    e.controllers = .error err ↔ ∃ before p after, plan.controllers = before ++ p :: after ∧
      (∀ q ∈ before, Registration.Proper q.2.1 ∧ Registration.Proper q.2.2) ∧
      (Registration.RefusedIn p.2.1 err ∨ Registration.Proper p.2.1 ∧ Registration.RefusedIn p.2.2 err) := by
  rw [h.controllers, mapM_eq_error_iff]
  simp only [Plan.exists_makeController_iff, Plan.makeController_eq_error_iff]

end Extension.Follows

/-! ## Pointers -/

/-- The same extension with other pointers of its resources. -/
def Extension.redirect (f : Resource σ κ → Option String) (e : Extension σ κ) : Extension σ κ :=
  { e with resources := e.resources.map (List.map fun r => { r with inherits := f r }) }

namespace ExtensionSet

/-- The same extensions with other pointers between their resources. -/
def redirect (f : Resource σ κ → Option String) (s : ExtensionSet σ κ) : ExtensionSet σ κ :=
  ⟨s.list.map (·.redirect f)⟩

variable {f : Resource σ κ → Option String} {s : ExtensionSet σ κ}

theorem resources_redirect : (s.redirect f).resources = s.resources.map fun r => { r with inherits := f r } := by
  unfold resources redirect
  rw [List.flatMap_map, List.map_flatMap]
  refine List.flatMap_congr fun e _ => ?_
  unfold Extension.resourceList Extension.redirect
  cases e.resources <;> rfl

theorem collections_redirect : (s.redirect f).resources.map (·.collection) = s.resources.map (·.collection) := by
  rw [resources_redirect, List.map_map]
  rfl

theorem goTogether_redirect : GoTogether (s.redirect f).list ↔ GoTogether s.list := by
  have hrs : ∀ e : Extension σ κ, (∃ rs, (e.redirect f).resources = .ok rs) ↔ ∃ rs, e.resources = .ok rs := by
    intro e
    unfold Extension.redirect
    cases e.resources <;> simp [Except.map]
  have honce : ((s.redirect f).resources.map (·.collection)).Nodup ↔ (s.resources.map (·.collection)).Nodup := by
    rw [collections_redirect]
  constructor
  · intro h
    have hmem : ∀ e ∈ s.list, e.redirect f ∈ (s.redirect f).list := fun e he => List.mem_map.2 ⟨e, he, rfl⟩
    exact ⟨fun e he => (hrs e).1 (h.resources _ (hmem e he)), fun e he => (h.controllers _ (hmem e he) :),
      honce.1 h.once⟩
  · intro h
    exact ⟨List.forall_mem_map.2 fun e he => (hrs e).2 (h.resources e he),
      List.forall_mem_map.2 fun e he => h.controllers e he, honce.2 h.once⟩

theorem buildable_redirect {settings : DispatchSettings} :
    Dispatcher.Buildable settings (s.redirect f) ↔ Dispatcher.Buildable settings s := by
  have hparents : (∀ r ∈ (s.redirect f).resources, Dispatcher.HasParent ((s.redirect f).resources.map (·.collection)) r) ↔
      ∀ r ∈ s.resources, Dispatcher.HasParent (s.resources.map (·.collection)) r := by
    rw [collections_redirect, resources_redirect, List.forall_mem_map]
    rfl
  constructor
  · rintro ⟨htogether, hp, horder, hname⟩
    exact ⟨goTogether_redirect.1 htogether, hparents.1 hp, horder, hname⟩
  · rintro ⟨htogether, hp, horder, hname⟩
    exact ⟨goTogether_redirect.2 htogether, hparents.2 hp, horder, hname⟩

end ExtensionSet

/-! ## The first fault -/

namespace Dispatcher

/-- What goes wrong first when a dispatcher is built. The extensions are gone through in the order in which they were
added, each for its resources, for collections that are there already and for its controllers; then the parents of the
resources, the versions and the name of the version header. -/
inductive FirstFault (settings : DispatchSettings) (extensions : ExtensionSet σ κ) : BuildError → Prop
  | resources {before : List (Extension σ κ)} {e : Extension σ κ} {after : List (Extension σ κ)} {err : RegistryError}
      (hlist : extensions.list = before ++ e :: after) (hbefore : GoTogether before) (he : e.resources = .error err) :
      FirstFault settings extensions (.extension (.registry err))
  | duplicate {before : List (Extension σ κ)} {e : Extension σ κ} {after : List (Extension σ κ)}
      {first : List (Resource σ κ)} {r : Resource σ κ} {rest : List (Resource σ κ)}
      (hlist : extensions.list = before ++ e :: after) (hbefore : GoTogether before)
      (he : e.resources = .ok (first ++ r :: rest))
      (hfirst : ((before.flatMap (·.resourceList) ++ first).map (·.collection)).Nodup)
      (hr : r.collection ∈ (before.flatMap (·.resourceList) ++ first).map (·.collection)) :
      FirstFault settings extensions (.extension (.duplicateResource r.collection))
  | controllers {before : List (Extension σ κ)} {e : Extension σ κ} {after : List (Extension σ κ)}
      {rs : List (Resource σ κ)} {err : RegistryError}
      (hlist : extensions.list = before ++ e :: after) (hbefore : GoTogether before) (he : e.resources = .ok rs)
      (honce : ((before.flatMap (·.resourceList) ++ rs).map (·.collection)).Nodup) (hc : e.controllers = .error err) :
      FirstFault settings extensions (.extension (.registry err))
  | parent {first : List (Resource σ κ)} {r : Resource σ κ} {rest : List (Resource σ κ)} {p : Parent}
      (htogether : GoTogether extensions.list) (hlist : extensions.resources = first ++ r :: rest)
      (hfirst : ∀ q ∈ first, HasParent (extensions.resources.map (·.collection)) q)
      (hroot : r.root = false) (hp : r.parent = some p)
      (hunknown : p.collection ∉ extensions.resources.map (·.collection)) :
      FirstFault settings extensions (.extension (.unknownParent r.collection p.collection))
  | window {latest : Version} (htogether : GoTogether extensions.list)
      (hparents : ∀ r ∈ extensions.resources, HasParent (extensions.resources.map (·.collection)) r)
      (horder : settings.minVersion.le settings.defaultVersion = false) (hlatest : extensions.IsLatest settings latest) :
      FirstFault settings extensions (.version (.invalidWindow settings.minVersion latest settings.defaultVersion))
  | headerName (htogether : GoTogether extensions.list)
      (hparents : ∀ r ∈ extensions.resources, HasParent (extensions.resources.map (·.collection)) r)
      (horder : settings.minVersion.le settings.defaultVersion = true)
      (hname : Headers.isName settings.versionHeader = false) :
      FirstFault settings extensions (.headerName settings.versionHeader)

/-- An extension can fail in three ways to bring something beside what is there. -/
theorem collect_eq_error_iff {parts : Parts σ κ} {e : Extension σ κ} {err : BuildError}
    (hknown : (parts.1.map (·.collection)).Nodup) :
    collect parts e = .error err ↔
      (∃ x, e.resources = .error x ∧ err = .extension (.registry x)) ∨
      (∃ first r rest, e.resources = .ok (first ++ r :: rest) ∧ ((parts.1 ++ first).map (·.collection)).Nodup ∧
        r.collection ∈ (parts.1 ++ first).map (·.collection) ∧ err = .extension (.duplicateResource r.collection)) ∨
      ∃ rs x, e.resources = .ok rs ∧ ((parts.1 ++ rs).map (·.collection)).Nodup ∧ e.controllers = .error x ∧
        err = .extension (.registry x) := by
  constructor
  · intro h
    rcases bind_eq_error.1 h with h | ⟨rs, hrs, h⟩
    · obtain ⟨x, hx, rfl⟩ := mapError_eq_error.1 h
      exact .inl ⟨x, hx, rfl⟩
    have hrs := mapError_eq_ok.1 hrs
    rcases bind_eq_error.1 h with h | ⟨all, hall, h⟩
    · obtain ⟨first, r, rest, rfl, hduplicate⟩ := (addResources_eq_error_iff hknown).1 h
      exact .inr (.inl ⟨first, r, rest, hrs, hduplicate⟩)
    obtain ⟨-, honce⟩ := (addResources_eq_ok_iff hknown).1 hall
    rcases bind_eq_error.1 h with h | ⟨cs, -, h⟩
    · obtain ⟨x, hx, rfl⟩ := mapError_eq_error.1 h
      exact .inr (.inr ⟨rs, x, hrs, honce, hx, rfl⟩)
    · cases h
  · rintro (⟨x, hx, rfl⟩ | ⟨first, r, rest, hrs, hfirst, hr, rfl⟩ | ⟨rs, x, hrs, honce, hx, rfl⟩)
    · exact bind_eq_error.2 (.inl (mapError_eq_error.2 ⟨x, hx, rfl⟩))
    · have hduplicate := (addResources_eq_error_iff hknown).2 ⟨first, r, rest, rfl, hfirst, hr, rfl⟩
      exact bind_eq_error.2 (.inr ⟨_, mapError_eq_ok.2 hrs, bind_eq_error.2 (.inl hduplicate)⟩)
    · have hall := (addResources_eq_ok_iff hknown).2 ⟨rfl, honce⟩
      exact bind_eq_error.2 (.inr ⟨rs, mapError_eq_ok.2 hrs, bind_eq_error.2 (.inr ⟨_, hall,
        bind_eq_error.2 (.inl (mapError_eq_error.2 ⟨x, hx, rfl⟩))⟩)⟩)

/-- Going through extensions fails with the first that cannot bring something beside those before it. -/
theorem foldlM_collect_eq_error_iff {l : List (Extension σ κ)} {err : BuildError} :
    l.foldlM collect ([], []) = .error err ↔ ∃ before e after, l = before ++ e :: after ∧ GoTogether before ∧
      collect (before.flatMap (·.resourceList), before.flatMap (·.controllerList)) e = .error err := by
  rw [foldlM_eq_error_iff]
  constructor
  · rintro ⟨before, e, after, parts, hl, hbefore, he⟩
    obtain ⟨htogether, rfl⟩ := foldlM_collect_eq_ok_iff.1 hbefore
    exact ⟨before, e, after, hl, htogether, he⟩
  · rintro ⟨before, e, after, hl, htogether, he⟩
    exact ⟨before, e, after, _, hl, foldlM_collect_eq_ok_iff.2 ⟨htogether, rfl⟩, he⟩

theorem foldlM_addRoute_eq_error_iff {collections : List String} {rs : List (Resource σ κ)} {err : BuildError} :
    rs.foldlM (addRoute collections) {} = .error err ↔ ∃ first r rest, rs = first ++ r :: rest ∧
      (∀ q ∈ first, HasParent collections q) ∧ r.root = false ∧ ∃ p, r.parent = some p ∧ p.collection ∉ collections ∧
        err = .extension (.unknownParent r.collection p.collection) := by
  rw [foldlM_eq_error_iff]
  constructor
  · rintro ⟨first, r, rest, router, hrs, hfirst, hr⟩
    exact ⟨first, r, rest, hrs, (foldlM_addRoute_eq_ok_iff.1 hfirst).1, addRoute_eq_error_iff.1 hr⟩
  · rintro ⟨first, r, rest, hrs, hfirst, hr⟩
    exact ⟨first, r, rest, _, hrs, foldlM_addRoute_eq_ok_iff.2 ⟨hfirst, rfl⟩, addRoute_eq_error_iff.2 hr⟩

section Build
variable {settings : DispatchSettings} {extensions : ExtensionSet σ κ} {err : BuildError}

/-- What is left to go wrong when the extensions go together. -/
theorem build_of_goTogether (h : GoTogether extensions.list) :
    build settings extensions = (do
      let router ← extensions.resources.foldlM (addRoute (extensions.resources.map (·.collection))) {}
      let window ← (Window.ofBounds settings.minVersion
        (latest settings extensions.resources extensions.controllers) settings.defaultVersion).mapError .version
      if !Headers.isName settings.versionHeader then .error (.headerName settings.versionHeader)
      else .ok { ofExtensions settings extensions with router, window }) := by
  have hparts := foldlM_collect_eq_ok_iff.2 ⟨h, rfl⟩
  rw [build, hparts]
  rfl

theorem firstFault_of_build (h : build settings extensions = .error err) : FirstFault settings extensions err := by
  rcases bind_eq_error.1 h with hparts | ⟨parts, hparts, -⟩
  · obtain ⟨before, e, after, hlist, hbefore, he⟩ := foldlM_collect_eq_error_iff.1 hparts
    obtain ⟨x, hx, rfl⟩ | ⟨first, r, rest, hrs, hfirst, hr, rfl⟩ | ⟨rs, x, hrs, honce, hx, rfl⟩ :=
      (collect_eq_error_iff hbefore.once).1 he
    · exact .resources hlist hbefore hx
    · exact .duplicate hlist hbefore hrs hfirst hr
    · exact .controllers hlist hbefore hrs honce hx
  obtain ⟨htogether, -⟩ := foldlM_collect_eq_ok_iff.1 hparts
  rw [build_of_goTogether htogether] at h
  rcases bind_eq_error.1 h with hroutes | ⟨router, hrouter, h⟩
  · obtain ⟨first, r, rest, hlist, hfirst, hroot, p, hp, hunknown, rfl⟩ := foldlM_addRoute_eq_error_iff.1 hroutes
    exact .parent htogether hlist hfirst hroot hp hunknown
  have hparents := (foldlM_addRoute_eq_ok_iff.1 hrouter).1
  have hend := default_le_latest settings extensions.resources extensions.controllers
  rcases bind_eq_error.1 h with hwindow | ⟨window, hwindow, h⟩
  · obtain ⟨x, hx, rfl⟩ := mapError_eq_error.1 hwindow
    unfold Window.ofBounds at hx
    split at hx
    · cases hx
    · rename_i horder
      cases hx
      refine .window htogether hparents ?_ (ExtensionSet.isLatest_latest htogether.once)
      simpa [hend] using horder
  · have hwindow := mapError_eq_ok.1 hwindow
    unfold Window.ofBounds at hwindow
    split at hwindow
    · rename_i horder
      split at h
      · rename_i hname
        cases h
        exact .headerName htogether hparents (Bool.and_eq_true_iff.1 horder).1 (by simpa using hname)
      · cases h
    · cases hwindow

theorem build_of_firstFault (h : FirstFault settings extensions err) : build settings extensions = .error err := by
  cases h with
  | resources hlist hbefore he =>
    exact bind_eq_error.2 (.inl (foldlM_collect_eq_error_iff.2 ⟨_, _, _, hlist, hbefore,
      (collect_eq_error_iff hbefore.once).2 (.inl ⟨_, he, rfl⟩)⟩))
  | duplicate hlist hbefore he hfirst hr =>
    exact bind_eq_error.2 (.inl (foldlM_collect_eq_error_iff.2 ⟨_, _, _, hlist, hbefore,
      (collect_eq_error_iff hbefore.once).2 (.inr (.inl ⟨_, _, _, he, hfirst, hr, rfl⟩))⟩))
  | controllers hlist hbefore he honce hc =>
    exact bind_eq_error.2 (.inl (foldlM_collect_eq_error_iff.2 ⟨_, _, _, hlist, hbefore,
      (collect_eq_error_iff hbefore.once).2 (.inr (.inr ⟨_, _, he, honce, hc, rfl⟩))⟩))
  | parent htogether hlist hfirst hroot hp hunknown =>
    rw [build_of_goTogether htogether]
    exact bind_eq_error.2 (.inl (foldlM_addRoute_eq_error_iff.2 ⟨_, _, _, hlist, hfirst, hroot, _, hp, hunknown, rfl⟩))
  | window htogether hparents horder hlatest =>
    rw [build_of_goTogether htogether, (ExtensionSet.isLatest_latest htogether.once).unique hlatest]
    refine bind_eq_error.2 (.inr ⟨_, foldlM_addRoute_eq_ok_iff.2 ⟨hparents, rfl⟩, bind_eq_error.2 (.inl ?_)⟩)
    simp [Window.ofBounds, horder, Except.mapError]
  | headerName htogether hparents horder hname =>
    have hend := default_le_latest settings extensions.resources extensions.controllers
    rw [build_of_goTogether htogether]
    refine bind_eq_error.2 (.inr ⟨_, foldlM_addRoute_eq_ok_iff.2 ⟨hparents, rfl⟩, ?_⟩)
    simp [Window.ofBounds, horder, hend, hname, Except.mapError, bind, Except.bind]

theorem exists_build_iff : (∃ d, build settings extensions = .ok d) ↔ Buildable settings extensions := by
  simp only [build_eq_ok_iff, exists_and_left, exists_eq, and_true]

/-- **The outcome.** Building a dispatcher fails with an error exactly if that is what goes wrong first, and succeeds
exactly if everything is in order: each extension brings its resources and its controllers, no collection is there twice,
parents are collections of some extension, the first version does not come after the default one and the name of the
version header is proper. Where resources point to neither matters nor makes the walk along the pointers longer than the
resources are many. What an extension registers according to a plan, it brings exactly if no range in it is inverted and
no two for one name share a version, and else it fails with the first registration that is refused. -/
theorem build_outcome (settings : DispatchSettings) (extensions : ExtensionSet σ κ) :
    (∀ err, build settings extensions = .error err ↔ FirstFault settings extensions err) ∧
    ((∃ d, build settings extensions = .ok d) ↔
      (∀ e ∈ extensions.list, (∃ rs, e.resources = .ok rs) ∧ ∃ cs, e.controllers = .ok cs) ∧
      (extensions.resources.map (·.collection)).Nodup ∧
      (∀ r ∈ extensions.resources, r.root = false → ∀ p ∈ r.parent,
        p.collection ∈ extensions.resources.map (·.collection)) ∧
      settings.minVersion.le settings.defaultVersion = true ∧ Headers.isName settings.versionHeader = true) ∧
    (∀ f, (∃ d, build settings (extensions.redirect f) = .ok d) ↔ ∃ d, build settings extensions = .ok d) ∧
    (∀ r, (chainOf extensions.resources r).length ≤ extensions.resources.length + 2) ∧
    ∀ e ∈ extensions.list, ∀ plan, e.Follows plan →
      ((∃ rs, e.resources = .ok rs) ↔ ∀ p ∈ plan.resources, Registration.Proper p.2) ∧
      ((∃ cs, e.controllers = .ok cs) ↔
        ∀ p ∈ plan.controllers, Registration.Proper p.2.1 ∧ Registration.Proper p.2.2) ∧
      (∀ err, e.resources = .error err ↔ ∃ before p after, plan.resources = before ++ p :: after ∧
        (∀ q ∈ before, Registration.Proper q.2) ∧ Registration.RefusedIn p.2 err) ∧
      ∀ err, e.controllers = .error err ↔ ∃ before p after, plan.controllers = before ++ p :: after ∧
        (∀ q ∈ before, Registration.Proper q.2.1 ∧ Registration.Proper q.2.2) ∧
        (Registration.RefusedIn p.2.1 err ∨ Registration.Proper p.2.1 ∧ Registration.RefusedIn p.2.2 err) := by
  refine ⟨fun err => ⟨firstFault_of_build, build_of_firstFault⟩, ?_, fun f => ?_, length_chainOf_le _, ?_⟩
  · rw [exists_build_iff]
    constructor
    · rintro ⟨⟨hrs, hcs, honce⟩, hparents, horder, hname⟩
      exact ⟨fun e he => ⟨hrs e he, hcs e he⟩, honce, hparents, horder, hname⟩
    · rintro ⟨hbrings, honce, hparents, horder, hname⟩
      exact ⟨⟨fun e he => (hbrings e he).1, fun e he => (hbrings e he).2, honce⟩, hparents, horder, hname⟩
  · rw [exists_build_iff, exists_build_iff, ExtensionSet.buildable_redirect]
  · intro e _ plan h
    exact ⟨h.exists_resources_iff, h.exists_controllers_iff, fun _ => h.resources_eq_error_iff,
      fun _ => h.controllers_eq_error_iff⟩

end Build

/-- Maps, which are to be shown in one way up to version 1.2 and in another way from version 1.2 on. -/
def atlasPlan : Plan Unit Unit :=
  let action : Action Unit Unit := { handler := fun _ => pure .empty }
  { resources :=
      [({ collection := "maps", member := "map" },
        [⟨"show", ⟨none, some ⟨1, 2⟩⟩, action⟩, ⟨"show", .since ⟨1, 2⟩, action⟩])]
    controllers := [] }

def atlas : Extension Unit Unit :=
  { name := "Atlas", shortName := "atlas", updated := "", resources := atlasPlan.resources.mapM Plan.makeResource }

/-- There are two ways to show a map at version 1.2, so the second one is refused and no dispatcher is built. -/
theorem build_outcome_atlas :
    atlas.Follows atlasPlan ∧
      build almanacSettings ⟨[atlas]⟩ = .error (.extension (.registry (.overlapping "show"))) := by
  have hfollows : atlas.Follows atlasPlan := ⟨rfl, rfl⟩
  obtain ⟨hfault, -, -, -, hplans⟩ := build_outcome almanacSettings ⟨[atlas]⟩
  obtain ⟨-, -, hresources, -⟩ := hplans atlas List.mem_cons_self atlasPlan hfollows
  have hrefused : atlas.resources = .error (.overlapping "show") := by
    refine (hresources _).2 ⟨[], _, [], rfl, List.forall_mem_nil _, [_], _, [], rfl, ?_, ?_⟩
    · exact ⟨List.forall_mem_singleton.2 rfl, List.pairwise_singleton _ _⟩
    · exact .overlapping (v := ⟨1, 2⟩) rfl List.mem_cons_self rfl (by decide) (by decide)
  have hlist : [atlas] = [] ++ atlas :: [] := rfl
  exact ⟨hfollows, (hfault _).2 (.resources hlist goTogether_nil hrefused)⟩

end Dispatcher

end Standby
