import Standby.Proofs.Engine.Building
/-!
# Where actions and hooks come from

A registry binds what has been registered and nothing else. A dispatcher that has been built serves the resources
of its extensions, and the actions and hooks that it adds to a resource are those of their controllers.
-/

namespace Standby

variable {α β σ κ : Type}

/-! ## Registries -/

namespace Registry

/-- A name stands for something at some version. -/
def Binds (r : Registry α) (name : String) (target : α) : Prop := ∃ b ∈ r.bindings name, b.target = target

theorem not_binds_empty (name : String) (target : α) : ¬(empty : Registry α).Binds name target := by
  rintro ⟨b, hb, -⟩
  cases hb

theorem Binds.of_resolve {r : Registry α} {name : String} {v : Version} {target : α}
    (h : r.resolve name v = some target) : r.Binds name target := by
  obtain ⟨b, hb, rfl⟩ := Option.map_eq_some_iff.1 h
  exact ⟨b, List.mem_of_find?_eq_some hb, rfl⟩

theorem contains_of_resolve {r : Registry α} {name : String} {v : Version} {target : α}
    (h : r.resolve name v = some target) : r.contains name = true := by
  cases hl : lookup? name r.entries with
  | none => simp [resolve, bindings, hl] at h
  | some bs => simp [contains, hl]

theorem register_eq_ok {r r' : Registry α} {name : String} {range : VersionRange} {target : α}
    (h : r.register name range target = .ok r') :
    r' = ⟨insertKey name ((r.bindings name ++ [Binding.mk range target]).mergeSort isBefore) r.entries⟩ := by
  unfold register at h
  split at h
  · cases h
  · simp only at h
    split at h
    · cases h
    · cases h
      rfl

theorem Binds.of_register {r r' : Registry α} {name n : String} {range : VersionRange} {target t : α}
    (h : r.register name range target = .ok r') (hb : r'.Binds n t) : r.Binds n t ∨ name = n ∧ target = t := by
  obtain rfl := register_eq_ok h
  obtain ⟨b, hb, rfl⟩ := hb
  simp only [bindings, lookup?_insertKey] at hb
  by_cases hn : name = n
  · subst hn
    rw [if_pos rfl, Option.getD_some, List.mem_mergeSort] at hb
    rcases List.mem_append.1 hb with hb | hb
    · exact .inl ⟨b, hb, rfl⟩
    · rw [List.mem_singleton.1 hb]
      exact .inr ⟨rfl, rfl⟩
  · rw [if_neg hn] at hb
    exact .inl ⟨b, hb, rfl⟩

/-- What is registered item by item is bound in the end, and nothing else but what was bound before. -/
theorem Binds.of_foldlM {name : β → String} {range : β → VersionRange} {target : β → α} {l : List β}
    {r r' : Registry α} {n : String} {t : α}
    (h : l.foldlM (fun r b => r.register (name b) (range b) (target b)) r = .ok r') (hb : r'.Binds n t) :
    r.Binds n t ∨ ∃ b ∈ l, name b = n ∧ target b = t := by
  induction l generalizing r with
  | nil =>
    cases h
    exact .inl hb
  | cons b l ih =>
    rw [List.foldlM_cons] at h
    obtain ⟨r₁, h₁, h⟩ := bind_eq_ok.1 h
    rcases ih h with hb | ⟨c, hc, hct⟩
    · rcases hb.of_register h₁ with hb | hbt
      · exact .inl hb
      · exact .inr ⟨b, List.mem_cons_self, hbt⟩
    · exact .inr ⟨c, List.mem_cons_of_mem _ hc, hct⟩

end Registry

/-! ## Settings -/

/-- The settings that a configuration makes. -/
theorem DispatchSettings.ofConfig_eq_ok {config : Config} {settings : DispatchSettings}
    (h : ofConfig config = .ok settings) :
    settings.versionHeader = config.versionHeader ∧ settings.service = config.serviceName ∧
      Version.parse config.minVersion = .ok settings.minVersion ∧
      Version.parse config.defaultVersion = .ok settings.defaultVersion := by
  obtain ⟨min, hmin, h⟩ := bind_eq_ok.1 h
  obtain ⟨default, hdefault, h⟩ := bind_eq_ok.1 h
  cases h
  exact ⟨rfl, rfl, mapError_eq_ok.1 hmin, mapError_eq_ok.1 hdefault⟩

/-! ## What a dispatcher serves -/

namespace Dispatcher

/-- The settings fix the window, but for its end. -/
theorem window_of_build {settings : DispatchSettings} {extensions : ExtensionSet σ κ} {d : Dispatcher σ κ}
    (h : build settings extensions = .ok d) :
    d.window.min = settings.minVersion ∧ d.window.default = settings.defaultVersion := by
  obtain ⟨-, rfl⟩ := build_eq_ok_iff.1 h
  exact ⟨rfl, rfl⟩

/-- A resource has an action of its own under a name. -/
def OwnAction (d : Dispatcher σ κ) (collection name : String) (a : Action σ κ) : Prop :=
  ∃ e, lookup? collection d.entries = some e ∧ e.resource.actions.Binds name a

/-- A controller gives a resource an action under a name. -/
def AddedAction (d : Dispatcher σ κ) (collection name : String) (a : Action σ κ) : Prop :=
  ∃ e, lookup? collection d.entries = some e ∧ ∃ r ∈ e.actions, r.Binds name a

/-- A controller gives an action of a resource a hook. -/
def AddedHook (d : Dispatcher σ κ) (collection name : String) (h : Hook σ κ) : Prop :=
  ∃ e, lookup? collection d.entries = some e ∧ ∃ r ∈ e.hooks, r.Binds name h

section Built
variable {settings : DispatchSettings} {extensions : ExtensionSet σ κ} {d : Dispatcher σ κ}
  {collection name : String}

theorem lookup?_entries {resources : List (Resource σ κ)} {controllers : List (Controller σ κ)} {e : Entry σ κ}
    (h : lookup? collection (resources.map fun r => (r.collection, entryOf resources controllers r)) = some e) :
    ∃ r ∈ resources, r.collection = collection ∧ e = entryOf resources controllers r := by
  obtain ⟨r, hr, he⟩ := List.mem_map.1 (mem_of_lookup?_eq_some h)
  cases he
  exact ⟨r, hr, rfl, rfl⟩

/-- The actions of a resource are those that an extension brings with it. -/
theorem OwnAction.origin {a : Action σ κ} (hd : build settings extensions = .ok d)
    (h : d.OwnAction collection name a) :
    ∃ e ∈ extensions.list, ∃ rs, e.resources = .ok rs ∧ ∃ r ∈ rs, r.collection = collection ∧
      r.actions.Binds name a := by
  obtain ⟨-, rfl⟩ := build_eq_ok_iff.1 hd
  obtain ⟨entry, hentry, hb⟩ := h
  obtain ⟨r, hr, hc, rfl⟩ := lookup?_entries hentry
  obtain ⟨e, he, hr⟩ := List.mem_flatMap.1 hr
  obtain ⟨rs, hrs, hr⟩ := Extension.mem_resourceList.1 hr
  exact ⟨e, he, rs, hrs, r, hr, hc, hb⟩

/-- What controllers add to a resource is that of controllers which extensions bring. -/
theorem exists_controllers {entry : Entry σ κ} (hd : build settings extensions = .ok d)
    (hentry : lookup? collection d.entries = some entry) :
    ∃ mine : List (Controller σ κ), entry.actions = mine.map (·.actions) ∧ entry.hooks = mine.map (·.hooks) ∧
      ∀ c ∈ mine, ∃ e ∈ extensions.list, ∃ cs, e.controllers = .ok cs ∧ c ∈ cs := by
  obtain ⟨-, rfl⟩ := build_eq_ok_iff.1 hd
  obtain ⟨r, -, -, rfl⟩ := lookup?_entries hentry
  refine ⟨_, rfl, rfl, fun c hmine => ?_⟩
  obtain ⟨target, -, hfor⟩ := List.mem_flatMap.1 hmine
  obtain ⟨e, he, hc⟩ := List.mem_flatMap.1 (List.mem_filter.1 hfor).1
  exact ⟨e, he, Extension.mem_controllerList.1 hc⟩

/-- The actions that controllers give a resource are those that an extension brings. -/
theorem AddedAction.origin {a : Action σ κ} (hd : build settings extensions = .ok d)
    (h : d.AddedAction collection name a) :
    ∃ e ∈ extensions.list, ∃ cs, e.controllers = .ok cs ∧ ∃ c ∈ cs, c.actions.Binds name a := by
  obtain ⟨entry, hentry, registry, hregistry, hb⟩ := h
  obtain ⟨mine, hactions, -, hmine⟩ := exists_controllers hd hentry
  rw [hactions] at hregistry
  obtain ⟨c, hc, rfl⟩ := List.mem_map.1 hregistry
  obtain ⟨e, he, cs, hcs, hc⟩ := hmine c hc
  exact ⟨e, he, cs, hcs, c, hc, hb⟩

/-- The hooks that controllers give a resource are those that an extension brings. -/
theorem AddedHook.origin {hook : Hook σ κ} (hd : build settings extensions = .ok d)
    (h : d.AddedHook collection name hook) :
    ∃ e ∈ extensions.list, ∃ cs, e.controllers = .ok cs ∧ ∃ c ∈ cs, c.hooks.Binds name hook := by
  obtain ⟨entry, hentry, registry, hregistry, hb⟩ := h
  obtain ⟨mine, -, hhooks, hmine⟩ := exists_controllers hd hentry
  rw [hhooks] at hregistry
  obtain ⟨c, hc, rfl⟩ := List.mem_map.1 hregistry
  obtain ⟨e, he, cs, hcs, hc⟩ := hmine c hc
  exact ⟨e, he, cs, hcs, c, hc, hb⟩

end Built

end Dispatcher

end Standby
