import Mathlib.Data.List.Permutation
import Standby.Proofs.Engine.Layout
import Standby.Proofs.Version.Registrations
/-!
# The window of versions

A dispatcher supports the versions from the first one of its settings to the latest one that any action or hook of its
resources mentions (`build_window`). Controllers that apply to no resource have no part in it. What a resource has for
versions that are not all before the window is there at one of the versions in it: the first of the window, or the first
that it is bound for.
-/

namespace Standby

variable {α σ κ : Type}

/-! ## Bounds in a registry -/

namespace Registry

/-- A registry that has been made by registrations, some of which may have been refused. -/
def IsMade (r : Registry α) : Prop := ∃ calls, r = (attempts calls).1

/-- A version is a bound of the range of something that is bound. -/
def Mentions (r : Registry α) (v : Version) : Prop :=
  ∃ e ∈ r.entries, ∃ b ∈ e.2, b.range.min = some v ∨ b.range.max = some v

variable {r : Registry α} {name : String} {v min : Version} {b : Binding α}

theorem mem_mentioned_iff : v ∈ r.mentioned ↔ r.Mentions v := by
  simp [mentioned, Mentions]

/-- The latest of some versions is the one that no other comes after. -/
theorem latest?_eq_some_iff {vs : List Version} : latest? vs = some v ↔ v ∈ vs ∧ ∀ u ∈ vs, u.le v = true := by
  cases vs with
  | nil => simp [latest?]
  | cons w ws =>
    have hmem : ws.foldl Version.max w ∈ w :: ws := List.mem_cons.2 (Version.foldl_max_mem ws w)
    have hle : ∀ u ∈ w :: ws, u.le (ws.foldl Version.max w) = true :=
      List.forall_mem_cons.2 ⟨Version.le_foldl_max ws w, fun u hu => Version.le_foldl_max_of_mem hu w⟩
    rw [latest?, Option.some.injEq]
    constructor
    · rintro rfl
      exact ⟨hmem, hle⟩
    · rintro ⟨hv, hlatest⟩
      exact Version.le_antisymm (hlatest _ hmem) (hle v hv)

theorem exists_latest? {vs : List Version} (h : v ∈ vs) : ∃ u, latest? vs = some u ∧ v.le u = true := by
  cases vs with
  | nil => cases h
  | cons w ws => exact ⟨_, rfl, (latest?_eq_some_iff.1 rfl).2 v h⟩

/-- The latest version that a registry mentions is the one that no other comes after. -/
theorem latestMentioned?_eq_some_iff :
    r.latestMentioned? = some v ↔ r.Mentions v ∧ ∀ u, r.Mentions u → u.le v = true := by
  simp only [← mem_mentioned_iff]
  exact latest?_eq_some_iff

theorem Mentions.exists_latest (h : r.Mentions v) : ∃ u, r.latestMentioned? = some u ∧ v.le u = true :=
  exists_latest? (mem_mentioned_iff.2 h)

theorem mentions_of_mem_bindings (hb : b ∈ r.bindings name) (hv : b.range.min = some v) : r.Mentions v := by
  unfold bindings at hb
  cases hl : lookup? name r.entries with
  | none => simp [hl] at hb
  | some bs =>
    rw [hl, Option.getD_some] at hb
    exact ⟨_, mem_of_lookup?_eq_some hl, b, hb, .inl hv⟩

/-- In a registry that has been made, a name stands for what is bound at a version, and nothing else is bound there. -/
theorem IsMade.selects (hr : r.IsMade) (hb : b ∈ r.bindings name) (hv : b.range.contains v = true) :
    r.resolve name v = some b.target ∧ ∀ b' ∈ r.bindings name, b'.range.contains v = true → b' = b := by
  obtain ⟨calls, rfl⟩ := hr
  have hkeeps := keeps_attempts calls
  have honly : ∀ b' ∈ (attempts calls).1.bindings name, b'.range.contains v = true → b' = b := by
    intro b' hb' hv'
    by_contra hne
    have : Std.Symm fun a b : Binding α => a.range.Apart b.range := ⟨fun _ _ h => h.symm⟩
    exact (hkeeps.pairwise_bindings name).forall hb' hb hne v ⟨hv', hv⟩
  refine ⟨?_, honly⟩
  cases hf : ((attempts calls).1.bindings name).find? (·.range.contains v) with
  | none => exact absurd hv (List.find?_eq_none.1 hf b hb)
  | some b' =>
    have hv' := List.find?_some (p := fun b : Binding α => b.range.contains v) hf
    rw [resolve, hf, honly b' (List.mem_of_find?_eq_some hf) hv', Option.map_some]

/-- A range that does not end before a version contains it or begins later: in either case it contains a version from
there on, which is that version or a bound of the range. -/
theorem exists_contains {range : VersionRange} (hv : range.contains v = true) (hmin : min.le v = true) :
    ∃ u, range.contains u = true ∧ min.le u = true ∧ (u = min ∨ range.min = some u) := by
  obtain ⟨hlower, hupper⟩ := VersionRange.contains_iff.1 hv
  have hminv := Version.le_iff_rank.1 hmin
  by_cases hbegun : range.lower.rank ≤ min.rank
  · exact ⟨min, VersionRange.contains_iff.2 ⟨hbegun, by omega⟩, Version.le_refl min, .inl rfl⟩
  · refine ⟨range.lower, VersionRange.contains_iff.2 ⟨Nat.le_refl _, by omega⟩, Version.le_iff_rank.2 (by omega), .inr ?_⟩
    cases hlo : range.min with
    | none =>
      -- A range without a lower bound begins with the least pair of numbers.
      have hleast : range.lower.rank = 0 := by rw [VersionRange.lower, hlo]; rfl
      omega
    | some lo => rw [VersionRange.lower, hlo, Option.getD_some]

end Registry

/-- An action or a hook of a resource mentions a version. -/
def Entry.Mentions (e : Entry σ κ) (v : Version) : Prop :=
  e.resource.actions.Mentions v ∨ (∃ r ∈ e.actions, r.Mentions v) ∨ ∃ r ∈ e.hooks, r.Mentions v

theorem Entry.mem_latestOfEach {e : Entry σ κ} {v : Version} :
    v ∈ e.latestOfEach ↔ e.resource.actions.latestMentioned? = some v ∨
      (∃ r ∈ e.actions, r.latestMentioned? = some v) ∨ ∃ r ∈ e.hooks, r.latestMentioned? = some v := by
  simp [latestOfEach]

theorem Entry.mentions_of_latest {e : Entry σ κ} {v : Version} (h : e.latestMentioned? = some v) : e.Mentions v := by
  rcases Entry.mem_latestOfEach.1 (Registry.latest?_eq_some_iff.1 h).1 with h | ⟨r, hr, h⟩ | ⟨r, hr, h⟩
  · exact .inl (Registry.latestMentioned?_eq_some_iff.1 h).1
  · exact .inr (.inl ⟨r, hr, (Registry.latestMentioned?_eq_some_iff.1 h).1⟩)
  · exact .inr (.inr ⟨r, hr, (Registry.latestMentioned?_eq_some_iff.1 h).1⟩)

/-- What a resource mentions is not after the latest version that one of its registries mentions, and so not after the
latest of all. -/
theorem Entry.Mentions.exists_latest {e : Entry σ κ} {v : Version} (h : e.Mentions v) :
    ∃ u, e.latestMentioned? = some u ∧ v.le u = true := by
  obtain ⟨u, hu, hvu⟩ : ∃ u ∈ e.latestOfEach, v.le u = true := by
    rcases h with h | ⟨r, hr, h⟩ | ⟨r, hr, h⟩
    all_goals obtain ⟨u, hu, hvu⟩ := h.exists_latest
    · exact ⟨u, Entry.mem_latestOfEach.2 (.inl hu), hvu⟩
    · exact ⟨u, Entry.mem_latestOfEach.2 (.inr (.inl ⟨r, hr, hu⟩)), hvu⟩
    · exact ⟨u, Entry.mem_latestOfEach.2 (.inr (.inr ⟨r, hr, hu⟩)), hvu⟩
  obtain ⟨w, hw, huw⟩ := Registry.exists_latest? hu
  exact ⟨w, hw, Version.le_trans hvu huw⟩

/-! ## The versions that count -/

namespace ExtensionSet

/-- A controller of the extensions applies to a resource of them, its own or one that inherits from it. -/
def Applies (s : ExtensionSet σ κ) (c : Controller σ κ) : Prop :=
  c ∈ s.controllers ∧ ∃ r ∈ s.resources, Inherit.Leads s.pointers r.collection c.resource

/-- The versions that count for the end of the window. -/
inductive Counts (settings : DispatchSettings) (s : ExtensionSet σ κ) : Version → Prop
  | first : Counts settings s settings.minVersion
  | default : Counts settings s settings.defaultVersion
  | own {r : Resource σ κ} {v : Version} (hr : r ∈ s.resources) (hv : r.actions.Mentions v) : Counts settings s v
  | action {c : Controller σ κ} {v : Version} (hc : s.Applies c) (hv : c.actions.Mentions v) : Counts settings s v
  | hook {c : Controller σ κ} {v : Version} (hc : s.Applies c) (hv : c.hooks.Mentions v) : Counts settings s v

/-- The latest of the versions that count. -/
structure IsLatest (settings : DispatchSettings) (s : ExtensionSet σ κ) (v : Version) : Prop where
  counts : s.Counts settings v
  le : ∀ u, s.Counts settings u → u.le v = true

variable {settings : DispatchSettings} {s s' : ExtensionSet σ κ} {v v' : Version}

theorem IsLatest.unique (h : s.IsLatest settings v) (h' : s.IsLatest settings v') : v = v' :=
  Version.le_antisymm (h'.le v h.counts) (h.le v' h'.counts)

/-- What counts are the resources and the controllers that apply to them. -/
theorem Counts.congr (hresources : s'.resources = s.resources) (happlies : ∀ c, s'.Applies c → s.Applies c)
    (h : s'.Counts settings v) : s.Counts settings v := by
  cases h with
  | first => exact .first
  | default => exact .default
  | own hr hv => exact .own (hresources ▸ hr) hv
  | action hc hv => exact .action (happlies _ hc) hv
  | hook hc hv => exact .hook (happlies _ hc) hv

theorem mem_chainOf_iff (h : (s.resources.map (·.collection)).Nodup) {r : Resource σ κ} (hr : r ∈ s.resources)
    {name : String} : name ∈ Dispatcher.chainOf s.resources r ↔ Inherit.Leads s.pointers r.collection name := by
  obtain ⟨rest, hchain, hcomplete⟩ := Dispatcher.complete_chainOf h hr
  rw [hchain]
  exact hcomplete.mem_iff

/-- The versions that count are those of the settings and those that a resource mentions. -/
theorem counts_iff (h : (s.resources.map (·.collection)).Nodup) :
    s.Counts settings v ↔ v = settings.minVersion ∨ v = settings.defaultVersion ∨
      ∃ r ∈ s.resources, (Dispatcher.entryOf s.resources s.controllers r).Mentions v := by
  simp only [Entry.Mentions, Dispatcher.entryOf, List.mem_map, exists_exists_and_eq_and, List.mem_flatMap,
    List.mem_filter, beq_iff_eq]
  constructor
  · intro hv
    cases hv with
    | first => exact .inl rfl
    | default => exact .inr (.inl rfl)
    | own hr hv => exact .inr (.inr ⟨_, hr, .inl hv⟩)
    | action hc hv =>
      obtain ⟨hc, r, hr, hleads⟩ := hc
      exact .inr (.inr ⟨r, hr, .inr (.inl ⟨_, ⟨_, (mem_chainOf_iff h hr).2 hleads, hc, rfl⟩, hv⟩)⟩)
    | hook hc hv =>
      obtain ⟨hc, r, hr, hleads⟩ := hc
      exact .inr (.inr ⟨r, hr, .inr (.inr ⟨_, ⟨_, (mem_chainOf_iff h hr).2 hleads, hc, rfl⟩, hv⟩)⟩)
  · rintro (rfl | rfl | ⟨r, hr, hv | ⟨c, ⟨_, hchain, hc, rfl⟩, hv⟩ | ⟨c, ⟨_, hchain, hc, rfl⟩, hv⟩⟩)
    · exact .first
    · exact .default
    · exact .own hr hv
    · exact .action ⟨hc, r, hr, (mem_chainOf_iff h hr).1 hchain⟩ hv
    · exact .hook ⟨hc, r, hr, (mem_chainOf_iff h hr).1 hchain⟩ hv

theorem isLatest_latest (h : (s.resources.map (·.collection)).Nodup) :
    s.IsLatest settings (Dispatcher.latest settings s.resources s.controllers) where
  counts := by
    rw [counts_iff h]
    rw [Dispatcher.latest_eq]
    rcases Version.foldl_max_mem
      (s.resources.filterMap fun r => (Dispatcher.entryOf s.resources s.controllers r).latestMentioned?)
      (settings.defaultVersion.max settings.minVersion) with hstart | hmem
    · rw [hstart]
      unfold Version.max
      split
      · exact .inl rfl
      · exact .inr (.inl rfl)
    · obtain ⟨r, hr, hlatest⟩ := List.mem_filterMap.1 hmem
      exact .inr (.inr ⟨r, hr, Entry.mentions_of_latest hlatest⟩)
  le u hu := by
    rcases (counts_iff h).1 hu with rfl | rfl | ⟨r, hr, hv⟩
    · exact Version.le_trans (Version.le_max_right _ _) (Version.le_foldl_max _ _)
    · exact Dispatcher.default_le_latest settings _ _
    · obtain ⟨w, hw, huw⟩ := hv.exists_latest
      rw [Dispatcher.latest_eq]
      exact Version.le_trans huw (Version.le_foldl_max_of_mem (List.mem_filterMap.2 ⟨r, hr, hw⟩) _)

end ExtensionSet

/-! ## The window -/

namespace Dispatcher

variable {settings : DispatchSettings} {extensions : ExtensionSet σ κ} {d : Dispatcher σ κ}

/-- The window of a dispatcher is the one of its settings, up to the latest version that counts. -/
theorem window_eq_of_build (h : build settings extensions = .ok d) :
    d.window.min = settings.minVersion ∧ d.window.default = settings.defaultVersion ∧
      settings.minVersion.le settings.defaultVersion = true ∧ extensions.IsLatest settings d.window.max := by
  obtain ⟨hbuildable, rfl⟩ := build_eq_ok_iff.1 h
  exact ⟨rfl, rfl, hbuildable.order, ExtensionSet.isLatest_latest hbuildable.together.once⟩

/-- **The window.** A dispatcher that has been built supports the versions from the first one of its settings to the
latest one that counts, the default one among them. Other extensions with the same resources and the same controllers
that apply to them have the same window. And what a resource has under a name for versions not all of which are before
the window is what the name stands for at one of the versions in it, which a request can name. -/
theorem build_window (hd : build settings extensions = .ok d)
    (hmade : ∀ r ∈ extensions.resources, r.actions.IsMade) :
    (d.window.min.le d.window.default = true ∧ d.window.default.le d.window.max = true) ∧
    (d.window.min = settings.minVersion ∧ d.window.default = settings.defaultVersion ∧
      extensions.IsLatest settings d.window.max) ∧
    (∀ extensions' d', build settings extensions' = .ok d' → extensions'.resources = extensions.resources →
      (∀ c, extensions'.Applies c ↔ extensions.Applies c) → d'.window = d.window) ∧
    ∀ r ∈ extensions.resources, ∀ name, ∀ b ∈ r.actions.bindings name,
      (∃ v, b.range.contains v = true ∧ d.window.min.le v = true) →
      ∃ v, d.window.Supports v ∧ d.window.resolve (some (.version v)) = .ok v ∧
        r.actions.resolve name v = some b.target ∧
        ∀ b' ∈ r.actions.bindings name, b'.range.contains v = true → b' = b := by
  obtain ⟨hmin, hdefault, horder, hlatest⟩ := window_eq_of_build hd
  have hstart : d.window.min.le d.window.max = true := hmin ▸ hlatest.le _ .first
  refine ⟨⟨?_, ?_⟩, ⟨hmin, hdefault, hlatest⟩, ?_, ?_⟩
  · rw [hmin, hdefault]
    exact horder
  · rw [hdefault]
    exact hlatest.le _ .default
  · intro extensions' d' hd' hresources happlies
    obtain ⟨hmin', hdefault', -, hlatest'⟩ := window_eq_of_build hd'
    have hmoved : extensions.IsLatest settings d'.window.max :=
      ⟨hlatest'.counts.congr hresources fun c => (happlies c).1,
        fun u hu => hlatest'.le u (hu.congr hresources.symm fun c => (happlies c).2)⟩
    calc d'.window
      _ = ⟨d'.window.min, d'.window.max, d'.window.default⟩ := rfl
      _ = ⟨d.window.min, d.window.max, d.window.default⟩ := by
        rw [hmin, hmin', hdefault, hdefault', hmoved.unique hlatest]
  · intro r hr name b hb ⟨v, hv, hminv⟩
    obtain ⟨u, hu, hminu, hbound⟩ := Registry.exists_contains hv hminv
    have hmaxu : u.le d.window.max = true := by
      rcases hbound with rfl | hbound
      · exact hstart
      · exact hlatest.le u (.own hr (Registry.mentions_of_mem_bindings hb hbound))
    obtain ⟨hresolve, honly⟩ := (hmade r hr).selects hb hu
    refine ⟨u, ⟨hminu, hmaxu⟩, ?_, hresolve, honly⟩
    simp [Window.resolve, Version.isWithin, hminu, hmaxu]

/-- The pages of an almanac, shown in one way up to version 1.2 and in another way later. They take over from leaves, for
which there is a controller but no resource, and another controller is for covers, from which nothing takes over. -/
def almanac : ExtensionSet Unit Unit :=
  let action : Action Unit Unit := { handler := fun _ => pure .empty }
  let pages := Registry.attempts [⟨"show", ⟨none, some ⟨1, 2⟩⟩, action⟩, ⟨"show", .since ⟨1, 3⟩, action⟩]
  ⟨[{ name := "Almanac"
      shortName := "almanac"
      updated := ""
      resources := .ok [{ collection := "pages", member := "page", inherits := some "leaves", actions := pages.1 }]
      controllers := .ok
        [{ resource := "leaves", actions := ⟨[("turn", [⟨.between ⟨1, 2⟩ ⟨1, 4⟩, action⟩])]⟩ },
          { resource := "covers", actions := ⟨[("open", [⟨.since ⟨9, 0⟩, action⟩])]⟩ }] }]⟩

def almanacSettings : DispatchSettings := ⟨"version", "almanac", ⟨1, 1⟩, ⟨1, 2⟩, "application/json", ["en"], none⟩

theorem buildable_almanac : Buildable almanacSettings almanac where
  together := ⟨by simp [almanac], by simp [almanac], by decide⟩
  parents := by decide
  order := by decide
  name := by decide

/-- The almanac ends with version 1.4, which the leaves mention, and each way to show a page is one at some version. -/
theorem build_window_almanac :
    build almanacSettings almanac = .ok (ofExtensions almanacSettings almanac) ∧
    (∀ r ∈ almanac.resources, r.actions.IsMade) ∧
    almanac.IsLatest almanacSettings ⟨1, 4⟩ ∧
    ∀ r ∈ almanac.resources, ∀ b ∈ r.actions.bindings "show",
      (∃ v, b.range.contains v = true ∧ (⟨1, 1⟩ : Version).le v = true) →
        ∃ v, (ofExtensions almanacSettings almanac).window.resolve (some (.version v)) = .ok v ∧
          r.actions.resolve "show" v = some b.target := by
  have hd := build_eq_ok_iff.2 ⟨buildable_almanac, rfl⟩
  have hmade : ∀ r ∈ almanac.resources, r.actions.IsMade := by
    intro r hr
    rw [List.mem_singleton.1 hr]
    exact ⟨_, rfl⟩
  obtain ⟨-, ⟨-, -, hlatest⟩, -, hselects⟩ := build_window hd hmade
  have hmax : latest almanacSettings almanac.resources almanac.controllers = ⟨1, 4⟩ := by cbv
  refine ⟨hd, hmade, hmax ▸ hlatest, fun r hr b hb hlate => ?_⟩
  obtain ⟨v, -, hresolve, hselect, -⟩ := hselects r hr "show" b hb hlate
  exact ⟨v, hresolve, hselect⟩

end Dispatcher

end Standby
