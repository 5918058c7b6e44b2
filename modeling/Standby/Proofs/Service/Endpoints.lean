import Standby.Proofs.Engine.Serving
import Standby.Service.Api
/-!
# The actions of the service

Whatever extensions are disabled, every action that a dispatcher of the service has is one of those listed here,
and its only hook is the one that decorates hosts.
-/

namespace Standby.Service

/-- The actions that the resources of the service have of their own, by collection and name. -/
inductive Own (service : Service) : String → String → Action World Segment → Prop
  | indexVersions : Own service "versions" "index" { handler := indexVersions }
  | showVersion : Own service "versions" "show" { handler := showVersion }
  | indexExtensions (infos) : Own service "extensions" "index" { handler := service.indexExtensions infos }
  | showExtension (infos) : Own service "extensions" "show" { handler := service.showExtension infos }
  | indexSegments : Own service "segments" "index" { handler := service.indexSegments }
  | showSegment : Own service "segments" "show" { handler := service.showSegment }
  | createSegment (withEnabled) :
    Own service "segments" "create"
      { handler := service.createSegment, schema := some (Schemas.createSegment withEnabled), status := 201 }
  | updateSegment (withEnabled) :
    Own service "segments" "update"
      { handler := service.updateSegment, schema := some (Schemas.updateSegment withEnabled) }
  | deleteSegment : Own service "segments" "delete" { handler := service.deleteSegment, status := 204 }
  | indexHosts : Own service "hosts" "index" { handler := service.indexHosts }
  | showHost : Own service "hosts" "show" { handler := service.showHost }
  | createHost :
    Own service "hosts" "create"
      { handler := service.createHost, schema := some Schemas.createHost, status := 201 }
  | updateHost : Own service "hosts" "update" { handler := service.updateHost, schema := some Schemas.updateHost }
  | deleteHost : Own service "hosts" "delete" { handler := service.deleteHost, status := 204 }
  | indexNotifications : Own service "notifications" "index" { handler := service.indexNotifications }
  | showNotification (details) :
    Own service "notifications" "show" { handler := service.showNotification details }
  | createNotification :
    Own service "notifications" "create"
      { handler := service.createNotification, schema := some Schemas.createNotification, status := 202 }

/-- The actions that a controller of the service adds, by name. -/
inductive Added (service : Service) : String → Action World Segment → Prop
  | enable :
    Added service "enable"
      { handler := service.setEnabled "enable" true, schema := some (Schemas.segmentAction "enable") }
  | disable :
    Added service "disable"
      { handler := service.setEnabled "disable" false, schema := some (Schemas.segmentAction "disable") }

/-! ## What is loaded -/

theorem mem_of_add {set set' : ExtensionSet World Segment} {added : Bool} {e x : Extension World Segment}
    (h : set.add e = .ok (added, set')) (hx : x ∈ set'.list) : x ∈ set.list ∨ x = e := by
  unfold ExtensionSet.add at h
  split at h
  · cases h
    exact .inl hx
  · split at h
    · cases h
    · cases h
      rcases List.mem_append.1 hx with hx | hx
      · exact .inl hx
      · exact .inr (List.mem_singleton.1 hx)

theorem mem_of_foldlM_add {l : List (Extension World Segment)} {set set' : ExtensionSet World Segment}
    {x : Extension World Segment} (h : l.foldlM (fun set e => (set.add e).map (·.2)) set = .ok set')
    (hx : x ∈ set'.list) : x ∈ set.list ∨ x ∈ l := by
  induction l generalizing set with
  | nil =>
    cases h
    exact .inl hx
  | cons e l ih =>
    rw [List.foldlM_cons] at h
    obtain ⟨set₁, h₁, h⟩ := bind_eq_ok.1 h
    obtain ⟨⟨added, set₂⟩, h₂, rfl⟩ := map_eq_ok.1 h₁
    rcases ih h with hx | hx
    · rcases mem_of_add h₂ hx with hx | rfl
      · exact .inl hx
      · exact .inr List.mem_cons_self
    · exact .inr (List.mem_cons_of_mem _ hx)

/-- Every extension that is loaded is one of the service. -/
theorem mem_of_load {service : Service} {set : ExtensionSet World Segment} {x : Extension World Segment}
    (h : service.load = .ok set) (hx : x ∈ set.list) :
    x ∈ service.builtin ∨ ∃ infos, x = service.extensionsExtension infos := by
  obtain ⟨loaded, hl, h⟩ := bind_eq_ok.1 h
  have hloaded : ∀ x ∈ loaded.list, x ∈ service.builtin := by
    intro x hx
    rcases mem_of_foldlM_add hl hx with hx | hx
    · cases hx
    · exact (List.mem_filter.1 hx).1
  split at h
  · cases h
    exact .inl (hloaded x hx)
  · obtain ⟨⟨added, set'⟩, ha, rfl⟩ := map_eq_ok.1 h
    rcases mem_of_add ha hx with hx | rfl
    · exact .inl (hloaded x hx)
    · exact .inr ⟨_, rfl⟩

/-- What actions register is bound, and nothing else. -/
theorem binds_of_actions {l : List (String × VersionRange × Action World Segment)}
    {r : Registry (Action World Segment)} {name : String} {a : Action World Segment}
    (h : actions l = .ok r) (hb : r.Binds name a) : ∃ range, (name, range, a) ∈ l := by
  rcases Registry.Binds.of_foldlM h hb with hb | ⟨⟨n, range, a'⟩, hm, rfl, rfl⟩
  · exact absurd hb (Registry.not_binds_empty name a)
  · exact ⟨range, hm⟩

/-! ## What the extensions bring -/

section Resources
variable {service : Service} {rs : List (Resource World Segment)} {r : Resource World Segment} {name : String}
  {a : Action World Segment}

/-- An extension with one resource brings no other. -/
theorem eq_of_single {l : List (String × VersionRange × Action World Segment)}
    {f : Registry (Action World Segment) → Resource World Segment}
    (hrs : (do let actions ← actions l; .ok [f actions]) = .ok rs) (hr : r ∈ rs) :
    ∃ registry, actions l = .ok registry ∧ r = f registry := by
  obtain ⟨registry, hreg, h⟩ := bind_eq_ok.1 hrs
  cases h
  exact ⟨registry, hreg, List.mem_singleton.1 hr⟩

/-- An extension with one resource brings the actions that it registers for it. -/
theorem of_single {l : List (String × VersionRange × Action World Segment)}
    {f : Registry (Action World Segment) → Resource World Segment}
    (hrs : (do let actions ← actions l; .ok [f actions]) = .ok rs) (hr : r ∈ rs)
    (hf : ∀ registry, (f registry).actions = registry) (hb : r.actions.Binds name a) :
    (∃ registry, r = f registry) ∧ ∃ range, (name, range, a) ∈ l := by
  obtain ⟨registry, hreg, rfl⟩ := eq_of_single hrs hr
  rw [hf] at hb
  exact ⟨⟨registry, rfl⟩, binds_of_actions hreg hb⟩

theorem own_versions (hrs : versionsExtension.resources = .ok rs) (hr : r ∈ rs) (hb : r.actions.Binds name a) :
    service.Own r.collection name a := by
  obtain ⟨⟨registry, rfl⟩, range, hm⟩ := of_single hrs hr (fun _ => rfl) hb
  simp only [List.mem_cons, Prod.mk.injEq, List.not_mem_nil, or_false] at hm
  rcases hm with ⟨rfl, -, rfl⟩ | ⟨rfl, -, rfl⟩
  · exact .indexVersions
  · exact .showVersion

theorem own_extensions {infos : List ExtensionInfo} (hrs : (service.extensionsExtension infos).resources = .ok rs)
    (hr : r ∈ rs) (hb : r.actions.Binds name a) : service.Own r.collection name a := by
  obtain ⟨⟨registry, rfl⟩, range, hm⟩ := of_single hrs hr (fun _ => rfl) hb
  simp only [List.mem_cons, Prod.mk.injEq, List.not_mem_nil, or_false] at hm
  rcases hm with ⟨rfl, -, rfl⟩ | ⟨rfl, -, rfl⟩
  · exact .indexExtensions infos
  · exact .showExtension infos

theorem own_segments (hrs : service.segmentsExtension.resources = .ok rs) (hr : r ∈ rs)
    (hb : r.actions.Binds name a) : service.Own r.collection name a := by
  obtain ⟨⟨registry, rfl⟩, range, hm⟩ := of_single hrs hr (fun _ => rfl) hb
  simp only [List.mem_cons, Prod.mk.injEq, List.not_mem_nil, or_false] at hm
  rcases hm with ⟨rfl, -, rfl⟩ | ⟨rfl, -, rfl⟩ | ⟨rfl, -, rfl⟩ | ⟨rfl, -, rfl⟩ | ⟨rfl, -, rfl⟩ | ⟨rfl, -, rfl⟩ |
    ⟨rfl, -, rfl⟩
  · exact .indexSegments
  · exact .showSegment
  · exact .createSegment false
  · exact .createSegment true
  · exact .updateSegment false
  · exact .updateSegment true
  · exact .deleteSegment

theorem own_hosts (hrs : service.hostsExtension.resources = .ok rs) (hr : r ∈ rs)
    (hb : r.actions.Binds name a) : service.Own r.collection name a := by
  obtain ⟨⟨registry, rfl⟩, range, hm⟩ := of_single hrs hr (fun _ => rfl) hb
  simp only [List.mem_cons, Prod.mk.injEq, List.not_mem_nil, or_false] at hm
  rcases hm with ⟨rfl, -, rfl⟩ | ⟨rfl, -, rfl⟩ | ⟨rfl, -, rfl⟩ | ⟨rfl, -, rfl⟩ | ⟨rfl, -, rfl⟩
  · exact .indexHosts
  · exact .showHost
  · exact .createHost
  · exact .updateHost
  · exact .deleteHost

theorem own_notifications (hrs : service.notificationsExtension.resources = .ok rs) (hr : r ∈ rs)
    (hb : r.actions.Binds name a) : service.Own r.collection name a := by
  obtain ⟨⟨registry, rfl⟩, range, hm⟩ := of_single hrs hr (fun _ => rfl) hb
  simp only [List.mem_cons, Prod.mk.injEq, List.not_mem_nil, or_false] at hm
  rcases hm with ⟨rfl, -, rfl⟩ | ⟨rfl, -, rfl⟩ | ⟨rfl, -, rfl⟩ | ⟨rfl, -, rfl⟩
  · exact .indexNotifications
  · exact .showNotification none
  · exact .showNotification (some [])
  · exact .createNotification

end Resources

section Controllers
variable {service : Service} {cs : List (Controller World Segment)} {c : Controller World Segment} {name : String}

theorem added_segmentActions (hcs : service.segmentActionsExtension.controllers = .ok cs) (hc : c ∈ cs)
    {a : Action World Segment} (hb : c.actions.Binds name a) : service.Added name a := by
  obtain ⟨registry, hreg, h⟩ := bind_eq_ok.1 hcs
  obtain ⟨hooks, -, h⟩ := bind_eq_ok.1 h
  cases h
  obtain rfl := List.mem_singleton.1 hc
  obtain ⟨range, hm⟩ := binds_of_actions hreg hb
  simp only [List.mem_cons, Prod.mk.injEq, List.not_mem_nil, or_false] at hm
  rcases hm with ⟨rfl, -, rfl⟩ | ⟨rfl, -, rfl⟩
  · exact .enable
  · exact .disable

theorem hook_segmentActions (hcs : service.segmentActionsExtension.controllers = .ok cs) (hc : c ∈ cs)
    {hook : Hook World Segment} (hb : c.hooks.Binds name hook) : hook = enabledHook := by
  obtain ⟨registry, -, h⟩ := bind_eq_ok.1 hcs
  obtain ⟨hooks, hhooks, h⟩ := bind_eq_ok.1 h
  cases h
  obtain rfl := List.mem_singleton.1 hc
  rcases Registry.Binds.of_foldlM hhooks hb with hb | ⟨n, -, -, rfl⟩
  · exact absurd hb (Registry.not_binds_empty name hook)
  · rfl

/-- Only the last of the extensions has a controller. -/
theorem eq_segmentActions {x : Extension World Segment}
    (hx : x ∈ service.builtin ∨ ∃ infos, x = service.extensionsExtension infos) (hcs : x.controllers = .ok cs)
    (hc : c ∈ cs) : x = service.segmentActionsExtension := by
  rcases hx with hx | ⟨infos, rfl⟩
  · simp only [builtin, List.mem_cons, List.not_mem_nil, or_false] at hx
    rcases hx with rfl | rfl | rfl | rfl | rfl
    · cases hcs
      cases hc
    · cases hcs
      cases hc
    · cases hcs
      cases hc
    · cases hcs
      cases hc
    · rfl
  · cases hcs
    cases hc

end Controllers

/-! ## What a dispatcher of the service has -/

section Built
variable {service : Service} {d : Dispatcher World Segment} {collection name : String}

/-- A dispatcher of the service is built from extensions of the service. -/
theorem dispatcher_eq_ok (hd : service.dispatcher = .ok d) :
    ∃ settings extensions, Dispatcher.build settings extensions = .ok d ∧
      ∀ x ∈ extensions.list, x ∈ service.builtin ∨ ∃ infos, x = service.extensionsExtension infos := by
  obtain ⟨extensions, hl, h⟩ := bind_eq_ok.1 hd
  obtain ⟨settings, -, h⟩ := bind_eq_ok.1 h
  exact ⟨settings, extensions, h, fun x hx => mem_of_load (mapError_eq_ok.1 hl) hx⟩

theorem own_of_dispatcher (hd : service.dispatcher = .ok d) {a : Action World Segment}
    (h : d.OwnAction collection name a) : service.Own collection name a := by
  obtain ⟨settings, extensions, hb, hall⟩ := dispatcher_eq_ok hd
  obtain ⟨x, hx, rs, hrs, r, hr, rfl, hbinds⟩ := h.origin hb
  rcases hall x hx with hx | ⟨infos, rfl⟩
  · simp only [builtin, List.mem_cons, List.not_mem_nil, or_false] at hx
    rcases hx with rfl | rfl | rfl | rfl | rfl
    · exact own_versions hrs hr hbinds
    · exact own_segments hrs hr hbinds
    · exact own_hosts hrs hr hbinds
    · exact own_notifications hrs hr hbinds
    · cases hrs
      cases hr
  · exact own_extensions hrs hr hbinds

theorem added_of_dispatcher (hd : service.dispatcher = .ok d) {a : Action World Segment}
    (h : d.AddedAction collection name a) : service.Added name a := by
  obtain ⟨settings, extensions, hb, hall⟩ := dispatcher_eq_ok hd
  obtain ⟨x, hx, cs, hcs, c, hc, hbinds⟩ := h.origin hb
  obtain rfl := eq_segmentActions (hall x hx) hcs hc
  exact added_segmentActions hcs hc hbinds

theorem hook_of_dispatcher (hd : service.dispatcher = .ok d) {hook : Hook World Segment}
    (h : d.AddedHook collection name hook) : hook = enabledHook := by
  obtain ⟨settings, extensions, hb, hall⟩ := dispatcher_eq_ok hd
  obtain ⟨x, hx, cs, hcs, c, hc, hbinds⟩ := h.origin hb
  obtain rfl := eq_segmentActions (hall x hx) hcs hc
  exact hook_segmentActions hcs hc hbinds

end Built

/-- The hook of the service only decorates. -/
theorem enabledHook_decorates : enabledHook.Decorates where
  before _ := rfl
  after ctx r cache details := by
    refine ⟨(r.body.bind (decorateBody? cache)).map fun body => { r with body := some body }, fun w => rfl, ?_⟩
    intro r' hr
    obtain ⟨body, -, rfl⟩ := Option.map_eq_some_iff.1 hr
    rfl

/-! ## What a request comes down to -/

section Served
variable {service : Service} {d : Dispatcher World Segment} {req : Request}

theorem decorates_of_admitted (hd : service.dispatcher = .ok d) (a : d.Admitted req) :
    ∀ h ∈ Dispatcher.hooksOf a.entry a.ctx, h.Decorates := by
  intro h hm
  rw [hook_of_dispatcher hd (a.hook hm)]
  exact enabledHook_decorates

/-- A request to the service is refused in every world alike or comes down to its handler. -/
theorem refuses_cases (hd : service.dispatcher = .ok d) (req : Request) :
    (∃ version e, d.Refuses req version e ∧
      ∀ w, (d.serve req w).reply = d.fault req version e ∧ (d.serve req w).world = w) ∨ Nonempty (d.Handled req) :=
  Dispatcher.serve_cases_of_decorates (decorates_of_admitted hd)

/-- Either way the reply to a request that is refused is the same in every world. -/
theorem serve_cases (hd : service.dispatcher = .ok d) (req : Request) :
    (∃ reply, ∀ w, (d.serve req w).reply = reply ∧ (d.serve req w).world = w) ∨ Nonempty (d.Handled req) :=
  (refuses_cases hd req).imp_left fun ⟨_, _, _, h⟩ => ⟨_, h⟩

/-- What is called is one of the actions of the service. -/
theorem action_cases (hd : service.dispatcher = .ok d) (h : d.Handled req) :
    service.Own h.route.resource h.ctx.action h.action ∨ service.Added h.ctx.action h.action := by
  rcases h.toAdmitted.action h.resolved with ⟨-, ha⟩ | ⟨-, ha⟩
  · exact .inr (added_of_dispatcher hd ha)
  · exact .inl (own_of_dispatcher hd ha)

/-- What a GET request calls is an action of the resource itself that indexes or shows. -/
theorem own_of_get (hd : service.dispatcher = .ok d) (h : d.Handled req) (hget : req.method = "GET") :
    service.Own h.route.resource h.ctx.action h.action ∧ (h.ctx.action = "index" ∨ h.ctx.action = "show") := by
  have hname : h.route.target ≠ .action ∧ (h.ctx.action = "index" ∨ h.ctx.action = "show") := by
    rcases Dispatcher.actionName_eq_ok h.named with ⟨ht, -, hn⟩ | ⟨ht, -, hn⟩ | ⟨-, hm, -⟩ | ⟨-, hm, -⟩ |
      ⟨-, hm, -⟩ | ⟨-, hm, -⟩
    · exact ⟨by rw [ht]; exact RouteTarget.noConfusion, .inl hn⟩
    · exact ⟨by rw [ht]; exact RouteTarget.noConfusion, .inr hn⟩
    all_goals
      rw [hget] at hm
      exact absurd hm (by decide)
  -- What controllers add is only reached at the action endpoint, and that takes no GET request.
  rcases h.toAdmitted.action h.resolved with ⟨ht, -⟩ | ⟨-, ha⟩
  · exact absurd ht hname.1
  · exact ⟨own_of_dispatcher hd ha, hname.2⟩

end Served

end Standby.Service
