import Standby.Proofs.Engine.Selection
import Standby.Proofs.Service.Pages
import Standby.Proofs.Store.Runs
/-!
# At which versions actions are bound

What writes is bound at every version, except that segments are created and changed by one action up to version 1.1 and
by another from version 1.2 on, whose schema has the attribute `enabled`. The actions that are added to segments and the
hooks are there from version 1.2 on only.
-/

namespace Standby.Service

variable {service : Service} {d : Dispatcher World Segment} {name : String} {v : Version}
  {a : Action World Segment}

/-! ## Ranges -/

theorem contains_since {lo : Version} : (VersionRange.since lo).contains v = lo.le v := by
  simp [VersionRange.contains, VersionRange.since, Version.isWithin]

/-- A range that ends right before a version has the versions before that one. -/
theorem contains_between {lo hi next : Version} (hnext : next.rank = hi.rank + 1) :
    (VersionRange.between lo hi).contains v = (lo.le v && !next.le v) := by
  have hlast : v.le hi = !next.le v := by
    cases h : next.le v with
    | true =>
      have hle := Version.le_iff_rank.1 h
      exact Bool.eq_false_iff.2 fun hv => by have := Version.le_iff_rank.1 hv; omega
    | false =>
      have hlt : ¬next.rank ≤ v.rank := fun hle => Bool.false_ne_true (h.symm.trans (Version.le_iff_rank.2 hle))
      exact Version.le_iff_rank.2 (by omega)
  simp [VersionRange.contains, VersionRange.between, Version.isWithin, hlast]

/-- No version lies between 1.0 and 1.1, and none between 1.1 and 1.2. -/
theorem rank_v1 : v1_1.rank = v1_0.rank + 1 ∧ v1_2.rank = v1_1.rank + 1 := by decide

/-- What some actions register stands for a name at a version exactly if it is registered for both. -/
theorem resolve_actions_iff {l : List (String × VersionRange × Action World Segment)}
    {registry : Registry (Action World Segment)} (h : actions l = .ok registry) :
    registry.resolve name v = some a ↔ ∃ range, (name, range, a) ∈ l ∧ range.contains v = true := by
  refine ⟨fun hr => ?_, fun ⟨range, hm, hv⟩ => resolve_of_actions h hm hv⟩
  have hkeeps := Registry.Keeps.of_foldlM h Registry.keeps_empty
  obtain ⟨c, hc, hcovers, rfl⟩ := hkeeps.resolve_eq_some_iff.1 hr
  obtain ⟨⟨n, range, a⟩, hm, rfl⟩ := List.mem_map.1 hc
  simp only [Registration.covers, Bool.and_eq_true, beq_iff_eq] at hcovers
  exact ⟨range, hcovers.1 ▸ hm, hcovers.2⟩

/-! ## Actions that write -/

/-- The actions that write to the rows of a table, by their names, as they are bound at a version. -/
inductive Writes (service : Service) (v : Version) : Table → String → Action World Segment → Prop
  | createSegment (h : v1_0.le v = true) :
    Writes service v .segments "create"
      { handler := service.createSegment, schema := some (Schemas.createSegment (v1_2.le v)), status := 201 }
  | updateSegment (h : v1_0.le v = true) :
    Writes service v .segments "update"
      { handler := service.updateSegment, schema := some (Schemas.updateSegment (v1_2.le v)) }
  | deleteSegment : Writes service v .segments "delete" { handler := service.deleteSegment, status := 204 }
  | createHost :
    Writes service v .hosts "create"
      { handler := service.createHost, schema := some Schemas.createHost, status := 201 }
  | updateHost : Writes service v .hosts "update" { handler := service.updateHost, schema := some Schemas.updateHost }
  | deleteHost : Writes service v .hosts "delete" { handler := service.deleteHost, status := 204 }
  | createNotification :
    Writes service v .notifications "create"
      { handler := service.createNotification, schema := some Schemas.createNotification, status := 202 }

section Resources
variable {rs : List (Resource World Segment)} {r : Resource World Segment} (hindex : name ≠ "index")
  (hshow : name ≠ "show")
include hindex hshow

theorem writes_segments (hrs : service.segmentsExtension.resources = .ok rs) (hr : r ∈ rs) :
    r.actions.resolve name v = some a ↔ service.Writes v .segments name a := by
  obtain ⟨registry, hreg, rfl⟩ := eq_of_single hrs hr
  rw [resolve_actions_iff hreg]
  constructor
  · rintro ⟨range, hm, hv⟩
    simp only [List.mem_cons, Prod.mk.injEq, hindex, hshow, false_and, false_or, List.not_mem_nil, or_false] at hm
    rcases hm with ⟨rfl, rfl, rfl⟩ | ⟨rfl, rfl, rfl⟩ | ⟨rfl, rfl, rfl⟩ | ⟨rfl, rfl, rfl⟩ | ⟨rfl, rfl, rfl⟩
    · simp only [contains_between rank_v1.2, Bool.and_eq_true, Bool.not_eq_true'] at hv
      exact hv.2 ▸ .createSegment hv.1
    · rw [contains_since] at hv
      exact hv ▸ .createSegment (Version.le_trans (by decide) hv)
    · simp only [contains_between rank_v1.2, Bool.and_eq_true, Bool.not_eq_true'] at hv
      exact hv.2 ▸ .updateSegment hv.1
    · rw [contains_since] at hv
      exact hv ▸ .updateSegment (Version.le_trans (by decide) hv)
    · exact .deleteSegment
  · intro h
    cases h with
    | createSegment h =>
      cases hv : v1_2.le v with
      | true => exact ⟨.since v1_2, by simp, by rw [contains_since, hv]⟩
      | false => exact ⟨.between v1_0 v1_1, by simp, by rw [contains_between rank_v1.2, h, hv]; rfl⟩
    | updateSegment h =>
      cases hv : v1_2.le v with
      | true => exact ⟨.since v1_2, by simp, by rw [contains_since, hv]⟩
      | false => exact ⟨.between v1_0 v1_1, by simp, by rw [contains_between rank_v1.2, h, hv]; rfl⟩
    | deleteSegment => exact ⟨.all, by simp, rfl⟩

theorem writes_hosts (hrs : service.hostsExtension.resources = .ok rs) (hr : r ∈ rs) :
    r.actions.resolve name v = some a ↔ service.Writes v .hosts name a := by
  obtain ⟨registry, hreg, rfl⟩ := eq_of_single hrs hr
  rw [resolve_actions_iff hreg]
  constructor
  · rintro ⟨range, hm, hv⟩
    simp only [List.mem_cons, Prod.mk.injEq, hindex, hshow, false_and, false_or, List.not_mem_nil, or_false] at hm
    rcases hm with ⟨rfl, -, rfl⟩ | ⟨rfl, -, rfl⟩ | ⟨rfl, -, rfl⟩
    · exact .createHost
    · exact .updateHost
    · exact .deleteHost
  · intro h
    cases h with
    | createHost => exact ⟨.all, by simp, rfl⟩
    | updateHost => exact ⟨.all, by simp, rfl⟩
    | deleteHost => exact ⟨.all, by simp, rfl⟩

theorem writes_notifications (hrs : service.notificationsExtension.resources = .ok rs) (hr : r ∈ rs) :
    r.actions.resolve name v = some a ↔ service.Writes v .notifications name a := by
  obtain ⟨registry, hreg, rfl⟩ := eq_of_single hrs hr
  rw [resolve_actions_iff hreg]
  constructor
  · rintro ⟨range, hm, hv⟩
    simp only [List.mem_cons, Prod.mk.injEq, hindex, hshow, false_and, false_or, List.not_mem_nil, or_false] at hm
    obtain ⟨rfl, -, rfl⟩ := hm
    exact .createNotification
  · intro h
    cases h with
    | createNotification => exact ⟨.all, by simp, rfl⟩

end Resources

/-- What a name that neither indexes nor shows stands for at a version, in the resource of a table. -/
theorem resolve_iff_writes (hd : service.dispatcher = .ok d) {t : Table} {e : Entry World Segment}
    (he : lookup? t.collection d.entries = some e) (hindex : name ≠ "index") (hshow : name ≠ "show") :
    e.resource.actions.resolve name v = some a ↔ service.Writes v t name a := by
  obtain ⟨rs, hrs, hr⟩ := Extension.mem_resourceList.1 (mem_bringing hd he)
  cases t with
  | segments => exact writes_segments hindex hshow hrs hr
  | hosts => exact writes_hosts hindex hshow hrs hr
  | notifications => exact writes_notifications hindex hshow hrs hr

/-! ## What controllers add -/

/-- The hook of the service is there from version 1.2 on, and not around the actions that its controller adds. -/
theorem resolve_hooks_iff {cs : List (Controller World Segment)}
    (hcs : service.segmentActionsExtension.controllers = .ok cs) {c : Controller World Segment} (hc : c ∈ cs)
    {hook : Hook World Segment} :
    c.hooks.resolve name v = some hook ↔
      (v1_2.le v = true ∧ name ∈ ["index", "show", "create", "update"]) ∧ hook = enabledHook := by
  obtain ⟨registry, -, h⟩ := bind_eq_ok.1 hcs
  obtain ⟨hooks, hregistered, h⟩ := bind_eq_ok.1 h
  cases h
  obtain rfl := List.mem_singleton.1 hc
  have hkeeps := Registry.Keeps.of_foldlM
    (l := ["index", "show", "create", "update"].map fun name => (name, .since v1_2, enabledHook))
    (List.foldlM_map.trans hregistered) Registry.keeps_empty
  rw [hkeeps.resolve_eq_some_iff]
  simp only [List.nil_append, List.map_map]
  constructor
  · rintro ⟨registration, hmem, hcovers, rfl⟩
    obtain ⟨n, hn, rfl⟩ := List.mem_map.1 hmem
    simp only [Registration.covers, Function.comp_apply, contains_since, Bool.and_eq_true, beq_iff_eq] at hcovers
    exact ⟨⟨hcovers.2, hcovers.1 ▸ hn⟩, rfl⟩
  · rintro ⟨⟨hv, hname⟩, rfl⟩
    refine ⟨_, List.mem_map_of_mem hname, ?_, rfl⟩
    simp [Registration.covers, contains_since, hv]

section Added
variable (hd : service.dispatcher = .ok d) {collection : String} {e : Entry World Segment}
  (he : lookup? collection d.entries = some e)
include hd he

/-- What controllers add to a resource is what the one controller of the service adds. -/
theorem exists_registrations :
    ∃ mine : List (Controller World Segment), e.actions = mine.map (·.actions) ∧ e.hooks = mine.map (·.hooks) ∧
      ∀ c ∈ mine, ∃ cs, service.segmentActionsExtension.controllers = .ok cs ∧ c ∈ cs := by
  obtain ⟨settings, extensions, hbuild, hall⟩ := dispatcher_eq_ok hd
  obtain ⟨mine, hactions, hhooks, hmine⟩ := Dispatcher.exists_controllers hbuild he
  refine ⟨mine, hactions, hhooks, fun c hc => ?_⟩
  obtain ⟨x, hx, cs, hcs, hc⟩ := hmine c hc
  obtain rfl := eq_segmentActions (hall x hx) hcs hc
  exact ⟨cs, hcs, hc⟩

/-- The actions that controllers add are there from version 1.2 on. -/
theorem resolve_iff_added {r : Registry (Action World Segment)} (hr : r ∈ e.actions) :
    r.resolve name v = some a ↔ v1_2.le v = true ∧ service.Added name a := by
  obtain ⟨mine, hactions, -, hmine⟩ := exists_registrations hd he
  rw [hactions] at hr
  obtain ⟨c, hc, rfl⟩ := List.mem_map.1 hr
  obtain ⟨cs, hcs, hc⟩ := hmine c hc
  obtain ⟨registry, hreg, h⟩ := bind_eq_ok.1 hcs
  obtain ⟨hooks, -, h⟩ := bind_eq_ok.1 h
  cases h
  obtain rfl := List.mem_singleton.1 hc
  rw [resolve_actions_iff hreg]
  constructor
  · rintro ⟨range, hm, hv⟩
    simp only [List.mem_cons, Prod.mk.injEq, List.not_mem_nil, or_false] at hm
    rcases hm with ⟨rfl, rfl, rfl⟩ | ⟨rfl, rfl, rfl⟩
    · exact ⟨contains_since ▸ hv, .enable⟩
    · exact ⟨contains_since ▸ hv, .disable⟩
  · rintro ⟨hv, hadded⟩
    cases hadded with
    | enable => exact ⟨.since v1_2, by simp, by rw [contains_since, hv]⟩
    | disable => exact ⟨.since v1_2, by simp, by rw [contains_since, hv]⟩

/-- The hooks are there from version 1.2 on, and not around the actions that controllers add. -/
theorem of_mem_hooksOf {ctx : Context} {hook : Hook World Segment} (h : hook ∈ Dispatcher.hooksOf e ctx) :
    v1_2.le ctx.effectiveVersion = true ∧ ctx.action ∈ ["index", "show", "create", "update"] := by
  obtain ⟨mine, -, hhooks, hmine⟩ := exists_registrations hd he
  obtain ⟨r, hr, hbound⟩ := List.mem_filterMap.1 h
  rw [hhooks] at hr
  obtain ⟨c, hc, rfl⟩ := List.mem_map.1 hr
  obtain ⟨cs, hcs, hc⟩ := hmine c hc
  exact ((resolve_hooks_iff hcs hc).1 hbound).1

/-- Before version 1.2 there are no hooks. -/
theorem hooksOf_eq_nil {ctx : Context} (hv : v1_2.le ctx.effectiveVersion = false) :
    Dispatcher.hooksOf e ctx = [] :=
  List.eq_nil_iff_forall_not_mem.2 fun _ hm => Bool.false_ne_true (hv.symm.trans (of_mem_hooksOf hd he hm).1)

/-- Nor are there hooks around what controllers add. -/
theorem hooksOf_of_added {ctx : Context} (h : service.Added ctx.action a) : Dispatcher.hooksOf e ctx = [] := by
  refine List.eq_nil_iff_forall_not_mem.2 fun _ hm => ?_
  have hname := (of_mem_hooksOf hd he hm).2
  generalize ctx.action = name at h hname
  cases h <;> exact absurd hname (by decide)

end Added

/-! ## Requests that write -/

section Requests
variable {req : Request}

/-- Where a request for an action of a resource of its own leads. -/
theorem resolve_iff_of_admitted (hd : service.dispatcher = .ok d) (a : d.Admitted req) {t : Table}
    (hcollection : a.route.resource = t.collection) (htarget : a.route.target ≠ .action) (hindex : name ≠ "index")
    (hshow : name ≠ "show") {action : Action World Segment} :
    a.handlers.resolve name v = some action ↔ service.Writes v t name action := by
  rcases Dispatcher.handlersOf_eq_ok a.handlersOf_eq with ⟨ht, -⟩ | ⟨-, hown, -⟩
  · exact absurd ht htarget
  · rw [hown]
    exact resolve_iff_writes hd (hcollection ▸ a.lookup?_entry) hindex hshow

/-- With all extensions there is a resource for every table. -/
theorem exists_entry (hdisabled : service.config.disabledExtensions = []) (hd : service.dispatcher = .ok d) (t : Table) :
    ∃ e, lookup? t.collection d.entries = some e := by
  cases he : lookup? t.collection d.entries with
  | none =>
    have hkeys := lookup?_eq_none_iff.1 he
    rw [(router_of_dispatcher hdisabled hd).2.1] at hkeys
    cases t <;> exact absurd hkeys (by decide)
  | some e => exact ⟨e, rfl⟩

/-- A request passes the gates if it asks for an action that its resource binds at its version. -/
theorem exists_admitted_of_resolve (hd : service.dispatcher = .ok d) {route : Route}
    (hroute : d.router.route? req.path = some route) {t : Table} (hcollection : route.resource = t.collection)
    {e : Entry World Segment} (he : lookup? t.collection d.entries = some e) (htarget : route.target ≠ .action)
    (hversion : VersionHeader.resolve d.versionHeader d.service d.window (req.headers.values d.versionHeader) = .ok v)
    (htype : ∃ type, d.offers.requestType (req.headers.text? "content-type") = .ok type) {body : Option Json}
    (hbody : Dispatcher.decodeBody req = .ok body)
    (haction : Dispatcher.actionName req.method route.target body = .ok name)
    (hproject : Dispatcher.checkProject route.project (Dispatcher.callerOf req) = .ok ())
    (hbound : e.resource.actions.resolve name v = some a) :
    ∃ adm : d.Admitted req, adm.route = route ∧ adm.version = some v ∧
      adm.ctx = d.contextAt route (some v) req name body ∧
      adm.handlers.resolve adm.ctx.action adm.ctx.effectiveVersion = some a := by
  have hlocated : d.locate req = .ok (route, e) := by
    simp only [Dispatcher.locate, hroute, hcollection, he]
  have hversioned : d.versionOf e req = .ok (some v) := by
    rw [Dispatcher.versionOf, if_pos (presents_of_dispatcher hd he).versioned, hversion]
    rfl
  have hhandlers : Dispatcher.handlersOf e route.target name = .ok e.resource.actions := by
    rw [Dispatcher.handlersOf, if_neg htarget, if_pos (Registry.contains_of_resolve hbound)]
  have hadmitted : d.contextOf route e (some v) req =
      .ok (d.contextAt route (some v) req name body, e.resource.actions) :=
    Dispatcher.contextOf_eq_ok_iff.2 ⟨htype, body, name, hbody, haction, hhandlers, hproject, rfl⟩
  exact ⟨⟨route, e, some v, _, _, hlocated, hversioned, hadmitted⟩, rfl, rfl, rfl, hbound⟩

/-- In particular if it asks for an action that writes, and says nothing about its media type and a project. -/
theorem exists_admitted (hd : service.dispatcher = .ok d) {route : Route}
    (hroute : d.router.route? req.path = some route) {t : Table} (hcollection : route.resource = t.collection)
    {e : Entry World Segment} (he : lookup? t.collection d.entries = some e) (htarget : route.target ≠ .action)
    (hversion : VersionHeader.resolve d.versionHeader d.service d.window (req.headers.values d.versionHeader) = .ok v)
    (htype : req.headers.text? "content-type" = none) {body : Option Json} (hbody : Dispatcher.decodeBody req = .ok body)
    (haction : Dispatcher.actionName req.method route.target body = .ok name) (hindex : name ≠ "index")
    (hshow : name ≠ "show") (hproject : route.project = none) (hwrites : service.Writes v t name a) :
    ∃ adm : d.Admitted req, adm.route = route ∧ adm.version = some v ∧
      adm.ctx = d.contextAt route (some v) req name body ∧
      adm.handlers.resolve adm.ctx.action adm.ctx.effectiveVersion = some a := by
  refine exists_admitted_of_resolve hd hroute hcollection he htarget hversion ⟨none, ?_⟩ hbody haction ?_
    ((resolve_iff_writes hd he hindex hshow).2 hwrites)
  · rw [htype]
    rfl
  · rw [hproject]
    rfl

end Requests

/-! ## A request that creates something -/

/-- An administrator asks for something to be created. -/
def creating (path name : String) (members : List (String × Json)) : Request :=
  ⟨"POST", path, none, [("x-roles", "admin")], Text.Utf8.encode (Json.obj [(name, .obj members)]).text⟩

section Creating
variable {d : Dispatcher World Segment} (hd : byDefault.dispatcher = .ok d)
include hd

theorem exists_admitted_creating (path name : String) (members : List (String × Json)) {t : Table}
    {params : List (String × String)}
    (hroute : d.router.route? path = some ⟨t.collection, .collection, params, none, path, none⟩)
    (hplain : Json.isPlain Json.maxDepth (.obj [(name, .obj members)]) = true) {action : Action World Segment}
    (hwrites : byDefault.Writes v1_0 t "create" action) :
    ∃ a : d.Admitted (creating path name members),
      a.route = ⟨t.collection, .collection, params, none, path, none⟩ ∧ a.ctx.caller.isAdmin = true ∧
      a.ctx.body = some (.obj [(name, .obj members)]) ∧ a.ctx.params = params ∧
      a.handlers.resolve a.ctx.action a.ctx.effectiveVersion = some action := by
  obtain ⟨-, -, hheader⟩ := router_of_dispatcher rfl hd
  have hfirst : Version.parse byDefault.config.minVersion = .ok v1_0 := rfl
  obtain ⟨-, -, hdefault⟩ := window_of_dispatcher rfl hd hfirst hfirst
  obtain ⟨e, he⟩ := exists_entry rfl hd t
  have hversion : VersionHeader.resolve d.versionHeader d.service d.window
      ((creating path name members).headers.values d.versionHeader) = .ok v1_0 := by
    have hvalues : Headers.values [("x-roles", "admin")] d.versionHeader = [] := by
      rw [hheader]
      decide
    rw [creating, hvalues, ← hdefault]
    rfl
  have hrequested : d.router.route? (creating path name members).path =
      some ⟨t.collection, .collection, params, none, path, none⟩ := hroute
  have htype : Headers.text? [("x-roles", "admin")] "content-type" = none := by decide
  have hlength : Headers.text? [("x-roles", "admin")] "content-length" ≠ some "0" := by decide
  have hadmin : (Caller.ofParts none none (some "admin")).isAdmin = true := by decide +kernel
  have hbody : Dispatcher.decodeBody (creating path name members) = .ok (some (.obj [(name, .obj members)])) :=
    Dispatcher.decodeBody_text hplain (.inl rfl) hlength (by rw [creating])
  obtain ⟨a, hroute', -, hctx, hbound⟩ := exists_admitted hd hrequested rfl he (by simp) hversion htype hbody rfl
    (by decide) (by decide) rfl hwrites
  exact ⟨a, hroute', by rw [hctx]; exact hadmin, by rw [hctx]; rfl, by rw [hctx]; rfl, hbound⟩

end Creating

/-- A segment to create. -/
def rackMembers : List (String × Json) :=
  [("name", .str "rack"), ("recovery_method", .str "auto"), ("service_type", .str "COMPUTE")]

/-- A store with a segment. -/
def racked : Store := (Store.run [.createSegment "1" .first ⟨"rack", none, .auto, "COMPUTE", none⟩]).store

end Standby.Service
