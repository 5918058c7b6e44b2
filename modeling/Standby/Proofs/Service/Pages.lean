import Standby.Proofs.Engine.Gates
import Standby.Proofs.Service.Failures
import Standby.Proofs.Service.Listings
import Standby.Proofs.Service.Startup
import Standby.Proofs.Version.Registrations
/-!
# Pages as they are served

A request for a listing that gets past the gates and is not refused is answered with the page that its query asks for.
The hook of the service changes how the hosts on a page are shown, but not which they are.
-/

namespace Standby

namespace Service

variable {service : Service} {d : Dispatcher World Segment} {req : Request} {s : Store} {ctx : Context} {t : Table}
  {version : Version}

/-! ## Failures -/

/-- The handler of a listing asks for no parameter but that of the segment. -/
theorem answers_index (t : Table) : Answers (Cause ctx [segmentParam] fun _ => True) (service.index t ctx) := by
  cases t with
  | segments => exact answers_indexSegments
  | hosts => exact answers_indexHosts List.mem_cons_self
  | notifications => exact answers_indexNotifications

/-! ## Decorations -/

theorem decorateHost_isShown {h : Host} {j : Json} (hj : IsShown version .hosts h j) (cache : Cache Segment) :
    IsShown version .hosts h (decorateHost cache j) := by
  obtain ⟨segment, rfl⟩ := hj
  have hid : (Host.toJson h (some segment)).get? "failover_segment_id" = some (.str h.segment) := rfl
  have hown : (Host.toJson h (some segment)).get? "failover_segment" = some segment := rfl
  simp only [decorateHost, hid, hown, Option.bind_some, Json.str?]
  split
  · rename_i members row kept embedded hmembers hembedded
    cases hmembers
    exact ⟨_, rfl⟩
  · exact ⟨segment, rfl⟩

/-- A page stays a page of the same rows when it is decorated. -/
theorem decorateBody?_isPage {rows : List t.Row} {next : Option Link} {body decorated : Json} {cache : Cache Segment}
    (hbody : IsPage version t rows next body) (h : decorateBody? cache body = some decorated) :
    IsPage version t rows next decorated := by
  obtain ⟨items, hitems, rfl⟩ := hbody
  cases t with
  | segments => cases next <;> cases h
  | notifications => cases next <;> cases h
  | hosts =>
    refine ⟨items.map (decorateHost cache), ?_, ?_⟩
    · rw [List.forall₂_map_right_iff]
      exact hitems.imp fun h j hj => decorateHost_isShown hj cache
    · cases next <;> cases h <;> rfl

/-- What decorations keep of a body, the hooks of the service keep of it. They change nothing else. -/
theorem runAfter_keeps {hooks : List (Hook World Segment)} (hhooks : ∀ h ∈ hooks, h = enabledHook)
    {P : Option Json → Prop}
    (hP : ∀ {cache body decorated}, P (some body) → decorateBody? cache body = some decorated → P (some decorated))
    {body : Option Json} (hbody : P body) (i status : Nat) (headers : Headers) (w : Workspace World Segment) :
    ∃ body', P body' ∧ (Dispatcher.runAfter i hooks ⟨status, body, headers⟩ w).result = .ok ⟨status, body', headers⟩ ∧
      (Dispatcher.runAfter i hooks ⟨status, body, headers⟩ w).workspace = w := by
  induction hooks generalizing i with
  | nil => exact ⟨body, hbody, rfl, rfl⟩
  | cons h hooks ih =>
    obtain ⟨body₁, hbody₁, hresult, hworkspace⟩ := ih (fun h' hm => hhooks h' (List.mem_cons_of_mem _ hm)) (i + 1)
    obtain rfl := hhooks h List.mem_cons_self
    have hcall : (enabledHook.after w.request ⟨status, body₁, headers⟩).run.run w =
        (.ok ((body₁.bind (decorateBody? w.cache)).map fun body => ⟨status, some body, headers⟩), w) := rfl
    cases hdecorated : body₁.bind (decorateBody? w.cache) with
    | none =>
      refine ⟨body₁, hbody₁, ?_⟩
      simp only [Dispatcher.runAfter, hresult, hworkspace, hcall, hdecorated, Option.map_none, and_self]
    | some body₂ =>
      obtain ⟨j, rfl, hj⟩ := Option.bind_eq_some_iff.1 hdecorated
      refine ⟨some body₂, hP hbody₁ hj, ?_⟩
      simp only [Dispatcher.runAfter, hresult, hworkspace, hcall, hdecorated, Option.map_some, and_self]

/-- The hooks of the service leave a page a page of the same rows. -/
theorem runAfter_isPage {hooks : List (Hook World Segment)} (hhooks : ∀ h ∈ hooks, h = enabledHook)
    {rows : List t.Row} {next : Option Link} {body : Json} (hbody : IsPage version t rows next body) (i : Nat)
    (headers : Headers) (w : Workspace World Segment) :
    ∃ body', IsPage version t rows next body' ∧
      (Dispatcher.runAfter i hooks ⟨200, some body, headers⟩ w).result = .ok ⟨200, some body', headers⟩ ∧
      (Dispatcher.runAfter i hooks ⟨200, some body, headers⟩ w).workspace = w := by
  obtain ⟨_, ⟨body', rfl, hpage⟩, hrun⟩ := runAfter_keeps hhooks
    (P := fun shown => ∃ j, shown = some j ∧ IsPage version t rows next j)
    (fun ⟨_, hj, hpage⟩ hdecorated => ⟨_, rfl, decorateBody?_isPage hpage (Option.some.inj hj ▸ hdecorated)⟩)
    ⟨body, rfl, hbody⟩ i 200 headers w
  exact ⟨body', hpage, hrun⟩

/-! ## Requests for a listing -/

theorem isBuiltFrom_of_dispatcher (hd : service.dispatcher = .ok d) :
    ∃ extensions, d.IsBuiltFrom extensions ∧
      ∀ x ∈ extensions.list, x ∈ service.builtin ∨ ∃ infos, x = service.extensionsExtension infos := by
  obtain ⟨settings, extensions, hbuilt, hall⟩ := dispatcher_eq_ok hd
  refine ⟨extensions, ⟨settings, ?_⟩, hall⟩
  obtain ⟨-, rfl⟩ := Dispatcher.build_eq_ok_iff.1 hbuilt
  exact hbuilt

/-- What is registered as one of some actions is bound at the versions that it is registered for. -/
theorem resolve_of_actions {l : List (String × VersionRange × Action World Segment)}
    {registry : Registry (Action World Segment)} (h : actions l = .ok registry) {name : String} {range : VersionRange}
    {action : Action World Segment} (hm : (name, range, action) ∈ l) {v : Version} (hv : range.contains v = true) :
    registry.resolve name v = some action := by
  have hkeeps := Registry.Keeps.of_foldlM h Registry.keeps_empty
  rw [List.nil_append] at hkeeps
  refine hkeeps.resolve_eq_some_iff.2 ⟨_, List.mem_map_of_mem hm, ?_, rfl⟩
  simp [Registration.covers, hv]

/-- A resource that lists a table has versions, stands below the root, and lists the table at every version. -/
structure Presents (service : Service) (t : Table) (r : Resource World Segment) : Prop where
  versioned : r.versioned = true
  below : r.root = false
  index : ∀ v, r.actions.resolve "index" v = some { handler := service.index t }

/-- The extension that brings the resource of a table. -/
def bringing (service : Service) : Table → Extension World Segment
  | .segments => service.segmentsExtension
  | .hosts => service.hostsExtension
  | .notifications => service.notificationsExtension

/-- No other extension brings a resource with the collection of a table. -/
theorem eq_bringing {x : Extension World Segment}
    (hx : x ∈ service.builtin ∨ ∃ infos, x = service.extensionsExtension infos) {r : Resource World Segment}
    (hbrought : r ∈ x.resourceList) (hcollection : r.collection = t.collection) : x = service.bringing t := by
  obtain ⟨rs, hrs, hr⟩ := Extension.mem_resourceList.1 hbrought
  rcases hx with hx | ⟨infos, rfl⟩
  · simp only [builtin, List.mem_cons, List.not_mem_nil, or_false] at hx
    rcases hx with rfl | rfl | rfl | rfl | rfl
    · obtain ⟨registry, -, rfl⟩ := eq_of_single hrs hr
      have hversions : "versions" = t.collection := hcollection
      cases t <;> exact absurd hversions (by decide)
    · obtain ⟨registry, -, rfl⟩ := eq_of_single hrs hr
      have hsegments : "segments" = t.collection := hcollection
      cases t with
      | segments => rfl
      | _ => exact absurd hsegments (by decide)
    · obtain ⟨registry, -, rfl⟩ := eq_of_single hrs hr
      have hhosts : "hosts" = t.collection := hcollection
      cases t with
      | hosts => rfl
      | _ => exact absurd hhosts (by decide)
    · obtain ⟨registry, -, rfl⟩ := eq_of_single hrs hr
      have hnotifications : "notifications" = t.collection := hcollection
      cases t with
      | notifications => rfl
      | _ => exact absurd hnotifications (by decide)
    · cases hrs
      cases hr
  · obtain ⟨registry, -, rfl⟩ := eq_of_single hrs hr
    have hextensions : "extensions" = t.collection := hcollection
    cases t <;> exact absurd hextensions (by decide)

theorem presents_of_mem {r : Resource World Segment} (hbrought : r ∈ (service.bringing t).resourceList) :
    service.Presents t r := by
  obtain ⟨rs, hrs, hr⟩ := Extension.mem_resourceList.1 hbrought
  cases t with
  | segments =>
    obtain ⟨registry, hreg, rfl⟩ := eq_of_single hrs hr
    exact ⟨rfl, rfl, fun v => resolve_of_actions hreg List.mem_cons_self rfl⟩
  | hosts =>
    obtain ⟨registry, hreg, rfl⟩ := eq_of_single hrs hr
    exact ⟨rfl, rfl, fun v => resolve_of_actions hreg List.mem_cons_self rfl⟩
  | notifications =>
    obtain ⟨registry, hreg, rfl⟩ := eq_of_single hrs hr
    exact ⟨rfl, rfl, fun v => resolve_of_actions hreg List.mem_cons_self rfl⟩

/-- The resource of a table is brought by its extension. -/
theorem mem_bringing (hd : service.dispatcher = .ok d) {e : Entry World Segment}
    (he : lookup? t.collection d.entries = some e) : e.resource ∈ (service.bringing t).resourceList := by
  obtain ⟨extensions, hbuilt, hall⟩ := isBuiltFrom_of_dispatcher hd
  obtain ⟨hmem, hcollection, -⟩ := hbuilt.entry he
  obtain ⟨x, hx, hr⟩ := List.mem_flatMap.1 hmem
  exact eq_bringing (hall x hx) hr hcollection ▸ hr

/-- What lists a table is a resource that presents it. -/
theorem presents_of_dispatcher (hd : service.dispatcher = .ok d) {e : Entry World Segment}
    (he : lookup? t.collection d.entries = some e) : service.Presents t e.resource :=
  presents_of_mem (mem_bringing hd he)

theorem root_of_dispatcher (hd : service.dispatcher = .ok d) : d.router.root ≠ some t.collection := by
  intro hroot
  obtain ⟨extensions, hbuilt, hall⟩ := isBuiltFrom_of_dispatcher hd
  obtain ⟨r, hmem, hr, hcollection⟩ := hbuilt.root hroot
  obtain ⟨x, hx, hx'⟩ := List.mem_flatMap.1 hmem
  have hbrought := eq_bringing (hall x hx) hx' hcollection ▸ hx'
  exact absurd (hr.symm.trans (presents_of_mem hbrought).below) (by decide)

/-- For a request for a listing, the handler of the listing is called. -/
theorem resolve_index (hd : service.dispatcher = .ok d) (a : d.Admitted req)
    (hcollection : a.route.resource = t.collection) (htarget : a.route.target = .collection)
    (hindex : a.ctx.action = "index") :
    a.handlers.resolve a.ctx.action a.ctx.effectiveVersion = some { handler := service.index t } := by
  rcases Dispatcher.handlersOf_eq_ok a.handlersOf_eq with ⟨ht, -⟩ | ⟨-, hown, -⟩
  · exact absurd (htarget.symm.trans ht) (by decide)
  · rw [hown, hindex]
    exact (presents_of_dispatcher hd (hcollection ▸ a.lookup?_entry)).index _

/-- A request for a listing that is not refused, whichever page it asks for: it is admitted, and its filters and sort keys
can be read. -/
structure Lists (service : Service) (d : Dispatcher World Segment) (s : Store) (t : Table) (v : Version)
    (keep : t.Row → Bool) (sort : List (String × SortDir)) (req : Request) extends d.Admitted req where
  collection : route.resource = t.collection
  target : route.target = .collection
  served : version = some v
  index : ctx.action = "index"
  selects : service.Selects s ctx t keep
  sorts : sortKeys ctx.query t.sortable t.defaultKey = .ok sort

theorem Lists.ctx_version {keep : t.Row → Bool} {sort : List (String × SortDir)}
    (l : service.Lists d s t version keep sort req) : l.ctx.version = some version :=
  l.toAdmitted.ctx_version.trans l.served

/-- A reply shows a page. -/
def Shows (version : Version) (t : Table) (reply : Reply) (rows : List t.Row) (next : Option Link) : Prop :=
  reply.status = 200 ∧ ∃ body, IsPage version t rows next body ∧ reply.body = .buffered body.text

variable {keep : t.Row → Bool} {sort : List (String × SortDir)} {page : Page}

theorem runHandler_index {handlers : Registry (Action World Segment)} {w : World}
    (hbound : handlers.resolve ctx.action ctx.effectiveVersion = some { handler := service.index t }) :
    Dispatcher.runHandler ctx.effectiveVersion handlers (ctx.start w) =
      ⟨((service.index t ctx).run.run (ctx.start w)).1.map (Dispatcher.settle 200),
        ((service.index t ctx).run.run (ctx.start w)).2, [.handler]⟩ :=
  Dispatcher.runHandler_of_accepts (w := ctx.start w) hbound nofun rfl

/-- What a request for a listing is answered with. -/
theorem Lists.shows (hd : service.dispatcher = .ok d) (l : service.Lists d s t version keep sort req)
    (hpage : Page.ofQuery l.ctx.query service.config.maxLimit = .ok page) {rows : List t.Row}
    (hrows : Listing.slice? { sort, limit := some page.limit, marker := page.marker } ((s.rows t).filter keep) =
      some rows) {w : World} (hw : w.store = s) :
    Shows version t (d.serve req w).reply rows
      (page.next? l.ctx.baseUrl l.ctx.path l.ctx.query rows.length (rows.getLast?.map Listed.uuid)) := by
  subst hw
  have hhooks : ∀ h ∈ Dispatcher.hooksOf l.entry l.ctx, h = enabledHook := fun h hm =>
    hook_of_dispatcher hd (l.toAdmitted.hook hm)
  have hpre := Dispatcher.runBefore_start_of_decorates (fun h hm => hhooks h hm ▸ enabledHook_decorates) w
  -- The handler finds the rows of the page, and the hooks keep them.
  obtain ⟨toJson, w₁, hindex, hworld, hshown⟩ := Selects.run_index (w := l.ctx.start w) l.selects l.ctx_version
  have hrun := run_showPage toJson w₁ hpage l.sorts (by rw [hworld]; exact hrows)
  obtain ⟨body, hvalue, hbody⟩ := exists_pageBody page rows hshown
  obtain ⟨body', hpost, hresult, hworkspace⟩ := runAfter_isPage hhooks hbody 0 [] w₁
  have hmain := runHandler_index (w := w) (resolve_index hd l.toAdmitted l.collection l.target l.index)
  rw [hindex, hrun, hvalue] at hmain
  rw [l.serve_eq]
  simp only [Dispatcher.Admitted.run, Dispatcher.perform, Dispatcher.request_start, hpre, hmain, Except.map,
    Dispatcher.settle, hresult, hworkspace,
    Dispatcher.Admitted.reply, Dispatcher.serialize]
  exact ⟨by simp, body', hpost, by simp [Response.toReply]⟩

/-! ## What success says -/

theorem admitted_of_status (hd : service.dispatcher = .ok d) {w : World} (h : (d.serve req w).reply.status = 200) :
    Nonempty (d.Admitted req) := by
  obtain ⟨extensions, hbuilt, -⟩ := isBuiltFrom_of_dispatcher hd
  rcases Dispatcher.gates_cases hbuilt.supports_default req with ⟨-, ha⟩ | ⟨g, v, err, -, hobjects, hserve⟩
  · exact ha
  · rw [hserve, Dispatcher.status_fault] at h
    have hfault := hobjects.mem_faults
    rw [h] at hfault
    cases g <;> simp [Gate.faults] at hfault

/-- A listing that is answered with success is not refused anything. -/
theorem exists_lists (hd : service.dispatcher = .ok d) (hget : req.method = "GET") {route : Route}
    (hroute : d.router.route? req.path = some route) (hcollection : route.resource = t.collection)
    (htarget : route.target = .collection) {w : World} (hstatus : (d.serve req w).reply.status = 200) :
    ∃ version keep sort, ∃ l : service.Lists d w.store t version keep sort req, l.route = route := by
  obtain ⟨a⟩ := admitted_of_status hd hstatus
  cases a.route_eq hroute
  have hpresents := presents_of_dispatcher hd (hcollection ▸ a.lookup?_entry)
  obtain ⟨version, hversion⟩ : ∃ v, a.version = some v := by
    have hv := a.versioned
    rw [Dispatcher.versionOf, if_pos hpresents.versioned] at hv
    obtain ⟨v, -, hv⟩ := map_eq_ok.1 hv
    exact ⟨v, hv.symm⟩
  have hnamed := a.named
  rw [hget, htarget] at hnamed
  have hindex : a.ctx.action = "index" := (Except.ok.inj hnamed).symm
  have hpre := Dispatcher.runBefore_start_of_decorates (decorates_of_admitted hd a) w
  have hmain := runHandler_index (w := w) (resolve_index hd a hcollection htarget hindex)
  obtain ⟨result, w₁, hcall⟩ : ∃ result w₁, (service.index t a.ctx).run.run (a.ctx.start w) = (result, w₁) := ⟨_, _, rfl⟩
  rw [hcall] at hmain
  cases result with
  | error e =>
    rw [a.serve_eq] at hstatus
    simp only [Dispatcher.Admitted.run, Dispatcher.perform, Dispatcher.request_start, hpre, hmain, Except.map,
      Dispatcher.Admitted.reply,
      Dispatcher.status_fault] at hstatus
    have hcause := (answers_index t).stops (a.ctx.start w) e (by rw [hcall])
    exact absurd (hcause.status.symm.trans hstatus) (ErrorCode.status_ne_success _)
  | ok o =>
    obtain ⟨keep, hselects⟩ := selects_of_index hcall
    obtain ⟨toJson, w₂, hrun, -, -⟩ := hselects.run_index (a.ctx_version.trans hversion)
    obtain ⟨page, sort, -, hsort⟩ := paging_of_showPage (hrun ▸ hcall)
    exact ⟨version, keep, sort, { a with
      collection := hcollection, target := htarget, served := hversion, index := hindex
      selects := hselects, sorts := hsort }, rfl⟩

end Service

end Standby
