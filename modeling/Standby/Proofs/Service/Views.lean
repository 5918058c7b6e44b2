import Standby.Proofs.Service.HostEffects
import Standby.Proofs.Version.Text
/-!
# What is shown of a row

A GET request for a member is answered with its row as it is stored. A host comes with its segment, which the handler
gives without the attribute `enabled`; from version 1.2 on the hook adds the attribute, from the segment that the handler
has put into the cache.
-/

namespace Standby

namespace Service

variable {service : Service} {d : Dispatcher World Segment} {req : Request} {name : String} {v : Version} {t : Table}
  {ctx : Context} {w w' : Workspace World Segment} {g : Segment} {cache : Cache Segment}

/-! ## Hosts with their segments -/

/-- A segment as it is shown within a host. The attribute `enabled`, if it is shown, comes last. -/
def embedded (v : Version) (g : Segment) : Json :=
  .obj ((g.toJson false).members?.getD [] ++ if v1_2.le v then [("enabled", .bool g.enabled)] else [])

/-- A host as it is shown at a version. -/
def hostAt (v : Version) (g : Segment) (h : Host) : Json := h.toJson (some (embedded v g))

/-- A body after the hooks of hosts. -/
def decorated (v : Version) (cache : Cache Segment) (body : Option Json) : Option Json :=
  if v1_2.le v then (body.bind (decorateBody? cache)).or body else body

theorem exists_decorated (v : Version) (cache : Cache Segment) (body : Json) :
    ∃ shown, decorated v cache (some body) = some shown := by
  unfold decorated
  split
  · cases h : (some body).bind (decorateBody? cache) with
    | none => exact ⟨body, rfl⟩
    | some shown => exact ⟨shown, rfl⟩
  · exact ⟨body, rfl⟩

/-- With its segment in the cache a host is shown as it is to be at the version. -/
theorem shown_hostJson {h : Host} (hown : h.segment = g.uuid) (hg : cache.get? segmentCache g.uuid = some g) :
    (if v1_2.le v then decorateHost cache (hostJson g h) else hostJson g h) = hostAt v g h := by
  have hid : (hostJson g h).get? "failover_segment_id" = some (.str g.uuid) := hown ▸ rfl
  have hsegment : (hostJson g h).get? "failover_segment" = some (g.toJson false) := rfl
  unfold hostAt embedded
  split
  · simp only [decorateHost, hid, hsegment, Option.bind_some, Json.str?, hg]
    rfl
  · rw [List.append_nil]
    rfl

theorem decorated_host {row : Host} (hown : row.segment = g.uuid) (hg : cache.get? segmentCache g.uuid = some g) :
    decorated v cache (some (.obj [("host", hostJson g row)])) = some (.obj [("host", hostAt v g row)]) := by
  rw [← shown_hostJson (v := v) hown hg, decorated]
  split <;> rfl

theorem decorated_page {rows : List Host} (hown : ∀ row ∈ rows, row.segment = g.uuid)
    (hg : cache.get? segmentCache g.uuid = some g) (next : Option Link) :
    decorated v cache (some (.obj (("hosts", .arr (rows.map (hostJson g))) ::
        next.toList.map fun link => ("hosts_links", .arr [link.toJson])))) =
      some (.obj (("hosts", .arr (rows.map (hostAt v g))) ::
        next.toList.map fun link => ("hosts_links", .arr [link.toJson]))) := by
  have hrows : rows.map (hostAt v g) =
      rows.map fun row => if v1_2.le v then decorateHost cache (hostJson g row) else hostJson g row :=
    List.map_congr_left fun row hrow => (shown_hostJson (hown row hrow) hg).symm
  have hmap : (rows.map (hostJson g)).map (decorateHost cache) = rows.map fun row => decorateHost cache (hostJson g row) :=
    List.map_map
  rw [hrows, decorated]
  cases v1_2.le v with
  | false => rfl
  | true =>
    simp only [if_true]
    rw [← hmap]
    cases next <;> rfl

/-- With the segment in the cache, hosts of it in a body are shown as they are to be. -/
theorem holdsHosts_decorated {body : Option Json} {rows : List Host} (h : HoldsHosts body (rows.map (hostJson g)))
    (hown : ∀ row ∈ rows, row.segment = g.uuid) (hg : cache.get? segmentCache g.uuid = some g) :
    HoldsHosts (decorated v cache body) (rows.map (hostAt v g)) := by
  generalize hhosts : rows.map (hostJson g) = hosts at h
  cases h with
  | none =>
    rw [List.map_eq_nil_iff.1 hhosts, decorated]
    split <;> exact .none
  | one host =>
    obtain ⟨row, rfl, rfl⟩ := List.map_eq_singleton_iff.1 hhosts
    rw [decorated_host (hown row List.mem_cons_self) hg]
    exact .one _
  | page hosts next =>
    rw [← hhosts, decorated_page hown hg next]
    exact .page _ _

/-! ## Hooks -/

/-- With all extensions hosts have the one hook, from version 1.2 on. -/
theorem hooksOf_of_hosts (hdisabled : service.config.disabledExtensions = []) (hd : service.dispatcher = .ok d)
    {e : Entry World Segment} (he : lookup? "hosts" d.entries = some e)
    (haction : ctx.action ∈ ["index", "show", "create", "update"]) :
    Dispatcher.hooksOf e ctx = if v1_2.le ctx.effectiveVersion then [enabledHook] else [] := by
  cases hv : v1_2.le ctx.effectiveVersion with
  | false => exact hooksOf_eq_nil hd he hv
  | true =>
    obtain ⟨c, hc, hresource, -⟩ := exists_controller service
    obtain ⟨cs, hcs, hmem⟩ := Extension.mem_controllerList.1 (hc ▸ List.mem_singleton_self c)
    have hhook := (resolve_hooks_iff hcs hmem).2 ⟨⟨hv, haction⟩, rfl⟩
    rw [Dispatcher.hooksOf, (registrations_of_hosts hdisabled hd he hc hresource).2,
      List.filterMap_cons, hhook]
    rfl

theorem runAfter_enabledHook (status : Nat) (body : Option Json) (w : Workspace World Segment) :
    (Dispatcher.runAfter 0 [enabledHook] ⟨status, body, []⟩ w).result =
      .ok ⟨status, (body.bind (decorateBody? w.cache)).or body, []⟩ := by
  have hcall : (enabledHook.after w.request ⟨status, body, []⟩).run.run w =
      (.ok ((body.bind (decorateBody? w.cache)).map fun body => ⟨status, some body, []⟩), w) := rfl
  simp only [Dispatcher.runAfter, hcall]
  cases body.bind (decorateBody? w.cache) <;> rfl

section Calls
variable (hd : service.dispatcher = .ok d) (adm : d.Admitted req) {a : Action World Segment} {world : World} {o : Outcome}
  (bound : adm.handlers.resolve adm.ctx.action adm.ctx.effectiveVersion = some a)
  (accepts : a.Accepts (adm.ctx.start world))
  (call : (a.handler adm.ctx).run.run (adm.ctx.start world) = (.ok o, w)) (ho : o.IsPlain)
include hd bound accepts call ho

/-- What is called for hosts is decorated from the cache that it leaves. -/
theorem decorated_of_call (hdisabled : service.config.disabledExtensions = []) (hhosts : adm.route.resource = "hosts")
    (haction : adm.ctx.action ∈ ["index", "show", "create", "update"]) :
    (d.serve req world).reply.body = .ofJson? (decorated adm.ctx.effectiveVersion w.cache o.json?) := by
  refine reply_of_call hd adm bound accepts call ho ?_
  rw [hooksOf_of_hosts hdisabled hd (hhosts ▸ adm.lookup?_entry) haction, decorated]
  split
  · exact runAfter_enabledHook _ _ _
  · rfl

/-- The body of the reply is what the handler gives, if there is nothing in it to decorate. -/
theorem plain_of_call (hplain : ∀ cache, o.json?.bind (decorateBody? cache) = none) :
    (d.serve req world).reply.body = .ofJson? o.json? := by
  obtain ⟨body, rfl, hbody⟩ := keeps_of_call hd adm bound accepts call ho (P := (· = o.json?))
    (fun {cache} _ _ hsame hdecorated => by
      have hnone := hplain cache
      rw [← hsame, Option.bind_some, hdecorated] at hnone
      cases hnone) rfl
  exact hbody

end Calls

/-! ## Handlers that show a row -/

/-- What shows a row of a table at a version. -/
def view (service : Service) (v : Version) : Table → Context → ServiceStep Outcome
  | .segments => service.showSegment
  | .hosts => service.showHost
  | .notifications => service.showNotification (if v1_1.le v then some [] else none)

/-- The handler of a table that shows a row is bound at every version of the service. -/
theorem resolve_show (hd : service.dispatcher = .ok d) {e : Entry World Segment}
    (he : lookup? t.collection d.entries = some e) (hv : v1_0.le v = true) :
    e.resource.actions.resolve "show" v = some { handler := service.view v t } := by
  obtain ⟨rs, hrs, hr⟩ := Extension.mem_resourceList.1 (mem_bringing hd he)
  cases t with
  | segments =>
    obtain ⟨registry, hreg, hr⟩ := eq_of_single hrs hr
    rw [hr]
    exact (resolve_actions_iff hreg).2 ⟨.all, by simp [view], rfl⟩
  | hosts =>
    obtain ⟨registry, hreg, hr⟩ := eq_of_single hrs hr
    rw [hr]
    exact (resolve_actions_iff hreg).2 ⟨.all, by simp [view], rfl⟩
  | notifications =>
    obtain ⟨registry, hreg, hr⟩ := eq_of_single hrs hr
    rw [hr]
    refine (resolve_actions_iff hreg).2 ?_
    cases hdetails : v1_1.le v with
    | true => exact ⟨.since v1_1, by simp [view, hdetails], by rw [contains_since, hdetails]⟩
    | false =>
      exact ⟨.between v1_0 v1_0, by simp [view, hdetails], by rw [contains_between rank_v1.1, hv, hdetails]; rfl⟩

/-- There is no version before the first one. -/
theorem le_of_parse {s : String} (h : Version.parse s = .ok v) : v1_0.le v = true := by
  have hone : 1 ≤ v.major.toNat :=
    Nat.one_le_iff_ne_zero.2 fun hzero => Version.major_ne_zero_of_parse h (UInt32.toNat_inj.1 hzero)
  have hfirst : v1_0.rank = UInt32.size := rfl
  refine Version.le_iff_rank.2 (hfirst ▸ ?_)
  exact (Nat.le_mul_of_pos_right _ hone).trans (Nat.le_add_right _ _)

theorem le_of_resolve (hdisabled : service.config.disabledExtensions = []) (hd : service.dispatcher = .ok d)
    {lines : List String} (h : VersionHeader.resolve d.versionHeader d.service d.window lines = .ok v) :
    v1_0.le v = true := by
  obtain ⟨infos, settings, hsettings, hbuild⟩ := build_of_dispatcher hdisabled hd
  obtain ⟨extensions, hbuilt, -⟩ := isBuiltFrom_of_dispatcher hd
  obtain ⟨-, -, hmin, -⟩ := DispatchSettings.ofConfig_eq_ok hsettings
  have hsupports := hbuilt.supports_of_resolve h
  rw [Window.Supports, (Dispatcher.window_of_build hbuild).1] at hsupports
  exact Version.le_trans (le_of_parse hmin) hsupports.1

section Runs
variable {id : String} (hid : lookup? Router.idParam ctx.params = some id)
include hid

theorem run_showSegment
    (hallowed : service.policy.authorize ctx.caller (Policy.actionName "segments" "show") = .ok ())
    (hg : lookup? id w.world.store.segments = some g) :
    (service.showSegment ctx).run.run w = (.ok (wrap "segment" (segmentJson ctx g)), w) := by
  rw [showSegment, authorize, hallowed, memberId, param_eq_ok.2 hid]
  refine run_bind_eq_ok.2 ⟨(), w, rfl, run_bind_eq_ok.2 ⟨id, w, rfl, run_bind_eq_ok.2 ⟨w.world, w, rfl, ?_⟩⟩⟩
  exact run_bind_eq_ok.2 ⟨g, w, by rw [Store.segment, Store.find_eq_ok.2 hg]; rfl, rfl⟩

theorem run_showHost (hallowed : service.policy.authorize ctx.caller (Policy.actionName "hosts" "show") = .ok ())
    {segment : String} (hsegment : lookup? segmentParam ctx.params = some segment)
    (hg : lookup? segment w.world.store.segments = some g) {row : Host} (hrow : lookup? id w.world.store.hosts = some row)
    (hown : row.segment = g.uuid) :
    (service.showHost ctx).run.run w = (.ok (wrap "host" (hostJson g row)), loading w g) :=
  run_loaded_eq_ok.2 ⟨hallowed, segment, g, hsegment, hg, run_loadHost_bind_eq_ok.2 ⟨id, row, hid, hrow, hown, rfl⟩⟩

theorem run_showNotification
    (hallowed : service.policy.authorize ctx.caller (Policy.actionName "notifications" "show") = .ok ())
    {n : Notification} (hn : lookup? id w.world.store.notifications = some n) (details : Option (List Json)) :
    (service.showNotification details ctx).run.run w = (.ok (wrap "notification" (n.toJson details)), w) := by
  rw [showNotification, authorize, hallowed, memberId, param_eq_ok.2 hid]
  refine run_bind_eq_ok.2 ⟨(), w, rfl, run_bind_eq_ok.2 ⟨id, w, rfl, run_bind_eq_ok.2 ⟨w.world, w, rfl, ?_⟩⟩⟩
  exact run_bind_eq_ok.2 ⟨n, w, by rw [Store.notification, Store.find_eq_ok.2 hn]; rfl, rfl⟩

end Runs

/-! ## Requests that look -/

/-- A GET request for a table at a version, which its caller may send and whose path leads there. Its name is that of the
action: it asks for a listing or for one row. -/
structure Looks (service : Service) (d : Dispatcher World Segment) (t : Table) (name : String) (v : Version)
    (route : Route) (req : Request) : Prop where
  method : req.method = "GET"
  routed : d.router.route? req.path = some route
  collection : route.resource = t.collection
  asks : Dispatcher.actionName "GET" route.target none = .ok name
  resolved : VersionHeader.resolve d.versionHeader d.service d.window (req.headers.values d.versionHeader) = .ok v
  readable : ∃ type, d.offers.requestType (req.headers.text? "content-type") = .ok type
  project : Dispatcher.checkProject route.project (Dispatcher.callerOf req) = .ok ()
  allowed : service.policy.authorize (Dispatcher.callerOf req) (Policy.actionName t.collection name) = .ok ()

/-- Without rules of its own a policy lets administrators look, who need not say anything about media types and
projects. -/
theorem looks_of_isAdmin (hpolicy : service.policy = {}) {route : Route} (hmethod : req.method = "GET")
    (hroute : d.router.route? req.path = some route) (hcollection : route.resource = t.collection)
    (hasks : Dispatcher.actionName "GET" route.target none = .ok name)
    (hversion : VersionHeader.resolve d.versionHeader d.service d.window (req.headers.values d.versionHeader) = .ok v)
    (htype : req.headers.text? "content-type" = none) (hproject : route.project = none)
    (hadmin : (Dispatcher.callerOf req).isAdmin = true) : service.Looks d t name v route req where
  method := hmethod
  routed := hroute
  collection := hcollection
  asks := hasks
  resolved := hversion
  readable := ⟨none, by rw [htype]; rfl⟩
  project := by rw [hproject]; rfl
  allowed := by rw [hpolicy]; exact authorize_of_isAdmin hadmin _

/-- A reply of success that holds a JSON value. -/
def Holds (reply : Reply) (j : Json) : Prop := reply.status = 200 ∧ reply.body = .buffered j.text

section Looks
variable (hdisabled : service.config.disabledExtensions = []) (hd : service.dispatcher = .ok d) {route : Route}
  {world : World}
include hd

/-- What a handler gives that has no host in it, the reply holds. -/
theorem holds_of_call (adm : d.Admitted req) {handler : Context → ServiceStep Outcome}
    (bound : adm.handlers.resolve adm.ctx.action adm.ctx.effectiveVersion = some { handler }) {j : Json}
    (call : (handler adm.ctx).run.run (adm.ctx.start world) = (.ok (.value j), w))
    (hplain : ∀ cache, decorateBody? cache j = none) : Holds (d.serve req world).reply j := by
  have haccepts : Action.Accepts { handler } (adm.ctx.start world) := fun s hs => by cases hs
  have ho : (Outcome.value j).IsPlain := Outcome.isPlain_value j
  exact ⟨(adm.serve_of_call (decorates_of_admitted hd adm) bound haccepts call ho).1,
    plain_of_call hd adm bound haccepts call ho hplain⟩

include hdisabled

/-- What a handler gives with hosts in it, the reply holds decorated. -/
theorem holds_of_hosts (adm : d.Admitted req) {handler : Context → ServiceStep Outcome}
    (bound : adm.handlers.resolve adm.ctx.action adm.ctx.effectiveVersion = some { handler }) {j shown : Json}
    (call : (handler adm.ctx).run.run (adm.ctx.start world) = (.ok (.value j), w))
    (hhosts : adm.route.resource = "hosts") (haction : adm.ctx.action = "index" ∨ adm.ctx.action = "show")
    (hshown : decorated adm.ctx.effectiveVersion w.cache (some j) = some shown) :
    Holds (d.serve req world).reply shown := by
  have haccepts : Action.Accepts { handler } (adm.ctx.start world) := fun s hs => by cases hs
  have ho : (Outcome.value j).IsPlain := Outcome.isPlain_value j
  refine ⟨(adm.serve_of_call (decorates_of_admitted hd adm) bound haccepts call ho).1, ?_⟩
  have hnames : adm.ctx.action ∈ ["index", "show", "create", "update"] := by
    rcases haction with h | h <;> rw [h] <;> decide
  rw [decorated_of_call hd adm bound haccepts call ho hdisabled hhosts hnames]
  exact congrArg ReplyBody.ofJson? hshown

/-- A request that looks is let in. -/
theorem Looks.exists_admitted (l : service.Looks d t name v route req) {a : Action World Segment}
    (hbound : ∀ e, lookup? t.collection d.entries = some e → e.resource.actions.resolve name v = some a) :
    ∃ adm : d.Admitted req, adm.route = route ∧ adm.ctx = d.contextAt route (some v) req name none ∧
      adm.handlers.resolve adm.ctx.action adm.ctx.effectiveVersion = some a := by
  obtain ⟨e, he⟩ := exists_entry hdisabled hd t
  have htarget : route.target ≠ .action := by
    intro htarget
    have hasks := l.asks
    rw [htarget] at hasks
    cases hasks
  have hbody : Dispatcher.decodeBody req = .ok none := by
    rw [Dispatcher.decodeBody, if_pos (by rw [l.method]; decide)]
  obtain ⟨adm, hroute, -, hctx, hresolved⟩ := exists_admitted_of_resolve hd l.routed l.collection he htarget l.resolved
    l.readable hbody (l.method ▸ l.asks) l.project (hbound e he)
  exact ⟨adm, hroute, hctx, hresolved⟩

/-- A request that looks for a row calls what shows it. -/
theorem Looks.exists_view (l : service.Looks d t "show" v route req) :
    ∃ adm : d.Admitted req, adm.route = route ∧ adm.ctx = d.contextAt route (some v) req "show" none ∧
      adm.handlers.resolve adm.ctx.action adm.ctx.effectiveVersion = some { handler := service.view v t } :=
  l.exists_admitted hdisabled hd fun _ he => resolve_show hd he (le_of_resolve hdisabled hd l.resolved)

/-- A request that looks for a segment is shown it, with the attribute `enabled` from version 1.2 on. -/
theorem Looks.shows_segment (l : service.Looks d .segments "show" v route req) {id : String}
    (hid : lookup? Router.idParam route.params = some id) (hg : lookup? id world.store.segments = some g) :
    Holds (d.serve req world).reply (.obj [("segment", g.toJson (v1_2.le v))]) := by
  obtain ⟨adm, -, hctx, hbound⟩ := l.exists_view hdisabled hd
  have hallowed : service.policy.authorize adm.ctx.caller (Policy.actionName "segments" "show") = .ok () :=
    hctx ▸ l.allowed
  have hcall := run_showSegment (w := adm.ctx.start world) (hctx ▸ hid) hallowed hg
  rw [segmentJson, show adm.ctx.isAtLeast v1_2 = v1_2.le v by rw [hctx]; rfl] at hcall
  exact holds_of_call hd adm hbound hcall fun _ => rfl

/-- A request that looks for a host of a segment is shown it with that segment. -/
theorem Looks.shows_host (l : service.Looks d .hosts "show" v route req) {id segment : String}
    (hid : lookup? Router.idParam route.params = some id) (hsegment : lookup? segmentParam route.params = some segment)
    (hg : lookup? segment world.store.segments = some g) {row : Host} (hrow : lookup? id world.store.hosts = some row)
    (hown : row.segment = g.uuid) : Holds (d.serve req world).reply (.obj [("host", hostAt v g row)]) := by
  obtain ⟨adm, hroute, hctx, hbound⟩ := l.exists_view hdisabled hd
  have hallowed : service.policy.authorize adm.ctx.caller (Policy.actionName "hosts" "show") = .ok () :=
    hctx ▸ l.allowed
  have hcall := run_showHost (w := adm.ctx.start world) (hctx ▸ hid) hallowed (hctx ▸ hsegment) hg hrow hown
  refine holds_of_hosts hdisabled hd adm hbound hcall (hroute ▸ l.collection) (.inr (hctx ▸ rfl)) ?_
  rw [show adm.ctx.effectiveVersion = v by rw [hctx]; rfl]
  exact decorated_host hown (Cache.get?_insert_self _ _ _ _)

/-- A request that looks for a notification is shown it, with the details of its recovery from version 1.1 on. -/
theorem Looks.shows_notification (l : service.Looks d .notifications "show" v route req) {id : String}
    (hid : lookup? Router.idParam route.params = some id) {n : Notification}
    (hn : lookup? id world.store.notifications = some n) :
    Holds (d.serve req world).reply (.obj [("notification", n.toJson (if v1_1.le v then some [] else none))]) := by
  obtain ⟨adm, -, hctx, hbound⟩ := l.exists_view hdisabled hd
  have hallowed : service.policy.authorize adm.ctx.caller (Policy.actionName "notifications" "show") = .ok () :=
    hctx ▸ l.allowed
  have hcall := run_showNotification (w := adm.ctx.start world) (hctx ▸ hid) hallowed hn
    (if v1_1.le v then some [] else none)
  exact holds_of_call hd adm hbound hcall fun _ => rfl

end Looks

/-! ## Requests that succeed -/

section Success
variable (hd : service.dispatcher = .ok d)
include hd

/-- A request that succeeds has called a handler, and its world is what the handler leaves. -/
theorem exists_handled {route : Route} (hroute : d.router.route? req.path = some route) {world : World}
    (hsuccess : 200 ≤ (d.serve req world).reply.status ∧ (d.serve req world).reply.status < 300) :
    ∃ (h : d.Handled req) (o : Outcome) (w : Workspace World Segment), h.route = route ∧
      (h.action.handler h.ctx).run.run (h.ctx.start world) = (.ok o, w) ∧ o.IsPlain ∧
        (d.serve req world).world = w.world := by
  rcases serve_ends hd req world with ⟨version, e, he, hreply, -⟩ | ⟨h, o, w, hrun, -, hworld⟩
  · rw [hreply, Dispatcher.status_fault] at hsuccess
    exact absurd he.status_bounds.1 (by omega)
  · exact ⟨h, o, w, h.route_eq hroute, hrun, (answers_of_handled hd h).plain _ o (congrArg Prod.fst hrun), hworld⟩

/-- What is called for a table sees the version of the request. -/
theorem version_of_admitted (adm : d.Admitted req) (hcollection : adm.route.resource = t.collection)
    (hversion : VersionHeader.resolve d.versionHeader d.service d.window (req.headers.values d.versionHeader) = .ok v) :
    adm.ctx.version = some v := by
  have hversioned := adm.versioned
  rw [Dispatcher.versionOf, if_pos (presents_of_dispatcher hd (hcollection ▸ adm.lookup?_entry)).versioned,
    hversion] at hversioned
  exact adm.ctx_version.trans (Except.ok.inj hversioned).symm

/-- What is called away from the action endpoint is an action of the resource itself. -/
theorem own_of_handled (h : d.Handled req) (htarget : h.route.target ≠ .action) :
    service.Own h.route.resource h.ctx.action h.action := by
  rcases h.toAdmitted.action h.resolved with ⟨hendpoint, -⟩ | ⟨-, hown⟩
  · exact absurd hendpoint htarget
  · exact own_of_dispatcher hd hown

/-- What is called for hosts has an effect below the segment of the path. What it gives is decorated with that segment in
the cache. -/
theorem exists_effect_of_handled (hdisabled : service.config.disabledExtensions = []) (h : d.Handled req)
    (hown : service.Own "hosts" h.ctx.action h.action) (hhosts : h.route.resource = "hosts")
    (haction : h.ctx.action ∈ ["index", "show", "create", "update"]) (hversion : h.ctx.version = some v) {world : World}
    (hs : world.store.Tabled) {o : Outcome} (hrun : (h.action.handler h.ctx).run.run (h.ctx.start world) = (.ok o, w))
    (hplain : o.IsPlain) :
    ∃ g store, (lookup? segmentParam h.route.params = some g.uuid ∧ lookup? g.uuid world.store.segments = some g) ∧
      HostEffect service h.ctx g world h.ctx.action o store ∧ w.world.store = store ∧
      (d.serve req world).reply.body = .ofJson? (decorated v w.cache o.json?) ∧
      w.cache.get? segmentCache g.uuid = some g := by
  obtain ⟨segment, g, store, hsegment, hg, heffect, rfl⟩ := hown.exists_effect rfl hrun
  -- The segment is stored under its own identifier, which is that of the path.
  have huuid : g.uuid = segment := hs.segments.own _ (mem_of_lookup?_eq_some hg)
  subst huuid
  have hbody := decorated_of_call hd h.toAdmitted h.resolved h.checked hrun hplain hdisabled hhosts haction
  rw [Context.effectiveVersion, hversion] at hbody
  exact ⟨g, store, ⟨h.ctx_params ▸ hsegment, hg⟩, heffect, rfl, hbody, Cache.get?_insert_self _ _ _ _⟩

end Success

end Service

end Standby
