import Standby.Proofs.Service.Views
/-!
# Reading back what was written

What a request that creates or changes a row is answered with is what requests that look see from then on: the one for the
row itself, and, as long as all rows fit on a page, the listing.
-/

namespace Standby

/-- What a row of a table is called in a body. -/
def Table.member : Table → String
  | segments => "segment"
  | hosts => "host"
  | notifications => "notification"

/-- The rows of a table that its collection has at a path. The hosts at a path are those of the segment that it names. -/
def Store.collected (s : Store) (params : List (String × String)) : (t : Table) → List t.Row
  | .segments => s.rows .segments
  | .hosts => (s.rows .hosts).filter fun h : Host => lookup? Service.segmentParam params = some h.segment
  | .notifications => s.rows .notifications

/-- A query asks for a table without filters, from the first row on. It may say how the rows are sorted. -/
structure Query.Unfiltered (t : Table) (q : Query) : Prop where
  only : ∀ key, key ≠ "sort_key" → key ≠ "sort_dir" → q.first? key = none
  sorts : ∃ sort, sortKeys q t.sortable t.defaultKey = .ok sort

theorem unfiltered_nil (t : Table) : Query.Unfiltered t [] := ⟨fun _ _ _ => rfl, _, rfl⟩

namespace Service

variable {service : Service} {d : Dispatcher World Segment} {req : Request} {name : String} {v : Version} {t : Table}
  {ctx : Context} {w w' : Workspace World Segment} {g : Segment} {o : Outcome}

/-! ## Listings without filters -/

section Unfiltered
variable (hq : Query.Unfiltered t ctx.query)
include hq

theorem filter_of_unfiltered {α : Type} {key : String} {read : String → Option α} (hkey : key ≠ "sort_key")
    (hdir : key ≠ "sort_dir") : filter ctx key read = .ok none := by
  rw [filter, hq.only key hkey hdir]

/-- All rows that pass are on the first page if there is room for them. -/
theorem run_showPage_of_unfiltered {keep : t.Row → Bool} (toJson : t.Row → Json)
    (hcount : ((w.world.store.rows t).filter keep).length ≤ service.config.maxLimit) :
    ∃ (rows : List t.Row) (next : Option Link), (service.showPage ctx t keep toJson).run.run w =
        (.ok (.value (.obj ((t.collection, .arr (rows.map toJson)) ::
          next.toList.map fun link => (t.collection ++ "_links", .arr [link.toJson])))), w) ∧
      ∀ row, row ∈ rows ↔ row ∈ w.world.store.rows t ∧ keep row = true := by
  obtain ⟨sort, hsort⟩ := hq.sorts
  have hpage : Page.ofQuery ctx.query service.config.maxLimit = .ok ⟨service.config.maxLimit, none⟩ := by
    rw [Page.ofQuery, hq.only "limit" (by decide) (by decide), hq.only "marker" (by decide) (by decide)]
    rfl
  refine ⟨_, _, run_showPage toJson w hpage hsort (Listing.slice?_of_length_le hcount), fun row => ?_⟩
  rw [Listing.mem_sorted, List.mem_filter]

end Unfiltered

theorem run_indexSegments (hq : Query.Unfiltered .segments ctx.query)
    (hallowed : service.policy.authorize ctx.caller (Policy.actionName "segments" "index") = .ok ())
    (hcount : (w.world.store.rows .segments).length ≤ service.config.maxLimit) :
    ∃ (rows : List Segment) (next : Option Link), (service.indexSegments ctx).run.run w =
        (.ok (.value (.obj (("segments", .arr (rows.map (segmentJson ctx))) ::
          next.toList.map fun link => ("segments_links", .arr [link.toJson])))), w) ∧
      ∀ row ∈ w.world.store.rows .segments, row ∈ rows := by
  have hfilter : segmentFilter ctx = .ok {} := by
    refine segmentFilter_eq_ok.2 ⟨filter_of_unfiltered hq (by decide) (by decide),
      filter_of_unfiltered hq (by decide) (by decide), ?_⟩
    split
    · exact filter_of_unfiltered hq (by decide) (by decide)
    · rfl
  have hfits : ((w.world.store.rows .segments).filter (SegmentFilter.keeps {})).length ≤ service.config.maxLimit :=
    (List.length_filter_le _ _).trans hcount
  obtain ⟨rows, next, hrun, hmem⟩ := run_showPage_of_unfiltered hq (segmentJson ctx) hfits
  refine ⟨rows, next, ?_, fun row hrow => (hmem row).2 ⟨hrow, rfl⟩⟩
  exact run_orFail_bind_eq_ok.2 ⟨(), hallowed, run_orFail_bind_eq_ok.2 ⟨_, hfilter, hrun⟩⟩

theorem run_indexHosts (hq : Query.Unfiltered .hosts ctx.query)
    (hallowed : service.policy.authorize ctx.caller (Policy.actionName "hosts" "index") = .ok ()) {segment : String}
    (hsegment : lookup? segmentParam ctx.params = some segment) (hg : lookup? segment w.world.store.segments = some g)
    (huuid : g.uuid = segment)
    (hcount : (w.world.store.collected ctx.params .hosts).length ≤ service.config.maxLimit) :
    ∃ (rows : List Host) (next : Option Link), (service.indexHosts ctx).run.run w =
        (.ok (.value (.obj (("hosts", .arr (rows.map (hostJson g))) ::
          next.toList.map fun link => ("hosts_links", .arr [link.toJson])))), loading w g) ∧
      ∀ row, row ∈ rows ↔ row ∈ w.world.store.rows .hosts ∧ row.segment = segment := by
  have hfilter : hostFilter ctx g = .ok { segment := some segment } :=
    hostFilter_eq_ok.2 ⟨⟨huuid ▸ rfl, rfl⟩, filter_of_unfiltered hq (by decide) (by decide),
      filter_of_unfiltered hq (by decide) (by decide), filter_of_unfiltered hq (by decide) (by decide),
      filter_of_unfiltered hq (by decide) (by decide)⟩
  -- Without filters of the query the handler keeps what the collection at the path has.
  have hkeeps : HostFilter.keeps { segment := some segment } =
      fun row : Host => decide (lookup? segmentParam ctx.params = some row.segment) := by
    funext row
    simp [HostFilter.keeps, hsegment, BEq.beq]
  have hfits : (((loading w g).world.store.rows .hosts).filter
      (HostFilter.keeps { segment := some segment })).length ≤ service.config.maxLimit := hkeeps ▸ hcount
  obtain ⟨rows, next, hrun, hmem⟩ := run_showPage_of_unfiltered hq (hostJson g) hfits
  refine ⟨rows, next, ?_, fun row => (hmem row).trans (and_congr_right fun _ => ?_)⟩
  · exact run_loaded_eq_ok.2 ⟨hallowed, segment, g, hsegment, hg, run_orFail_bind_eq_ok.2 ⟨_, hfilter, hrun⟩⟩
  · rw [hkeeps, decide_eq_true_iff, hsegment, Option.some.injEq, eq_comm]

/-! ## What is seen of a row -/

/-- A request that looks for a row, below the same segment if the table is that of hosts, is answered with it in a form. -/
def ShownAs (service : Service) (d : Dispatcher World Segment) (t : Table) (v : Version)
    (params : List (String × String)) (s : Store) (uuid : String) (j : Json) : Prop :=
  ∀ look route, service.Looks d t "show" v route look →
    lookup? segmentParam route.params = lookup? segmentParam params → lookup? Router.idParam route.params = some uuid →
      ∀ w : World, w.store = s → Holds (d.serve look w).reply (.obj [(t.member, j)])

/-- A request that looks for a listing without filters is answered with one that has a row in a form, if there are not
more rows than the service shows at once. -/
def ListedAs (service : Service) (d : Dispatcher World Segment) (t : Table) (v : Version)
    (params : List (String × String)) (s : Store) (j : Json) : Prop :=
  ∀ look route, service.Looks d t "index" v route look →
    lookup? segmentParam route.params = lookup? segmentParam params → Query.Unfiltered t look.pairs →
      (s.collected route.params t).length ≤ service.config.maxLimit → ∀ w : World, w.store = s →
        ∃ items links, Holds (d.serve look w).reply (.obj ((t.collection, .arr items) :: links)) ∧ j ∈ items

section Looks
variable (hdisabled : service.config.disabledExtensions = []) (hd : service.dispatcher = .ok d)
  {params : List (String × String)} {s : Store}
include hdisabled hd

theorem Looks.exists_index {route : Route} (l : service.Looks d t "index" v route req) :
    ∃ adm : d.Admitted req, adm.route = route ∧ adm.ctx = d.contextAt route (some v) req "index" none ∧
      adm.handlers.resolve adm.ctx.action adm.ctx.effectiveVersion = some { handler := service.index t } :=
  l.exists_admitted hdisabled hd fun _ he => (presents_of_dispatcher hd he).index v

theorem shownAs_segment (hg : lookup? g.uuid s.segments = some g) :
    service.ShownAs d .segments v params s g.uuid (g.toJson (v1_2.le v)) := by
  rintro look route l - hid w rfl
  exact l.shows_segment hdisabled hd hid hg

theorem listedAs_segment (hg : lookup? g.uuid s.segments = some g) :
    service.ListedAs d .segments v params s (g.toJson (v1_2.le v)) := by
  rintro look route l - hq hcount w rfl
  obtain ⟨adm, -, hctx, hbound⟩ := l.exists_index hdisabled hd
  have hunfiltered : Query.Unfiltered .segments adm.ctx.query := by rw [hctx]; exact hq
  have hallowed : service.policy.authorize adm.ctx.caller (Policy.actionName "segments" "index") = .ok () :=
    hctx ▸ l.allowed
  have hjson : segmentJson adm.ctx = fun g => g.toJson (v1_2.le v) := by rw [hctx]; rfl
  obtain ⟨rows, next, hcall, hall⟩ := run_indexSegments (w := adm.ctx.start w) hunfiltered hallowed hcount
  refine ⟨_, _, holds_of_call hd adm hbound hcall fun _ => ?_, ?_⟩
  · cases next <;> rfl
  · rw [hjson]
    exact List.mem_map_of_mem (hall g (List.mem_map.2 ⟨_, mem_of_lookup?_eq_some hg, rfl⟩))

section Hosts
variable {row : Host} (hg : lookup? g.uuid s.segments = some g) (hrow : lookup? row.uuid s.hosts = some row)
  (hown : row.segment = g.uuid) (hparams : lookup? segmentParam params = some g.uuid)
include hg hrow hown hparams

theorem shownAs_host : service.ShownAs d .hosts v params s row.uuid (hostAt v g row) := by
  rintro look route l hsegment hid w rfl
  exact l.shows_host hdisabled hd hid (hsegment.trans hparams) hg hrow hown

theorem listedAs_host : service.ListedAs d .hosts v params s (hostAt v g row) := by
  rintro look route l hsegment hq hcount w rfl
  obtain ⟨adm, hroute, hctx, hbound⟩ := l.exists_index hdisabled hd
  have hunfiltered : Query.Unfiltered .hosts adm.ctx.query := by rw [hctx]; exact hq
  have hallowed : service.policy.authorize adm.ctx.caller (Policy.actionName "hosts" "index") = .ok () :=
    hctx ▸ l.allowed
  have hsame : adm.ctx.params = route.params := by rw [hctx]; rfl
  obtain ⟨rows, next, hcall, hall⟩ := run_indexHosts (w := adm.ctx.start w) hunfiltered hallowed
    (hsame ▸ hsegment.trans hparams) hg rfl (hsame ▸ hcount)
  -- The handler lists the rows with their segment as it is before version 1.2, and the hook finds that in the cache.
  have hshown := decorated_page (v := v) (fun row hrow => ((hall row).1 hrow).2)
    (Cache.get?_insert_self (adm.ctx.start w).cache segmentCache g.uuid g) next
  have haction : adm.ctx.action = "index" := by rw [hctx]; rfl
  have hseen (cache body) : decorated adm.ctx.effectiveVersion cache body = decorated v cache body := by rw [hctx]; rfl
  refine ⟨rows.map (hostAt v g), _, holds_of_hosts hdisabled hd adm hbound hcall (hroute ▸ l.collection) (.inl haction)
    ((hseen _ _).trans hshown), ?_⟩
  exact List.mem_map_of_mem ((hall row).2 ⟨List.mem_map.2 ⟨_, mem_of_lookup?_eq_some hrow, rfl⟩, hown⟩)

end Hosts

theorem shownAs_notification {n : Notification} (hn : lookup? n.uuid s.notifications = some n) :
    service.ShownAs d .notifications v params s n.uuid (n.toJson (if v1_1.le v then some [] else none)) := by
  rintro look route l - hid w rfl
  exact l.shows_notification hdisabled hd hid hn

end Looks

/-! ## Actions that write a row -/

/-- A segment that is created or changed is shown as it is stored afterwards. -/
theorem Own.exists_segment {collection name : String} {a : Action World Segment} (h : service.Own collection name a)
    (hsegments : collection = "segments") (hname : name = "create" ∨ name = "update") (hs : w.world.store.Tabled)
    (hrun : (a.handler ctx).run.run w = (.ok o, w')) :
    ∃ row : Segment, o = wrap "segment" (segmentJson ctx row) ∧
      lookup? row.uuid w'.world.store.segments = some row ∧
      (name = "update" → lookup? Router.idParam ctx.params = some row.uuid) := by
  cases h with
  | createSegment =>
    obtain ⟨⟨⟩, -, h⟩ := run_orFail_bind_eq_ok.1 hrun
    obtain ⟨draft, -, h⟩ := run_readBody_bind_eq_ok.1 h
    obtain ⟨row, store, hstore, rfl, rfl⟩ := (run_commit_eq_ok fun _ => Store.atomic_createSegment _ _ _).1 h
    obtain ⟨-, rfl, rfl⟩ := Store.createSegment_eq_ok.1 hstore
    exact ⟨_, rfl, by simp [lookup?_insertKey, Store.newSegment], fun hne => absurd hne (by decide)⟩
  | updateSegment =>
    obtain ⟨⟨⟩, -, h⟩ := run_orFail_bind_eq_ok.1 hrun
    obtain ⟨patch, -, h⟩ := run_readBody_bind_eq_ok.1 h
    obtain ⟨id, row, store, hid, hstore, rfl, rfl⟩ := run_patchSegment_eq_ok.1 h
    obtain ⟨old, names, hold, -, rfl, rfl⟩ := Store.updateSegment_eq_ok.1 hstore
    have huuid : old.uuid = id := hs.segments.own _ (mem_of_lookup?_eq_some hold)
    exact ⟨_, rfl, by simp [lookup?_insertKey, SegmentPatch.apply, huuid], fun _ => huuid ▸ hid⟩
  | indexSegments | showSegment | deleteSegment => exact absurd hname (by decide)
  | _ => exact absurd hsegments (by decide)

/-- A notification is never changed by a request, and one that is created is shown as it is stored afterwards. -/
theorem Own.exists_notification {collection name : String} {a : Action World Segment} (h : service.Own collection name a)
    (hnotifications : collection = "notifications") (hname : name = "create" ∨ name = "update")
    (hrun : (a.handler ctx).run.run w = (.ok o, w')) :
    ∃ row : Notification, o = wrap "notification" (row.toJson none) ∧
      lookup? row.uuid w'.world.store.notifications = some row := by
  cases h with
  | createNotification =>
    -- Only a report that is accepted succeeds, and whether the queue takes it does not matter to the store.
    obtain ⟨verdict, -, hconclude⟩ := exists_verdict service ctx w.world.store
    rw [hconclude w rfl] at hrun
    cases verdict with
    | error e => cases hrun
    | ok accepted =>
      cases hrun
      exact ⟨_, rfl, (lookup?_insertKey _ _ _ _).trans (if_pos rfl)⟩
  | indexNotifications | showNotification => exact absurd hname (by decide)
  | _ => exact absurd hnotifications (by decide)

/-- A request to create a row of a table at a version, or to change one, which succeeds. -/
structure Commits (d : Dispatcher World Segment) (t : Table) (v : Version) (route : Route) (req : Request) (w : World) :
    Prop where
  routed : d.router.route? req.path = some route
  collection : route.resource = t.collection
  asks : route.target = .collection ∧ req.method = "POST" ∨ route.target = .member ∧ req.method = "PUT"
  resolved : VersionHeader.resolve d.versionHeader d.service d.window (req.headers.values d.versionHeader) = .ok v
  succeeds : 200 ≤ (d.serve req w).reply.status ∧ (d.serve req w).reply.status < 300

section Commits
variable (hd : service.dispatcher = .ok d) {route : Route} {w : World}
include hd

/-- Such a request has called the action of its table that creates or the one that changes. -/
theorem Commits.exists_handled (c : Commits d t v route req w) :
    ∃ (h : d.Handled req) (o : Outcome) (w' : Workspace World Segment), h.route = route ∧
      service.Own t.collection h.ctx.action h.action ∧ (h.ctx.action = "create" ∨ h.ctx.action = "update") ∧
      (route.target = .member → h.ctx.action = "update") ∧ h.ctx.version = some v ∧ h.ctx.params = route.params ∧
      (h.action.handler h.ctx).run.run (h.ctx.start w) = (.ok o, w') ∧ o.IsPlain ∧
      (d.serve req w).world = w'.world := by
  obtain ⟨h, o, w', rfl, hrun, hplain, hworld⟩ := Service.exists_handled hd c.routed c.succeeds
  have hnamed := h.named
  have htarget : h.route.target ≠ .action := by
    rcases c.asks with ⟨ht, -⟩ | ⟨ht, -⟩ <;> rw [ht] <;> decide
  have hown : service.Own t.collection h.ctx.action h.action := c.collection ▸ own_of_handled hd h htarget
  have hversion : h.ctx.version = some v := version_of_admitted hd h.toAdmitted c.collection c.resolved
  refine ⟨h, o, w', rfl, hown, ?_, ?_, hversion, h.ctx_params, hrun, hplain, hworld⟩
  · rcases c.asks with ⟨ht, hm⟩ | ⟨ht, hm⟩ <;> rw [ht, hm] at hnamed
    · exact .inl (Except.ok.inj hnamed).symm
    · exact .inr (Except.ok.inj hnamed).symm
  · intro hmember
    rcases c.asks with ⟨ht, -⟩ | ⟨-, hm⟩
    · cases ht.symm.trans hmember
    · rw [hmember, hm] at hnamed
      exact (Except.ok.inj hnamed).symm

/-- A segment is answered with as it is stored then. -/
theorem Commits.segment (c : Commits d .segments v route req w) (hs : w.store.Tabled) :
    ∃ row : Segment, (d.serve req w).reply.body = .buffered (Json.obj [("segment", row.toJson (v1_2.le v))]).text ∧
      lookup? row.uuid (d.serve req w).world.store.segments = some row ∧
      (route.target = .member → lookup? Router.idParam route.params = some row.uuid) := by
  obtain ⟨h, o, w', -, hown, hname, hmember, hversion, hparams, hrun, hplain, hworld⟩ := c.exists_handled hd
  obtain ⟨row, rfl, hrow, hid⟩ := hown.exists_segment rfl hname hs hrun
  have hjson : segmentJson h.ctx row = row.toJson (v1_2.le v) := by
    rw [segmentJson, Context.isAtLeast, hversion]
    rfl
  refine ⟨row, ?_, hworld ▸ hrow, fun htarget => hparams ▸ hid (hmember htarget)⟩
  rw [← hjson]
  exact plain_of_call hd h.toAdmitted h.resolved h.checked hrun hplain fun _ => rfl

/-- A host is answered with as it is stored then, with its segment. -/
theorem Commits.host (hdisabled : service.config.disabledExtensions = []) (c : Commits d .hosts v route req w)
    (hs : w.store.Tabled) :
    ∃ g, ∃ row : Host, (d.serve req w).reply.body = .buffered (Json.obj [("host", hostAt v g row)]).text ∧
      (lookup? g.uuid (d.serve req w).world.store.segments = some g ∧
        lookup? row.uuid (d.serve req w).world.store.hosts = some row ∧ row.segment = g.uuid ∧
        lookup? segmentParam route.params = some g.uuid) ∧
      (route.target = .member → lookup? Router.idParam route.params = some row.uuid) := by
  obtain ⟨h, o, w', hroute, hown, hname, hmember, hversion, hparams, hrun, hplain, hworld⟩ := c.exists_handled hd
  have hnames : h.ctx.action ∈ ["index", "show", "create", "update"] ∧ h.ctx.action ≠ "index" ∧
      h.ctx.action ≠ "delete" := by
    rcases hname with hname | hname <;> rw [hname] <;> decide
  obtain ⟨g, store, ⟨hsegment, hg⟩, heffect, rfl, hbody, hcache⟩ :=
    exists_effect_of_handled hd hdisabled h hown (hroute ▸ c.collection) hnames.1 hversion hs hrun hplain
  obtain ⟨row, rfl, ⟨hsegmented, hrow⟩, hid⟩ := heffect.exists_row hs hnames.2
  refine ⟨g, row, ?_, ⟨?_, hworld ▸ hrow, hsegmented, hroute ▸ hsegment⟩, fun htarget => hparams ▸ hid ?_⟩
  · rw [hbody]
    exact congrArg ReplyBody.ofJson? (decorated_host hsegmented hcache)
  · rw [hworld]
    exact heffect.segments ▸ hg
  · rw [hmember htarget]
    decide

/-- A notification is answered with as it is stored then, without the details of its recovery. -/
theorem Commits.notification (c : Commits d .notifications v route req w) :
    ∃ row : Notification, (d.serve req w).reply.body = .buffered (Json.obj [("notification", row.toJson none)]).text ∧
      lookup? row.uuid (d.serve req w).world.store.notifications = some row := by
  obtain ⟨h, o, w', -, hown, hname, -, -, -, hrun, hplain, hworld⟩ := c.exists_handled hd
  obtain ⟨row, rfl, hrow⟩ := hown.exists_notification rfl hname hrun
  exact ⟨row, plain_of_call hd h.toAdmitted h.resolved h.checked hrun hplain fun _ => rfl, hworld ▸ hrow⟩

/-- **Reading back.** With all extensions, a request that creates or changes a segment or a host and succeeds is answered
with it as the requests that look for it at the same version see it in the store that the first one leaves: the one for the
row itself, and the one for the listing without filters, if there are not more rows than are shown at once. A notification
that is created is shown as it was answered with, but for the details of its recovery, which are there from version 1.1
on. -/
theorem serve_readback (hdisabled : service.config.disabledExtensions = []) (hs : w.store.Reachable)
    (c : Commits d t v route req w) :
    (t ≠ .notifications → ∃ uuid j,
      (d.serve req w).reply.body = .buffered (Json.obj [(t.member, j)]).text ∧
      j.get? "uuid" = some (.str uuid) ∧ (route.target = .member → lookup? Router.idParam route.params = some uuid) ∧
      service.ShownAs d t v route.params (d.serve req w).world.store uuid j ∧
      service.ListedAs d t v route.params (d.serve req w).world.store j) ∧
    (t = .notifications → ∃ uuid members,
      (d.serve req w).reply.body = .buffered (Json.obj [("notification", .obj members)]).text ∧
      lookup? "notification_uuid" members = some (.str uuid) ∧ lookup? "recovery_workflow_details" members = none ∧
      service.ShownAs d t v route.params (d.serve req w).world.store uuid
        (.obj (members ++ if v1_1.le v then [("recovery_workflow_details", .arr [])] else []))) := by
  refine ⟨fun hkept => ?_, ?_⟩
  · cases t with
    | segments =>
      obtain ⟨row, hbody, hrow, hid⟩ := c.segment hd hs.tabled
      exact ⟨row.uuid, _, hbody, by cases v1_2.le v <;> rfl, hid, shownAs_segment hdisabled hd hrow,
        listedAs_segment hdisabled hd hrow⟩
    | hosts =>
      obtain ⟨g, row, hbody, ⟨hg, hrow, hown, hparams⟩, hid⟩ := c.host hd hdisabled hs.tabled
      exact ⟨row.uuid, _, hbody, rfl, hid, shownAs_host hdisabled hd hg hrow hown hparams,
        listedAs_host hdisabled hd hg hrow hown hparams⟩
    | notifications => exact absurd rfl hkept
  · rintro rfl
    obtain ⟨row, hbody, hrow⟩ := c.notification hd
    refine ⟨row.uuid, _, hbody, rfl, rfl, ?_⟩
    -- The answer has no details of a recovery at any version, and they come last in what is shown.
    have hshown : service.ShownAs d .notifications v route.params (d.serve req w).world.store row.uuid _ :=
      shownAs_notification hdisabled hd hrow
    cases hdetails : v1_1.le v <;> rw [hdetails] at hshown <;> exact hshown

end Commits

/-- An administrator asks for the segments at the first version. -/
def census : Request := ⟨"GET", "/v1/segments", none, ("x-roles", "admin") :: atFirst, []⟩

theorem looks_census (hd : sinceActions.dispatcher = .ok d) :
    sinceActions.Looks d .segments "index" v1_0 segmentsRoute census := by
  refine looks_of_isAdmin rfl rfl ?_ rfl rfl (resolve_founding hd).1 (by decide) rfl rfl
  rw [(router_of_dispatcher rfl hd).1]
  decide +kernel

/-- The first segment is listed in the form in which its creation has been answered. -/
theorem serve_readback_founding : ∃ d, sinceActions.dispatcher = .ok d ∧ ∀ w : World, w.store = {} →
    (d.serve (founding atFirst) w).reply.status = 201 ∧
      ∃ j, (d.serve (founding atFirst) w).reply.body = .buffered (Json.obj [("segment", j)]).text ∧
        ∃ items links, Holds (d.serve census (d.serve (founding atFirst) w).world).reply
          (.obj (("segments", .arr items) :: links)) ∧ j ∈ items := by
  obtain ⟨d, hd, -⟩ := exists_dispatcher_sinceActions
  refine ⟨d, hd, fun w hw => ?_⟩
  have hlooks := looks_census hd
  obtain ⟨hstatus, hone⟩ := serve_founding hd w hw
  have hcommits : Commits d .segments v1_0 segmentsRoute (founding atFirst) w :=
    ⟨hlooks.routed, rfl, .inl ⟨rfl, rfl⟩, (resolve_founding hd).1, by rw [hstatus]; decide⟩
  obtain ⟨uuid, j, hbody, -, -, -, hlisted⟩ :=
    (serve_readback hd rfl (hw ▸ Store.reachable_empty) hcommits).1 (by decide)
  refine ⟨hstatus, j, hbody, hlisted census segmentsRoute hlooks rfl (unfiltered_nil .segments) ?_ _ rfl⟩
  exact hone.trans_le (by decide)

end Service

end Standby
