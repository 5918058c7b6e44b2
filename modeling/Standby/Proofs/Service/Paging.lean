import Standby.Proofs.Json.Reading
import Standby.Proofs.Listing.Slices
import Standby.Proofs.Service.Duplicates
import Standby.Proofs.Service.Pages
/-!
# From page to page

Whoever follows the links of a listing in a store that stays as it is has seen every row that its filters admit once, in
the order that the query asks for, when there is no link any more. A link may turn out to be too long to be followed, for
it is written with more characters than the query of the first request may have been (`not_walk_padding`).
-/

namespace Standby

/-! ## The rows of a table -/

namespace Store

variable {s : Store} {t : Table}

theorem Tabled.filed_table (h : s.Tabled) (t : Table) :
    Filed (fun row : t.Row => Listed.uuid row) Listed.id (s.table t) (s.lastId t) := by
  cases t with
  | segments => exact h.segments
  | hosts => exact h.hosts
  | notifications => exact h.notifications

theorem Tabled.nodup_uuids (h : s.Tabled) : ((s.rows t).map fun row => Listed.uuid row).Nodup := by
  have hown : ((s.rows t).map fun row => Listed.uuid row) = (s.table t).map (·.1) := by
    rw [rows, List.map_map]
    exact List.map_congr_left (h.filed_table t).own
  rw [hown]
  exact (h.filed_table t).keys

theorem Tabled.nodup_ids (h : s.Tabled) : ((s.rows t).map fun row => Listed.id row).Nodup := by
  rw [rows, List.map_map]
  exact (h.filed_table t).ids

theorem Tabled.uuid_ne_empty (h : s.Tabled) {row : t.Row} (hrow : row ∈ s.rows t) : Listed.uuid row ≠ "" := by
  obtain ⟨e, he, rfl⟩ := List.mem_map.1 hrow
  have hown : Listed.uuid e.2 = e.1 := (h.filed_table t).own e he
  have hfiled : ∃ id, (e.1, id) ∈ s.filed t := by
    cases t <;> exact ⟨_, List.mem_map.2 ⟨e, he, rfl⟩⟩
  obtain ⟨id, hid⟩ := hfiled
  rw [hown]
  exact h.named t (e.1, id) hid

end Store

namespace Service

variable {service : Service} {d : Dispatcher World Segment} {req : Request} {s : Store} {t : Table} {version : Version}
  {keep : t.Row → Bool} {sort : List (String × SortDir)}

/-! ## Walks -/

/-- Requests that go from page to page, and the pages that answer them, up to one with or without a link. Each request but
the first is for what the link on the page before has behind the URL with which links begin. The store stays as it is, and
the rest of the world may change from one request to the next. -/
inductive Walk (d : Dispatcher World Segment) (s : Store) (version : Version) (t : Table)
    (headers : List (String × String)) (body : List UInt8) : String → List (List t.Row) → Option Link → Prop
  | page {uri : String} {req : Request} {rows : List t.Row} {next : Option Link}
    (sent : Request.ofParts? "GET" uri headers body = some req)
    (shows : ∀ w, w.store = s → Shows version t (d.serve req w).reply rows next) :
    Walk d s version t headers body uri [rows] next
  | follow {uri uri' : String} {req : Request} {rows : List t.Row} {link : Link} {pages : List (List t.Row)}
    {next : Option Link} (sent : Request.ofParts? "GET" uri headers body = some req)
    (shows : ∀ w, w.store = s → Shows version t (d.serve req w).reply rows (some link))
    (behind : Text.after? (d.baseUrl req.headers) link.href = some uri')
    (rest : Walk d s version t headers body uri' pages next) : Walk d s version t headers body uri (rows :: pages) next

/-- The query of the link to the rows behind one with an identifier: what the query asks for apart from the page, and then
the page. -/
def linkQuery (limit : Nat) (q : Query) (last : String) : String :=
  Text.Form.encodePairs
    (q.filter (fun (key, _) => key != "limit" && key != "marker") ++ [("limit", toString limit), ("marker", last)])

/-- What the link has behind the URL with which links begin. -/
def linkTarget (path : String) (limit : Nat) (q : Query) (last : String) : String :=
  path ++ "?" ++ linkQuery limit q last

/-- What can be left of a listing at the end of a walk: nothing if there is no link any more, and anything if there is one
that is too long to be followed, to the rows behind a stored one. -/
inductive Leaves (s : Store) (t : Table) (base : String) (target : String → String) : Option Link → List t.Row → Prop
  | nothing : Leaves s t base target none []
  | tooLong {link : Link} {last : t.Row} {rest : List t.Row} (hlast : last ∈ s.rows t)
    (behind : Text.after? base link.href = some (target (Listed.uuid last)))
    (size : Target.maxSize < Text.Utf8.size (target (Listed.uuid last))) : Leaves s t base target (some link) rest

theorem Lists.ctx_eq (l : service.Lists d s t version keep sort req) :
    l.ctx.path = l.route.path ∧ l.ctx.baseUrl = d.baseUrl req.headers ∧ l.ctx.params = l.route.params ∧
      l.ctx.query = req.pairs := by
  obtain ⟨-, body, action, -, -, -, -, hctx⟩ := Dispatcher.contextOf_eq_ok_iff.1 l.admitted
  rw [hctx]
  exact ⟨rfl, rfl, rfl, rfl⟩

/-- A request for another page of a listing is a request for the listing. -/
theorem Lists.exists_follow (l : service.Lists d s t version keep sort req)
    (hroute : d.router.route? l.route.path = some { l.route with suffix := none }) {query : String}
    (hquery : l.ctx.query.SamePages (Text.Form.decodePairs query)) :
    ∃ l' : service.Lists d s t version keep sort { req with path := l.ctx.path, query := some query },
      l'.route = { l.route with suffix := none } := by
  obtain ⟨a, ha, hentry, hversion, hhandlers, type, hctx⟩ := l.toAdmitted.exists_follow hroute query
  have haction : a.ctx.action = l.ctx.action := by rw [hctx]
  have hasked : a.ctx.query = Text.Form.decodePairs query := by rw [hctx]
  have hselects : service.Selects s a.ctx t keep := by
    refine l.selects.of_samePages ?_ ?_ ?_ (hasked ▸ hquery)
    all_goals rw [hctx]
  have hsorts : sortKeys a.ctx.query t.sortable t.defaultKey = .ok sort := by
    rw [sortKeys_of_samePages (hasked ▸ hquery)]
    exact l.sorts
  rw [l.ctx_eq.1]
  exact ⟨{ a with
    collection := by rw [ha]; exact l.collection
    target := by rw [ha]; exact l.target
    served := hversion.trans l.served
    index := haction.trans l.index, selects := hselects, sorts := hsorts }, ha⟩

/-- A request asks for the page behind the first of the rows that a listing shows, `limit` of the others at most. -/
structure Lists.Resumes (l : service.Lists d s t version keep sort req) (limit : Nat) (before rest : List t.Row) :
    Prop where
  rows : Listing.sorted sort ((s.rows t).filter keep) = before ++ rest
  page : Page.ofQuery l.ctx.query service.config.maxLimit = .ok ⟨limit, before.getLast?.map Listed.uuid⟩
  path : Target.IsPath l.route.path
  route : d.router.route? l.route.path = some { l.route with suffix := none }

section Resuming
variable {l : service.Lists d s t version keep sort req} {limit : Nat} {before rest : List t.Row}

theorem Lists.Resumes.mem_rows (h : l.Resumes limit before rest) {row : t.Row} (hrow : row ∈ rest) : row ∈ s.rows t := by
  have hsorted : row ∈ Listing.sorted sort ((s.rows t).filter keep) := h.rows ▸ List.mem_append_right before hrow
  rw [Listing.mem_sorted] at hsorted
  exact (List.mem_filter.1 hsorted).1

theorem Lists.Resumes.length_le (h : l.Resumes limit before rest) : rest.length ≤ (s.rows t).length := by
  have hlength := congrArg List.length h.rows
  rw [Listing.sorted, List.length_mergeSort, List.length_append] at hlength
  have hle := List.length_filter_le keep (s.rows t)
  omega

theorem Lists.Resumes.shows (h : l.Resumes limit before rest) (hd : service.dispatcher = .ok d) (hs : s.Tabled)
    {w : World} (hw : w.store = s) :
    Shows version t (d.serve req w).reply (rest.take limit)
      (Page.next? ⟨limit, before.getLast?.map Listed.uuid⟩ l.ctx.baseUrl l.ctx.path l.ctx.query
        (rest.take limit).length ((rest.take limit).getLast?.map Listed.uuid)) := by
  have huuids : (((s.rows t).filter keep).map fun row => Listed.uuid row).Nodup :=
    hs.nodup_uuids.sublist (List.filter_sublist.map _)
  exact l.shows hd h.page (Listing.slice?_eq_some huuids h.rows (some limit)) hw

/-- A full page has a link to the rows behind its last one. -/
theorem Lists.Resumes.shows_link (h : l.Resumes limit before rest) (hd : service.dispatcher = .ok d) (hs : s.Tabled)
    (hlimit : 1 ≤ limit) (hfull : (rest.take limit).length = limit) {last : t.Row}
    (hlast : (rest.take limit).getLast? = some last) {w : World} (hw : w.store = s) :
    Shows version t (d.serve req w).reply (rest.take limit)
      (some ⟨"next", d.baseUrl req.headers ++ linkTarget l.ctx.path limit l.ctx.query (Listed.uuid last)⟩) := by
  have hshows := h.shows hd hs hw
  rw [hfull, hlast, Option.map_some, Page.next?_eq_some hlimit, l.ctx_eq.2.1] at hshows
  rw [linkTarget, ← String.append_assoc, ← String.append_assoc]
  exact hshows

/-- What the link leads to asks for these rows, and its links are written as this one is. -/
theorem Lists.Resumes.exists_next (h : l.Resumes limit before rest) (hs : s.Tabled)
    (hfits : min limit (s.rows t).length < 9223372036854775808) (hfull : (rest.take limit).length = limit) {last : t.Row}
    (hlast : (rest.take limit).getLast? = some last) :
    ∃ l' : service.Lists d s t version keep sort
        { req with path := l.ctx.path, query := some (linkQuery limit l.ctx.query (Listed.uuid last)) },
      l'.Resumes limit (before ++ rest.take limit) (rest.drop limit) ∧
        linkTarget l'.ctx.path limit l'.ctx.query = linkTarget l.ctx.path limit l.ctx.query := by
  have hnamed := hs.uuid_ne_empty (h.mem_rows (List.mem_of_mem_take (List.mem_of_getLast? hlast)))
  have hsmall : limit < 9223372036854775808 := by
    have hcount := h.length_le
    have hlength : (rest.take limit).length = min limit rest.length := List.length_take
    omega
  -- The query of the link is read back as the pairs that were written, and they ask for the same rows.
  have hread : Text.Form.decodePairs (linkQuery limit l.ctx.query (Listed.uuid last)) =
      Page.nextQuery ⟨limit, before.getLast?.map Listed.uuid⟩ l.ctx.query (Listed.uuid last) :=
    Text.Form.decodePairs_encodePairs _
  obtain ⟨l', hl'⟩ := l.exists_follow h.route (hread.symm ▸ Page.samePages_nextQuery _ _ (Listed.uuid last))
  have hquery : l'.ctx.query = Page.nextQuery ⟨limit, before.getLast?.map Listed.uuid⟩ l.ctx.query (Listed.uuid last) := by
    rw [l'.ctx_eq.2.2.2, Request.pairs, Option.map_some, Option.getD_some, hread]
  have hpath : l'.ctx.path = l.ctx.path := by
    rw [l'.ctx_eq.1, congrArg Route.path hl']
    exact l.ctx_eq.1.symm
  refine ⟨l', ⟨?_, ?_, ?_, ?_⟩, ?_⟩
  · rw [List.append_assoc, List.take_append_drop, h.rows]
  · rw [hquery, List.getLast?_append, hlast]
    exact Page.ofQuery_nextQuery _ (Page.limit_le_of_ofQuery h.page) hsmall hnamed
  · rw [hl']
    exact h.path
  · rw [hl']
    exact h.route
  · funext name
    simp only [linkTarget, linkQuery, hquery, Page.filter_nextQuery, hpath]

/-- A page that is not full has no link, and all the rows that are left. -/
theorem Lists.Resumes.last (h : l.Resumes limit before rest) (hd : service.dispatcher = .ok d) (hs : s.Tabled)
    (hfull : (rest.take limit).length ≠ limit) :
    rest.take limit = rest ∧ ∀ w : World, w.store = s → Shows version t (d.serve req w).reply (rest.take limit) none := by
  have hlength : (rest.take limit).length = min limit rest.length := List.length_take
  refine ⟨List.take_of_length_le (by omega), fun w hw => ?_⟩
  have hshows := h.shows hd hs hw
  rwa [Page.next?_eq_none hfull] at hshows

/-- From any page on, the links lead through the rest of the rows, as long as they are short enough to be followed. -/
theorem Lists.Resumes.exists_walk (h : l.Resumes limit before rest) (hd : service.dispatcher = .ok d) (hs : s.Tabled)
    (hlimit : 1 ≤ limit) (hfits : min limit (s.rows t).length < 9223372036854775808) {uri : String}
    {headers : List (String × String)} {body : List UInt8}
    (hsent : Request.ofParts? "GET" uri headers body = some req) :
    ∃ pages next left, Walk d s version t headers body uri pages next ∧ rest = pages.flatten ++ left ∧
      (∀ rows ∈ pages, rows.length ≤ limit) ∧
      Leaves s t (d.baseUrl req.headers) (linkTarget l.ctx.path limit l.ctx.query) next left := by
  -- Each full page leaves fewer rows, for it has at least one.
  induction hn : rest.length using Nat.strongRecOn generalizing before rest req uri with
  | ind n ih =>
    by_cases hfull : (rest.take limit).length = limit
    · have hlength : (rest.take limit).length = min limit rest.length := List.length_take
      obtain ⟨last, hlast⟩ : ∃ last, (rest.take limit).getLast? = some last :=
        ⟨_, List.getLast?_eq_some_getLast (List.ne_nil_of_length_pos (by omega))⟩
      have hshows := fun (w : World) (hw : w.store = s) => h.shows_link hd hs hlimit hfull hlast hw
      by_cases hsize : Text.Utf8.size (linkTarget l.ctx.path limit l.ctx.query (Listed.uuid last)) ≤ Target.maxSize
      · obtain ⟨l', h', htargets⟩ := h.exists_next hs hfits hfull hlast
        have hpath : Target.IsPath l.ctx.path := l.ctx_eq.1 ▸ h.path
        have hsent' := Request.ofParts?_of_ofText? hsent
          (Target.ofText?_append hpath (Target.all_isQueryChar_encodePairs _) hsize)
        have hless : (rest.drop limit).length < n := by
          rw [List.length_drop]
          omega
        obtain ⟨pages, next, left, hwalk, hrows, hlengths, hleaves⟩ := ih _ hless h' hsent' rfl
        refine ⟨rest.take limit :: pages, next, left, .follow hsent hshows (Request.after?_append _ _) hwalk, ?_, ?_,
          htargets ▸ hleaves⟩
        · rw [List.flatten_cons, List.append_assoc, ← hrows, List.take_append_drop]
        · exact List.forall_mem_cons.2 ⟨hfull.le, hlengths⟩
      · refine ⟨[rest.take limit], _, rest.drop limit, .page hsent hshows, ?_, ?_, ?_⟩
        · rw [List.flatten_singleton, List.take_append_drop]
        · exact List.forall_mem_singleton.2 hfull.le
        · exact .tooLong (h.mem_rows (List.mem_of_mem_take (List.mem_of_getLast? hlast))) (Request.after?_append _ _)
            (Nat.not_le.1 hsize)
    · obtain ⟨hall, hshows⟩ := h.last hd hs hfull
      refine ⟨[rest.take limit], none, [], .page hsent hshows, ?_, ?_, .nothing⟩
      · rw [List.flatten_singleton, List.append_nil, hall]
      · exact List.forall_mem_singleton.2 (List.length_take_le limit rest)

end Resuming

/-! ## Stores that requests lead to -/

theorem Change.reachable {w w' : World} (hmint : ∀ t id, service.mint t id ≠ "") (hw : w.store.Reachable)
    (h : service.Change w w') : w'.store.Reachable := by
  -- Each change is what one operation of the store does.
  suffices hop : ∃ op id, op.generated? ≠ some "" ∧ w.store.exec op = .ok (id, w'.store) by
    obtain ⟨op, id, hop, hx⟩ := hop
    exact hw.exec hop hx
  have hnew : ∀ t id, some (service.mint t id) ≠ some "" := fun t id he => hmint t id (Option.some.inj he)
  cases h with
  | @createSegment draft row store h =>
    exact ⟨.createSegment (service.mint .segments (w.store.lastSegmentId + 1)) w.clock draft, _, hnew _ _,
      by simp only [Store.exec, h]; rfl⟩
  | @updateSegment uuid patch row store h =>
    exact ⟨.updateSegment uuid w.clock patch, _, nofun, by simp only [Store.exec, h]; rfl⟩
  | @destroySegment uuid store h => exact ⟨.destroySegment uuid, _, nofun, by simp only [Store.exec, h]; rfl⟩
  | @createHost segment draft row store h =>
    exact ⟨.createHost (service.mint .hosts (w.store.lastHostId + 1)) w.clock segment draft, _, hnew _ _,
      by simp only [Store.exec, h]; rfl⟩
  | @updateHost uuid patch row store h =>
    exact ⟨.updateHost uuid w.clock patch, _, nofun, by simp only [Store.exec, h]; rfl⟩
  | @destroyHost uuid store h => exact ⟨.destroyHost uuid, _, nofun, by simp only [Store.exec, h]; rfl⟩
  | accept => exact ⟨.createNotification _ w.clock _, _, hnew _ _, rfl⟩

/-- Runs of requests lead to reachable stores, if no identifier that the service makes is empty. -/
theorem reachable_storeAfterRun {d : Dispatcher World Segment} (hd : service.dispatcher = .ok d)
    (hmint : ∀ t id, service.mint t id ≠ "") (visits : List Visit) : (storeAfterRun d visits).Reachable :=
  keeps_foldl hd (fun h hs => h.reachable hmint hs) Store.reachable_empty visits

/-! ## Whole listings -/

theorem isPath_of_route (hd : service.dispatcher = .ok d) {uri : String} {headers : List (String × String)}
    {body : List UInt8} {method : String} (hsent : Request.ofParts? method uri headers body = some req) {route : Route}
    (hroute : d.router.route? req.path = some route) (hcollection : route.resource = t.collection)
    (htarget : route.target = .collection) : Target.IsPath req.path := by
  obtain ⟨target, hread, -, hpath, -⟩ := Request.ofParts?_eq_some hsent
  rw [hpath] at hroute ⊢
  rcases Target.isPath_of_ofText? hread with h | h | h
  · exact h
  · rw [h] at hroute
    exact absurd htarget (Router.target_of_route?_star hroute)
  · rw [h] at hroute
    exact absurd (hcollection ▸ Router.root_of_route?_empty hroute) (root_of_dispatcher hd)

theorem Lists.resolve_eq_ok (hd : service.dispatcher = .ok d) (l : service.Lists d s t version keep sort req) :
    VersionHeader.resolve d.versionHeader d.service d.window (req.headers.values d.versionHeader) = .ok version := by
  have hversion := l.versioned
  rw [Dispatcher.versionOf, if_pos (presents_of_dispatcher hd (l.collection ▸ l.toAdmitted.lookup?_entry)).versioned,
    l.served] at hversion
  obtain ⟨v, hv, hsome⟩ := map_eq_ok.1 hversion
  rw [hv, Option.some.inj hsome]

/-- A listing begins with the request that names no row to go on from. -/
theorem Lists.resumes_nil (l : service.Lists d s t version keep sort req) {limit : Nat}
    (hpage : Page.ofQuery req.pairs service.config.maxLimit = .ok ⟨limit, none⟩) {raw : String} (hraw : Target.IsPath raw)
    (hroute : d.router.route? raw = some l.route) :
    l.Resumes limit [] (Listing.sorted sort ((s.rows t).filter keep)) := by
  -- No name of a collection ends as a format suffix does.
  have hname : l.route.resource.toList.getLast? ≠ some 'n' := by
    rw [l.collection]
    cases t <;> decide
  refine ⟨rfl, ?_, Router.isPath_path hroute hraw, Router.route?_path hroute l.target hname⟩
  rw [l.ctx_eq.2.2.2]
  exact hpage

/-- **Paging.** A GET request for a listing that is answered with success and asks for the first page, one with room for
a row, begins a walk that comes to an end. No page has more rows than the service shows at once. All pages together begin
the list of the rows that the filters admit at the version of the request, each of them once, in the order that the query
asks for; and they are all of it, unless the link on the last page is too long to be followed.

Who may list is left to the policy. Only for a limit of 2^63 rows or more, which no number in a query has, it has to be
said that the table does not have as many. -/
theorem walk_listing (hd : service.dispatcher = .ok d) (hs : s.Reachable) {uri : String}
    {headers : List (String × String)} {body : List UInt8} (hsent : Request.ofParts? "GET" uri headers body = some req)
    {route : Route} (hroute : d.router.route? req.path = some route) (hcollection : route.resource = t.collection)
    (htarget : route.target = .collection) {page : Page}
    (hpage : Page.ofQuery req.pairs service.config.maxLimit = .ok page) (hlimit : 1 ≤ page.limit)
    (hmarker : page.marker = none) (hfits : min page.limit (s.rows t).length < 9223372036854775808) {w : World}
    (hw : w.store = s) (hstatus : (d.serve req w).reply.status = 200) :
    ∃ version sort pages next left,
      VersionHeader.resolve d.versionHeader d.service d.window (req.headers.values d.versionHeader) = .ok version ∧
        req.pairs.AsksFor t.defaultKey sort ∧ Walk d s version t headers body uri pages next ∧
        (∀ rows ∈ pages, rows.length ≤ service.config.maxLimit) ∧ (pages.flatten ++ left).Nodup ∧
        (pages.flatten ++ left).Pairwise (Listing.Ahead sort) ∧
        (∀ row, row ∈ pages.flatten ++ left ↔ row ∈ s.rows t ∧ Matches version route.params req.pairs t row) ∧
        Leaves s t (d.baseUrl req.headers) (linkTarget route.path page.limit req.pairs) next left := by
  subst hw
  obtain ⟨-, -, hget, -⟩ := Request.ofParts?_eq_some hsent
  obtain ⟨version, keep, sort, l, rfl⟩ := exists_lists hd hget hroute hcollection htarget hstatus
  obtain ⟨hpath, -, hparams, hquery⟩ := l.ctx_eq
  have htabled := hs.tabled
  have hstart : page = ⟨page.limit, none⟩ := by rw [← hmarker]
  have hfirst := l.resumes_nil (hstart ▸ hpage) (isPath_of_route hd hsent hroute hcollection htarget) hroute
  obtain ⟨pages, next, left, hwalk, hrows, hlengths, hleaves⟩ := hfirst.exists_walk hd htabled hlimit hfits hsent
  have hids : (((w.store.rows t).filter keep).map fun row => Listed.id row).Nodup :=
    htabled.nodup_ids.sublist (List.filter_sublist.map _)
  have hsorted := Listing.pairwise_sorted sort hids
  have hasked : req.pairs.AsksFor t.defaultKey sort := hquery ▸ asksFor_of_sortKeys l.sorts
  refine ⟨version, sort, pages, next, left, l.resolve_eq_ok hd, hasked, hwalk, fun rows hm => ?_, ?_, ?_, fun row => ?_,
    ?_⟩
  · exact (hlengths rows hm).trans (Page.limit_le_of_ofQuery hpage)
  · rw [← hrows]
    exact (List.mergeSort_perm _ _).nodup_iff.2 (hids.of_map _)
  · rw [← hrows]
    exact hsorted.imp Listing.compareRows_eq_lt_iff.1
  · rw [← hrows, Listing.mem_sorted, List.mem_filter, l.selects.keep_iff htabled l.ctx_version, hparams, hquery]
  · rwa [hpath, hquery] at hleaves

/-- Two segments, created one after the other. -/
def twoSegments : Store :=
  (Store.run
    [.createSegment "1" .first ⟨"north", none, .auto, "COMPUTE", none⟩,
      .createSegment "2" .first ⟨"south", none, .auto, "COMPUTE", none⟩]).store

/-- An administrator asks for segments, one at a time, with a remark that nobody reads. -/
def oneByOne (remark : String) : Request :=
  ⟨"GET", "/v1/segments", some (Text.Form.encodePairs [("limit", "1"), ("remark", remark)]), [("x-roles", "admin")], []⟩

theorem pairs_oneByOne (remark : String) : (oneByOne remark).pairs = [("limit", "1"), ("remark", remark)] := by
  rw [Request.pairs, oneByOne, Option.map_some, Option.getD_some, Text.Form.decodePairs_encodePairs]

theorem ofQuery_oneByOne (remark : String) :
    Page.ofQuery (oneByOne remark).pairs byDefault.config.maxLimit = .ok ⟨1, none⟩ := by
  have hone : Text.int64? (Text.trim "1") = some 1 := by decide +kernel
  simp [pairs_oneByOne, Page.ofQuery, Query.first?, lookup?, hone]
  rfl

/-- Where that leads. -/
def segmentsRoute : Route := ⟨"segments", .collection, [], none, "/v1/segments", none⟩

theorem route?_segments (hd : byDefault.dispatcher = .ok d) : d.router.route? "/v1/segments" = some segmentsRoute := by
  have hcomponents : Router.components "/v1/segments" = ["v1", "segments"] := by decide +kernel
  have hsuffix : Text.before? ".json" "/v1/segments" = none := by decide
  simp only [Router.route?, hsuffix, hcomponents, (router_of_dispatcher rfl hd).1]
  rfl

/-- Without filters an administrator is shown all segments. -/
theorem selects_segments {ctx : Context} (hadmin : ctx.caller.isAdmin = true) {limit remark : String}
    (hquery : ctx.query = [("limit", limit), ("remark", remark)]) :
    byDefault.Selects s ctx .segments (SegmentFilter.keeps {}) := by
  have hfilter : ∀ {α : Type} (name : String) (read : String → Option α), name ≠ "limit" → name ≠ "remark" →
      filter ctx name read = .ok none := by
    intro α name read hlimit hremark
    simp [filter, hquery, Query.first?, lookup?, hlimit.symm, hremark.symm]
  refine ⟨authorize_of_isAdmin hadmin _, {}, segmentFilter_eq_ok.2 ⟨?_, ?_, ?_⟩, rfl⟩
  · exact hfilter _ _ (by decide) (by decide)
  · exact hfilter _ _ (by decide) (by decide)
  · split
    · exact hfilter _ _ (by decide) (by decide)
    · rfl

theorem exists_lists_oneByOne (hd : byDefault.dispatcher = .ok d) (remark : String) :
    ∃ l : byDefault.Lists d twoSegments .segments d.window.default (SegmentFilter.keeps {}) [("created_at", .desc)]
      (oneByOne remark), l.route = segmentsRoute := by
  obtain ⟨-, hentries, hheader⟩ := router_of_dispatcher rfl hd
  obtain ⟨e, he⟩ : ∃ e, lookup? "segments" d.entries = some e := by
    cases he : lookup? "segments" d.entries with
    | none => exact absurd (lookup?_eq_none_iff.1 he) (by rw [hentries]; decide)
    | some e => exact ⟨e, rfl⟩
  have hpresents : byDefault.Presents .segments e.resource := presents_of_dispatcher hd he
  have hlocated : d.locate (oneByOne remark) = .ok (segmentsRoute, e) := by
    have hentry : lookup? segmentsRoute.resource d.entries = some e := he
    simp only [Dispatcher.locate, oneByOne, route?_segments hd, hentry]
  have hversion : d.versionOf e (oneByOne remark) = .ok (some d.window.default) := by
    have hvalues : Headers.values [("x-roles", "admin")] d.versionHeader = [] := by
      rw [hheader]
      decide
    rw [Dispatcher.versionOf, if_pos hpresents.versioned, oneByOne, hvalues]
    rfl
  have hhandlers : Dispatcher.handlersOf e .collection "index" = .ok e.resource.actions := by
    rw [Dispatcher.handlersOf, if_neg (by decide), if_pos (Registry.contains_of_resolve (hpresents.index ⟨1, 0⟩))]
  generalize hctx : d.contextAt segmentsRoute (some d.window.default) (oneByOne remark) "index" none = ctx
  have hadmitted : d.contextOf segmentsRoute e (some d.window.default) (oneByOne remark) = .ok (ctx, e.resource.actions) :=
    Dispatcher.contextOf_eq_ok_iff.2 ⟨⟨none, rfl⟩, none, "index", rfl, rfl, hhandlers, rfl, hctx.symm⟩
  have hquery : ctx.query = [("limit", "1"), ("remark", remark)] := by
    rw [← hctx, Dispatcher.query_contextAt, pairs_oneByOne]
  have hadmin : ctx.caller.isAdmin = true := by
    have hcaller : (Caller.ofParts none none (some "admin")).isAdmin = true := by decide +kernel
    rw [← hctx]
    exact hcaller
  have hsorts : sortKeys ctx.query segmentSortKeys "created_at" = .ok [("created_at", .desc)] := by
    rw [hquery]
    rfl
  exact ⟨{ route := segmentsRoute, entry := e, version := _, ctx, handlers := _, located := hlocated
           versioned := hversion, admitted := hadmitted, collection := rfl, target := rfl, served := rfl
           index := by rw [← hctx]; rfl
           selects := selects_segments hadmin hquery, sorts := hsorts }, rfl⟩

theorem status_oneByOne (hd : byDefault.dispatcher = .ok d) (remark : String) {w : World} (hw : w.store = twoSegments) :
    (d.serve (oneByOne remark) w).reply.status = 200 := by
  obtain ⟨l, -⟩ := exists_lists_oneByOne hd remark
  exact (l.shows hd (l.ctx_eq.2.2.2 ▸ ofQuery_oneByOne remark) rfl hw).1

/-- The target of the request. -/
def oneByOneTarget (remark : String) : String :=
  "/v1/segments" ++ "?" ++ Text.Form.encodePairs [("limit", "1"), ("remark", remark)]

theorem ofParts?_oneByOne {remark : String} (hsize : Text.Utf8.size (oneByOneTarget remark) ≤ Target.maxSize) :
    Request.ofParts? "GET" (oneByOneTarget remark) [("x-roles", "admin")] [] = some (oneByOne remark) := by
  have hplain : Request.ofParts? "GET" "/v1/segments" [("x-roles", "admin")] [] =
      some ⟨"GET", "/v1/segments", none, [("x-roles", "admin")], []⟩ := by decide +kernel
  have hpath : Target.IsPath "/v1/segments" := ⟨rfl, by decide⟩
  exact Request.ofParts?_of_ofText? hplain (Target.ofText?_append hpath (Target.all_isQueryChar_encodePairs _) hsize)

theorem reachable_twoSegments : twoSegments.Reachable := ⟨_, by simp [Store.Op.generated?], rfl⟩

/-- An administrator walks through two segments, one on a page, and has seen both when there is no link any more. -/
theorem walk_listing_twoSegments : ∃ d : Dispatcher World Segment, byDefault.dispatcher = .ok d ∧
    twoSegments.Reachable ∧
    Request.ofParts? "GET" (oneByOneTarget "thanks") [("x-roles", "admin")] [] = some (oneByOne "thanks") ∧
    (∀ w, w.store = twoSegments → (d.serve (oneByOne "thanks") w).reply.status = 200) ∧
    ∃ version pages, Walk d twoSegments version .segments [("x-roles", "admin")] [] (oneByOneTarget "thanks") pages none ∧
      ∀ row, row ∈ pages.flatten ↔ row ∈ twoSegments.rows .segments := by
  obtain ⟨d, hd⟩ := exists_dispatcher_byDefault
  have hsize : Text.Utf8.size (oneByOneTarget "thanks") ≤ Target.maxSize := by decide +kernel
  have hsent := ofParts?_oneByOne hsize
  have hstatus := fun (w : World) (hw : w.store = twoSegments) => status_oneByOne hd "thanks" hw
  obtain ⟨version, sort, pages, next, left, -, -, hwalk, -, -, -, hmem, hleaves⟩ :=
    walk_listing (t := .segments) hd reachable_twoSegments hsent (route?_segments hd) rfl rfl
      (ofQuery_oneByOne "thanks") (by decide) rfl (by decide) (w := ⟨twoSegments, ⟨1, [], true⟩, .first⟩) rfl (hstatus _ rfl)
  refine ⟨d, hd, reachable_twoSegments, hsent, hstatus, version, pages, ?_⟩
  cases hleaves with
  | nothing =>
    refine ⟨hwalk, fun row => ?_⟩
    rw [← List.append_nil pages.flatten, hmem, pairs_oneByOne]
    simp [Matches, Query.Admits, Query.first?, lookup?]
  | tooLong hlast _ hsize =>
    have hshort : ∀ row ∈ twoSegments.rows .segments,
        Text.Utf8.size (linkTarget "/v1/segments" 1 [("limit", "1"), ("remark", "thanks")] (Listed.uuid row)) ≤
          Target.maxSize := by decide +kernel
    rw [pairs_oneByOne] at hsize
    exact absurd hsize (Nat.not_lt.2 (hshort _ hlast))

/-! ## Links that are too long -/

theorem isPlain_segment {g : Segment} (hid : g.id < Nat.pow 2 64) (flag : Bool) (depth : Nat) :
    Json.isPlain (depth + 1) (g.toJson flag) = true := by
  have hcount : Json.isCount (.int g.id) = true := Json.isCount_iff.2 ⟨g.id, hid, rfl⟩
  cases flag <;> cases hd : g.description <;> cases hu : g.updatedAt <;>
    simp [Segment.toJson, Json.isPlain, Json.membersPlain, hcount, hd, hu, Json.ofNat, Json.ofText?,
      Time.Instant.toJson, Time.Instant.toJson?]

theorem itemsPlain_segments {rows : List Segment} (hids : ∀ g ∈ rows, g.id < Nat.pow 2 64) {items : List Json}
    (depth : Nat) (h : List.Forall₂ (IsShown version .segments) rows items) :
    Json.itemsPlain (depth + 1) items = true := by
  induction h with
  | nil => rfl
  | cons hj _ ih =>
    obtain ⟨hid, hids⟩ := List.forall_mem_cons.1 hids
    cases hj
    rw [Json.itemsPlain, isPlain_segment hid, ih hids]
    rfl

theorem isPlain_page {rows : List Segment} (hids : ∀ g ∈ rows, g.id < Nat.pow 2 64) {next : Option Link} {body : Json}
    (h : IsPage version .segments rows next body) : Json.isPlain Json.maxDepth body = true := by
  obtain ⟨items, hitems, rfl⟩ := h
  have hplain := itemsPlain_segments hids (Json.maxDepth - 3) hitems
  cases next with
  | none => simpa [Json.isPlain, Json.membersPlain, Table.collection, Json.maxDepth] using hplain
  | some link =>
    simpa [Json.isPlain, Json.membersPlain, Json.itemsPlain, Link.toJson, Table.collection, Json.maxDepth] using hplain

/-- A page of segments tells whether it has a link, and which one. -/
theorem Shows.next_eq {version' : Version} {rows rows' : List Segment} {next next' : Option Link} {reply : Reply}
    (h : Shows version .segments reply rows next) (h' : Shows version' .segments reply rows' next')
    (hids : ∀ g ∈ rows, g.id < Nat.pow 2 64) (hids' : ∀ g ∈ rows', g.id < Nat.pow 2 64) : next = next' := by
  obtain ⟨-, body, hbody, htext⟩ := h
  obtain ⟨-, body', hbody', htext'⟩ := h'
  have htexts : body.text = body'.text := ReplyBody.buffered.inj (htext.symm.trans htext')
  have hread := Json.parse?_text (isPlain_page hids hbody)
  rw [htexts, Json.parse?_text (isPlain_page hids' hbody')] at hread
  obtain ⟨items, -, rfl⟩ := hbody
  obtain ⟨items', -, rfl⟩ := hbody'
  obtain ⟨-, hlinks⟩ := List.cons.inj (Json.obj.inj (Option.some.inj hread))
  cases next with
  | none =>
    cases next' with
    | none => rfl
    | some link' => cases hlinks
  | some link =>
    cases next' with
    | none => cases hlinks
    | some link' =>
      simp only [Option.toList_some, List.map_cons, List.map_nil, Link.toJson, List.cons.injEq, Prod.mk.injEq,
        Json.arr.injEq, Json.obj.injEq, Json.str.injEq, and_true, true_and] at hlinks
      exact congrArg some (congrArg₂ Link.mk hlinks.1.symm hlinks.2.symm)

section TooLong
variable {remark : String} (hplain : ∀ c ∈ remark.toList, Text.Form.isPlain c = true)
include hplain

theorem size_oneByOneTarget : Text.Utf8.size (oneByOneTarget remark) = 28 + Text.Utf8.size remark := by
  have hkeys : Text.Form.encodePart "limit" = "limit" ∧ Text.Form.encodePart "1" = "1" ∧
      Text.Form.encodePart "remark" = "remark" := by decide +kernel
  simp only [oneByOneTarget, Text.Form.encodePairs, List.map_cons, List.map_nil, String.intercalate_cons_cons,
    String.intercalate_singleton, hkeys, Text.Form.encodePart_of_isPlain hplain, Text.Utf8.size,
    String.utf8ByteSize_append]
  change 12 + 1 + (5 + 1 + 1 + 1 + (6 + 1 + remark.utf8ByteSize)) = _
  omega

/-- In its link the limit follows the remark, and then there is a marker. -/
theorem lt_size_linkTarget (last : String) :
    35 + Text.Utf8.size remark <
      Text.Utf8.size (linkTarget "/v1/segments" 1 [("limit", "1"), ("remark", remark)] last) := by
  have hkept : List.filter (fun p : String × String => p.1 != "limit" && p.1 != "marker")
      [("limit", "1"), ("remark", remark)] = [("remark", remark)] := rfl
  have hkeys : Text.Form.encodePart "limit" = "limit" ∧ Text.Form.encodePart (toString 1) = "1" ∧
      Text.Form.encodePart "remark" = "remark" ∧ Text.Form.encodePart "marker" = "marker" := by decide +kernel
  simp only [linkTarget, linkQuery, hkept, Text.Form.encodePairs, List.cons_append, List.nil_append, List.map_cons,
    List.map_nil, String.intercalate_cons_cons, String.intercalate_singleton, hkeys,
    Text.Form.encodePart_of_isPlain hplain, Text.Utf8.size, String.utf8ByteSize_append]
  change _ < 12 + 1 + (6 + 1 + remark.utf8ByteSize + 1 + (5 + 1 + 1 + 1 + (6 + 1 + _)))
  omega

/-- With a remark for which there is just room in the target of the request, there is none in that of the link, and no walk
leads to all segments. -/
theorem not_walk_oneByOne (hd : byDefault.dispatcher = .ok d)
    (hroom : 65499 ≤ Text.Utf8.size remark ∧ Text.Utf8.size remark ≤ 65506) :
    Request.ofParts? "GET" (oneByOneTarget remark) [("x-roles", "admin")] [] = some (oneByOne remark) ∧
      ¬∃ version pages, Walk d twoSegments version .segments [("x-roles", "admin")] [] (oneByOneTarget remark) pages none ∧
        ∀ row, row ∈ pages.flatten ↔ row ∈ twoSegments.rows .segments := by
  have hsize : Text.Utf8.size (oneByOneTarget remark) ≤ Target.maxSize := by
    rw [size_oneByOneTarget hplain, Target.maxSize]
    omega
  have hsent := ofParts?_oneByOne hsize
  refine ⟨hsent, ?_⟩
  rintro ⟨version, pages, hwalk, hmem⟩
  obtain ⟨l, hl⟩ := exists_lists_oneByOne hd remark
  have hpath : l.ctx.path = "/v1/segments" := by
    rw [l.ctx_eq.1, hl]
    rfl
  have hquery : l.ctx.query = [("limit", "1"), ("remark", remark)] := l.ctx_eq.2.2.2.trans (pairs_oneByOne remark)
  -- The first page has one of the two segments, and a link to the other one.
  obtain ⟨rest, hfirst, hlength⟩ : ∃ rest, l.Resumes 1 [] rest ∧ rest.length = 2 := by
    have hroute := (route?_segments hd).trans (congrArg some hl.symm)
    refine ⟨_, l.resumes_nil (ofQuery_oneByOne remark) ⟨rfl, by decide⟩ hroute, ?_⟩
    rw [Listing.sorted, List.length_mergeSort]
    rfl
  have hfull : (rest.take 1).length = 1 := by
    rw [List.length_take, hlength]
    rfl
  obtain ⟨last, hlast⟩ : ∃ last, (rest.take 1).getLast? = some last :=
    ⟨_, List.getLast?_eq_some_getLast (List.ne_nil_of_length_pos (by omega))⟩
  let w : World := ⟨twoSegments, ⟨1, [], true⟩, .first⟩
  have hshows := hfirst.shows_link hd reachable_twoSegments.tabled (Nat.le_refl 1) hfull hlast (w := w) rfl
  -- What a walk is shown is that page, for it shows no other segments.
  have hsmall : ∀ g ∈ twoSegments.rows .segments, Segment.id g < Nat.pow 2 64 := by decide +kernel
  have hlink : ∀ {rows next}, (∀ g ∈ rows, g ∈ pages.flatten) →
      Shows version .segments (d.serve (oneByOne remark) w).reply rows next → next = some _ := fun hrows hshown =>
    hshown.next_eq hshows (fun g hg => hsmall g ((hmem g).1 (hrows g hg)))
      fun g hg => hsmall g (hfirst.mem_rows (List.mem_of_mem_take hg))
  cases hwalk with
  | page sent shows =>
    cases hsent.symm.trans sent
    cases hlink (fun g hg => List.mem_flatten.2 ⟨_, List.mem_cons_self, hg⟩) (shows w rfl)
  | follow sent shows behind walk =>
    cases hsent.symm.trans sent
    cases hlink (fun g hg => List.mem_flatten.2 ⟨_, List.mem_cons_self, hg⟩) (shows w rfl)
    -- The link is too long for the next request of the walk.
    have hlong : Target.maxSize < Text.Utf8.size (linkTarget l.ctx.path 1 l.ctx.query (Listed.uuid last)) := by
      have hlt := lt_size_linkTarget hplain (Listed.uuid last)
      rw [hpath, hquery, Target.maxSize]
      omega
    rw [Request.after?_append] at behind
    cases behind
    have hnone := Request.ofParts?_eq_none hlong "GET" [("x-roles", "admin")] []
    cases walk with
    | page sent' => cases hnone.symm.trans sent'
    | follow sent' => cases hnone.symm.trans sent'

end TooLong

/-- A remark for which there is just room. -/
def padding : String := String.ofList (List.replicate 65500 'a')

theorem size_replicate (n : Nat) : Text.Utf8.size (String.ofList (List.replicate n 'a')) = n := by
  rw [Text.Utf8.size]
  induction n with
  | zero => rfl
  | succ n ih =>
    rw [List.replicate_succ', String.ofList_append, String.utf8ByteSize_append, ih]
    rfl

theorem isPlain_of_mem_replicate (n : Nat) :
    ∀ c ∈ (String.ofList (List.replicate n 'a')).toList, Text.Form.isPlain c = true := by
  intro c hc
  rw [String.toList_ofList] at hc
  rw [List.eq_of_mem_replicate hc]
  decide

/-- An administrator asks for segments, one at a time, and is shown the first of two; but nothing can be sent to what its
link leads to. -/
theorem not_walk_padding : ∃ d : Dispatcher World Segment, byDefault.dispatcher = .ok d ∧ twoSegments.Reachable ∧
    Request.ofParts? "GET" (oneByOneTarget padding) [("x-roles", "admin")] [] = some (oneByOne padding) ∧
    Page.ofQuery (oneByOne padding).pairs byDefault.config.maxLimit = .ok ⟨1, none⟩ ∧
    (∀ w, w.store = twoSegments → (d.serve (oneByOne padding) w).reply.status = 200) ∧
    ¬∃ version pages, Walk d twoSegments version .segments [("x-roles", "admin")] [] (oneByOneTarget padding) pages none ∧
      ∀ row, row ∈ pages.flatten ↔ row ∈ twoSegments.rows .segments := by
  obtain ⟨d, hd⟩ := exists_dispatcher_byDefault
  have hplain : ∀ c ∈ padding.toList, Text.Form.isPlain c = true := by
    unfold padding
    exact isPlain_of_mem_replicate _
  have hsize : Text.Utf8.size padding = 65500 := by
    unfold padding
    exact size_replicate _
  obtain ⟨hsent, hnone⟩ := not_walk_oneByOne hplain hd (by omega)
  exact ⟨d, hd, reachable_twoSegments, hsent, ofQuery_oneByOne padding, fun w hw => status_oneByOne hd padding hw, hnone⟩

end Service

end Standby
