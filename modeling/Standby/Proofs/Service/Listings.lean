import Standby.Proofs.Engine.Calls
import Standby.Proofs.Engine.Following
import Standby.Proofs.Service.Changes
import Standby.Proofs.Store.Reachable
/-!
# The listings of the service

The three listings read their filters, select the rows of their table that pass, and show a page of them. They differ in
the filters that they read, in the keys that they can be sorted by, and in how they show a row.
-/

namespace Standby

namespace Table

/-- The collection that lists the rows of a table. -/
def collection : Table → String
  | segments => "segments"
  | hosts => "hosts"
  | notifications => "notifications"

def Row : Table → Type
  | segments => Segment
  | hosts => Host
  | notifications => Notification

instance : (t : Table) → Listed t.Row
  | segments => inferInstanceAs (Listed Segment)
  | hosts => inferInstanceAs (Listed Host)
  | notifications => inferInstanceAs (Listed Notification)

/-- The keys that a listing can be sorted by. -/
def sortable : Table → List String
  | segments => Service.segmentSortKeys
  | hosts => Service.hostSortKeys
  | notifications => Service.notificationSortKeys

/-- The key that a listing is sorted by if the query names none. -/
def defaultKey : Table → String
  | segments => "created_at"
  | hosts => "created_at"
  | notifications => "generated_time"

end Table

/-- The rows of a table under their identifiers. -/
def Store.table (s : Store) : (t : Table) → List (String × t.Row)
  | .segments => s.segments
  | .hosts => s.hosts
  | .notifications => s.notifications

def Store.rows (s : Store) (t : Table) : List t.Row := (s.table t).map (·.2)

/-- What a query says under a key, if it says anything, is as it should be. -/
def Query.Admits (q : Query) (key : String) (p : String → Prop) : Prop := ∀ raw, q.first? key = some raw → p raw

namespace Service

/-- A row passes the filters that its listing reads at a version. The hosts of a listing are those of the segment that the
path names, and only from version 1.2 on segments are filtered by whether they are enabled. -/
def Matches (version : Version) (params : List (String × String)) (q : Query) : (t : Table) → t.Row → Prop
  | .segments, (s : Segment) =>
    q.Admits "recovery_method" (· = s.recoveryMethod.name) ∧ q.Admits "service_type" (· = s.serviceType) ∧
      (v1_2.le version = true → q.Admits "enabled" (Flag.ofText? · = some s.enabled))
  | .hosts, (h : Host) =>
    lookup? segmentParam params = some h.segment ∧ q.Admits "type" (· = h.hostType) ∧
      q.Admits "control_attributes" (· = h.controlAttributes) ∧
      q.Admits "on_maintenance" (Flag.ofText? · = some h.onMaintenance) ∧
      q.Admits "reserved" (Flag.ofText? · = some h.reserved)
  | .notifications, (n : Notification) =>
    q.Admits "source_host_uuid" (· = n.sourceHost) ∧ q.Admits "type" (· = n.kind.name) ∧
      q.Admits "status" (· = n.progress.name) ∧
      q.Admits "generated-since" fun raw =>
        ∃ since, Time.Timestamp.strict? raw = some since ∧ since.le n.generatedAt = true

/-- A row as its listing shows it at a version. A host comes with its segment. -/
def IsShown (version : Version) : (t : Table) → t.Row → Json → Prop
  | .segments, (s : Segment), j => j = s.toJson (v1_2.le version)
  | .hosts, (h : Host), j => ∃ segment, j = h.toJson (some segment)
  | .notifications, (n : Notification), j => j = n.toJson none

/-- The body of a page: its rows in order, and the link to the next page if there is one. -/
def IsPage (version : Version) (t : Table) (rows : List t.Row) (next : Option Link) (body : Json) : Prop :=
  ∃ items, List.Forall₂ (IsShown version t) rows items ∧
    body = .obj ((t.collection, .arr items) :: next.toList.map fun link => (t.collection ++ "_links", .arr [link.toJson]))

/-- The handler of a listing. -/
def index (service : Service) : Table → Context → ServiceStep Outcome
  | .segments => service.indexSegments
  | .hosts => service.indexHosts
  | .notifications => service.indexNotifications

/-- The rows that a request selects of a table, whichever page of them it asks for. -/
def Selects (service : Service) (s : Store) (ctx : Context) : (t : Table) → (t.Row → Bool) → Prop
  | .segments, keep =>
    service.policy.authorize ctx.caller (Policy.actionName "segments" "index") = .ok () ∧
      ∃ f, segmentFilter ctx = .ok f ∧ keep = f.keeps
  | .hosts, keep =>
    service.policy.authorize ctx.caller (Policy.actionName "hosts" "index") = .ok () ∧
      ∃ id g f, ctx.param segmentParam = .ok id ∧ lookup? id s.segments = some g ∧ hostFilter ctx g = .ok f ∧
        keep = f.keeps
  | .notifications, keep =>
    service.policy.authorize ctx.caller (Policy.actionName "notifications" "index") = .ok () ∧
      ∃ f, notificationFilter ctx = .ok f ∧ keep = f.keeps

variable {service : Service} {s : Store} {ctx ctx' : Context} {t : Table} {version : Version}

/-! ## Filters -/

theorem filter_congr {α : Type} {name : String} {read : String → Option α}
    (h : ctx'.query.first? name = ctx.query.first? name) : filter ctx' name read = filter ctx name read := by
  rw [filter, filter, h]

/-- A filter that is read lets through what the query admits. -/
theorem all_iff_of_filter {α : Type} {name : String} {read : String → Option α} {o : Option α}
    (h : filter ctx name read = .ok o) (p : α → Bool) :
    o.all p = true ↔ ctx.query.Admits name fun raw => ∃ a, read raw = some a ∧ p a = true := by
  unfold filter at h
  unfold Query.Admits
  cases hq : ctx.query.first? name with
  | none =>
    rw [hq] at h
    cases h
    simp
  | some raw =>
    rw [hq] at h
    simp only at h
    cases hr : read raw with
    | none => rw [hr] at h; cases h
    | some a =>
      rw [hr] at h
      cases h
      simp [hr]

theorem all_beq_iff_of_filter {α : Type} [DecidableEq α] {name : String} {read : String → Option α} {o : Option α}
    (h : filter ctx name read = .ok o) (x : α) :
    o.all (· == x) = true ↔ ctx.query.Admits name fun raw => read raw = some x := by
  rw [all_iff_of_filter h]
  refine forall₂_congr fun raw _ => ?_
  simp

theorem eq_name_of_find? {α : Type} {name : α → String} {all : List α} {raw : String} {a : α}
    (h : (all.find? fun b => name b == raw) = some a) : raw = name a := by
  have hname := List.find?_some (p := fun b => name b == raw) h
  exact (beq_iff_eq.1 hname).symm

theorem recoveryMethod_ofName?_iff {raw : String} {m : RecoveryMethod} :
    RecoveryMethod.ofName? raw = some m ↔ raw = m.name := by
  refine ⟨eq_name_of_find?, ?_⟩
  rintro rfl
  cases m <;> decide

theorem failureKind_ofName?_iff {raw : String} {k : FailureKind} : FailureKind.ofName? raw = some k ↔ raw = k.name := by
  refine ⟨eq_name_of_find?, ?_⟩
  rintro rfl
  cases k <;> decide

theorem progress_ofName?_iff {raw : String} {p : Progress} : Progress.ofName? raw = some p ↔ raw = p.name := by
  refine ⟨eq_name_of_find?, ?_⟩
  rintro rfl
  cases p <;> decide

theorem segmentFilter_eq_ok {f : SegmentFilter} :
    segmentFilter ctx = .ok f ↔
      filter ctx "recovery_method" RecoveryMethod.ofName? = .ok f.recoveryMethod ∧
        filter ctx "service_type" some = .ok f.serviceType ∧
        (if ctx.isAtLeast v1_2 then filter ctx "enabled" Flag.ofText? else .ok none) = .ok f.enabled := by
  have hfilter : segmentFilter ctx =
      (filter ctx "recovery_method" RecoveryMethod.ofName? >>= fun recoveryMethod =>
        filter ctx "service_type" some >>= fun serviceType =>
          (if ctx.isAtLeast v1_2 then filter ctx "enabled" Flag.ofText? else .ok none) >>= fun enabled =>
            .ok { recoveryMethod, serviceType, enabled }) := by
    unfold segmentFilter
    split <;> rfl
  simp only [hfilter, bind_eq_ok]
  constructor
  · rintro ⟨recoveryMethod, hmethod, serviceType, htype, enabled, henabled, h⟩
    cases h
    exact ⟨hmethod, htype, henabled⟩
  · rintro ⟨hmethod, htype, henabled⟩
    exact ⟨_, hmethod, _, htype, _, henabled, rfl⟩

theorem hostFilter_eq_ok {g : Segment} {f : HostFilter} :
    hostFilter ctx g = .ok f ↔
      (f.segment = some g.uuid ∧ f.name = none) ∧ filter ctx "type" some = .ok f.hostType ∧
        filter ctx "control_attributes" some = .ok f.controlAttributes ∧
        filter ctx "on_maintenance" Flag.ofText? = .ok f.onMaintenance ∧
        filter ctx "reserved" Flag.ofText? = .ok f.reserved := by
  simp only [hostFilter, bind_eq_ok]
  constructor
  · rintro ⟨hostType, htype, controlAttributes, hcontrol, onMaintenance, hmaintenance, reserved, hreserved, h⟩
    cases h
    exact ⟨⟨rfl, rfl⟩, htype, hcontrol, hmaintenance, hreserved⟩
  · rintro ⟨⟨hsegment, hname⟩, htype, hcontrol, hmaintenance, hreserved⟩
    refine ⟨_, htype, _, hcontrol, _, hmaintenance, _, hreserved, ?_⟩
    cases f
    cases hsegment
    cases hname
    rfl

theorem notificationFilter_eq_ok {f : NotificationFilter} :
    notificationFilter ctx = .ok f ↔
      filter ctx "source_host_uuid" some = .ok f.sourceHost ∧ filter ctx "type" FailureKind.ofName? = .ok f.kind ∧
        filter ctx "status" Progress.ofName? = .ok f.progress ∧
        filter ctx "generated-since" Time.Timestamp.strict? = .ok f.since := by
  simp only [notificationFilter, bind_eq_ok]
  constructor
  · rintro ⟨sourceHost, hhost, kind, hkind, progress, hprogress, since, hsince, h⟩
    cases h
    exact ⟨hhost, hkind, hprogress, hsince⟩
  · rintro ⟨hhost, hkind, hprogress, hsince⟩
    exact ⟨_, hhost, _, hkind, _, hprogress, _, hsince, rfl⟩

/-- What a request selects is what the filters of its query admit. -/
theorem Selects.keep_iff {keep : t.Row → Bool} (h : service.Selects s ctx t keep) (hs : s.Tabled)
    (hversion : ctx.version = some version) (row : t.Row) :
    keep row = true ↔ Matches version ctx.params ctx.query t row := by
  cases t with
  | segments =>
    obtain ⟨-, f, hf, rfl⟩ := h
    obtain ⟨hmethod, htype, henabled⟩ := segmentFilter_eq_ok.1 hf
    have hlatest : f.enabled.all (· == row.enabled) = true ↔
        (v1_2.le version = true → ctx.query.Admits "enabled" (Flag.ofText? · = some row.enabled)) := by
      have hat : ctx.isAtLeast v1_2 = v1_2.le version := by simp [Context.isAtLeast, hversion]
      rw [hat] at henabled
      cases hle : v1_2.le version with
      | true =>
        rw [hle, if_pos rfl] at henabled
        simp [all_beq_iff_of_filter henabled]
      | false =>
        rw [hle] at henabled
        simp [← Except.ok.inj henabled]
    simp only [SegmentFilter.keeps, Bool.and_eq_true, Matches, and_assoc, hlatest, all_beq_iff_of_filter hmethod,
      all_beq_iff_of_filter htype, recoveryMethod_ofName?_iff, Option.some.injEq]
  | hosts =>
    obtain ⟨-, id, g, f, hid, hg, hf, rfl⟩ := h
    obtain ⟨⟨hsegment, hname⟩, htype, hcontrol, hmaintenance, hreserved⟩ := hostFilter_eq_ok.1 hf
    -- The segment that is loaded is the one that the path names.
    have hown : g.uuid = id := hs.segments.own (id, g) (mem_of_lookup?_eq_some hg)
    have hparam : lookup? segmentParam ctx.params = some id := by
      unfold Context.param at hid
      split at hid
      · cases hid
        assumption
      · cases hid
    simp only [HostFilter.keeps, Bool.and_eq_true, Matches, and_assoc, hsegment, hname, hown, hparam, Option.all_some,
      Option.all_none, beq_iff_eq, true_and, Option.some.injEq, all_beq_iff_of_filter htype,
      all_beq_iff_of_filter hcontrol, all_beq_iff_of_filter hmaintenance, all_beq_iff_of_filter hreserved]
  | notifications =>
    obtain ⟨-, f, hf, rfl⟩ := h
    obtain ⟨hhost, hkind, hprogress, hsince⟩ := notificationFilter_eq_ok.1 hf
    simp only [NotificationFilter.keeps, Bool.and_eq_true, Matches, and_assoc, all_beq_iff_of_filter hhost,
      all_beq_iff_of_filter hkind, all_beq_iff_of_filter hprogress, all_iff_of_filter hsince,
      failureKind_ofName?_iff, progress_ofName?_iff, Option.some.injEq]

/-- Whatever page of it is asked for, a request selects the same rows. -/
theorem Selects.of_samePages {keep : t.Row → Bool} (h : service.Selects s ctx t keep) (hcaller : ctx'.caller = ctx.caller)
    (hversion : ctx'.version = ctx.version) (hparams : ctx'.params = ctx.params)
    (hquery : ctx.query.SamePages ctx'.query) : service.Selects s ctx' t keep := by
  have hfilter : ∀ {α : Type} {name : String} {read : String → Option α}, name ≠ "limit" → name ≠ "marker" →
      filter ctx' name read = filter ctx name read := fun hl hm => filter_congr (hquery.first? hl hm)
  have hat : ctx'.isAtLeast v1_2 = ctx.isAtLeast v1_2 := by rw [Context.isAtLeast, Context.isAtLeast, hversion]
  cases t with
  | segments =>
    obtain ⟨hallowed, f, hf, rfl⟩ := h
    refine ⟨by rw [hcaller]; exact hallowed, f, ?_, rfl⟩
    simp only [segmentFilter_eq_ok] at hf ⊢
    rwa [hfilter (by decide) (by decide), hfilter (by decide) (by decide), hfilter (by decide) (by decide), hat]
  | hosts =>
    obtain ⟨hallowed, id, g, f, hid, hg, hf, rfl⟩ := h
    have hparam : ctx'.param segmentParam = ctx.param segmentParam := by rw [Context.param, Context.param, hparams]
    refine ⟨by rw [hcaller]; exact hallowed, id, g, f, hparam.trans hid, hg, ?_, rfl⟩
    simp only [hostFilter_eq_ok] at hf ⊢
    rwa [hfilter (by decide) (by decide), hfilter (by decide) (by decide), hfilter (by decide) (by decide),
      hfilter (by decide) (by decide)]
  | notifications =>
    obtain ⟨hallowed, f, hf, rfl⟩ := h
    refine ⟨by rw [hcaller]; exact hallowed, f, ?_, rfl⟩
    simp only [notificationFilter_eq_ok] at hf ⊢
    rwa [hfilter (by decide) (by decide), hfilter (by decide) (by decide), hfilter (by decide) (by decide),
      hfilter (by decide) (by decide)]

/-! ## Handlers -/

/-- The end of the handler of a listing: the page that the query asks for is looked up and shown. -/
def showPage (service : Service) (ctx : Context) (t : Table) (keep : t.Row → Bool) (toJson : t.Row → Json) :
    ServiceStep Outcome := do
  let (page, slice) ← orFail (service.paging ctx t.sortable t.defaultKey)
  let rows ← orRefuse (Store.list ((← world).store.table t) keep slice)
  pure (pageBody ctx t.collection page rows toJson)

section Handlers
variable {keep : t.Row → Bool} {toJson : t.Row → Json} {page : Page} {sort : List (String × SortDir)}
  {rows : List t.Row} {o : Outcome} {w w' : Workspace World Segment}

theorem run_showPage (toJson : t.Row → Json) (w : Workspace World Segment)
    (hpage : Page.ofQuery ctx.query service.config.maxLimit = .ok page)
    (hsort : sortKeys ctx.query t.sortable t.defaultKey = .ok sort)
    (hrows : Listing.slice? { sort, limit := some page.limit, marker := page.marker }
      ((w.world.store.rows t).filter keep) = some rows) :
    (service.showPage ctx t keep toJson).run.run w = (.ok (pageBody ctx t.collection page rows toJson), w) := by
  have hpaging : service.paging ctx t.sortable t.defaultKey =
      .ok (page, { sort, limit := some page.limit, marker := page.marker }) := by
    rw [paging, hpage, hsort]
    rfl
  have hlist : Store.list (w.world.store.table t) keep { sort, limit := some page.limit, marker := page.marker } =
      .ok rows := by
    rw [Store.rows] at hrows
    rw [Store.list, hrows]
  refine run_bind_eq_ok.2 ⟨_, w, by rw [hpaging]; rfl, ?_⟩
  refine run_bind_eq_ok.2 ⟨_, w, rfl, ?_⟩
  exact run_bind_eq_ok.2 ⟨rows, w, by rw [hlist]; rfl, rfl⟩

theorem exists_pageBody (page : Page) (rows : List t.Row) (hshown : ∀ row, IsShown version t row (toJson row)) :
    ∃ body, pageBody ctx t.collection page rows toJson = .value body ∧
      IsPage version t rows (page.next? ctx.baseUrl ctx.path ctx.query rows.length (rows.getLast?.map Listed.uuid)) body :=
  ⟨_, rfl, rows.map toJson, List.forall₂_map_right_iff.2 (List.forall₂_same.2 fun row _ => hshown row), rfl⟩

theorem paging_of_showPage (h : (service.showPage ctx t keep toJson).run.run w = (.ok o, w')) :
    ∃ page sort, Page.ofQuery ctx.query service.config.maxLimit = .ok page ∧
      sortKeys ctx.query t.sortable t.defaultKey = .ok sort := by
  obtain ⟨⟨page, slice⟩, w₁, hpaging, -⟩ := run_bind_eq_ok.1 h
  obtain ⟨page', hpage, hsort⟩ := bind_eq_ok.1 (orFail_eq_ok hpaging).1
  obtain ⟨sort, hsort, -⟩ := bind_eq_ok.1 hsort
  exact ⟨page', sort, hpage, hsort⟩

/-- The segment that the path names is loaded into the cache. -/
theorem run_loadSegment_eq_ok {g : Segment} :
    (loadSegment ctx).run.run w = (.ok g, w') ↔
      ∃ id, ctx.param segmentParam = .ok id ∧ lookup? id w.world.store.segments = some g ∧
        w' = { w with cache := w.cache.insert segmentCache g.uuid g } := by
  constructor
  · intro h
    obtain ⟨id, w₁, hparam, h₁⟩ := run_bind_eq_ok.1 h
    obtain ⟨hid, rfl⟩ := orFail_eq_ok hparam
    obtain ⟨present, w₂, hworld, h₂⟩ := run_bind_eq_ok.1 h₁
    cases hworld
    obtain ⟨row, w₃, hrow, h₃⟩ := run_bind_eq_ok.1 h₂
    obtain ⟨hrow, rfl⟩ := orFail_eq_ok hrow
    cases h₃
    have hfound := mapError_eq_ok.1 hrow
    unfold Store.segment Store.find at hfound
    split at hfound
    · rename_i hg
      cases hfound
      exact ⟨id, hid, hg, rfl⟩
    · cases hfound
  · rintro ⟨id, hid, hg, rfl⟩
    have hfound : w.world.store.segment id = .ok g := by rw [Store.segment, Store.find, hg]
    refine run_bind_eq_ok.2 ⟨id, w, by rw [hid]; rfl, run_bind_eq_ok.2 ⟨w.world, w, rfl, ?_⟩⟩
    exact run_bind_eq_ok.2 ⟨g, w, by rw [hfound]; rfl, rfl⟩

/-- A workspace after a segment has been loaded. -/
def loading (w : Workspace World Segment) (g : Segment) : Workspace World Segment :=
  { w with cache := w.cache.insert segmentCache g.uuid g }

/-- A handler of hosts succeeds if its caller may do what it does, the segment of the path is stored, and the rest of it
succeeds. -/
theorem run_loaded_eq_ok {resource action : String} {rest : Segment → ServiceStep Outcome} :
    (do service.authorize ctx resource action; let s ← loadSegment ctx; rest s).run.run w = (.ok o, w') ↔
      service.policy.authorize ctx.caller (Policy.actionName resource action) = .ok () ∧
        ∃ id g, lookup? segmentParam ctx.params = some id ∧ lookup? id w.world.store.segments = some g ∧
          (rest g).run.run (loading w g) = (.ok o, w') := by
  rw [authorize, run_orFail_bind_eq_ok]
  constructor
  · rintro ⟨⟨⟩, hallowed, h⟩
    obtain ⟨g, w₁, hload, hrest⟩ := run_bind_eq_ok.1 h
    obtain ⟨id, hid, hg, rfl⟩ := run_loadSegment_eq_ok.1 hload
    exact ⟨hallowed, id, g, param_eq_ok.1 hid, hg, hrest⟩
  · rintro ⟨hallowed, id, g, hid, hg, hrest⟩
    exact ⟨(), hallowed, run_bind_eq_ok.2 ⟨g, _, run_loadSegment_eq_ok.2 ⟨id, param_eq_ok.2 hid, hg, rfl⟩, hrest⟩⟩

/-- With the rows selected the handler of a listing comes down to its end. -/
theorem Selects.run_index (h : service.Selects w.world.store ctx t keep) (hversion : ctx.version = some version) :
    ∃ toJson w₁, (service.index t ctx).run.run w = (service.showPage ctx t keep toJson).run.run w₁ ∧
      w₁.world = w.world ∧ ∀ row, IsShown version t row (toJson row) := by
  cases t with
  | segments =>
    obtain ⟨hallowed, f, hf, rfl⟩ := h
    have hat : ctx.isAtLeast v1_2 = v1_2.le version := by simp [Context.isAtLeast, hversion]
    refine ⟨segmentJson ctx, w, ?_, rfl, fun row => congrArg _ hat⟩
    show (service.authorize ctx "segments" "index" >>= _ : ServiceStep Outcome).run.run w = _
    rw [authorize, hallowed]
    show (orFail (segmentFilter ctx) >>= _ : ServiceStep Outcome).run.run w = _
    rw [hf]
    rfl
  | hosts =>
    obtain ⟨hallowed, id, g, f, hid, hg, hf, rfl⟩ := h
    refine ⟨hostJson g, { w with cache := w.cache.insert segmentCache g.uuid g }, ?_, rfl, fun row => ⟨_, rfl⟩⟩
    have hload := run_loadSegment_eq_ok.2 ⟨id, hid, hg, rfl⟩
    show (service.authorize ctx "hosts" "index" >>= _ : ServiceStep Outcome).run.run w = _
    rw [authorize, hallowed]
    show (loadSegment ctx >>= _ : ServiceStep Outcome).run.run w = _
    rw [run_bind, hload]
    show (orFail (hostFilter ctx g) >>= _ : ServiceStep Outcome).run.run _ = _
    rw [hf]
    rfl
  | notifications =>
    obtain ⟨hallowed, f, hf, rfl⟩ := h
    refine ⟨_, w, ?_, rfl, fun row => rfl⟩
    show (service.authorize ctx "notifications" "index" >>= _ : ServiceStep Outcome).run.run w = _
    rw [authorize, hallowed]
    show (orFail (notificationFilter ctx) >>= _ : ServiceStep Outcome).run.run w = _
    rw [hf]
    rfl

/-- A handler of a listing that succeeds has selected rows. -/
theorem selects_of_index (h : (service.index t ctx).run.run w = (.ok o, w')) :
    ∃ keep, service.Selects w.world.store ctx t keep := by
  cases t with
  | segments =>
    obtain ⟨⟨⟩, w₁, hallowed, h⟩ := run_bind_eq_ok.1 h
    obtain ⟨f, w₂, hf, -⟩ := run_bind_eq_ok.1 h
    exact ⟨f.keeps, (orFail_eq_ok hallowed).1, f, (orFail_eq_ok hf).1, rfl⟩
  | hosts =>
    obtain ⟨⟨⟩, w₁, hauthorize, h₁⟩ := run_bind_eq_ok.1 h
    obtain ⟨hallowed, rfl⟩ := orFail_eq_ok hauthorize
    obtain ⟨g, w₂, hload, h₂⟩ := run_bind_eq_ok.1 h₁
    obtain ⟨f, w₃, hf, -⟩ := run_bind_eq_ok.1 h₂
    obtain ⟨id, hid, hg, -⟩ := run_loadSegment_eq_ok.1 hload
    exact ⟨f.keeps, hallowed, id, g, f, hid, hg, (orFail_eq_ok hf).1, rfl⟩
  | notifications =>
    obtain ⟨⟨⟩, w₁, hallowed, h⟩ := run_bind_eq_ok.1 h
    obtain ⟨f, w₂, hf, -⟩ := run_bind_eq_ok.1 h
    exact ⟨f.keeps, (orFail_eq_ok hallowed).1, f, (orFail_eq_ok hf).1, rfl⟩

end Handlers

end Service

end Standby
