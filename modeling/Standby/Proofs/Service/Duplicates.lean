import Standby.Proofs.Engine.Calls
import Standby.Proofs.Engine.Selection
import Standby.Proofs.Service.Bindings
import Standby.Proofs.Store.Reachable
import Standby.Proofs.Time.Order
/-!
# No failure is accepted twice

Of two stored reports of the same failure, the earlier accepted one was generated before the detection interval of
the other began, in whatever order they arrived. This holds after every run of requests, since accepting a report is
the only thing that adds one, and a report with a higher id has been checked against all with lower ones.
-/

namespace Standby.Service

/-- A request, with the queue and the time that it meets. -/
structure Visit where
  request : Request
  queue : Queue
  clock : Time.Instant

/-- The store after a request. -/
def storeAfter (d : Dispatcher World Segment) (s : Store) (v : Visit) : Store :=
  (d.serve v.request ⟨s, v.queue, v.clock⟩).world.store

/-- The store after a run of requests that begins with the empty store. -/
def storeAfterRun (d : Dispatcher World Segment) (visits : List Visit) : Store := visits.foldl (storeAfter d) .empty

/-- The notifications of a store are spaced if those with a lower id lie before the interval of those with a higher
one that report the same failure. No id is above the last one given out, and all times are in range. -/
structure Spaced (interval : Nat) (s : Store) : Prop where
  id_le : ∀ n ∈ s.notifications.map (·.2), n.id ≤ s.lastNotificationId
  inRange : ∀ n ∈ s.notifications.map (·.2), n.generatedAt.InRange
  before : ∀ i ∈ s.notifications.map (·.2), ∀ j ∈ s.notifications.map (·.2), i.id < j.id →
    i.sourceHost = j.sourceHost → i.kind = j.kind → i.payload.same j.payload = true →
    ∃ start, j.generatedAt.sub? interval = some start ∧ i.generatedAt.Before start

theorem spaced_empty (interval : Nat) : Spaced interval .empty := by
  constructor
  · intro n hn
    cases hn
  · intro n hn
    cases hn
  · intro i hi
    cases hi

/-! ## What a change does to the notifications -/

variable {service : Service}

/-- Only accepting a notification changes the table of notifications. -/
theorem Change.notifications {w w' : World} (h : service.Change w w') :
    (w'.store.notifications = w.store.notifications ∧ w'.store.lastNotificationId = w.store.lastNotificationId) ∨
      ∃ body draft host, NotificationDraft.ofBody? body = some draft ∧
        (∀ n ∈ w.store.notifications.map (·.2), ¬Repeats service.config.duplicateInterval host draft n) ∧
        w' = service.accepted w host draft := by
  cases h with
  | createSegment h =>
    obtain ⟨-, -, rfl⟩ := Store.createSegment_eq_ok.1 h
    exact .inl ⟨rfl, rfl⟩
  | updateSegment h =>
    obtain ⟨_, _, -, -, -, rfl⟩ := Store.updateSegment_eq_ok.1 h
    exact .inl ⟨rfl, rfl⟩
  | destroySegment h =>
    obtain ⟨_, -, rfl⟩ := Store.destroySegment_eq_ok.1 h
    exact .inl ⟨rfl, rfl⟩
  | createHost h =>
    obtain ⟨-, -, -, rfl⟩ := Store.createHost_eq_ok.1 h
    exact .inl ⟨rfl, rfl⟩
  | updateHost h =>
    obtain ⟨_, _, -, -, -, rfl⟩ := Store.updateHost_eq_ok.1 h
    exact .inl ⟨rfl, rfl⟩
  | destroyHost h =>
    obtain ⟨_, -, rfl⟩ := Store.destroyHost_eq_ok.1 h
    exact .inl ⟨rfl, rfl⟩
  | accept hbody hhost hname hready hnew => exact .inr ⟨_, _, _, hbody, hnew, rfl⟩

/-- The conversions of the interval, which may not fit into a signed number of 64 bits or a span, and the check of the
range come down to one: an interval that is too long reaches back beyond the first instant. -/
theorem duplicateSince_eq {interval : Nat} {t : Time.Instant} (h : t.InRange) :
    duplicateSince interval t = (t.sub? interval).getD .first := by
  have hspan : Time.Span.longest.seconds < 9223372036854775808 := by decide
  rw [duplicateSince, detectionSpan, signed?]
  by_cases hlong : Time.Span.longest.seconds < interval
  · rw [Time.Instant.sub?_eq_none h hlong]
    split
    · rw [Option.bind_some, Time.Span.ofSeconds?, if_neg (Nat.not_le.2 hlong), Option.getD_none,
        Time.Instant.minus?_longest h]
    · rw [Option.bind_none, Option.getD_none, Time.Instant.minus?_longest h]
  · rw [if_pos (Nat.lt_of_le_of_lt (Nat.not_lt.1 hlong) hspan), Option.bind_some, Time.Span.ofSeconds?,
      if_pos (Nat.not_lt.1 hlong), Option.getD_some, Time.Instant.minus?_seconds]

theorem duplicateSince_le {interval : Nat} {t : Time.Instant} (h : t.InRange) :
    (duplicateSince interval t).le t = true := by
  unfold duplicateSince
  cases hminus : t.minus? (detectionSpan interval) with
  | none => exact Time.Instant.first_le h.1
  | some start => exact (Time.Instant.minus?_eq_some hminus).1

/-- A notification that is no duplicate lies after the interval of an old one of the same failure, wherever the
interval begins. -/
theorem before_of_not_repeats {interval : Nat} {host : Host} {draft : NotificationDraft} {n : Notification}
    (hr : ¬Repeats interval host draft n) (hdraft : draft.generatedAt.InRange) (hrange : n.generatedAt.InRange)
    (hhost : n.sourceHost = host.uuid) (hkind : n.kind = draft.kind) (hpayload : n.payload.same draft.payload = true) :
    ∃ start, draft.generatedAt.sub? interval = some start ∧ n.generatedAt.Before start := by
  have hsince : ¬(duplicateSince interval draft.generatedAt).le n.generatedAt = true := fun h =>
    hr ⟨hhost, hkind, h, hpayload⟩
  rw [duplicateSince_eq hdraft] at hsince
  cases hsub : draft.generatedAt.sub? interval with
  | none =>
    -- The interval reaches back to the first instant, and no stored time is before that.
    rw [hsub] at hsince
    exact absurd (Time.Instant.first_le hrange.1) hsince
  | some start =>
    rw [hsub] at hsince
    exact ⟨start, rfl, Time.Instant.before_iff_not_le.2 hsince⟩

theorem notifications_filed (w : World) (host : Host) (draft : NotificationDraft) :
    (service.filed w host draft).2.notifications =
      insertKey (service.mint .notifications (w.store.lastNotificationId + 1)) (service.filed w host draft).1
        w.store.notifications := rfl

theorem mem_notifications_accepted {w : World} {host : Host} {draft : NotificationDraft} {n : Notification}
    (h : n ∈ (service.accepted w host draft).store.notifications.map (·.2)) :
    n = (service.filed w host draft).1 ∨ n ∈ w.store.notifications.map (·.2) := by
  obtain ⟨p, hp, rfl⟩ := List.mem_map.1 h
  rcases mem_insertKey hp with rfl | hp
  · exact .inl rfl
  · exact .inr (List.mem_map.2 ⟨p, hp, rfl⟩)

/-- Every change keeps notifications spaced. -/
theorem Spaced.change {w w' : World} (hs : Spaced service.config.duplicateInterval w.store)
    (h : service.Change w w') : Spaced service.config.duplicateInterval w'.store := by
  rcases h.notifications with ⟨hrows, hlast⟩ | ⟨body, draft, host, hbody, hnew, rfl⟩
  · constructor
    · rw [hrows, hlast]
      exact hs.id_le
    · rw [hrows]
      exact hs.inRange
    · rw [hrows]
      exact hs.before
  · -- The new notification has the highest id, so it is the later one of every pair that it is in.
    have hid : ∀ n ∈ w.store.notifications.map (·.2), n.id < (service.filed w host draft).1.id := fun n hn =>
      Nat.lt_succ_of_le (hs.id_le n hn)
    constructor
    · intro n hn
      rcases mem_notifications_accepted hn with rfl | hn
      · exact Nat.le_refl _
      · exact Nat.le_of_lt (hid n hn)
    · intro n hn
      rcases mem_notifications_accepted hn with rfl | hn
      · exact NotificationDraft.inRange_of_ofBody? hbody
      · exact hs.inRange n hn
    · intro i hi j hj hlt hhost hkind hpayload
      rcases mem_notifications_accepted hi with rfl | hi <;> rcases mem_notifications_accepted hj with rfl | hj
      · exact absurd hlt (Nat.lt_irrefl _)
      · exact absurd (hid j hj) (Nat.lt_asymm hlt)
      · exact before_of_not_repeats (hnew i hi) (NotificationDraft.inRange_of_ofBody? hbody) (hs.inRange i hi) hhost hkind
          hpayload
      · exact hs.before i hi j hj hlt hhost hkind hpayload

/-! ## Runs -/

section Runs
variable {d : Dispatcher World Segment} (hd : service.dispatcher = .ok d)
include hd

/-- What every change keeps, runs of requests keep. -/
theorem keeps_foldl {P : Store → Prop} (hchange : ∀ {w w' : World}, service.Change w w' → P w.store → P w'.store)
    {s : Store} (hs : P s) (visits : List Visit) : P (visits.foldl (storeAfter d) s) := by
  induction visits generalizing s with
  | nil => exact hs
  | cons v visits ih =>
    rw [List.foldl_cons]
    refine ih ?_
    rcases serve_changes hd v.request ⟨s, v.queue, v.clock⟩ with h | h
    · rw [storeAfter, h]
      exact hs
    · exact hchange h hs

theorem Spaced.foldl {s : Store} (hs : Spaced service.config.duplicateInterval s) (visits : List Visit) :
    Spaced service.config.duplicateInterval (visits.foldl (storeAfter d) s) :=
  keeps_foldl hd (fun h hs => Spaced.change hs h) hs visits

/-- **No failure is accepted twice within the detection interval.** After every run of requests, of two stored reports
of the same failure the one with the lower id was generated before the interval that ends with the other began; if
that interval would begin before the first instant of all, then there are no two. The interval of a report never
begins after the report, and the search for a duplicate always comes to a decision. -/
theorem storeAfterRun_spaced (visits : List Visit) :
    (∀ i ∈ (storeAfterRun d visits).notifications.map (·.2), ∀ j ∈ (storeAfterRun d visits).notifications.map (·.2),
      i.id < j.id → i.sourceHost = j.sourceHost → i.kind = j.kind → i.payload.same j.payload = true →
        ∃ start, j.generatedAt.sub? service.config.duplicateInterval = some start ∧ i.generatedAt.Before start) ∧
      ∀ body draft, NotificationDraft.ofBody? body = some draft →
        (duplicateSince service.config.duplicateInterval draft.generatedAt).le draft.generatedAt = true ∧
          ∀ host w, ∃ found, (isDuplicate service.config.duplicateInterval (storeAfterRun d visits) host draft).run.run
            w = (.ok found, w) := by
  refine ⟨((spaced_empty _).foldl hd visits).before, fun body draft hbody => ⟨?_, fun host w => ?_⟩⟩
  · exact duplicateSince_le (NotificationDraft.inRange_of_ofBody? hbody)
  · obtain ⟨found, hfound, -⟩ := isDuplicate_eq service.config.duplicateInterval (storeAfterRun d visits) host draft
    exact ⟨found, hfound w⟩

end Runs

/-! ## What becomes of a report -/

section Reporting
variable {d : Dispatcher World Segment} {req : Request}
variable (hd : service.dispatcher = .ok d) (a : d.Admitted req) (hcollection : a.route.resource = "notifications")
  (htarget : a.route.target = .collection) (hpost : req.method = "POST")
  (hauthorize : service.policy.authorize a.ctx.caller (Policy.actionName "notifications" "create") = .ok ())
  (hchecked : Schemas.createNotification.check (a.ctx.body.getD .null) = .ok ()) {draft : NotificationDraft}
  (hbody : NotificationDraft.ofBody? (a.ctx.body.getD .null) = some draft) {w : World}
  (hknown : ∃ host ∈ w.store.hosts.map (·.2), host.name = draft.hostName)
  (hready : ∀ host ∈ w.store.hosts.map (·.2), host.name = draft.hostName → host.onMaintenance = false)
include hd hcollection htarget hpost hauthorize hchecked hbody hknown hready

/-- A report that passes all other checks is refused exactly if a stored notification makes it a duplicate. -/
theorem serve_report_cases :
    ∃ host ∈ w.store.hosts.map (·.2), host.name = draft.hostName ∧
      ((∃ n ∈ w.store.notifications.map (·.2), Repeats service.config.duplicateInterval host draft n) ∧
          (d.serve req w).reply = d.fault req a.version (duplicateError draft) ∧ (d.serve req w).world = w ∨
        (∀ n ∈ w.store.notifications.map (·.2), ¬Repeats service.config.duplicateInterval host draft n) ∧
          (d.serve req w).reply.status = 202 ∧ (d.serve req w).world = service.accepted w host draft) := by
  have hcreate : a.ctx.action = "create" := by
    have hnamed := a.named
    rw [hpost, htarget] at hnamed
    exact (Except.ok.inj hnamed).symm
  have hbound : a.handlers.resolve a.ctx.action a.ctx.effectiveVersion =
      some { handler := service.createNotification, schema := some Schemas.createNotification, status := 202 } := by
    rw [hcreate]
    exact (resolve_iff_of_admitted (t := .notifications) hd a hcollection (by simp [htarget]) (by decide)
      (by decide)).2 .createNotification
  have hhooks := decorates_of_admitted hd a
  obtain ⟨verdict, hverdict, hrun⟩ := exists_verdict service a.ctx w.store
  have hcall := hrun (a.ctx.start w) rfl
  cases hverdict with
  | unauthorized h => cases hauthorize.symm.trans h
  | unreadable h => cases hbody.symm.trans h
  | unknown hbody' h =>
    cases hbody.symm.trans hbody'
    obtain ⟨host, hhost, hname⟩ := hknown
    exact absurd hname (h host hhost)
  | maintenance hbody' hhost hname h =>
    cases hbody.symm.trans hbody'
    cases (hready _ hhost hname).symm.trans h
  | duplicate hbody' hhost hname hready hn h =>
    cases hbody.symm.trans hbody'
    exact ⟨_, hhost, hname, .inl ⟨⟨_, hn, h⟩, a.serve_of_failure hhooks hbound (Action.accepts_start rfl hchecked) hcall⟩⟩
  | accepted hbody' hhost hname hready hnew =>
    cases hbody.symm.trans hbody'
    exact ⟨_, hhost, hname, .inr ⟨hnew,
      a.serve_of_call hhooks hbound (Action.accepts_start rfl hchecked) hcall (isPlain_wrap _ _)⟩⟩

end Reporting

/-! ## Two reports -/

def Visit.create (path name : String) (members : List (String × Json)) : Visit where
  request := creating path name members
  queue := { capacity := 4 }
  clock := .first

theorem storeAfter_create (d : Dispatcher World Segment) (s : Store) (path name : String) (members : List (String × Json)) :
    storeAfter d s (.create path name members) =
      (d.serve (creating path name members) ⟨s, { capacity := 4 }, .first⟩).world.store := by
  rw [storeAfter, Visit.create]

/-- A store with a host, of which nothing has been reported. -/
def calm : Store :=
  (Store.run
    [.createSegment "1" .first ⟨"rack", none, .auto, "COMPUTE", none⟩,
      .createHost "1" .first "1" ⟨"node", "KVM", "ssh", none, none⟩]).store

theorem reachable_calm : calm.Reachable := ⟨_, by simp [Store.Op.generated?], rfl⟩

/-- A report of a failure of the host "node". -/
def reportMembers (time : String) (payload : List (String × Json)) : List (String × Json) :=
  [("type", .str "VM"), ("hostname", .str "node"), ("generated_time", .str time), ("payload", .obj payload)]

def Visit.report (time : String) (payload : List (String × Json)) : Visit :=
  .create "/v1/notifications" "notification" (reportMembers time payload)

/-- A host to create. -/
def nodeMembers : List (String × Json) :=
  [("name", .str "node"), ("type", .str "KVM"), ("control_attributes", .str "ssh")]

/-- A segment and a host of it are created, and the same failure of the host is reported twice, five minutes apart. -/
def twoReports : List Visit :=
  [.create "/v1/segments" "segment" rackMembers, .create "/v1/segments/1/hosts" "host" nodeMembers,
    .report "2024-01-01T00:00:00Z" [("event", .str "stop"), ("cpu", .ofNat 2)],
    .report "2024-01-01T00:05:00Z" [("cpu", .ofNat 2), ("event", .str "stop")]]

/-- What the first report says. -/
def firstDraft : NotificationDraft :=
  ⟨.virtualMachine, "node", ⟨1704067200, 0⟩, .obj [("event", .str "stop"), ("cpu", .ofNat 2)]⟩

/-- What the second one says. -/
def secondDraft : NotificationDraft :=
  ⟨.virtualMachine, "node", ⟨1704067500, 0⟩, .obj [("cpu", .ofNat 2), ("event", .str "stop")]⟩

section TwoReports
variable {d : Dispatcher World Segment} (hd : byDefault.dispatcher = .ok d)
include hd

theorem route?_twoReports :
    d.router.route? "/v1/segments" = some ⟨"segments", .collection, [], none, "/v1/segments", none⟩ ∧
      d.router.route? "/v1/segments/1/hosts" =
        some ⟨"hosts", .collection, [(segmentParam, "1")], none, "/v1/segments/1/hosts", none⟩ ∧
      d.router.route? "/v1/notifications" = some ⟨"notifications", .collection, [], none, "/v1/notifications", none⟩ := by
  rw [(router_of_dispatcher rfl hd).1]
  decide +kernel

/-- A segment that the store takes is stored. -/
theorem storeAfter_segment (members : List (String × Json)) (draft : SegmentDraft)
    (hplain : Json.isPlain Json.maxDepth (.obj [("segment", .obj members)]) = true)
    (hchecked : (Schemas.createSegment (v1_2.le v1_0)).check (.obj [("segment", .obj members)]) = .ok ())
    (hdraft : SegmentDraft.ofBody? (.obj [("segment", .obj members)]) = some draft) {s s' : Store} {row : Segment}
    (hstore : s.createSegment (byDefault.mint .segments (s.lastSegmentId + 1)) .first draft = .ok (row, s')) :
    storeAfter d s (.create "/v1/segments" "segment" members) = s' := by
  obtain ⟨a, -, hadmin, hbody, -, hbound⟩ := exists_admitted_creating hd "/v1/segments" "segment" members
    (t := .segments) (route?_twoReports hd).1 hplain (.createSegment (Version.le_refl _))
  have haccepts : (Schemas.createSegment (v1_2.le v1_0)).check (a.ctx.body.getD .null) = .ok () := by
    rw [hbody]
    exact hchecked
  have hcall := run_createSegment_eq_ok (w := a.ctx.start ⟨s, { capacity := 4 }, .first⟩) |>.2
    ⟨authorize_of_isAdmin hadmin _, draft, row, s', by rw [hbody]; exact hdraft, hstore, rfl, rfl⟩
  rw [storeAfter_create, (a.serve_of_call (decorates_of_admitted hd a) hbound (Action.accepts_start rfl haccepts) hcall
    (isPlain_wrap _ _)).2]

/-- A host that the store takes for a stored segment is stored. -/
theorem storeAfter_host {path id : String} (members : List (String × Json)) (draft : HostDraft)
    (hroute : d.router.route? path = some ⟨"hosts", .collection, [(segmentParam, id)], none, path, none⟩)
    (hplain : Json.isPlain Json.maxDepth (.obj [("host", .obj members)]) = true)
    (hchecked : Schemas.createHost.check (.obj [("host", .obj members)]) = .ok ())
    (hdraft : HostDraft.ofBody? (.obj [("host", .obj members)]) = some draft) {s s' : Store} {g : Segment} {row : Host}
    (hsegment : lookup? id s.segments = some g)
    (hstore : s.createHost (byDefault.mint .hosts (s.lastHostId + 1)) .first g.uuid draft = .ok (row, s')) :
    storeAfter d s (.create path "host" members) = s' := by
  obtain ⟨a, -, hadmin, hbody, hparams, hbound⟩ := exists_admitted_creating hd path "host" members (t := .hosts)
    hroute hplain .createHost
  have haccepts : Schemas.createHost.check (a.ctx.body.getD .null) = .ok () := by
    rw [hbody]
    exact hchecked
  have hcall : (byDefault.createHost a.ctx).run.run (a.ctx.start ⟨s, { capacity := 4 }, .first⟩) = (.ok _, _) :=
    run_loaded_eq_ok.2 ⟨authorize_of_isAdmin hadmin _, id, g, by rw [hparams]; rfl, hsegment,
      run_readBody_bind_eq_ok.2 ⟨draft, by rw [hbody]; exact hdraft,
        (run_commit_eq_ok fun _ => Store.atomic_createHost _ _ _ _).2 ⟨row, s', hstore, rfl, rfl⟩⟩⟩
  rw [storeAfter_create, (a.serve_of_call (decorates_of_admitted hd a) hbound (Action.accepts_start rfl haccepts) hcall
    (isPlain_wrap _ _)).2]

theorem storeAfter_rack : storeAfter d .empty (.create "/v1/segments" "segment" rackMembers) = racked := by
  have hmint : byDefault.mint .segments (Store.empty.lastSegmentId + 1) = "1" := by decide +kernel
  obtain ⟨row, hstore⟩ : ∃ row, Store.empty.createSegment (byDefault.mint .segments (Store.empty.lastSegmentId + 1)) .first
      ⟨"rack", none, .auto, "COMPUTE", none⟩ = .ok (row, racked) := by
    rw [hmint]
    exact ⟨_, rfl⟩
  exact storeAfter_segment hd _ _ (by decide +kernel) rfl rfl hstore

theorem storeAfter_node : storeAfter d racked (.create "/v1/segments/1/hosts" "host" nodeMembers) = calm := by
  have hmint : byDefault.mint .hosts (racked.lastHostId + 1) = "1" := by decide +kernel
  obtain ⟨row, hstore⟩ : ∃ row, racked.createHost (byDefault.mint .hosts (racked.lastHostId + 1)) .first "1"
      ⟨"node", "KVM", "ssh", none, none⟩ = .ok (row, calm) := by
    rw [hmint]
    exact ⟨_, rfl⟩
  exact storeAfter_host hd _ _ (route?_twoReports hd).2.1 (by decide +kernel) rfl rfl rfl hstore

/-- A report that no stored notification makes a duplicate is stored. -/
theorem storeAfter_report (time : String) (payload : List (String × Json)) (draft : NotificationDraft)
    (hplain : Json.isPlain Json.maxDepth (.obj [("notification", .obj (reportMembers time payload))]) = true)
    (hchecked : Schemas.createNotification.check (.obj [("notification", .obj (reportMembers time payload))]) = .ok ())
    (hdraft : NotificationDraft.ofBody? (.obj [("notification", .obj (reportMembers time payload))]) = some draft)
    {s : Store} {host : Host} (hhosts : s.hosts.map (·.2) = [host]) (hname : host.name = draft.hostName)
    (hready : host.onMaintenance = false)
    (hnew : ∀ n ∈ s.notifications.map (·.2), ¬Repeats byDefault.config.duplicateInterval host draft n) :
    storeAfter d s (.report time payload) = (byDefault.filed ⟨s, ⟨4, [], true⟩, .first⟩ host draft).2 := by
  obtain ⟨a, hroute, hadmin, hbody, -⟩ := exists_admitted_creating hd "/v1/notifications" "notification"
    (reportMembers time payload) (t := .notifications) (route?_twoReports hd).2.2 hplain .createNotification
  have honly : ∀ host' ∈ s.hosts.map (·.2), host' = host := fun host' h => by
    rw [hhosts] at h
    exact List.mem_singleton.1 h
  obtain ⟨host', hhost', -, ⟨⟨n, hn, hrepeats⟩, -⟩ | ⟨-, -, hworld⟩⟩ :=
    serve_report_cases hd a (by rw [hroute]; rfl) (by rw [hroute]) rfl (authorize_of_isAdmin hadmin _)
      (by rw [hbody]; exact hchecked) (by rw [hbody]; exact hdraft)
      (w := ⟨s, { capacity := 4 }, .first⟩)
      ⟨host, by rw [hhosts]; exact List.mem_singleton_self _, hname⟩ fun host' h _ => by rw [honly host' h, hready]
  · rw [honly host' hhost'] at hrepeats
    exact absurd hrepeats (hnew n hn)
  · rw [honly host' hhost'] at hworld
    rw [Visit.report, storeAfter_create, hworld]
    rfl

/-- The two reports are stored one after the other. -/
theorem storeAfterRun_twoReports : ∃ host, storeAfterRun d twoReports =
    (byDefault.filed ⟨(byDefault.filed ⟨calm, ⟨4, [], true⟩, .first⟩ host firstDraft).2, ⟨4, [], true⟩, .first⟩ host
      secondDraft).2 := by
  obtain ⟨host, hhosts, hname, hready⟩ : ∃ host, calm.hosts.map (·.2) = [host] ∧ host.name = "node" ∧
    host.onMaintenance = false := ⟨_, rfl, rfl, rfl⟩
  have hapart : ¬(duplicateSince byDefault.config.duplicateInterval secondDraft.generatedAt).le firstDraft.generatedAt =
    true := by decide
  have hfirst := storeAfter_report hd "2024-01-01T00:00:00Z" _ firstDraft (by decide +kernel) rfl rfl
    hhosts hname hready nofun
  have hsecond := storeAfter_report hd "2024-01-01T00:05:00Z" _ secondDraft (by decide +kernel) rfl rfl
    (s := (byDefault.filed ⟨calm, ⟨4, [], true⟩, .first⟩ host firstDraft).2) hhosts hname hready fun n hn hrepeats => by
      cases List.mem_singleton.1 hn
      exact hapart hrepeats.since
  refine ⟨host, ?_⟩
  rw [← hsecond, ← hfirst, ← storeAfter_node hd, ← storeAfter_rack hd]
  rfl

/-- Both reports are there then, and they report the same failure. -/
theorem exists_notifications_twoReports : ∃ i ∈ (storeAfterRun d twoReports).notifications.map (·.2),
    ∃ j ∈ (storeAfterRun d twoReports).notifications.map (·.2),
      i.id < j.id ∧ i.sourceHost = j.sourceHost ∧ i.kind = j.kind ∧ i.payload.same j.payload = true := by
  obtain ⟨host, hstore⟩ := storeAfterRun_twoReports hd
  have hmints : byDefault.mint .notifications 1 ≠ byDefault.mint .notifications 2 := by decide +kernel
  have hrows : (storeAfterRun d twoReports).notifications =
      [(byDefault.mint .notifications 1, (byDefault.filed ⟨calm, ⟨4, [], true⟩, .first⟩ host firstDraft).1),
        (byDefault.mint .notifications 2,
          (byDefault.filed ⟨(byDefault.filed ⟨calm, ⟨4, [], true⟩, .first⟩ host firstDraft).2, ⟨4, [], true⟩, .first⟩ host
            secondDraft).1)] := by
    have hfresh : lookup? (byDefault.mint .notifications 2)
        [(byDefault.mint .notifications 1, (byDefault.filed ⟨calm, ⟨4, [], true⟩, .first⟩ host firstDraft).1)] = none := by
      rw [lookup?, if_neg hmints, lookup?]
    rw [hstore, notifications_filed]
    exact insertKey_of_fresh _ hfresh
  rw [hrows]
  have hpayload : firstDraft.payload.same secondDraft.payload = true := by decide +kernel
  exact ⟨_, .head _, _, .tail _ (.head _), Nat.lt_succ_self 1, rfl, rfl, hpayload⟩

end TwoReports

/-- Both reports are stored, and the first one was generated before the interval of the second began. -/
theorem storeAfterRun_spaced_twoReports : ∃ d, byDefault.dispatcher = .ok d ∧
    ∃ i ∈ (storeAfterRun d twoReports).notifications.map (·.2),
      ∃ j ∈ (storeAfterRun d twoReports).notifications.map (·.2),
        i.id < j.id ∧ i.sourceHost = j.sourceHost ∧ i.kind = j.kind ∧ i.payload.same j.payload = true ∧
          ∃ start, j.generatedAt.sub? 180 = some start ∧ i.generatedAt.Before start := by
  obtain ⟨d, hd⟩ := exists_dispatcher_byDefault
  obtain ⟨i, hi, j, hj, hlt, hhost, hkind, hpayload⟩ := exists_notifications_twoReports hd
  exact ⟨d, hd, i, hi, j, hj, hlt, hhost, hkind, hpayload,
    (storeAfterRun_spaced hd twoReports).1 i hi j hj hlt hhost hkind hpayload⟩

end Standby.Service
