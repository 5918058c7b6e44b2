import Standby.Proofs.Engine.Calls
import Standby.Proofs.Engine.Selection
import Standby.Proofs.Service.Bindings
import Standby.Proofs.Service.Duplicates
import Standby.Proofs.Service.Paging
/-!
# When a report is a duplicate

A report of a failure is refused as a duplicate if the same failure has been reported within the detection interval of
it. But it is also refused if the same failure has been reported for any later time, however much later: the search for
a duplicate looks for reports from the beginning of the interval on, and sets no end.
-/

namespace Standby

open Time (Instant)

namespace Service

variable {service : Service} {d : Dispatcher World Segment} {req : Request} {interval : Nat}

/-- A stored notification is about the same failure of a host as a report. -/
structure SameFailure (host : Host) (draft : NotificationDraft) (n : Notification) : Prop where
  host : n.sourceHost = host.uuid
  kind : n.kind = draft.kind
  payload : n.payload.same draft.payload = true

/-- Neither of two instants is earlier than the detection interval of the other. -/
structure Close (interval : Nat) (a b : Instant) : Prop where
  left : (duplicateSince interval a).le b = true
  right : (duplicateSince interval b).le a = true

/-- The nanoseconds from 1970-01-01T00:00:00Z to an instant. -/
def elapsed (t : Instant) : Int := 1000000000 * t.seconds + t.nanos

section Distances
variable {a b : Instant} (ha : a.InRange) (hb : b.InRange) (hleap : a.nanos < 1000000000)
  (hleap' : b.nanos < 1000000000)
include ha hb hleap hleap'

/-- What comes before the detection interval of an instant is earlier by more than the interval, also where the interval
reaches back beyond the first instant. -/
theorem before_duplicateSince_iff :
    a.Before (duplicateSince interval b) ↔ elapsed a + 1000000000 * interval < elapsed b := by
  have hfrom := ha.1
  rw [duplicateSince_eq hb]
  by_cases hstart : Instant.minSeconds ≤ b.seconds - interval
  · have hsub : b.sub? interval = some ⟨b.seconds - interval, b.nanos⟩ := by
      unfold Instant.sub?
      by_cases hn : interval = 0
      · subst hn
        simpa using hb.1
      · simp [hn, hleap'.not_ge, hstart]
    rw [hsub, Option.getD_some]
    simp only [Instant.Before, elapsed]
    omega
  · have hn : interval ≠ 0 := by
      rintro rfl
      exact hstart (by simpa using hb.1)
    have hsub : b.sub? interval = none := by simp [Instant.sub?, hn, hleap'.not_ge, hstart]
    rw [hsub, Option.getD_none]
    simp only [Instant.Before, Instant.first, elapsed]
    omega

/-- Two instants are close if they differ by no more than the interval. -/
theorem close_iff : Close interval a b ↔
    elapsed a - elapsed b ≤ 1000000000 * interval ∧ elapsed b - elapsed a ≤ 1000000000 * interval := by
  have hclose : Close interval a b ↔ ¬b.Before (duplicateSince interval a) ∧ ¬a.Before (duplicateSince interval b) := by
    simp only [Instant.before_iff_not_le, not_not]
    exact ⟨fun h => ⟨h.left, h.right⟩, fun h => ⟨h.1, h.2⟩⟩
  rw [hclose, before_duplicateSince_iff hb ha hleap' hleap, before_duplicateSince_iff ha hb hleap hleap']
  omega

end Distances

/-- What comes before the detection interval of a time in range comes before that time. -/
theorem before_of_before_duplicateSince {a b : Instant} (ha : a.InRange)
    (h : a.Before (duplicateSince interval b)) : a.Before b := by
  unfold duplicateSince at h
  cases hsub : b.minus? (detectionSpan interval) with
  | none =>
    -- The interval reaches back to the first instant, and nothing in range is before that.
    rw [hsub] at h
    exact absurd (Instant.first_le ha.1) (Instant.before_iff_not_le.1 h)
  | some start =>
    rw [hsub] at h
    have hstart := Instant.le_iff.1 (Instant.minus?_eq_some hsub).1
    simp only [Instant.Before, Option.getD_some] at h ⊢
    omega

/-- A stored notification makes a report a duplicate if it is close to it, or so much later that the report comes before
its detection interval. -/
theorem repeats_iff {host : Host} {draft : NotificationDraft} {n : Notification} (hrange : draft.generatedAt.InRange) :
    Repeats interval host draft n ↔ SameFailure host draft n ∧
      (Close interval n.generatedAt draft.generatedAt ∨
        draft.generatedAt.Before (duplicateSince interval n.generatedAt)) := by
  constructor
  · rintro ⟨hhost, hkind, hsince, hpayload⟩
    refine ⟨⟨hhost, hkind, hpayload⟩, ?_⟩
    by_cases h : (duplicateSince interval n.generatedAt).le draft.generatedAt = true
    · exact .inl ⟨h, hsince⟩
    · exact .inr (Instant.before_iff_not_le.2 h)
  · rintro ⟨hsame, hclose | hlater⟩
    · exact ⟨hsame.host, hsame.kind, hclose.right, hsame.payload⟩
    · refine ⟨hsame.host, hsame.kind, ?_, hsame.payload⟩
      have hle : (duplicateSince interval draft.generatedAt).le draft.generatedAt = true := duplicateSince_le hrange
      have hsince := Instant.le_iff.1 hle
      have hbefore := before_of_before_duplicateSince hrange hlater
      rw [Instant.le_iff]
      simp only [Instant.Before] at hbefore
      omega

section Reporting
variable (hd : service.dispatcher = .ok d) (a : d.Admitted req) (hcollection : a.route.resource = "notifications")
  (htarget : a.route.target = .collection) (hpost : req.method = "POST")
  (hauthorize : service.policy.authorize a.ctx.caller (Policy.actionName "notifications" "create") = .ok ())
  (hchecked : Schemas.createNotification.check (a.ctx.body.getD .null) = .ok ()) {draft : NotificationDraft}
  (hbody : NotificationDraft.ofBody? (a.ctx.body.getD .null) = some draft) {w : World}
  (hknown : ∃ host ∈ w.store.hosts.map (·.2), host.name = draft.hostName)
  (hready : ∀ host ∈ w.store.hosts.map (·.2), host.name = draft.hostName → host.onMaintenance = false)
include hd hcollection htarget hpost hauthorize hchecked hbody hknown hready

/-- **When a report is refused as a duplicate.** A report of a failure of a host that is known and not on maintenance, by
a caller who may report, is refused as a duplicate if the same failure has been reported for a time that is close to its
own, or for one that is later by more than the detection interval. In all other cases it is accepted. -/
theorem serve_report :
    ∃ host ∈ w.store.hosts.map (·.2), host.name = draft.hostName ∧
      ((∃ n ∈ w.store.notifications.map (·.2), SameFailure host draft n ∧
          (Close service.config.duplicateInterval n.generatedAt draft.generatedAt ∨
            draft.generatedAt.Before (duplicateSince service.config.duplicateInterval n.generatedAt))) ∧
          (d.serve req w).reply = d.fault req a.version (duplicateError draft) ∧ (d.serve req w).world = w ∨
        (∀ n ∈ w.store.notifications.map (·.2), SameFailure host draft n →
          ¬Close service.config.duplicateInterval n.generatedAt draft.generatedAt ∧
            n.generatedAt.Before (duplicateSince service.config.duplicateInterval draft.generatedAt)) ∧
          (d.serve req w).reply.status = 202 ∧ (d.serve req w).world = service.accepted w host draft) := by
  have hrange := NotificationDraft.inRange_of_ofBody? hbody
  obtain ⟨host, hhost, hname, ⟨⟨n, hn, h⟩, hrefused⟩ | ⟨hnew, haccepted⟩⟩ :=
    serve_report_cases hd a hcollection htarget hpost hauthorize hchecked hbody hknown hready
  · exact ⟨host, hhost, hname, .inl ⟨⟨n, hn, (repeats_iff hrange).1 h⟩, hrefused⟩⟩
  · refine ⟨host, hhost, hname, .inr ⟨fun n hn hsame => ?_, haccepted⟩⟩
    have hsince : ¬(duplicateSince service.config.duplicateInterval draft.generatedAt).le n.generatedAt = true :=
      fun h => hnew n hn ⟨hsame.host, hsame.kind, h, hsame.payload⟩
    exact ⟨fun hclose => hsince hclose.right, Instant.before_iff_not_le.2 hsince⟩

end Reporting

/-! ## A report that comes late -/

/-- An administrator reports that a virtual machine has stopped at eight o'clock. -/
def lateReport : Request := (Visit.report "2024-01-01T08:00:00Z" [("event", .str "stop")]).request

/-- What the report says. -/
def lateDraft : NotificationDraft := ⟨.virtualMachine, "node", ⟨1704096000, 0⟩, .obj [("event", .str "stop")]⟩

/-- The store `calm` after a report of the same failure at ten o'clock. -/
def alarmed : Store :=
  (Store.run
    [.createSegment "1" .first ⟨"rack", none, .auto, "COMPUTE", none⟩,
      .createHost "1" .first "1" ⟨"node", "KVM", "ssh", none, none⟩,
      .createNotification "1" .first ⟨.virtualMachine, ⟨1704103200, 0⟩, .obj [("event", .str "stop")], "1"⟩]).store

theorem exists_admitted_lateReport (hd : byDefault.dispatcher = .ok d) :
    ∃ a : d.Admitted lateReport, a.route.resource = "notifications" ∧ a.route.target = .collection ∧
      byDefault.policy.authorize a.ctx.caller (Policy.actionName "notifications" "create") = .ok () ∧
      Schemas.createNotification.check (a.ctx.body.getD .null) = .ok () ∧
      NotificationDraft.ofBody? (a.ctx.body.getD .null) = some lateDraft := by
  have hroute : d.router.route? lateReport.path =
      some ⟨"notifications", .collection, [], none, "/v1/notifications", none⟩ := by
    rw [(router_of_dispatcher rfl hd).1]
    decide +kernel
  obtain ⟨a, hroute', hadmin, hbody, -⟩ := exists_admitted_creating hd lateReport.path "notification"
    (reportMembers "2024-01-01T08:00:00Z" [("event", .str "stop")]) (t := .notifications) hroute (by decide +kernel)
    .createNotification
  exact ⟨a, by rw [hroute']; rfl, by rw [hroute'], authorize_of_isAdmin hadmin _, by rw [hbody]; rfl, by rw [hbody]; rfl⟩

/-- Nothing like it has been reported before, and so it is accepted. -/
theorem serve_report_first : ∃ d, byDefault.dispatcher = .ok d ∧
    ∀ w : World, w.store = calm → (d.serve lateReport w).reply.status = 202 := by
  obtain ⟨d, hd⟩ := exists_dispatcher_byDefault
  refine ⟨d, hd, fun w hw => ?_⟩
  obtain ⟨a, hcollection, htarget, hauthorize, hchecked, hbody⟩ := exists_admitted_lateReport hd
  obtain ⟨host, -, -, ⟨⟨n, hn, -⟩, -⟩ | ⟨-, hstatus, -⟩⟩ :=
    serve_report hd a hcollection htarget rfl hauthorize hchecked hbody (w := w) (by rw [hw]; exact ⟨_, .head _, rfl⟩)
      (by rw [hw]; decide)
  · rw [hw] at hn
    cases hn
  · exact hstatus

/-- The report is of another failure than the one at ten o'clock, by far more than the detection interval, and comes late.
It is refused as a duplicate. -/
theorem serve_report_late : ∃ d, byDefault.dispatcher = .ok d ∧ alarmed.Reachable ∧
    (∃ a : d.Admitted lateReport, a.route.resource = "notifications" ∧ a.route.target = .collection ∧
      byDefault.policy.authorize a.ctx.caller (Policy.actionName "notifications" "create") = .ok () ∧
      Schemas.createNotification.check (a.ctx.body.getD .null) = .ok () ∧
      NotificationDraft.ofBody? (a.ctx.body.getD .null) = some lateDraft) ∧
    (∃ host ∈ alarmed.hosts.map (·.2), host.name = lateDraft.hostName ∧ host.onMaintenance = false) ∧
    (∀ n ∈ alarmed.notifications.map (·.2),
      ¬Close byDefault.config.duplicateInterval n.generatedAt lateDraft.generatedAt) ∧
    ∀ w : World, w.store = alarmed →
      (d.serve lateReport w).reply.status = 409 ∧ (d.serve lateReport w).world = w := by
  obtain ⟨d, hd⟩ := exists_dispatcher_byDefault
  have hadmitted := exists_admitted_lateReport hd
  have hfar : ∀ n ∈ alarmed.notifications.map (·.2),
      ¬Close byDefault.config.duplicateInterval n.generatedAt lateDraft.generatedAt := by
    intro n hn hclose
    cases List.mem_singleton.1 hn
    exact absurd hclose.left (by decide)
  refine ⟨d, hd, ⟨_, by simp [Store.Op.generated?], rfl⟩, hadmitted, ⟨_, .head _, rfl, rfl⟩, hfar, fun w hw => ?_⟩
  obtain ⟨a, hcollection, htarget, hauthorize, hchecked, hbody⟩ := hadmitted
  have hready : ∀ host ∈ w.store.hosts.map (·.2), host.name = lateDraft.hostName → host.onMaintenance = false := by
    rw [hw]
    decide
  obtain ⟨host, hhost, -, ⟨-, hreply, hworld⟩ | ⟨hnew, -⟩⟩ :=
    serve_report_cases hd a hcollection htarget rfl hauthorize hchecked hbody (w := w)
      (by rw [hw]; exact ⟨_, .head _, rfl⟩) hready
  · exact ⟨by rw [hreply, Dispatcher.status_fault]; rfl, hworld⟩
  · -- The report at ten o'clock is from after the beginning of the detection interval.
    rw [hw] at hhost hnew
    cases List.mem_singleton.1 hhost
    exact absurd ⟨rfl, rfl, by decide, by decide⟩ (hnew _ (.head _))

end Service

end Standby
