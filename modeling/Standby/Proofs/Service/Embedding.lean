import Standby.Proofs.Service.Reports
import Standby.Proofs.Service.Views
/-!
# Segments as they are shown within hosts

A host comes with its segment, which the handlers of hosts show without the attribute `enabled` and the hook completes
from the cache of the request. What comes of it is the segment as the segments themselves show it at the same version, but
for the order of its members.
-/

namespace Standby

/-- Two objects have the same members, in whatever order. -/
def Json.SameMembers (j j' : Json) : Prop :=
  ∃ members members', j = .obj members ∧ j' = .obj members' ∧ members.Perm members'

namespace Service

variable {service : Service} {d : Dispatcher World Segment} {req : Request} {v : Version} {g : Segment}

theorem embedded_sameMembers : (embedded v g).SameMembers (g.toJson (v1_2.le v)) := by
  refine ⟨_, _, rfl, rfl, ?_⟩
  cases v1_2.le v with
  | false => exact .refl _
  | true =>
    -- The attribute stands ahead of the times in the one, and after them in the other.
    have hmoved : ([("created_at", g.createdAt.toJson), ("updated_at", Time.Instant.toJson? g.updatedAt)] ++
        [("enabled", Json.bool g.enabled)]).Perm ([("enabled", Json.bool g.enabled)] ++ _) := List.perm_append_comm
    exact hmoved.append_left
      [("id", .ofNat g.id), ("uuid", .str g.uuid), ("name", .str g.name), ("description", .ofText? g.description),
        ("recovery_method", .str g.recoveryMethod.name), ("service_type", .str g.serviceType)]

theorem get?_enabled_embedded :
    (embedded v g).get? "enabled" = if v1_2.le v then some (.bool g.enabled) else none := by
  unfold embedded
  cases v1_2.le v <;> rfl

/-- An action of hosts that succeeds shows hosts of the segment of the path, each with that segment as it is stored
afterwards. -/
theorem hosts_of_success (hdisabled : service.config.disabledExtensions = []) (hd : service.dispatcher = .ok d)
    {w : World} (hs : w.store.Tabled) {route : Route} (hroute : d.router.route? req.path = some route)
    (hhosts : route.resource = "hosts") (htarget : route.target ≠ .action) (hdelete : req.method ≠ "DELETE")
    (hversion : VersionHeader.resolve d.versionHeader d.service d.window (req.headers.values d.versionHeader) = .ok v)
    (hsuccess : 200 ≤ (d.serve req w).reply.status ∧ (d.serve req w).reply.status < 300) :
    ∃ segment g body, ∃ rows : List Host, lookup? segmentParam route.params = some segment ∧
      lookup? segment (d.serve req w).world.store.segments = some g ∧
      (d.serve req w).reply.body = .buffered body.text ∧ HoldsHosts (some body) (rows.map (hostAt v g)) ∧
      ∀ row ∈ rows, row.segment = segment := by
  obtain ⟨h, o, w', rfl, hrun, hplain, hworld⟩ := exists_handled hd hroute hsuccess
  have hcv : h.ctx.version = some v := version_of_admitted hd h.toAdmitted (t := .hosts) hhosts hversion
  have hown : service.Own "hosts" h.ctx.action h.action := hhosts ▸ own_of_handled hd h htarget
  have hname : h.ctx.action ∈ ["index", "show", "create", "update"] ∧ h.ctx.action ≠ "delete" := by
    rcases Dispatcher.actionName_eq_ok h.named with ⟨-, -, hn⟩ | ⟨-, -, hn⟩ | ⟨-, -, hn⟩ | ⟨-, -, hn⟩ | ⟨-, hm, -⟩ |
      ⟨ht, -⟩
    · rw [hn]; decide
    · rw [hn]; decide
    · rw [hn]; decide
    · rw [hn]; decide
    · exact absurd hm hdelete
    · exact absurd ht htarget
  obtain ⟨g, store, ⟨hsegment, hg⟩, heffect, rfl, hbody, hcache⟩ :=
    exists_effect_of_handled hd hdisabled h hown hhosts hname.1 hcv hs hrun hplain
  obtain ⟨rows, hrows, hstored⟩ := heffect.holds hs
  obtain ⟨j, rfl⟩ := heffect.exists_value hname.2
  have hholds := holdsHosts_decorated (v := v) hrows (fun row hrow => (hstored row hrow).1) hcache
  obtain ⟨body, hshown⟩ := exists_decorated v w'.cache j
  refine ⟨g.uuid, g, body, rows, hsegment, ?_, ?_, ?_, fun row hrow => (hstored row hrow).1⟩
  · rw [hworld]
    exact heffect.segments ▸ hg
  · rw [hbody]
    exact congrArg ReplyBody.ofJson? hshown
  · exact hshown ▸ hholds

/-- **Embedded segments.** With all extensions, a request that lists, shows, creates or changes hosts and succeeds is
answered with hosts of the segment that its path names, and each of them comes with that segment as a request for the
segment at the same version shows it, but for the order of the members. So it says from version 1.2 on, and only then,
whether the segment is enabled. -/
theorem serve_embeds (hdisabled : service.config.disabledExtensions = []) (hd : service.dispatcher = .ok d) {w : World}
    (hs : w.store.Reachable) {route : Route} (hroute : d.router.route? req.path = some route)
    (hhosts : route.resource = "hosts") (htarget : route.target ≠ .action) (hdelete : req.method ≠ "DELETE")
    (hversion : VersionHeader.resolve d.versionHeader d.service d.window (req.headers.values d.versionHeader) = .ok v)
    (hsuccess : 200 ≤ (d.serve req w).reply.status ∧ (d.serve req w).reply.status < 300) :
    ∃ segment g body hosts, lookup? segmentParam route.params = some segment ∧
      lookup? segment (d.serve req w).world.store.segments = some g ∧
      (d.serve req w).reply.body = .buffered body.text ∧ HoldsHosts (some body) hosts ∧
      (∀ host ∈ hosts, host.get? "failover_segment_id" = some (.str segment) ∧
        ∃ shown, host.get? "failover_segment" = some shown ∧ shown.SameMembers (g.toJson (v1_2.le v)) ∧
          shown.get? "enabled" = if v1_2.le v then some (.bool g.enabled) else none) ∧
      ∀ {look route'}, service.Looks d .segments "show" v route' look →
        lookup? Router.idParam route'.params = some segment → ∀ {w' : World},
        w'.store = (d.serve req w).world.store →
          Holds (d.serve look w').reply (.obj [("segment", g.toJson (v1_2.le v))]) := by
  obtain ⟨segment, g, body, rows, hsegment, hg, hbody, hholds, hown⟩ :=
    hosts_of_success hdisabled hd hs.tabled hroute hhosts htarget hdelete hversion hsuccess
  refine ⟨segment, g, body, _, hsegment, hg, hbody, hholds, ?_, ?_⟩
  · refine List.forall_mem_map.2 fun row hrow => ⟨?_, embedded v g, rfl, embedded_sameMembers, get?_enabled_embedded⟩
    rw [← hown row hrow]
    rfl
  · intro look route' l hid w' hw'
    rw [← hw'] at hg
    exact l.shows_segment hdisabled hd hid hg

/-- An administrator asks for a host of a segment. -/
def oneHost : Request := ⟨"GET", "/v1/segments/1/hosts/1", none, [("x-roles", "admin")], []⟩

/-- Where that leads. -/
def oneHostRoute : Route :=
  ⟨"hosts", .member, [(segmentParam, "1"), (Router.idParam, "1")], none, "/v1/segments/1/hosts/1", none⟩

theorem looks_oneHost (hd : sinceActions.dispatcher = .ok d) :
    sinceActions.Looks d .hosts "show" d.window.default oneHostRoute oneHost := by
  obtain ⟨hrouter, -, hheader⟩ := router_of_dispatcher rfl hd
  refine looks_of_isAdmin rfl rfl ?_ rfl rfl ?_ (by decide) rfl rfl
  · rw [hrouter]
    decide +kernel
  · have hunnamed : oneHost.headers.values d.versionHeader = [] := by
      rw [hheader]
      decide
    rw [hunnamed]
    rfl

/-- At version 1.2 the host is shown with the segment that it belongs to, and with whether that is enabled. -/
theorem serve_embeds_oneHost : ∃ d, sinceActions.dispatcher = .ok d ∧ calm.Reachable ∧
    ∀ w : World, w.store = calm → (d.serve oneHost w).reply.status = 200 ∧
      ∃ g body hosts, lookup? "1" (d.serve oneHost w).world.store.segments = some g ∧
        (d.serve oneHost w).reply.body = .buffered body.text ∧ HoldsHosts (some body) hosts ∧
        ∀ host ∈ hosts, host.get? "failover_segment_id" = some (.str "1") ∧
          ∃ shown, host.get? "failover_segment" = some shown ∧ shown.get? "enabled" = some (.bool g.enabled) := by
  obtain ⟨d, hd, hdefault⟩ := exists_dispatcher_sinceActions
  refine ⟨d, hd, reachable_calm, fun w hw => ?_⟩
  have hlooks := looks_oneHost hd
  obtain ⟨hstatus, -⟩ : Holds (d.serve oneHost w).reply _ :=
    hlooks.shows_host rfl hd rfl rfl (by rw [hw]; rfl) (by rw [hw]; rfl) rfl
  obtain ⟨segment, g, body, hosts, hsegment, hg, hbody, hholds, hshown, -⟩ :=
    serve_embeds rfl hd (hw ▸ reachable_calm) hlooks.routed rfl (by decide) (by decide) hlooks.resolved
      (by rw [hstatus]; decide)
  cases hsegment
  refine ⟨hstatus, g, body, hosts, hg, hbody, hholds, fun host hhost => ?_⟩
  obtain ⟨hid, shown, hmember, -, henabled⟩ := hshown host hhost
  rw [hdefault] at henabled
  exact ⟨hid, shown, hmember, henabled⟩

end Service

end Standby
