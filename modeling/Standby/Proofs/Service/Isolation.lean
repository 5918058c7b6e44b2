import Standby.Proofs.Service.Embedding
import Standby.Proofs.Service.HandOff
/-!
# Hosts of other segments

What is done below a segment stays there. No request that leads to hosts changes a host of another segment than the one
that its path names, or shows one, and a request for a host of another segment is answered as if that host were not there.
-/

namespace Standby

/-- The hosts of other segments than one, under their identifiers. -/
def Store.outside (s : Store) (segment : String) : List (String × Host) := s.hosts.filter (·.2.segment != segment)

section Filters
variable {α : Type} {key : String} {l : List (String × α)} {keep : String × α → Bool}
  (hold : ∀ old, lookup? key l = some old → keep (key, old) = false)
include hold

/-- What a filter drops, before and after, can be set. -/
theorem filter_insertKey_of_dropped {value : α} (hnew : keep (key, value) = false) :
    (insertKey key value l).filter keep = l.filter keep := by
  induction l with
  | nil => simp [insertKey, hnew]
  | cons p l ih =>
    obtain ⟨k, v⟩ := p
    by_cases hk : k = key
    · subst hk
      have hv : keep (k, v) = false := hold v (by simp [lookup?])
      simp [insertKey, hnew, hv]
    · have hrest := ih fun old h => hold old (by simpa [lookup?, hk] using h)
      simp [insertKey, hk, List.filter_cons, hrest]

/-- What a filter drops can be taken out. -/
theorem filter_eraseKey_of_dropped (hkeys : (l.map (·.1)).Nodup) : (eraseKey key l).filter keep = l.filter keep := by
  rw [eraseKey, List.filter_filter]
  refine List.filter_congr fun p hp => ?_
  by_cases hk : p.1 = key
  · have hp : keep (key, p.2) = false := hold p.2 ((lookup?_eq_some_iff hkeys).2 (hk ▸ hp))
    have hdropped : keep p = false := by rw [← hp, ← hk]
    rw [hdropped, Bool.false_and]
  · simp [hk]

end Filters

/-- The hosts in the body of a reply, under the keys under which hosts are shown. -/
def hostObjects (body : Json) : List Json :=
  (body.get? "host").toList ++
    match body.get? "hosts" with
    | some (.arr hosts) => hosts
    | _ => []

theorem hostObjects_of_holds {body : Json} {hosts : List Json} (h : HoldsHosts (some body) hosts) :
    hostObjects body = hosts := by
  cases h with
  | one => rfl
  | page hosts next => cases next <;> rfl

/-- A fault shows no host. -/
theorem hostObjects_fault (f : Fault) : hostObjects f.toJson = [] := by
  obtain ⟨details, hdetails⟩ : ∃ details, f.toJson = .obj [(Fault.name f.status, details)] := ⟨_, rfl⟩
  have hname : Fault.name f.status ≠ "host" ∧ Fault.name f.status ≠ "hosts" := by
    unfold Fault.name
    split <;> decide
  simp [hdetails, hostObjects, Json.get?, Json.members?, lookup?, hname]

namespace Service

variable {service : Service} {d : Dispatcher World Segment} {req : Request} {name : String} {ctx : Context}
  {w w' : Workspace World Segment} {o : Outcome}

/-! ## What stays as it is -/

/-- An action of hosts that succeeds keeps the hosts of other segments. -/
theorem HostEffect.outside {g : Segment} {w : World} {store : Store} (h : HostEffect service ctx g w name o store)
    (hkeys : (w.store.hosts.map (·.1)).Nodup) (hown : ∀ p ∈ w.store.hosts, p.2.uuid = p.1)
    (hfresh : lookup? (service.mint .hosts (w.store.lastHostId + 1)) w.store.hosts = none) :
    store.outside g.uuid = w.store.outside g.uuid := by
  have hmember {id : String} {old : Host} (hstored : lookup? id w.store.hosts = some old) (hsegment : old.segment = g.uuid)
      (row : Host) (hrow : lookup? old.uuid w.store.hosts = some row) : row.segment = g.uuid := by
    rw [hown _ (mem_of_lookup?_eq_some hstored), hstored] at hrow
    exact Option.some.inj hrow ▸ hsegment
  cases h with
  | index | «show» => rfl
  | create created =>
    obtain ⟨-, -, rfl, rfl⟩ := Store.createHost_eq_ok.1 created
    refine filter_insertKey_of_dropped (fun old h => ?_) (by simp [Store.newHost])
    cases hfresh.symm.trans h
  | update member stored own updated =>
    obtain ⟨old, names, hold, -, rfl, rfl⟩ := Store.updateHost_eq_ok.1 updated
    refine filter_insertKey_of_dropped (fun row h => ?_) ?_
    · simpa using hmember stored own row h
    · simpa [HostPatch.apply] using hmember stored own old hold
  | delete member stored own destroyed =>
    obtain ⟨old, hold, rfl⟩ := Store.destroyHost_eq_ok.1 destroyed
    refine filter_eraseKey_of_dropped (fun row h => ?_) hkeys
    simpa using hmember stored own row h

/-- The actions that are taken over show a segment and keep all hosts. -/
theorem Added.keepsHosts {a : Action World Segment} (h : service.Added name a)
    (hrun : (a.handler ctx).run.run w = (.ok o, w')) :
    (∃ g, o = wrap "segment" (segmentJson ctx g)) ∧ w'.world.store.hosts = w.world.store.hosts := by
  obtain ⟨-, action, enabled, hhandler⟩ := h.exists_setEnabled
  rw [hhandler] at hrun
  obtain ⟨-, -, h⟩ := run_orFail_bind_eq_ok.1 hrun
  obtain ⟨id, row, store, -, hstore, rfl, rfl⟩ := run_patchSegment_eq_ok.1 h
  obtain ⟨_, _, -, -, -, rfl⟩ := Store.updateSegment_eq_ok.1 hstore
  exact ⟨⟨row, rfl⟩, rfl⟩

/-- The identifiers of hosts are made from the ids that have been given out. -/
def MintsHosts (service : Service) (s : Store) : Prop :=
  ∀ p ∈ s.hosts, ∃ id ≤ s.lastHostId, p.1 = service.mint .hosts id

theorem Change.mintsHosts {w w' : World} (h : service.Change w w') (hs : service.MintsHosts w.store) :
    service.MintsHosts w'.store := by
  cases h with
  | createSegment h =>
    obtain ⟨-, -, rfl⟩ := Store.createSegment_eq_ok.1 h
    exact hs
  | updateSegment h =>
    obtain ⟨_, _, -, -, -, rfl⟩ := Store.updateSegment_eq_ok.1 h
    exact hs
  | destroySegment h =>
    obtain ⟨_, -, rfl⟩ := Store.destroySegment_eq_ok.1 h
    exact fun p hp => hs p (List.mem_filter.1 hp).1
  | createHost h =>
    obtain ⟨-, -, -, rfl⟩ := Store.createHost_eq_ok.1 h
    intro p hp
    rcases mem_insertKey hp with rfl | hp
    · exact ⟨_, Nat.le_refl _, rfl⟩
    · obtain ⟨id, hid, hkey⟩ := hs p hp
      exact ⟨id, Nat.le_succ_of_le hid, hkey⟩
  | updateHost h =>
    obtain ⟨old, _, hold, -, -, rfl⟩ := Store.updateHost_eq_ok.1 h
    intro p hp
    rcases mem_insertKey hp with rfl | hp
    · exact hs (_, old) (mem_of_lookup?_eq_some hold)
    · exact hs p hp
  | destroyHost h =>
    obtain ⟨_, -, rfl⟩ := Store.destroyHost_eq_ok.1 h
    exact fun p hp => hs p (List.mem_filter.1 hp).1
  | accept => exact hs

theorem mintsHosts_storeAfterRun (hd : service.dispatcher = .ok d) (visits : List Visit) :
    service.MintsHosts (storeAfterRun d visits) :=
  keeps_foldl hd Change.mintsHosts (fun p hp => by cases hp) visits

/-- The identifier of the next host is a new one. -/
theorem MintsHosts.fresh {s : Store} (h : service.MintsHosts s) (hmint : Function.Injective (service.mint .hosts)) :
    lookup? (service.mint .hosts (s.lastHostId + 1)) s.hosts = none := by
  cases hnext : lookup? (service.mint .hosts (s.lastHostId + 1)) s.hosts with
  | none => rfl
  | some old =>
    obtain ⟨id, hid, hkey⟩ := h _ (mem_of_lookup?_eq_some hnext)
    have := hmint hkey
    omega

/-! ## What is shown -/

/-- All hosts in a body are shown from hosts of a segment. -/
def ShowsOwn (segment : String) (body : Option Json) : Prop :=
  ∃ hosts, HoldsHosts body hosts ∧ ∀ host ∈ hosts, ∃ row : Host, row.segment = segment ∧ IsShown v1_0 .hosts row host

/-- They are so too when they have been decorated. -/
theorem ShowsOwn.decorate {segment : String} {cache : Cache Segment} {body decorated : Json}
    (h : ShowsOwn segment (some body)) (hdecorated : decorateBody? cache body = some decorated) :
    ShowsOwn segment (some decorated) := by
  obtain ⟨hosts, hholds, hshown⟩ := h
  refine ⟨hosts.map (decorateHost cache), ?_, List.forall_mem_map.2 fun host hhost => ?_⟩
  · cases hholds with
    | one host =>
      cases hdecorated
      exact .one _
    | page hosts next => cases next <;> cases hdecorated <;> exact .page _ _
  · obtain ⟨row, hrow, hj⟩ := hshown host hhost
    exact ⟨row, hrow, decorateHost_isShown hj cache⟩

theorem ShowsOwn.belongs {segment : String} {body : Option Json} (h : ShowsOwn segment body) :
    ∀ host ∈ body.toList.flatMap hostObjects, host.get? "failover_segment_id" = some (.str segment) := by
  obtain ⟨hosts, hholds, hshown⟩ := h
  intro host hhost
  cases body with
  | none => cases hhost
  | some body =>
    rw [Option.toList_some, List.flatMap_singleton, hostObjects_of_holds hholds] at hhost
    obtain ⟨row, rfl, shown, rfl⟩ := hshown host hhost
    rfl

/-- What an action of hosts shows belongs to the segment of the path. -/
theorem HostEffect.showsOwn {g : Segment} {w : World} {store : Store} (h : HostEffect service ctx g w name o store)
    (hs : w.store.Tabled) : ShowsOwn g.uuid o.json? := by
  obtain ⟨rows, hholds, hown⟩ := h.holds hs
  exact ⟨_, hholds, List.forall_mem_map.2 fun row hrow => ⟨row, (hown row hrow).1, _, rfl⟩⟩

/-! ## What is hidden -/

/-- A handler that loads a host of the segment of the path fails, in all worlds with the same segments, with the same
error for a host that is not there and for a host of another segment. -/
theorem exists_refusal {resource action : String} {rest : Segment → Host → ServiceStep Outcome} {segment id : String}
    {segments : List (String × Segment)} (hsegment : lookup? segmentParam ctx.params = some segment)
    (hid : lookup? Router.idParam ctx.params = some id) (hown : ∀ g, lookup? segment segments = some g → g.uuid = segment) :
    ∃ e, ∀ w : Workspace World Segment, w.world.store.segments = segments →
      (∀ row, lookup? id w.world.store.hosts = some row → row.segment ≠ segment) →
        ((do service.authorize ctx resource action
             let g ← loadSegment ctx
             let row ← loadHost ctx g
             rest g row : ServiceStep Outcome).run.run w).1 = .error e := by
  cases hauthorize : service.policy.authorize ctx.caller (Policy.actionName resource action) with
  | error e =>
    refine ⟨e, fun w _ _ => ?_⟩
    rw [run_bind, run_authorize, hauthorize]
  | ok _ =>
    cases hg : lookup? segment segments with
    | none =>
      refine ⟨.ofStoreError (.notFound .segments segment), fun w hw _ => ?_⟩
      subst hw
      rw [run_bind, run_authorize, hauthorize]
      simp only [loadSegment, param_eq_ok.2 hsegment, run_bind, run_orFail, run_world, orRefuse, Store.segment, Store.find,
        hg, Except.mapError]
    | some g =>
      refine ⟨.ofStoreError (.notFound .hosts id), fun w hw hother => ?_⟩
      subst hw
      rw [run_bind, run_authorize, hauthorize]
      have hload : (loadSegment ctx).run.run w = (.ok g, loading w g) :=
        run_loadSegment_eq_ok.2 ⟨segment, param_eq_ok.2 hsegment, hg, rfl⟩
      have hnone : (lookup? id (loading w g).world.store.hosts).filter (·.segment = g.uuid) = none := by
        refine Option.filter_eq_none_iff.2 fun row hrow => ?_
        simpa [hown g hg] using hother row hrow
      simp only [run_bind, hload, run_loadHost hid, hnone]

/-- What is asked for at a member shows, changes or deletes it. -/
theorem Own.exists_refusal {collection : String} {a : Action World Segment} (h : service.Own collection name a)
    (hhosts : collection = "hosts") (hname : name ≠ "index" ∧ name ≠ "create") {segment id : String}
    {segments : List (String × Segment)} (hsegment : lookup? segmentParam ctx.params = some segment)
    (hid : lookup? Router.idParam ctx.params = some id) (hown : ∀ g, lookup? segment segments = some g → g.uuid = segment) :
    ∃ e, ∀ w : Workspace World Segment, w.world.store.segments = segments →
      (∀ row, lookup? id w.world.store.hosts = some row → row.segment ≠ segment) →
        ((a.handler ctx).run.run w).1 = .error e := by
  cases h with
  | showHost => exact Service.exists_refusal hsegment hid hown
  | updateHost => exact Service.exists_refusal hsegment hid hown
  | deleteHost => exact Service.exists_refusal hsegment hid hown
  | indexHosts => exact absurd rfl hname.1
  | createHost => exact absurd rfl hname.2
  | _ => exact absurd hhosts (by decide)

/-! ## Requests -/

section Requests
variable (hd : service.dispatcher = .ok d) {route : Route} (hroute : d.router.route? req.path = some route)
  (hhosts : route.resource = "hosts") {segment : String} (hsegment : lookup? segmentParam route.params = some segment)
  {world : World} (hs : world.store.Tabled)
include hd hroute hhosts hsegment hs

/-- A request for hosts ends with a fault and changes nothing, or it acts on hosts of the segment of the path, or it takes
over an action on a segment. -/
theorem serve_hosts_cases :
    (∃ version e, (d.serve req world).reply = d.fault req version e ∧ (d.serve req world).world = world) ∨
      (∃ (h : d.Handled req) (g : Segment) (o : Outcome) (store : Store), g.uuid = segment ∧
        HostEffect service h.ctx g world h.ctx.action o store ∧ (d.serve req world).world.store = store ∧
          ∃ w, (h.action.handler h.ctx).run.run (h.ctx.start world) = (.ok o, w) ∧ o.IsPlain) ∨
      ∃ (h : d.Handled req) (g : Segment) (w : Workspace World Segment),
        (h.action.handler h.ctx).run.run (h.ctx.start world) = (.ok (wrap "segment" (segmentJson h.ctx g)), w) ∧
          (d.serve req world).world.store.hosts = world.store.hosts := by
  rcases serve_ends hd req world with ⟨version, e, -, hreply, hworld⟩ | ⟨h, o, w, hrun, -, hworld⟩
  · exact .inl ⟨version, e, hreply, hworld⟩
  cases h.route_eq hroute
  rcases h.toAdmitted.action h.resolved with ⟨-, hadded⟩ | ⟨-, hown⟩
  · obtain ⟨⟨g, rfl⟩, hkept⟩ := (added_of_dispatcher hd hadded).keepsHosts hrun
    exact .inr (.inr ⟨h, g, w, hrun, by rw [hworld]; exact hkept⟩)
  · obtain ⟨id, g, store, hid, hg, heffect, rfl⟩ := (own_of_dispatcher hd hown).exists_effect hhosts hrun
    rw [h.ctx_params, hsegment] at hid
    cases hid
    exact .inr (.inl ⟨h, g, o, store, hs.segments.own _ (mem_of_lookup?_eq_some hg), heffect, by rw [hworld]; rfl, _, hrun,
      (answers_of_handled hd h).plain _ o (congrArg Prod.fst hrun)⟩)

/-- The hosts of other segments stay as they are. -/
theorem outside_of_serve
    (hfresh : lookup? (service.mint .hosts (world.store.lastHostId + 1)) world.store.hosts = none) :
    (d.serve req world).world.store.outside segment = world.store.outside segment := by
  rcases serve_hosts_cases hd hroute hhosts hsegment hs with ⟨version, e, -, hworld⟩ |
    ⟨h, g, o, store, rfl, heffect, hstore, -⟩ | ⟨h, g, w, -, hkept⟩
  · rw [hworld]
  · rw [hstore]
    exact heffect.outside hs.hosts.keys hs.hosts.own hfresh
  · rw [Store.outside, hkept]
    rfl

/-- What is shown of hosts belongs to the segment of the path. -/
theorem belongs_of_serve :
    ∃ body, (d.serve req world).reply.body = .ofJson? body ∧
      ∀ host ∈ body.toList.flatMap hostObjects, host.get? "failover_segment_id" = some (.str segment) := by
  rcases serve_hosts_cases hd hroute hhosts hsegment hs with ⟨version, e, hreply, -⟩ |
    ⟨h, g, o, store, rfl, heffect, -, w, hrun, hplain⟩ | ⟨h, g, w, hrun, -⟩
  · refine ⟨some (Fault.ofError e (d.languageOf req) d.catalog).toJson, ?_, ?_⟩
    · rw [hreply, Dispatcher.fault, Dispatcher.body_stamp]
      rfl
    · simp [hostObjects_fault]
  · obtain ⟨body, hshows, hbody⟩ := keeps_of_call hd h.toAdmitted h.resolved h.checked hrun hplain
      ShowsOwn.decorate (heffect.showsOwn hs)
    exact ⟨body, hbody, hshows.belongs⟩
  · exact ⟨_, plain_of_call hd h.toAdmitted h.resolved h.checked hrun (isPlain_wrap _ _) fun _ => rfl,
      fun host hhost => by cases hhost⟩

/-- A host of another segment that a path names is as good as none. -/
theorem reply_of_elsewhere {id : String} {row : Host} {store : Store} (htarget : route.target = .member)
    (hid : lookup? Router.idParam route.params = some id) (hrow : lookup? id world.store.hosts = some row)
    (hother : row.segment ≠ segment) (hdestroyed : world.store.destroyHost id = .ok store) :
    (d.serve req { world with store }).reply = (d.serve req world).reply := by
  rcases refuses_cases hd req with ⟨version, e, -, hserve⟩ | ⟨⟨h⟩⟩
  · rw [(hserve _).1, (hserve _).1]
  cases h.route_eq hroute
  have hname : h.ctx.action ≠ "index" ∧ h.ctx.action ≠ "create" := by
    rcases eq_of_member h.toAdmitted htarget with hn | hn | hn <;> rw [hn] <;> decide
  -- In both worlds the handler is refused the host, and for the same reason.
  obtain ⟨e, herror⟩ := (own_of_handled hd h (by rw [htarget]; decide)).exists_refusal hhosts hname (h.ctx_params ▸ hsegment)
    (h.ctx_params ▸ hid) fun g hg => hs.segments.own _ (mem_of_lookup?_eq_some hg)
  have hreply {w : World} (hw : ((h.action.handler h.ctx).run.run (h.ctx.start w)).1 = .error e) :
      (d.serve req w).reply = d.fault req h.version e := by
    rw [(h.serve_eq w).1, hw, h.finish_error]
  obtain ⟨_, -, hstore⟩ := Store.destroyHost_eq_ok.1 hdestroyed
  have hsegments : store.segments = world.store.segments := by rw [hstore]
  have hgone : lookup? id store.hosts = none := by
    rw [hstore]
    exact (lookup?_eraseKey id id _).trans (if_pos rfl)
  have hwithout := herror (h.ctx.start { world with store }) hsegments fun row' hrow' => by
    cases hgone.symm.trans hrow'
  have hwith := herror (h.ctx.start world) rfl fun row' hrow' => by
    cases hrow.symm.trans hrow'
    exact hother
  exact (hreply hwithout).trans (hreply hwith).symm

end Requests

/-- **Isolation of segments.** A request for hosts below a segment, whatever it asks for, leaves the hosts of all other
segments as they are, and no other appears among them. All hosts that its reply shows belong to the segment. If it is for
a member that belongs to another segment, then its reply is the same as if that host were not there.

The identifiers that the service makes for hosts are to be different from each other, and no identifier is to be empty. -/
theorem serve_isolated (hd : service.dispatcher = .ok d) (hmint : Function.Injective (service.mint .hosts))
    (hnamed : ∀ t id, service.mint t id ≠ "") {visits : List Visit} {w : World} (hw : w.store = storeAfterRun d visits)
    {route : Route} (hroute : d.router.route? req.path = some route) (hhosts : route.resource = "hosts") :
    ∃ segment, lookup? segmentParam route.params = some segment ∧
      (d.serve req w).world.store.outside segment = w.store.outside segment ∧
      (∃ body, (d.serve req w).reply.body = .ofJson? body ∧
        ∀ host ∈ body.toList.flatMap hostObjects, host.get? "failover_segment_id" = some (.str segment)) ∧
      ∀ {id row store}, route.target = .member → lookup? Router.idParam route.params = some id →
        lookup? id w.store.hosts = some row → row.segment ≠ segment → w.store.destroyHost id = .ok store →
          (d.serve req { w with store }).reply = (d.serve req w).reply := by
  obtain ⟨segment, hsegment⟩ := has_segmentParam hd hroute hhosts
  have hs : w.store.Tabled := hw ▸ (reachable_storeAfterRun hd hnamed visits).tabled
  have hfresh := (hw ▸ mintsHosts_storeAfterRun hd visits : service.MintsHosts w.store).fresh hmint
  exact ⟨segment, hsegment, outside_of_serve hd hroute hhosts hsegment hs hfresh,
    belongs_of_serve hd hroute hhosts hsegment hs, fun htarget hid hrow hother hdestroyed =>
      reply_of_elsewhere hd hroute hhosts hsegment hs htarget hid hrow hother hdestroyed⟩

/-- A second segment to create. -/
def bayMembers : List (String × Json) :=
  [("name", .str "bay"), ("recovery_method", .str "auto"), ("service_type", .str "COMPUTE")]

/-- Two segments are created, and a host of the second one. -/
def staffing : List Visit :=
  [.create "/v1/segments" "segment" rackMembers, .create "/v1/segments" "segment" bayMembers,
    .create "/v1/segments/2/hosts" "host" nodeMembers]

/-- A store with two segments. -/
def parted : Store :=
  (Store.run
    [.createSegment "1" .first ⟨"rack", none, .auto, "COMPUTE", none⟩,
      .createSegment "2" .first ⟨"bay", none, .auto, "COMPUTE", none⟩]).store

/-- The store with a host of the second one. -/
def manned : Store :=
  (Store.run
    [.createSegment "1" .first ⟨"rack", none, .auto, "COMPUTE", none⟩,
      .createSegment "2" .first ⟨"bay", none, .auto, "COMPUTE", none⟩,
      .createHost "1" .first "2" ⟨"node", "KVM", "ssh", none, none⟩]).store

theorem storeAfterRun_staffing (hd : byDefault.dispatcher = .ok d) : storeAfterRun d staffing = manned := by
  have hroute : d.router.route? "/v1/segments/2/hosts" =
      some ⟨"hosts", .collection, [(segmentParam, "2")], none, "/v1/segments/2/hosts", none⟩ := by
    rw [(router_of_dispatcher rfl hd).1]
    decide +kernel
  obtain ⟨g, hg⟩ : ∃ g, racked.createSegment (byDefault.mint .segments (racked.lastSegmentId + 1)) .first
      ⟨"bay", none, .auto, "COMPUTE", none⟩ = .ok (g, parted) := by
    have hmint : byDefault.mint .segments (racked.lastSegmentId + 1) = "2" := by decide +kernel
    rw [hmint]
    exact ⟨_, rfl⟩
  obtain ⟨row, hrow⟩ : ∃ row, parted.createHost (byDefault.mint .hosts (parted.lastHostId + 1)) .first "2"
      ⟨"node", "KVM", "ssh", none, none⟩ = .ok (row, manned) := by
    have hmint : byDefault.mint .hosts (parted.lastHostId + 1) = "1" := by decide +kernel
    rw [hmint]
    exact ⟨_, rfl⟩
  have hbay : storeAfter d racked (.create "/v1/segments" "segment" bayMembers) = parted :=
    storeAfter_segment hd _ _ (by decide +kernel) rfl rfl hg
  have hnode : storeAfter d parted (.create "/v1/segments/2/hosts" "host" nodeMembers) = manned :=
    storeAfter_host hd _ _ hroute (by decide +kernel) rfl rfl rfl hrow
  rw [storeAfterRun, staffing, List.foldl_cons, List.foldl_cons, List.foldl_cons, List.foldl_nil, storeAfter_rack hd,
    hbay, hnode]

/-- The only host belongs to the second segment. A request for it below the first one leaves it alone, and gets the reply
that it gets when there is no host. -/
theorem serve_isolated_staffing : ∃ d, byDefault.dispatcher = .ok d ∧ ∃ row store,
    lookup? "1" (storeAfterRun d staffing).hosts = some row ∧ row.segment = "2" ∧
      (storeAfterRun d staffing).destroyHost "1" = .ok store ∧ store.hosts = [] ∧
      ∀ w : World, w.store = storeAfterRun d staffing →
        (d.serve oneHost w).world.store.outside "1" = [("1", row)] ∧
          (d.serve oneHost { w with store }).reply = (d.serve oneHost w).reply := by
  obtain ⟨d, hd⟩ := exists_dispatcher_byDefault
  have hstore := storeAfterRun_staffing hd
  have hroute : d.router.route? oneHost.path = some oneHostRoute := by
    rw [(router_of_dispatcher rfl hd).1]
    decide +kernel
  have hnamed (t : Table) (id : Nat) : byDefault.mint t id ≠ "" := fun h => Nat.toDigits_ne_nil (String.ofList_inj.1 h)
  obtain ⟨row, store, hrow, hother, hdestroyed, hempty, houtside⟩ : ∃ row store, lookup? "1" manned.hosts = some row ∧
      row.segment = "2" ∧ manned.destroyHost "1" = .ok store ∧ store.hosts = [] ∧ manned.outside "1" = [("1", row)] :=
    ⟨_, _, rfl, rfl, rfl, rfl, by decide⟩
  refine ⟨d, hd, row, store, hstore ▸ hrow, hother, hstore ▸ hdestroyed, hempty, fun w hw => ?_⟩
  obtain ⟨segment, hsegment, hkept, -, hhidden⟩ :=
    serve_isolated hd (mint_byDefault_injective .hosts) hnamed hw hroute rfl
  cases hsegment
  rw [hstore] at hw
  refine ⟨by rw [hkept, hw, houtside], @hhidden "1" row store rfl rfl (hw ▸ hrow) ?_ (hw ▸ hdestroyed)⟩
  rw [hother]
  decide

end Service

end Standby
