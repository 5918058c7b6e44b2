import Standby.Proofs.Service.Handlers
import Standby.Proofs.Store.Effects
/-!
# What a request changes

A request to the service changes nothing, or one thing: it creates, changes or deletes a segment or a host, or it
accepts a notification. `Change` lists these; handlers decide on all of them before they write, so that one that fails
has changed nothing.
-/

namespace Standby.Service

/-! ## Accepting a notification -/

/-- Whether a stored notification makes a new one about a host a duplicate. -/
structure Repeats (interval : Nat) (host : Host) (draft : NotificationDraft) (n : Notification) : Prop where
  host : n.sourceHost = host.uuid
  kind : n.kind = draft.kind
  since : (duplicateSince interval draft.generatedAt).le n.generatedAt = true
  payload : n.payload.same draft.payload = true

/-- What a duplicate is refused with. -/
def duplicateError (draft : NotificationDraft) : ApiError :=
  .conflict s!"Notification received from host {draft.hostName} of type '{draft.kind.name}' is duplicate."

/-- The step that adds what a draft about a host becomes. -/
def filing (service : Service) (w : World) (host : Host) (draft : NotificationDraft) : StateM Store Notification :=
  StoreStep.createNotification (service.mint .notifications (w.store.lastNotificationId + 1)) w.clock
    { kind := draft.kind
      generatedAt := draft.generatedAt
      payload := draft.payload
      sourceHost := host.uuid }

/-- The notification that a draft about a host becomes, and the store with it. -/
def filed (service : Service) (w : World) (host : Host) (draft : NotificationDraft) : Notification × Store :=
  (service.filing w host draft).run w.store

/-- The world with that store, and with the notification in the queue if the queue takes it. -/
def accepted (service : Service) (w : World) (host : Host) (draft : NotificationDraft) : World :=
  { w with
    store := (service.filed w host draft).2
    queue := (w.queue.send (service.filed w host draft).1).toOption.getD w.queue }

/-- One change of the world by the service. -/
inductive Change (service : Service) : World → World → Prop
  | createSegment {w draft row store}
    (h : w.store.createSegment (service.mint .segments (w.store.lastSegmentId + 1)) w.clock draft = .ok (row, store)) :
    Change service w { w with store }
  | updateSegment {w uuid patch row store} (h : w.store.updateSegment uuid w.clock patch = .ok (row, store)) :
    Change service w { w with store }
  | destroySegment {w uuid store} (h : w.store.destroySegment uuid = .ok store) : Change service w { w with store }
  | createHost {w segment draft row store}
    (h : w.store.createHost (service.mint .hosts (w.store.lastHostId + 1)) w.clock segment draft = .ok (row, store)) :
    Change service w { w with store }
  | updateHost {w uuid patch row store} (h : w.store.updateHost uuid w.clock patch = .ok (row, store)) :
    Change service w { w with store }
  | destroyHost {w uuid store} (h : w.store.destroyHost uuid = .ok store) : Change service w { w with store }
  | accept {w body draft host} (hbody : NotificationDraft.ofBody? body = some draft)
    (hhost : host ∈ w.store.hosts.map (·.2)) (hname : host.name = draft.hostName) (hready : host.onMaintenance = false)
    (hnew : ∀ n ∈ w.store.notifications.map (·.2), ¬Repeats service.config.duplicateInterval host draft n) :
    Change service w (service.accepted w host draft)

variable {service : Service} {ctx : Context} {change : World → World → Prop}

/-! ## Segments and hosts -/

@[simp]
theorem run_world (w : Workspace World Segment) : world.run.run w = (.ok w.world, w) := rfl

/-- A step on the store is taken, and what it gives is handed on. -/
theorem run_inStore {α : Type} (x : StoreStep Store α) (w : Workspace World Segment) :
    (inStore x).run.run w =
      ((x.run.run w.world.store).1.mapError .ofStoreError,
        { w with world := { w.world with store := (x.run.run w.world.store).2 } }) := by
  have hrun : (inStore x).run.run w =
      (do putStore (x.run.run w.world.store).2
          orRefuse (x.run.run w.world.store).1 : ServiceStep α).run.run w := rfl
  rw [hrun]
  cases (x.run.run w.world.store).1 <;> rfl

section Commit
variable {α : Type} {x : World → StoreStep Store α} (hx : ∀ w, (x w).Atomic) {outcome : α → Outcome}
include hx

/-- The end of a handler that writes decides on the present store, and then puts another one in its place: what the store
refuses changes nothing. -/
theorem run_commit (outcome : α → Outcome) (w : Workspace World Segment) :
    (do let present ← world; let a ← inStore (x present); pure (outcome a) : ServiceStep Outcome).run.run w =
      match (x w.world).attempt w.world.store with
      | .ok (a, store) => (.ok (outcome a), { w with world := { w.world with store } })
      | .error e => (.error (.ofStoreError e), w) := by
  rw [run_bind, run_world]
  show (inStore (x w.world) >>= fun a => pure (outcome a) : ServiceStep Outcome).run.run w = _
  rw [run_bind, run_inStore, hx]
  cases (x w.world).attempt w.world.store <;> rfl

theorem transacts_commit (ho : ∀ a, (outcome a).IsPlain)
    (hc : ∀ w a store, (x w).attempt w.store = .ok (a, store) → change w { w with store }) :
    Transacts change (do
      let present ← world
      let a ← inStore (x present)
      pure (outcome a)) := by
  refine .of_cases fun w => ?_
  rw [run_commit hx]
  cases hd : (x w.world).attempt w.world.store with
  | error e => exact .inl ⟨_, rfl⟩
  | ok p => exact .inr ⟨_, _, ho p.1, hc w.world p.1 p.2 hd, rfl⟩

end Commit

theorem isPlain_wrap (name : String) (j : Json) : (wrap name j).IsPlain := Outcome.isPlain_value _

theorem transacts_createSegment
    (hc : ∀ {w draft row store},
      w.store.createSegment (service.mint .segments (w.store.lastSegmentId + 1)) w.clock draft = .ok (row, store) →
        change w { w with store }) : Transacts change (service.createSegment ctx) := by
  refine .bind (reads_authorize _ _) fun _ => .bind (reads_readBody _) fun draft => ?_
  exact transacts_commit (fun w => Store.atomic_createSegment _ _ _) (fun row => isPlain_wrap _ _) fun w row store h => hc h

section Patches
variable (hc : ∀ {w uuid patch row store}, w.store.updateSegment uuid w.clock patch = .ok (row, store) →
  change w { w with store })
include hc

theorem transacts_patchSegment (patch : SegmentPatch) : Transacts change (patchSegment ctx patch) := by
  refine .bind reads_memberId fun id => ?_
  exact transacts_commit (fun w => Store.atomic_updateSegment _ _ _) (fun row => isPlain_wrap _ _) fun w row store h => hc h

theorem transacts_updateSegment : Transacts change (service.updateSegment ctx) :=
  .bind (reads_authorize _ _) fun _ => .bind (reads_readBody _) fun patch => transacts_patchSegment hc patch

theorem transacts_setEnabled (action : String) (enabled : Bool) :
    Transacts change (service.setEnabled action enabled ctx) :=
  .bind (reads_authorize _ _) fun _ => transacts_patchSegment hc _

end Patches

theorem transacts_deleteSegment
    (hc : ∀ {w uuid store}, w.store.destroySegment uuid = .ok store → change w { w with store }) :
    Transacts change (service.deleteSegment ctx) := by
  refine .bind (reads_authorize _ _) fun _ => .bind reads_memberId fun id => ?_
  show Transacts change (world >>= fun _ => inStore (.destroySegment id) >>= fun _ => pure .empty)
  exact transacts_commit (fun w => Store.atomic_destroySegment id) (fun _ => Outcome.isPlain_empty) fun w _ store h =>
    hc (map_eq_ok.2 ⟨_, h, rfl⟩)

theorem transacts_createHost
    (hc : ∀ {w segment draft row store},
      w.store.createHost (service.mint .hosts (w.store.lastHostId + 1)) w.clock segment draft = .ok (row, store) →
        change w { w with store }) : Transacts change (service.createHost ctx) := by
  refine .bind (reads_authorize _ _) fun _ => .bind reads_loadSegment fun s => ?_
  refine .bind (reads_readBody _) fun draft => ?_
  exact transacts_commit (fun w => Store.atomic_createHost _ _ _ _) (fun row => isPlain_wrap _ _) fun w row store h => hc h

theorem transacts_updateHost
    (hc : ∀ {w uuid patch row store}, w.store.updateHost uuid w.clock patch = .ok (row, store) →
      change w { w with store }) : Transacts change (service.updateHost ctx) := by
  refine .bind (reads_authorize _ _) fun _ => .bind reads_loadSegment fun s => ?_
  refine .bind (reads_loadHost s) fun old => .bind (reads_readBody _) fun patch => ?_
  exact transacts_commit (fun w => Store.atomic_updateHost _ _ _) (fun row => isPlain_wrap _ _) fun w row store h => hc h

theorem transacts_deleteHost
    (hc : ∀ {w uuid store}, w.store.destroyHost uuid = .ok store → change w { w with store }) :
    Transacts change (service.deleteHost ctx) := by
  refine .bind (reads_authorize _ _) fun _ => .bind reads_loadSegment fun s => .bind (reads_loadHost s) fun row => ?_
  show Transacts change (world >>= fun _ => inStore (.destroyHost row.uuid) >>= fun _ => pure .empty)
  exact transacts_commit (fun w => Store.atomic_destroyHost row.uuid) (fun _ => Outcome.isPlain_empty) fun w _ store h =>
    hc (map_eq_ok.2 ⟨_, h, rfl⟩)

/-! ## Notifications -/

/-- A listing of all rows that pass a filter gives them and no others. -/
theorem mem_of_list {α : Type} [Listed α] (rows : List (String × α)) {keep : α → Bool} {all : List α}
    (h : Store.list rows keep {} = .ok all) (row : α) :
    row ∈ all ↔ row ∈ rows.map (·.2) ∧ keep row = true := by
  cases h
  rw [Listing.sorted, List.mem_mergeSort, List.mem_filter]

/-- The first host with a name is found if there is one, in every workspace alike. -/
theorem hostNamed_cases (store : Store) (name : String) :
    (∃ host ∈ store.hosts.map (·.2), host.name = name ∧ ∀ w, (hostNamed store name).run.run w = (.ok host, w)) ∨
      (∀ host ∈ store.hosts.map (·.2), host.name ≠ name) ∧
        ∀ w, (hostNamed store name).run.run w = (.error (.notFound s!"Host with name {name} could not be found."), w) := by
  obtain ⟨rows, hrows⟩ : ∃ rows, store.listHosts { name := some name } {} = .ok rows := ⟨_, rfl⟩
  have hmem (host : Host) : host ∈ rows ↔ host ∈ store.hosts.map (·.2) ∧ host.name = name := by
    rw [mem_of_list store.hosts hrows host]
    simp only [HostFilter.keeps, Option.all_none, Option.all_some, Bool.and_true, Bool.true_and, beq_iff_eq,
      eq_comm (a := name)]
  unfold hostNamed
  rw [hrows]
  cases rows with
  | nil => exact .inr ⟨fun host hstored hname => absurd ((hmem host).2 ⟨hstored, hname⟩) List.not_mem_nil, fun w => rfl⟩
  | cons row rows =>
    obtain ⟨hstored, hname⟩ := (hmem row).1 List.mem_cons_self
    exact .inl ⟨row, hstored, hname, fun w => rfl⟩

/-- The search for a duplicate always comes to a decision, and finds one exactly if one is stored. -/
theorem isDuplicate_eq (interval : Nat) (store : Store) (host : Host) (draft : NotificationDraft) :
    ∃ found, (∀ w, (isDuplicate interval store host draft).run.run w = (.ok found, w)) ∧
      (found = true ↔ ∃ n ∈ store.notifications.map (·.2), Repeats interval host draft n) := by
  refine ⟨_, fun w => rfl, ?_⟩
  rw [List.any_eq_true]
  refine exists_congr fun n => ?_
  rw [mem_of_list store.notifications rfl n]
  simp only [NotificationFilter.keeps, Option.all_none, Option.all_some, Bool.and_true, Bool.and_eq_true, beq_iff_eq]
  constructor
  · rintro ⟨⟨hstored, ⟨hhost, hkind⟩, hsince⟩, hpayload⟩
    exact ⟨hstored, hhost.symm, hkind.symm, hsince, hpayload⟩
  · rintro ⟨hstored, hr⟩
    exact ⟨⟨hstored, ⟨hr.host.symm, hr.kind.symm⟩, hr.since⟩, hr.payload⟩

@[simp]
theorem run_orFail {α : Type} (r : Except ApiError α) (w : Workspace World Segment) :
    (orFail r).run.run w = (r, w) := by
  cases r <;> rfl

theorem run_authorize (resource action : String) (w : Workspace World Segment) :
    (service.authorize ctx resource action).run.run w =
      (service.policy.authorize ctx.caller (Policy.actionName resource action), w) :=
  run_orFail _ w

@[simp]
theorem run_refuseIf (obstacle : Bool) (e : ApiError) (w : Workspace World Segment) :
    (refuseIf obstacle e).run.run w = (if obstacle then .error e else .ok (), w) := by
  cases obstacle <;> rfl

theorem run_readBody {α : Type} (read : Json → Option α) (w : Workspace World Segment) :
    (readBody read ctx).run.run w =
      match read (ctx.body.getD .null) with
      | some a => (.ok a, w)
      | none => (.error (.badArgument "the body has not the form that the action needs"), w) := by
  unfold readBody
  cases read (ctx.body.getD .null) <;> rfl

theorem orFail_eq_ok {α : Type} {r : Except ApiError α} {a : α} {w w' : Workspace World Segment}
    (h : (orFail r).run.run w = (.ok a, w')) : r = .ok a ∧ w' = w := by
  cases r with
  | error e => cases h
  | ok b =>
    cases h
    exact ⟨rfl, rfl⟩

/-- The last steps of accepting a notification cannot fail, not even if the queue is full or closed. -/
theorem run_accept (service : Service) (w : Workspace World Segment) (host : Host) (draft : NotificationDraft)
    (outcome : Notification → Outcome) :
    (do let row ← inStore (service.filing w.world host draft)
        handOver row
        pure (outcome row) : ServiceStep Outcome).run.run w =
      (.ok (outcome (service.filed w.world host draft).1), { w with world := service.accepted w.world host draft }) := by
  have hrun : (inStore (service.filing w.world host draft)).run.run w =
      (.ok (service.filed w.world host draft).1,
        { w with world := { w.world with store := (service.filed w.world host draft).2 } }) := run_inStore _ w
  rw [run_bind, hrun]
  show (Except.ok _, _) = _
  dsimp only [accepted]
  cases w.world.queue.send (service.filed w.world host draft).1 <;> rfl

/-! ## Steps that succeed -/

section Succeeding
variable {w w' : Workspace World Segment} {o : Outcome}

theorem param_eq_ok {name value : String} : ctx.param name = .ok value ↔ lookup? name ctx.params = some value := by
  unfold Context.param
  cases lookup? name ctx.params <;> simp

theorem run_orFail_bind_eq_ok {α : Type} {r : Except ApiError α} {rest : α → ServiceStep Outcome} :
    (orFail r >>= rest).run.run w = (.ok o, w') ↔ ∃ a, r = .ok a ∧ (rest a).run.run w = (.ok o, w') := by
  rw [run_bind, run_orFail]
  cases r with
  | error e => exact ⟨nofun, nofun⟩
  | ok a => exact ⟨fun h => ⟨a, rfl, h⟩, fun ⟨_, ha, h⟩ => Except.ok.inj ha ▸ h⟩

theorem run_readBody_bind_eq_ok {α : Type} {read : Json → Option α} {rest : α → ServiceStep Outcome} :
    (readBody read ctx >>= rest).run.run w = (.ok o, w') ↔
      ∃ a, read (ctx.body.getD .null) = some a ∧ (rest a).run.run w = (.ok o, w') := by
  rw [run_bind, run_readBody]
  cases read (ctx.body.getD .null) with
  | none => exact ⟨nofun, nofun⟩
  | some a => exact ⟨fun h => ⟨a, rfl, h⟩, fun ⟨_, ha, h⟩ => Option.some.inj ha ▸ h⟩

/-- The end of a handler that writes succeeds if the store takes what it writes. -/
theorem run_commit_eq_ok {α : Type} {x : World → StoreStep Store α} (hx : ∀ w, (x w).Atomic) {outcome : α → Outcome} :
    (do let present ← world; let a ← inStore (x present); pure (outcome a) : ServiceStep Outcome).run.run w =
        (.ok o, w') ↔
      ∃ a store, (x w.world).attempt w.world.store = .ok (a, store) ∧ o = outcome a ∧
        w' = { w with world := { w.world with store } } := by
  rw [run_commit hx]
  cases (x w.world).attempt w.world.store with
  | error e => exact ⟨nofun, nofun⟩
  | ok p =>
    constructor
    · intro h
      cases h
      exact ⟨p.1, p.2, rfl, rfl, rfl⟩
    · rintro ⟨a, store, hp, rfl, rfl⟩
      cases hp
      rfl

/-- Changing a segment gives the row that it becomes. -/
theorem run_patchSegment_eq_ok {patch : SegmentPatch} :
    (patchSegment ctx patch).run.run w = (.ok o, w') ↔
      ∃ id row store, lookup? Router.idParam ctx.params = some id ∧
        w.world.store.updateSegment id w.world.clock patch = .ok (row, store) ∧
        o = wrap "segment" (segmentJson ctx row) ∧ w' = { w with world := { w.world with store } } := by
  rw [patchSegment, memberId, run_orFail_bind_eq_ok]
  constructor
  · rintro ⟨id, hid, h⟩
    obtain ⟨row, store, hstore, rfl, rfl⟩ := (run_commit_eq_ok fun _ => Store.atomic_updateSegment _ _ _).1 h
    exact ⟨id, row, store, param_eq_ok.1 hid, hstore, rfl, rfl⟩
  · rintro ⟨id, row, store, hid, hstore, rfl, rfl⟩
    exact ⟨id, param_eq_ok.2 hid, (run_commit_eq_ok fun _ => Store.atomic_updateSegment _ _ _).2
      ⟨row, store, hstore, rfl, rfl⟩⟩

theorem run_createSegment_eq_ok :
    (service.createSegment ctx).run.run w = (.ok o, w') ↔
      service.policy.authorize ctx.caller (Policy.actionName "segments" "create") = .ok () ∧
        ∃ draft row store, SegmentDraft.ofBody? (ctx.body.getD .null) = some draft ∧
          w.world.store.createSegment (service.mint .segments (w.world.store.lastSegmentId + 1)) w.world.clock draft =
            .ok (row, store) ∧
          o = wrap "segment" (segmentJson ctx row) ∧ w' = { w with world := { w.world with store } } := by
  rw [createSegment, authorize, run_orFail_bind_eq_ok]
  constructor
  · rintro ⟨⟨⟩, hallowed, h⟩
    obtain ⟨draft, hdraft, h⟩ := run_readBody_bind_eq_ok.1 h
    obtain ⟨row, store, hstore, ho, hw⟩ := (run_commit_eq_ok fun _ => Store.atomic_createSegment _ _ _).1 h
    exact ⟨hallowed, draft, row, store, hdraft, hstore, ho, hw⟩
  · rintro ⟨hallowed, draft, row, store, hdraft, hstore, ho, hw⟩
    exact ⟨(), hallowed, run_readBody_bind_eq_ok.2 ⟨draft, hdraft,
      (run_commit_eq_ok fun _ => Store.atomic_createSegment _ _ _).2 ⟨row, store, hstore, ho, hw⟩⟩⟩

end Succeeding

/-! ## Reports -/

/-- What becomes of a report: it is refused, or accepted as one of a stored host. Nothing but the store decides. -/
inductive Verdict (service : Service) (ctx : Context) (s : Store) : Except ApiError (Host × NotificationDraft) → Prop
  | unauthorized {e}
    (h : service.policy.authorize ctx.caller (Policy.actionName "notifications" "create") = .error e) :
    Verdict service ctx s (.error e)
  | unreadable (h : NotificationDraft.ofBody? (ctx.body.getD .null) = none) :
    Verdict service ctx s (.error (.badArgument "the body has not the form that the action needs"))
  | unknown {draft} (hbody : NotificationDraft.ofBody? (ctx.body.getD .null) = some draft)
    (h : ∀ host ∈ s.hosts.map (·.2), host.name ≠ draft.hostName) :
    Verdict service ctx s (.error (.notFound s!"Host with name {draft.hostName} could not be found."))
  | maintenance {draft host} (hbody : NotificationDraft.ofBody? (ctx.body.getD .null) = some draft)
    (hhost : host ∈ s.hosts.map (·.2)) (hname : host.name = draft.hostName) (h : host.onMaintenance = true) :
    Verdict service ctx s (.error (.conflict s!"Host '{host.name}' is on maintenance."))
  | duplicate {draft host n} (hbody : NotificationDraft.ofBody? (ctx.body.getD .null) = some draft)
    (hhost : host ∈ s.hosts.map (·.2)) (hname : host.name = draft.hostName) (hready : host.onMaintenance = false)
    (hn : n ∈ s.notifications.map (·.2)) (h : Repeats service.config.duplicateInterval host draft n) :
    Verdict service ctx s (.error (duplicateError draft))
  | accepted {draft host} (hbody : NotificationDraft.ofBody? (ctx.body.getD .null) = some draft)
    (hhost : host ∈ s.hosts.map (·.2)) (hname : host.name = draft.hostName) (hready : host.onMaintenance = false)
    (hnew : ∀ n ∈ s.notifications.map (·.2), ¬Repeats service.config.duplicateInterval host draft n) :
    Verdict service ctx s (.ok (host, draft))

/-- How a handler ends that has come to a verdict. -/
def conclude (service : Service) (w : Workspace World Segment) :
    Except ApiError (Host × NotificationDraft) → Except ApiError Outcome × Workspace World Segment
  | .error e => (.error e, w)
  | .ok (host, draft) =>
    (.ok (wrap "notification" ((service.filed w.world host draft).1.toJson none)),
      { w with world := service.accepted w.world host draft })

/-- Every report meets a verdict, the same in all workspaces with one store. -/
theorem exists_verdict (service : Service) (ctx : Context) (s : Store) :
    ∃ verdict, service.Verdict ctx s verdict ∧
      ∀ w, w.world.store = s → (service.createNotification ctx).run.run w = service.conclude w verdict := by
  -- The steps before the last ones read the store, each if those before it have found nothing in the way.
  cases hauthorize : service.policy.authorize ctx.caller (Policy.actionName "notifications" "create") with
  | error e =>
    refine ⟨.error e, .unauthorized hauthorize, fun w _ => ?_⟩
    simp only [createNotification, run_bind, run_authorize, hauthorize, conclude]
  | ok u =>
    cases hbody : NotificationDraft.ofBody? (ctx.body.getD .null) with
    | none =>
      refine ⟨_, .unreadable hbody, fun w _ => ?_⟩
      simp only [createNotification, run_bind, run_authorize, hauthorize, run_readBody, hbody, conclude]
    | some draft =>
      rcases hostNamed_cases s draft.hostName with ⟨host, hhost, hname, hfound⟩ | ⟨hnone, hfailed⟩
      · cases hready : host.onMaintenance with
        | true =>
          refine ⟨_, .maintenance hbody hhost hname hready, ?_⟩
          rintro w rfl
          simp only [createNotification, run_bind, run_authorize, hauthorize, run_readBody, hbody, run_world,
            hfound, run_refuseIf, hready, if_true, conclude]
        | false =>
          obtain ⟨found, hsearch, hduplicate⟩ := isDuplicate_eq service.config.duplicateInterval s host draft
          cases found with
          | true =>
            obtain ⟨n, hn, hr⟩ := hduplicate.1 rfl
            refine ⟨_, .duplicate hbody hhost hname hready hn hr, ?_⟩
            rintro w rfl
            simp only [createNotification, run_bind, run_authorize, hauthorize, run_readBody, hbody, run_world,
              hfound, run_refuseIf, hready, hsearch, if_true, Bool.false_eq_true, if_false, conclude, duplicateError]
          | false =>
            refine ⟨.ok (host, draft), .accepted hbody hhost hname hready fun n hn hr => ?_, ?_⟩
            · exact absurd (hduplicate.2 ⟨n, hn, hr⟩) Bool.false_ne_true
            · rintro w rfl
              simp only [createNotification, run_bind, run_authorize, hauthorize, run_readBody, hbody, run_world,
                hfound, run_refuseIf, hready, hsearch, Bool.false_eq_true, if_false]
              refine Eq.trans ?_ (run_accept service w host draft fun row => wrap "notification" (row.toJson none))
              simp only [run_bind, filing]
      · refine ⟨_, .unknown hbody hnone, ?_⟩
        rintro w rfl
        simp only [createNotification, run_bind, run_authorize, hauthorize, run_readBody, hbody, run_world,
          hfailed, conclude]

theorem transacts_createNotification : Transacts service.Change (service.createNotification ctx) := by
  refine .of_cases fun w => ?_
  obtain ⟨verdict, hverdict, hrun⟩ := exists_verdict service ctx w.world.store
  rw [hrun w rfl]
  cases hverdict with
  | accepted hbody hhost hname hready hnew =>
    exact .inr ⟨_, _, isPlain_wrap _ _, .accept hbody hhost hname hready hnew, rfl⟩
  | _ => exact .inl ⟨_, rfl⟩

/-! ## The actions -/

/-- An action of a resource of the service that indexes or shows reads. Every other one is atomic. -/
theorem Own.reads_or_transacts {collection name : String} {a : Action World Segment}
    (h : service.Own collection name a) :
    (∀ ctx, Reads (a.handler ctx)) ∨
      name ≠ "index" ∧ name ≠ "show" ∧ ∀ ctx, Transacts service.Change (a.handler ctx) := by
  cases h with
  | indexVersions => exact .inl fun ctx => reads_indexVersions
  | showVersion => exact .inl fun ctx => reads_showVersion
  | indexExtensions infos => exact .inl fun ctx => reads_indexExtensions infos
  | showExtension infos => exact .inl fun ctx => reads_showExtension infos
  | indexSegments => exact .inl fun ctx => reads_indexSegments
  | showSegment => exact .inl fun ctx => reads_showSegment
  | createSegment => exact .inr ⟨by decide, by decide, fun ctx => transacts_createSegment .createSegment⟩
  | updateSegment => exact .inr ⟨by decide, by decide, fun ctx => transacts_updateSegment .updateSegment⟩
  | deleteSegment => exact .inr ⟨by decide, by decide, fun ctx => transacts_deleteSegment .destroySegment⟩
  | indexHosts => exact .inl fun ctx => reads_indexHosts
  | showHost => exact .inl fun ctx => reads_showHost
  | createHost => exact .inr ⟨by decide, by decide, fun ctx => transacts_createHost .createHost⟩
  | updateHost => exact .inr ⟨by decide, by decide, fun ctx => transacts_updateHost .updateHost⟩
  | deleteHost => exact .inr ⟨by decide, by decide, fun ctx => transacts_deleteHost .destroyHost⟩
  | indexNotifications => exact .inl fun ctx => reads_indexNotifications
  | showNotification details => exact .inl fun ctx => reads_showNotification details
  | createNotification => exact .inr ⟨by decide, by decide, fun ctx => transacts_createNotification⟩

theorem Added.transacts {name : String} {a : Action World Segment} (h : service.Added name a) (ctx : Context) :
    Transacts service.Change (a.handler ctx) := by
  cases h with
  | enable => exact transacts_setEnabled .updateSegment _ _
  | disable => exact transacts_setEnabled .updateSegment _ _

/-- Every request changes nothing or makes one change. -/
theorem serve_changes {d : Dispatcher World Segment} (hd : service.dispatcher = .ok d) (req : Request) (w : World) :
    (d.serve req w).world = w ∨ service.Change w (d.serve req w).world := by
  rcases serve_cases hd req with ⟨reply, hrefused⟩ | ⟨⟨h⟩⟩
  · exact .inl (hrefused w).2
  · rw [(h.serve_eq w).2]
    have htransacts (ht : Transacts service.Change (h.action.handler h.ctx)) :
        ((h.action.handler h.ctx).run.run (h.ctx.start w)).2.world = w ∨
          service.Change w ((h.action.handler h.ctx).run.run (h.ctx.start w)).2.world := by
      generalize hrun : (h.action.handler h.ctx).run.run (h.ctx.start w) = run
      obtain ⟨result, w'⟩ := run
      cases result with
      | error e => exact .inl (ht.atomic _ e w' hrun)
      | ok o => exact .inr (ht.changes _ o w' hrun)
    rcases action_cases hd h with hown | hadded
    · rcases hown.reads_or_transacts with hr | ⟨-, -, ht⟩
      · exact .inl (hr h.ctx (h.ctx.start w))
      · exact htransacts (ht h.ctx)
    · exact htransacts (hadded.transacts h.ctx)

end Standby.Service
