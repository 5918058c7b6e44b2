import Standby.Proofs.Engine.SideBySide
import Standby.Proofs.Service.Changes
import Standby.Proofs.Store.Masking
/-!
# Writing side by side

Two requests that agree on the caller, the parameters and the body are made in two worlds that are the same, but for the
flags of some segments. A handler that writes decides on both alike, and writes the same, but for these flags: neither the
flags nor the versions of the requests decide on anything. They only show in the segment that the reply holds.
-/

namespace Standby

variable {ids : List Nat}

/-- Two worlds are the same, but for the flags of the segments with some ids. -/
structure World.SameBut (ids : List Nat) (w w' : World) : Prop where
  store : w.store.SameBut ids w'.store
  queue : w.queue = w'.queue
  clock : w.clock = w'.clock

/-- Two worlds that differ in no flag are the same. -/
theorem World.SameBut.eq {w w' : World} (h : w.SameBut [] w') : w = w' := by
  obtain ⟨store, queue, clock⟩ := w
  cases h.store.eq
  cases h.queue
  cases h.clock
  rfl

/-- Two workspaces whose worlds are the same, but for flags, and whose replies are written alike. The cache may hold
anything. -/
structure Beside (ids : List Nat) (w w' : Workspace World Segment) : Prop where
  world : w.world.SameBut ids w'.world
  responseType : w.request.responseType = w'.request.responseType

/-- Two requests agree on all that decides what is written. -/
structure Context.Agrees (ctx ctx' : Context) : Prop where
  caller : ctx.caller = ctx'.caller
  params : ctx.params = ctx'.params
  body : ctx.body = ctx'.body

theorem agrees_refl (ctx : Context) : ctx.Agrees ctx := ⟨rfl, rfl, rfl⟩

namespace Service

variable {service : Service} {ctx ctx' : Context} {R : Outcome → Outcome → Prop}

/-! ## Steps that handlers share -/

theorem blind_orFail {α : Type} (r : Except ApiError α) : Blind (orFail r) := ⟨r, run_orFail r⟩

theorem blind_authorize (resource action : String) : Blind (service.authorize ctx resource action) := blind_orFail _

theorem blind_memberId : Blind (memberId ctx) := blind_orFail _

theorem blind_readBody {α : Type} (read : Json → Option α) : Blind (readBody read ctx) := by
  unfold readBody
  cases read (ctx.body.getD .null) with
  | some a => exact blind_pure a
  | none => exact blind_throw _

section Shared
variable {α α' β : Type} {Q : α → α' → Prop}

theorem relates_orFail_bind {r : Except ApiError β} {f : β → ServiceStep α} {f' : β → ServiceStep α'}
    (h : ∀ a, r = .ok a → Relates (Beside ids) Q (f a) (f' a)) :
    Relates (Beside ids) Q (orFail r >>= f) (orFail r >>= f') := by
  intro w w' hw
  rw [run_bind, run_bind, run_orFail, run_orFail]
  cases r with
  | ok a => exact h a rfl w w' hw
  | error e => exact ⟨.error e, hw⟩

theorem relates_orRefuse {r : Except StoreError α} {r' : Except StoreError α'} (h : Results Q r r') :
    Relates (Beside ids) Q (orRefuse r) (orRefuse r') := by
  intro w w' hw
  rw [orRefuse, orRefuse, run_orFail, run_orFail]
  exact ⟨h.mapError _, hw⟩

theorem relates_world : Relates (Beside ids) (World.SameBut ids) world world :=
  relates_get.bind fun _ _ hw => relates_pure hw.world

/-- The end of a handler that writes: decisions on two worlds that come out alike, and stores put in place. -/
theorem relates_commit {x x' : World → StoreStep Store β} {outcome outcome' : β → Outcome} (hx : ∀ w, (x w).Atomic)
    (hx' : ∀ w, (x' w).Atomic)
    (h : ∀ w w', w.SameBut ids w' →
      Results (fun p p' => p.2.SameBut ids p'.2 ∧ R (outcome p.1) (outcome' p'.1)) ((x w).attempt w.store)
        ((x' w').attempt w'.store)) :
    Relates (Beside ids) R
      (do let present ← world
          let b ← inStore (x present)
          pure (outcome b))
      (do let present ← world
          let b ← inStore (x' present)
          pure (outcome' b)) := by
  intro w w' hw
  rw [run_commit hx, run_commit hx']
  rcases (h w.world w'.world hw.world).cases with ⟨e, he, he'⟩ | ⟨p, p', hp, hp', hstore, houtcome⟩
  · rw [he, he']
    exact ⟨.error _, hw⟩
  · rw [hp, hp']
    exact ⟨.ok houtcome, { hw.world with store := hstore }, hw.responseType⟩

end Shared

/-- How two outcomes may differ when the segments that they show differ in their flags, or the requests in their
versions. -/
structure Overlooks (ids : List Nat) (ctx ctx' : Context) (R : Outcome → Outcome → Prop) : Prop where
  same : ∀ o, R o o
  segment : ∀ s s', s.SameBut ids s' → R (wrap "segment" (segmentJson ctx s)) (wrap "segment" (segmentJson ctx' s'))

theorem blind_refuseIf (obstacle : Bool) (e : ApiError) : Blind (refuseIf obstacle e) := by
  cases obstacle with
  | true => exact blind_throw e
  | false => exact blind_pure ()

theorem blind_hostNamed (store : Store) (name : String) : Blind (hostNamed store name) := by
  rcases hostNamed_cases store name with ⟨host, -, -, hfound⟩ | ⟨-, hfailed⟩
  · exact ⟨.ok host, hfound⟩
  · exact ⟨_, hfailed⟩

theorem blind_isDuplicate (interval : Nat) (store : Store) (host : Host) (draft : NotificationDraft) :
    Blind (isDuplicate interval store host draft) := by
  obtain ⟨found, hsearch, -⟩ := isDuplicate_eq interval store host draft
  exact ⟨.ok found, hsearch⟩

/-- The queues, being the same, take a notification both or neither. -/
theorem relates_handOver (n : Notification) : Relates (Beside ids) Eq (handOver n) (handOver n) := by
  refine relates_modify fun w w' hw => ?_
  rw [← hw.world.queue]
  split
  · exact ⟨{ hw.world with queue := rfl }, hw.responseType⟩
  · exact hw

/-- The end of accepting a notification. -/
theorem relates_accept (hrefl : ∀ o, R o o) {w w' : World} (hw : w.SameBut ids w') (host : Host)
    (draft : NotificationDraft) :
    Relates (Beside ids) R
      (do let row ← inStore (service.filing w host draft)
          handOver row
          pure (wrap "notification" (row.toJson none)))
      (do let row ← inStore (service.filing w' host draft)
          handOver row
          pure (wrap "notification" (row.toJson none))) := by
  have hfiling : service.filing w' host draft = service.filing w host draft := by
    rw [filing, filing, hw.clock, hw.store.lastNotificationId]
  have hfiled : Relates (Beside ids) Eq (inStore (service.filing w host draft)) (inStore (service.filing w host draft)) := by
    intro v v' hv
    obtain ⟨hrow, hstore⟩ := hv.world.store.createNotification (service.mint .notifications (w.store.lastNotificationId + 1))
      w.clock ⟨draft.kind, draft.generatedAt, draft.payload, host.uuid⟩
    exact ⟨.ok hrow, { hv.world with store := hstore }, hv.responseType⟩
  rw [hfiling]
  refine hfiled.bind ?_
  rintro row _ rfl
  exact (relates_handOver row).bind fun _ _ _ => relates_pure (hrefl _)

theorem hostJson_of_sameBut {s s' : Segment} (h : s.SameBut ids s') : hostJson s = hostJson s' := by
  funext host
  rw [hostJson, hostJson, h.toJson]

/-! ## Handlers that write -/

section Writing
variable (ha : ctx.Agrees ctx')
include ha

theorem authorize_of_agrees (resource action : String) :
    service.authorize ctx' resource action = service.authorize ctx resource action := by
  rw [authorize, authorize, ha.caller]

theorem memberId_of_agrees : memberId ctx' = memberId ctx := by
  rw [memberId, memberId, Context.param, Context.param, ha.params]

theorem readBody_of_agrees {α : Type} (read : Json → Option α) : readBody read ctx' = readBody read ctx := by
  rw [readBody, readBody, ha.body]

theorem relates_loadSegment : Relates (Beside ids) (Segment.SameBut ids) (loadSegment ctx) (loadSegment ctx') := by
  have hparam : ctx'.param segmentParam = ctx.param segmentParam := by rw [Context.param, Context.param, ha.params]
  unfold loadSegment
  rw [hparam]
  refine (blind_orFail _).relates.bind ?_
  rintro id _ rfl
  refine relates_world.bind fun w w' hw => (relates_orRefuse (hw.store.segment id)).bind fun row row' hrow => ?_
  -- What is put into the cache may differ.
  exact (relates_modify fun _ _ hw => ⟨hw.world, hw.responseType⟩).bind fun _ _ _ => relates_pure hrow

theorem relates_loadHost {s s' : Segment} (hs : s.SameBut ids s') :
    Relates (Beside ids) Eq (loadHost ctx s) (loadHost ctx' s') := by
  unfold loadHost
  rw [memberId_of_agrees ha]
  refine blind_memberId.relates.bind ?_
  rintro id _ rfl
  refine relates_world.bind fun w w' hw => ?_
  have hhost : w'.store.host id = w.store.host id := by rw [Store.host, Store.host, hw.store.hosts]
  rw [hhost]
  refine (relates_orRefuse (results_refl _)).bind ?_
  rintro row _ rfl
  exact .ite (by rw [hs.uuid]) (relates_pure rfl) (relates_throw _)

variable (hR : Overlooks ids ctx ctx' R)
include hR

theorem relates_createSegment :
    Relates (Beside ids) R (service.createSegment ctx) (service.createSegment ctx') := by
  unfold createSegment
  rw [authorize_of_agrees ha, readBody_of_agrees ha]
  refine (blind_authorize _ _).relates.bind fun _ _ _ => (blind_readBody _).relates.bind ?_
  rintro draft _ rfl
  refine relates_commit (fun _ => Store.atomic_createSegment _ _ _) (fun _ => Store.atomic_createSegment _ _ _)
    fun w w' hw => ?_
  rw [← hw.clock, ← hw.store.lastSegmentId]
  exact (hw.store.createSegment _ _ draft).imp fun p p' hp => ⟨hp.2, hR.segment _ _ hp.1⟩

theorem relates_patchSegment (patch : SegmentPatch) :
    Relates (Beside ids) R (patchSegment ctx patch) (patchSegment ctx' patch) := by
  unfold patchSegment
  rw [memberId_of_agrees ha]
  refine blind_memberId.relates.bind ?_
  rintro id _ rfl
  refine relates_commit (fun _ => Store.atomic_updateSegment _ _ _) (fun _ => Store.atomic_updateSegment _ _ _)
    fun w w' hw => ?_
  rw [← hw.clock]
  exact (hw.store.updateSegment _ _ patch).imp fun p p' hp => ⟨hp.2, hR.segment _ _ hp.1⟩

theorem relates_updateSegment :
    Relates (Beside ids) R (service.updateSegment ctx) (service.updateSegment ctx') := by
  unfold updateSegment
  rw [authorize_of_agrees ha, readBody_of_agrees ha]
  refine (blind_authorize _ _).relates.bind fun _ _ _ => (blind_readBody _).relates.bind ?_
  rintro patch _ rfl
  exact relates_patchSegment ha hR patch

theorem relates_setEnabled (action : String) (enabled : Bool) :
    Relates (Beside ids) R (service.setEnabled action enabled ctx) (service.setEnabled action enabled ctx') := by
  unfold setEnabled
  rw [authorize_of_agrees ha]
  exact (blind_authorize _ _).relates.bind fun _ _ _ => relates_patchSegment ha hR _

theorem relates_deleteSegment :
    Relates (Beside ids) R (service.deleteSegment ctx) (service.deleteSegment ctx') := by
  unfold deleteSegment
  rw [authorize_of_agrees ha, memberId_of_agrees ha]
  refine (blind_authorize _ _).relates.bind fun _ _ _ => blind_memberId.relates.bind ?_
  rintro id _ rfl
  show Relates (Beside ids) R (world >>= fun _ => inStore (.destroySegment id) >>= fun _ => pure .empty)
    (world >>= fun _ => inStore (.destroySegment id) >>= fun _ => pure .empty)
  refine relates_commit (fun _ => Store.atomic_destroySegment id) (fun _ => Store.atomic_destroySegment id) fun w w' hw => ?_
  exact hw.store.destroySegment id |>.of_map.imp fun p p' hp => ⟨hp, hR.same _⟩

theorem relates_createHost : Relates (Beside ids) R (service.createHost ctx) (service.createHost ctx') := by
  unfold createHost
  rw [authorize_of_agrees ha, readBody_of_agrees ha]
  refine (blind_authorize _ _).relates.bind fun _ _ _ => (relates_loadSegment ha).bind fun s s' hs => ?_
  refine (blind_readBody _).relates.bind ?_
  rintro draft _ rfl
  rw [← hs.uuid, ← hostJson_of_sameBut hs]
  refine relates_commit (fun _ => Store.atomic_createHost _ _ _ _) (fun _ => Store.atomic_createHost _ _ _ _)
    fun w w' hw => ?_
  rw [← hw.clock, ← hw.store.lastHostId]
  refine (hw.store.createHost _ _ _ draft).imp fun p p' hp => ⟨hp.2, ?_⟩
  rw [hp.1]
  exact hR.same _

theorem relates_updateHost : Relates (Beside ids) R (service.updateHost ctx) (service.updateHost ctx') := by
  unfold updateHost
  rw [authorize_of_agrees ha, readBody_of_agrees ha]
  refine (blind_authorize _ _).relates.bind fun _ _ _ => (relates_loadSegment ha).bind fun s s' hs => ?_
  refine (relates_loadHost ha hs).bind ?_
  rintro old _ rfl
  refine (blind_readBody _).relates.bind ?_
  rintro patch _ rfl
  rw [← hostJson_of_sameBut hs]
  refine relates_commit (fun _ => Store.atomic_updateHost _ _ _) (fun _ => Store.atomic_updateHost _ _ _) fun w w' hw => ?_
  rw [← hw.clock]
  refine (hw.store.updateHost _ _ patch).imp fun p p' hp => ⟨hp.2, ?_⟩
  rw [hp.1]
  exact hR.same _

theorem relates_deleteHost : Relates (Beside ids) R (service.deleteHost ctx) (service.deleteHost ctx') := by
  unfold deleteHost
  rw [authorize_of_agrees ha]
  refine (blind_authorize _ _).relates.bind fun _ _ _ => (relates_loadSegment ha).bind fun s s' hs => ?_
  refine (relates_loadHost ha hs).bind ?_
  rintro row _ rfl
  show Relates (Beside ids) R (world >>= fun _ => inStore (.destroyHost row.uuid) >>= fun _ => pure .empty)
    (world >>= fun _ => inStore (.destroyHost row.uuid) >>= fun _ => pure .empty)
  refine relates_commit (fun _ => Store.atomic_destroyHost _) (fun _ => Store.atomic_destroyHost _) fun w w' hw => ?_
  exact hw.store.destroyHost _ |>.of_map.imp fun p p' hp => ⟨hp, hR.same _⟩

theorem relates_createNotification :
    Relates (Beside ids) R (service.createNotification ctx) (service.createNotification ctx') := by
  unfold createNotification
  rw [authorize_of_agrees ha, readBody_of_agrees ha]
  refine (blind_authorize _ _).relates.bind fun _ _ _ => (blind_readBody _).relates.bind ?_
  rintro draft _ rfl
  refine relates_world.bind fun w w' hw => ?_
  have hhosts : hostNamed w'.store = hostNamed w.store := by
    funext name
    rw [hostNamed, hostNamed, Store.listHosts, Store.listHosts, hw.store.hosts]
  have hreports : isDuplicate service.config.duplicateInterval w'.store =
      isDuplicate service.config.duplicateInterval w.store := by
    funext host draft
    rw [isDuplicate, isDuplicate, Store.listNotifications, Store.listNotifications, hw.store.notifications]
  rw [hhosts, hreports]
  refine (blind_hostNamed _ _).relates.bind ?_
  rintro host _ rfl
  refine (blind_refuseIf _ _).relates.bind fun _ _ _ => (blind_isDuplicate _ _ _ _).relates.bind ?_
  rintro found _ rfl
  exact (blind_refuseIf _ _).relates.bind fun _ _ _ => relates_accept hR.same hw host draft

/-- An action of a resource that neither indexes nor shows. -/
theorem Own.relates_of_agrees {collection name : String} {a : Action World Segment}
    (h : service.Own collection name a) (hname : ¬(name = "index" ∨ name = "show")) :
    Relates (Beside ids) R (a.handler ctx) (a.handler ctx') := by
  cases h with
  | createSegment => exact relates_createSegment ha hR
  | updateSegment => exact relates_updateSegment ha hR
  | deleteSegment => exact relates_deleteSegment ha hR
  | createHost => exact relates_createHost ha hR
  | updateHost => exact relates_updateHost ha hR
  | deleteHost => exact relates_deleteHost ha hR
  | createNotification => exact relates_createNotification ha hR
  | _ => exact absurd (by decide) hname

theorem Added.relates_of_agrees {name : String} {a : Action World Segment} (h : service.Added name a) :
    Relates (Beside ids) R (a.handler ctx) (a.handler ctx') := by
  cases h with
  | enable => exact relates_setEnabled ha hR _ _
  | disable => exact relates_setEnabled ha hR _ _

end Writing

end Service

end Standby
