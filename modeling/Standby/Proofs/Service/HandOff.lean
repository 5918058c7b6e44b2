import Standby.Proofs.Service.Duplicates
import Standby.Proofs.Service.Faults
import Standby.Proofs.Service.Reports
import Standby.Proofs.Store.Reachable
/-!
# How notifications come to the engine

A notification that a request has been accepted for is put at the end of the queue if the engine's end is open and
there is room, and is only stored otherwise; the reply is the same. The engine receives what has been queued, in order
and each notification once, and what it has not received when its end is closed is lost.
-/

namespace Standby

namespace Queue

/-- Whether something that is sent now is queued. -/
def takes (q : Queue) : Bool := q.isOpen && q.waiting.length < q.capacity

theorem getD_send (q : Queue) (n : Notification) :
    (q.send n).toOption.getD q = if q.takes then { q with waiting := q.waiting ++ [n] } else q := by
  unfold send takes
  cases q.isOpen with
  | false => rfl
  | true =>
    by_cases hroom : q.waiting.length < q.capacity
    · simp [hroom, Except.toOption]
    · simp [hroom, Except.toOption]

/-- The engine comes to the end when it has received all that waits. -/
theorem recover_eq (q : Queue) (received : Nat) : q.recover received = received + q.waiting.length := by
  fun_induction recover q received with
  | case1 q received hnone =>
    unfold receive? at hnone
    split at hnone
    · rename_i hwaiting
      rw [hwaiting]
      rfl
    · cases hnone
  | case2 q received n rest hsome ih =>
    rw [ih, (receive?_eq_some.1 hsome).1, List.length_cons]
    omega

end Queue

namespace Service

variable {service : Service} {d : Dispatcher World Segment} {req : Request}

/-! ## What a request does to the queue -/

/-- The queue and the notifications stay as they are. -/
structure KeepsReports (w w' : World) : Prop where
  queue : w'.queue = w.queue
  notifications : w'.store.notifications = w.store.notifications
  lastId : w'.store.lastNotificationId = w.store.lastNotificationId

theorem keepsReports_of_eq {w w' : World} (h : w' = w) : KeepsReports w w' := by
  rw [h]
  exact ⟨rfl, rfl, rfl⟩

section Handlers
variable {ctx : Context} {w w' : Workspace World Segment} {o : Outcome} {name : String} {a : Action World Segment}

theorem keepsReports_updateSegment {w : World} {uuid : String} {patch : SegmentPatch} {row : Segment} {store : Store}
    (h : w.store.updateSegment uuid w.clock patch = .ok (row, store)) : KeepsReports w { w with store } := by
  obtain ⟨_, _, -, -, -, rfl⟩ := Store.updateSegment_eq_ok.1 h
  exact ⟨rfl, rfl, rfl⟩

/-- No action but the one that accepts notifications touches them or the queue. -/
theorem Own.keepsReports {collection : String} (h : service.Own collection name a) (hstatus : a.status ≠ 202)
    (hrun : (a.handler ctx).run.run w = (.ok o, w')) : KeepsReports w.world w'.world := by
  have hreads (hr : Reads (a.handler ctx)) : KeepsReports w.world w'.world := by
    have hw := hr w
    rw [hrun] at hw
    exact keepsReports_of_eq hw
  have htransacts (ht : Transacts KeepsReports (a.handler ctx)) : KeepsReports w.world w'.world :=
    ht.changes w o w' hrun
  cases h with
  | indexVersions => exact hreads reads_indexVersions
  | showVersion => exact hreads reads_showVersion
  | indexExtensions infos => exact hreads (reads_indexExtensions infos)
  | showExtension infos => exact hreads (reads_showExtension infos)
  | indexSegments => exact hreads reads_indexSegments
  | showSegment => exact hreads reads_showSegment
  | createSegment =>
    refine htransacts (transacts_createSegment fun h => ?_)
    obtain ⟨-, -, rfl⟩ := Store.createSegment_eq_ok.1 h
    exact ⟨rfl, rfl, rfl⟩
  | updateSegment => exact htransacts (transacts_updateSegment keepsReports_updateSegment)
  | deleteSegment =>
    refine htransacts (transacts_deleteSegment fun h => ?_)
    obtain ⟨_, -, rfl⟩ := Store.destroySegment_eq_ok.1 h
    exact ⟨rfl, rfl, rfl⟩
  | indexHosts => exact hreads reads_indexHosts
  | showHost => exact hreads reads_showHost
  | createHost =>
    refine htransacts (transacts_createHost fun h => ?_)
    obtain ⟨-, -, -, rfl⟩ := Store.createHost_eq_ok.1 h
    exact ⟨rfl, rfl, rfl⟩
  | updateHost =>
    refine htransacts (transacts_updateHost fun h => ?_)
    obtain ⟨_, _, -, -, -, rfl⟩ := Store.updateHost_eq_ok.1 h
    exact ⟨rfl, rfl, rfl⟩
  | deleteHost =>
    refine htransacts (transacts_deleteHost fun h => ?_)
    obtain ⟨_, -, rfl⟩ := Store.destroyHost_eq_ok.1 h
    exact ⟨rfl, rfl, rfl⟩
  | indexNotifications => exact hreads reads_indexNotifications
  | showNotification details => exact hreads (reads_showNotification details)
  | createNotification => exact absurd rfl hstatus

theorem Added.keepsReports (h : service.Added name a) (hrun : (a.handler ctx).run.run w = (.ok o, w')) :
    KeepsReports w.world w'.world := by
  cases h with
  | enable => exact (transacts_setEnabled keepsReports_updateSegment _ _).changes w o w' hrun
  | disable => exact (transacts_setEnabled keepsReports_updateSegment _ _).changes w o w' hrun

/-- Only the action that accepts notifications has the status 202. -/
theorem handler_of_status (h : (∃ collection, service.Own collection name a) ∨ service.Added name a)
    (hstatus : a.status = 202) : a.handler = service.createNotification := by
  rcases h with ⟨collection, h⟩ | h
  · cases h <;> first | rfl | cases hstatus
  · cases h <;> cases hstatus

end Handlers

/-- A request whose reply has the status 202 has a notification accepted, whatever the queue is, and the reply does not
depend on the queue. Every other request leaves the notifications and the queue alone. -/
theorem serve_accepts_or_keeps (hd : service.dispatcher = .ok d) (req : Request) (w : World) :
    (d.serve req w).reply.status ≠ 202 ∧ KeepsReports w (d.serve req w).world ∨
      (d.serve req w).reply.status = 202 ∧ ∃ host draft, (d.serve req w).world = service.accepted w host draft ∧
        ∀ queue, (d.serve req { w with queue }).reply = (d.serve req w).reply ∧
          (d.serve req { w with queue }).world = service.accepted { w with queue } host draft := by
  rcases serve_ends hd req w with ⟨version, e, he, hreply, hworld⟩ | ⟨h, o, w', hrun, hstatus, hworld⟩
  · refine .inl ⟨fun hstatus => ?_, keepsReports_of_eq hworld⟩
    rw [hreply, Dispatcher.status_fault] at hstatus
    exact absurd (hstatus ▸ he.status_bounds.1) (by decide)
  rw [hstatus, hworld]
  by_cases h202 : h.action.status = 202
  · have hcreate := handler_of_status ((action_cases hd h).imp_left fun hown => ⟨_, hown⟩) h202
    obtain ⟨verdict, -, hconclude⟩ := exists_verdict service h.ctx w.store
    -- All that the verdict and the reply depend on is the store.
    have hserve := h.serve_eq
    simp only [hcreate] at hserve hrun
    have hend := hconclude (h.ctx.start w) rfl
    cases verdict with
    | error e => cases hend.symm.trans hrun
    | ok p =>
      obtain ⟨host, draft⟩ := p
      have hother (queue : Queue) := hconclude (h.ctx.start { w with queue }) rfl
      cases hend.symm.trans hrun
      refine .inr ⟨h202, host, draft, rfl, fun queue => ?_⟩
      rw [(hserve _).1, (hserve _).2, (hserve w).1, hother queue, hend]
      exact ⟨rfl, rfl⟩
  · refine .inl ⟨h202, ?_⟩
    rcases action_cases hd h with hown | hadded
    · exact hown.keepsReports h202 hrun
    · exact hadded.keepsReports hrun

/-! ## Runs -/

/-- What happens: a request comes in at some time, the engine receives the next notification if there is one, or its end
is closed. -/
inductive Event where
  | request (req : Request) (clock : Time.Instant)
  | receive
  | close

/-- The service and the engine on their way. -/
structure Exchange where
  world : World
  /-- What the engine has received, the oldest first. -/
  received : List Notification := []
  /-- What was waiting when the engine's end was closed. -/
  lost : List Notification := []
  /-- What was stored by requests that were accepted while the engine's end was open and the queue had room. -/
  due : List Notification := []

/-- The notifications that were stored between one store and another. -/
def stored (before after : Store) : List Notification :=
  (after.notifications.map (·.2)).filter (before.lastNotificationId < ·.id)

namespace Exchange

/-- Nothing has been queued yet, and the queue has room for a number of notifications. -/
def start (store : Store) (capacity : Nat) : Exchange := { world := ⟨store, { capacity }, .first⟩ }

def step (d : Dispatcher World Segment) (capacity : Nat) (x : Exchange) : Event → Exchange
  | .request req clock =>
    let answer := d.serve req { x.world with clock }
    let counts := answer.reply.status = 202 ∧ x.world.queue.isOpen = true ∧ x.world.queue.waiting.length < capacity
    { x with
      world := answer.world
      due := x.due ++ if counts then stored x.world.store answer.world.store else [] }
  | .receive =>
    match x.world.queue.receive? with
    | none => x
    | some (n, queue) => { x with world := { x.world with queue }, received := x.received ++ [n] }
  | .close =>
    { x with
      world := { x.world with queue := x.world.queue.close }
      lost := x.lost ++ x.world.queue.waiting }

theorem due_receive (d : Dispatcher World Segment) (capacity : Nat) (x : Exchange) :
    (x.step d capacity .receive).due = x.due := by
  simp only [step]
  split <;> rfl

/-- A run that begins with a store and an empty queue. -/
def run (d : Dispatcher World Segment) (store : Store) (capacity : Nat) (events : List Event) : Exchange :=
  events.foldl (step d capacity) (start store capacity)

/-- What every step keeps up. -/
structure Sound (service : Service) (capacity : Nat) (x : Exchange) : Prop where
  capacity : x.world.queue.capacity = capacity
  balance : x.received ++ x.lost ++ x.world.queue.waiting = x.due
  lost : x.world.queue.isOpen = true → x.lost = []
  closed : x.world.queue.isOpen = false → x.world.queue.waiting = []
  bounded : ∀ n ∈ x.world.store.notifications.map (·.2), n.id ≤ x.world.store.lastNotificationId
  ordered : x.due.Pairwise (·.id < ·.id)
  /-- Notifications are found under the identifiers that have been minted for them. -/
  minted : ∀ n ∈ x.due, n.uuid = service.mint .notifications n.id ∧ n.progress = .new ∧
    n.id ≤ x.world.store.lastNotificationId ∧ lookup? n.uuid x.world.store.notifications = some n

end Exchange

theorem filter_insertKey {rows : List (String × Notification)} {uuid : String} {row : Notification} {last : Nat}
    (hbounded : ∀ n ∈ rows.map (·.2), n.id ≤ last) (hid : row.id = last + 1) :
    ((insertKey uuid row rows).map (·.2)).filter (last < ·.id) = [row] := by
  have hnone (rows : List (String × Notification)) (h : ∀ n ∈ rows.map (·.2), n.id ≤ last) :
      (rows.map (·.2)).filter (last < ·.id) = [] :=
    List.filter_eq_nil_iff.2 fun n hn => by simpa using h n hn
  have hrow : last < row.id := by omega
  induction rows with
  | nil => simp [insertKey, hrow]
  | cons p rows ih =>
    obtain ⟨key, n⟩ := p
    have hrest : ∀ n ∈ rows.map (·.2), n.id ≤ last := fun m hm => hbounded m (List.mem_cons_of_mem _ hm)
    by_cases hkey : key = uuid
    · simp [insertKey, hkey, hrow, ← hnone rows hrest]
    · have hold : n.id ≤ last := hbounded n List.mem_cons_self
      simp [insertKey, hkey, hold.not_gt, ← ih hrest]

/-- Accepting a notification stores one, and a new one. -/
theorem stored_accepted {w : World} (hbounded : ∀ n ∈ w.store.notifications.map (·.2), n.id ≤ w.store.lastNotificationId)
    (host : Host) (draft : NotificationDraft) :
    stored w.store (service.accepted w host draft).store = [(service.filed w host draft).1] :=
  filter_insertKey hbounded rfl

namespace Exchange

variable {capacity : Nat} {x : Exchange}

theorem sound_start {store : Store} (hstore : ∀ n ∈ store.notifications.map (·.2), n.id ≤ store.lastNotificationId) :
    (start store capacity).Sound service capacity where
  capacity := rfl
  balance := rfl
  lost _ := rfl
  closed _ := rfl
  bounded := hstore
  ordered := .nil
  minted := by simp [start]

theorem Sound.keep {world : World} (h : x.Sound service capacity) (hkeeps : KeepsReports x.world world) :
    ({ x with world } : Exchange).Sound service capacity where
  capacity := hkeeps.queue ▸ h.capacity
  balance := hkeeps.queue ▸ h.balance
  lost := hkeeps.queue ▸ h.lost
  closed := hkeeps.queue ▸ h.closed
  bounded := by
    rw [hkeeps.notifications, hkeeps.lastId]
    exact h.bounded
  ordered := h.ordered
  minted := by
    rw [hkeeps.notifications, hkeeps.lastId]
    exact h.minted

/-- An accepted notification is due if it has been queued. -/
theorem Sound.accept (h : x.Sound service capacity) (hmint : Function.Injective (service.mint .notifications))
    (host : Host) (draft : NotificationDraft) :
    ({ x with
        world := service.accepted x.world host draft
        due := x.due ++ if x.world.queue.takes then [(service.filed x.world host draft).1] else [] } :
      Exchange).Sound service capacity := by
  generalize hrow : (service.filed x.world host draft).1 = row
  have hid : row.id = x.world.store.lastNotificationId + 1 := by rw [← hrow]; rfl
  have huuid : row.uuid = service.mint .notifications row.id := by rw [hid, ← hrow]; rfl
  have hrows : (service.accepted x.world host draft).store.notifications =
      insertKey row.uuid row x.world.store.notifications := by rw [← hrow]; rfl
  have hqueue : (service.accepted x.world host draft).queue =
      if x.world.queue.takes then { x.world.queue with waiting := x.world.queue.waiting ++ [row] }
      else x.world.queue := hrow ▸ Queue.getD_send _ _
  have hlater : ∀ n ∈ x.due, n.id < row.id := fun n hn => by
    have hle := (h.minted n hn).2.2.1
    omega
  have hdue : ∀ n ∈ x.due ++ if x.world.queue.takes then [row] else [], n ∈ x.due ∨ n = row := by
    intro n hn
    split at hn
    · simpa using hn
    · simpa using Or.inl hn
  exact
    { capacity := by
        rw [hqueue]
        split <;> exact h.capacity
      balance := by
        rw [hqueue]
        split
        · simp [← h.balance]
        · simpa using h.balance
      lost := by
        rw [hqueue]
        split <;> exact h.lost
      closed := by
        rw [hqueue]
        split
        · rename_i htakes
          intro hclosed
          simp [Queue.takes, show x.world.queue.isOpen = false from hclosed] at htakes
        · exact h.closed
      bounded := by
        intro n hn
        rcases mem_notifications_accepted hn with rfl | hn
        · exact Nat.le_refl _
        · exact Nat.le_succ_of_le (h.bounded n hn)
      ordered := by
        split
        · exact List.pairwise_append.2 ⟨h.ordered, List.pairwise_singleton _ _, fun n hn m hm =>
            List.mem_singleton.1 hm ▸ hlater n hn⟩
        · simpa using h.ordered
      minted := by
        intro n hn
        rw [hrows, lookup?_insertKey]
        rcases hdue n hn with hn | rfl
        · -- Another identifier has been minted for the new one.
          obtain ⟨hown, hnew, hle, hlookup⟩ := h.minted n hn
          have hne : row.uuid ≠ n.uuid := by
            rw [huuid, hown]
            exact fun heq => (hlater n hn).ne' (hmint heq)
          exact ⟨hown, hnew, Nat.le_succ_of_le hle, by rw [if_neg hne, hlookup]⟩
        · exact ⟨huuid, by rw [← hrow]; rfl, hid.le, if_pos rfl⟩ }

theorem Sound.step_request (h : x.Sound service capacity) (hd : service.dispatcher = .ok d)
    (hmint : Function.Injective (service.mint .notifications)) (req : Request) (clock : Time.Instant) :
    (x.step d capacity (.request req clock)).Sound service capacity := by
  let met : Exchange := { x with world := { x.world with clock } }
  have hmet : met.Sound service capacity := h.keep ⟨rfl, rfl, rfl⟩
  have hstep : x.step d capacity (.request req clock) =
      { met with
        world := (d.serve req met.world).world
        due := x.due ++
          if (d.serve req met.world).reply.status = 202 ∧ x.world.queue.isOpen = true ∧
            x.world.queue.waiting.length < capacity
          then stored x.world.store (d.serve req met.world).world.store else [] } := by
    rw [Exchange.step]
  rw [hstep]
  rcases serve_accepts_or_keeps hd req met.world with ⟨hstatus, hkeeps⟩ | ⟨hstatus, host, draft, hworld, -⟩
  · rw [if_neg fun hc => hstatus hc.1, List.append_nil]
    exact hmet.keep hkeeps
  · have htakes : ((d.serve req met.world).reply.status = 202 ∧ x.world.queue.isOpen = true ∧
        x.world.queue.waiting.length < capacity) ↔ met.world.queue.takes = true := by
      rw [← h.capacity]
      simp [hstatus, Queue.takes, met]
    have hstored : stored x.world.store (service.accepted met.world host draft).store =
        [(service.filed met.world host draft).1] := stored_accepted (w := met.world) h.bounded host draft
    simp only [hworld, htakes, hstored]
    exact hmet.accept hmint host draft

theorem Sound.step (h : x.Sound service capacity) (hd : service.dispatcher = .ok d)
    (hmint : Function.Injective (service.mint .notifications)) (event : Event) :
    (x.step d capacity event).Sound service capacity := by
  cases event with
  | request req clock => exact h.step_request hd hmint req clock
  | receive =>
    simp only [Exchange.step]
    split
    · exact h
    · rename_i n queue hreceive
      obtain ⟨hwaiting, hqueue⟩ := Queue.receive?_eq_some.1 hreceive
      have hopen : x.world.queue.isOpen = true := by
        cases hisOpen : x.world.queue.isOpen with
        | true => rfl
        | false => cases hwaiting.symm.trans (h.closed hisOpen)
      have hlost := h.lost hopen
      rw [hqueue]
      exact
        { capacity := h.capacity
          balance := by simp [← h.balance, hlost, hwaiting]
          lost := h.lost
          closed := fun hclosed => absurd hopen (Bool.eq_false_iff.1 hclosed)
          bounded := h.bounded, ordered := h.ordered, minted := h.minted }
  | close =>
    exact
      { capacity := h.capacity
        balance := by simp [Exchange.step, Queue.close, ← h.balance]
        lost := fun hopen => by cases hopen
        closed := fun _ => rfl
        bounded := h.bounded, ordered := h.ordered, minted := h.minted }

theorem Sound.foldl (h : x.Sound service capacity) (hd : service.dispatcher = .ok d)
    (hmint : Function.Injective (service.mint .notifications)) (events : List Event) :
    (events.foldl (Exchange.step d capacity) x).Sound service capacity := by
  induction events generalizing x with
  | nil => exact h
  | cons event events ih => exact ih (h.step hd hmint event)

theorem sound_run (hd : service.dispatcher = .ok d) (hmint : Function.Injective (service.mint .notifications))
    {store : Store} (hstore : store.Reachable) (capacity : Nat) (events : List Event) :
    (run d store capacity events).Sound service capacity := by
  refine (sound_start fun n hn => ?_).foldl hd hmint events
  obtain ⟨p, hp, rfl⟩ := List.mem_map.1 hn
  exact hstore.tabled.notifications.bounded p hp

end Exchange

/-- What the answer to a request means for the queue. With the status 202 one new notification has been stored and is put
at the end of the queue if there is room and the engine's end is open, and reply and store would be the same with any
other queue. With any other status the notifications and the queue are as they were. -/
structure HandsOver (d : Dispatcher World Segment) (req : Request) (w : World) : Prop where
  refused : (d.serve req w).reply.status ≠ 202 →
    (d.serve req w).world.queue = w.queue ∧ (d.serve req w).world.store.notifications = w.store.notifications
  accepted : (d.serve req w).reply.status = 202 → ∃ n : Notification,
    stored w.store (d.serve req w).world.store = [n] ∧ n.progress = .new ∧
      (d.serve req w).world.queue =
        (if w.queue.takes then { w.queue with waiting := w.queue.waiting ++ [n] } else w.queue) ∧
      ∀ queue, (d.serve req { w with queue }).reply = (d.serve req w).reply ∧
        (d.serve req { w with queue }).world.store = (d.serve req w).world.store

theorem handsOver (hd : service.dispatcher = .ok d) (req : Request) {w : World}
    (hbounded : ∀ n ∈ w.store.notifications.map (·.2), n.id ≤ w.store.lastNotificationId) : HandsOver d req w := by
  rcases serve_accepts_or_keeps hd req w with ⟨hstatus, hkeeps⟩ | ⟨hstatus, host, draft, hworld, hserve⟩
  · exact ⟨fun _ => ⟨hkeeps.queue, hkeeps.notifications⟩, fun h => absurd h hstatus⟩
  · refine ⟨fun h => absurd hstatus h, fun _ => ⟨(service.filed w host draft).1, ?_, rfl, ?_, fun queue => ?_⟩⟩
    · rw [hworld]
      exact stored_accepted hbounded host draft
    · rw [hworld]
      exact Queue.getD_send _ _
    · obtain ⟨hreply, hworld'⟩ := hserve queue
      refine ⟨hreply, ?_⟩
      rw [hworld', hworld]
      rfl

/-- **Notifications reach the engine.** In every run of requests, of receipts by the engine and of closing its end, that
begins with an empty queue for a number of notifications, what the engine has received, then what was lost when its end was
closed, and then what is still queued are exactly the notifications that were stored by requests answered with the
status 202 while fewer than that number were waiting and the engine's end was open, in the order of their acceptance and
each once. They are new and stored as they were handed over. Nothing is lost while the engine's end is open, and nothing
is waiting once it is closed. No other request touches the queue, and whether a notification is accepted and stored does
not depend on it. The engine that goes on when no more can come counts all it has received. -/
theorem run_handOff (hd : service.dispatcher = .ok d) (hmint : Function.Injective (service.mint .notifications))
    {store : Store} (hstore : store.Reachable) {capacity : Nat} {events : List Event} {x : Exchange}
    (hx : Exchange.run d store capacity events = x) :
    x.received ++ x.lost ++ x.world.queue.waiting = x.due ∧
      (x.world.queue.isOpen = true → x.lost = [] ∧
        x.world.queue.recover x.received.length = (x.received ++ x.world.queue.waiting).length) ∧
      (x.world.queue.isOpen = false → x.world.queue.waiting = []) ∧
      x.due.Pairwise (·.id < ·.id) ∧
      (∀ n ∈ x.due, n.progress = .new ∧ lookup? n.uuid x.world.store.notifications = some n) ∧
      ∀ req clock, HandsOver d req { x.world with clock } := by
  subst hx
  have h := Exchange.sound_run hd hmint hstore capacity events
  refine ⟨h.balance, fun hopen => ⟨h.lost hopen, ?_⟩, h.closed, h.ordered, fun n hn => ?_, fun req clock => ?_⟩
  · rw [Queue.recover_eq, List.length_append]
  · obtain ⟨-, hnew, -, hlookup⟩ := h.minted n hn
    exact ⟨hnew, hlookup⟩
  · exact handsOver hd req (w := { (Exchange.run d store capacity events).world with clock }) h.bounded

/-! ## A run with one report -/

/-- The identifiers of different rows are different. -/
theorem mint_byDefault_injective (t : Table) : Function.Injective (byDefault.mint t) := by
  intro a b h
  have hdigits : Nat.toDigits 10 a = Nat.toDigits 10 b := String.ofList_inj.1 h
  have hread := Text.natural?_toDigits a
  rw [hdigits, Text.natural?_toDigits] at hread
  exact (Option.some.inj hread).symm

/-- The service takes the report of the host that has not failed before, and queues it. -/
theorem due_of_lateReport (hd : byDefault.dispatcher = .ok d) :
    ∃ n, (Exchange.run d calm 1 [.request lateReport .first]).due = [n] := by
  obtain ⟨a, hcollection, htarget, hauthorize, hchecked, hbody⟩ := exists_admitted_lateReport hd
  let met : World := ⟨calm, { capacity := 1 }, .first⟩
  obtain ⟨host, -, -, ⟨⟨n, hn, -⟩, -⟩ | ⟨-, hstatus, hworld⟩⟩ :=
    serve_report_cases hd a hcollection htarget rfl hauthorize hchecked hbody (w := met) ⟨_, .head _, rfl⟩ (by decide)
  · cases hn
  · have hnone : ∀ n ∈ met.store.notifications.map (·.2), n.id ≤ met.store.lastNotificationId := by
      intro n hn
      cases hn
    have hstored : stored calm (d.serve lateReport met).world.store = [(byDefault.filed met host lateDraft).1] := by
      rw [hworld]
      exact stored_accepted hnone host lateDraft
    refine ⟨(byDefault.filed met host lateDraft).1, ?_⟩
    have hdue : (Exchange.run d calm 1 [.request lateReport .first]).due =
        [] ++ if (d.serve lateReport met).reply.status = 202 ∧ true = true ∧ 0 < 1 then
          stored calm (d.serve lateReport met).world.store else [] := rfl
    rw [hdue, if_pos ⟨hstatus, rfl, Nat.one_pos⟩, hstored]
    rfl

/-- The report is handed over as it is stored. -/
theorem run_handOff_reported : ∃ d, byDefault.dispatcher = .ok d ∧
    Function.Injective (byDefault.mint .notifications) ∧ calm.Reachable ∧
    ∃ n x, Exchange.run d calm 1 [.request lateReport .first, .receive] = x ∧
      x.received ++ x.lost ++ x.world.queue.waiting = [n] ∧ n.progress = .new ∧
      lookup? n.uuid x.world.store.notifications = some n := by
  obtain ⟨d, hd⟩ := exists_dispatcher_byDefault
  obtain ⟨n, hdue⟩ := due_of_lateReport hd
  have hmint := mint_byDefault_injective .notifications
  have hafter : (Exchange.run d calm 1 [.request lateReport .first, .receive]).due = [n] := by
    rw [← hdue]
    exact Exchange.due_receive d 1 _
  obtain ⟨hbalance, -, -, -, hdue, -⟩ := run_handOff hd hmint reachable_calm rfl
  rw [hafter] at hbalance hdue
  obtain ⟨hnew, hlookup⟩ := hdue n List.mem_cons_self
  exact ⟨d, hd, hmint, reachable_calm, n, _, rfl, hbalance, hnew, hlookup⟩

/-- A report that is waiting when the engine's end is closed is neither received nor waiting any more. -/
theorem run_handOff_closed : ∃ d, byDefault.dispatcher = .ok d ∧
    Function.Injective (byDefault.mint .notifications) ∧ calm.Reachable ∧
    ∃ x, Exchange.run d calm 1 [.request lateReport .first, .close] = x ∧
      x.received ++ x.world.queue.waiting ≠ x.due := by
  obtain ⟨d, hd⟩ := exists_dispatcher_byDefault
  obtain ⟨n, hdue⟩ := due_of_lateReport hd
  refine ⟨d, hd, mint_byDefault_injective .notifications, reachable_calm, _, rfl, fun h => ?_⟩
  have hafter : (Exchange.run d calm 1 [.request lateReport .first, .close]).due = [n] := hdue
  rw [hafter] at h
  cases h

end Service

end Standby
