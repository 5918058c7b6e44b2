import Standby.Proofs.Basic
import Standby.Store.Hosts
import Standby.Store.Notifications
import Standby.Store.Segments
/-!
# What the operations of the store do

Every operation is atomic: the steps that write come after those that can be refused, so that a refusal leaves the
store as it is. One statement for each operation says everything that a success of it means: what the store had before,
the row that comes out, and the store afterwards. What is not said to change stays as it is.
-/

namespace Standby

namespace StoreStep

/-! ## Steps that may be refused -/

section Steps
variable {σ α β : Type} {x : StoreStep σ α} {s : σ}

/-- How a step ends that leaves things as they are if it is refused. -/
def settled (s : σ) : Except StoreError (α × σ) → Except StoreError α × σ
  | .ok (a, s') => (.ok a, s')
  | .error e => (.error e, s)

/-- A step that is refused has changed nothing. -/
def Atomic (x : StoreStep σ α) : Prop := ∀ s, x.run.run s = settled s (x.attempt s)

theorem attempt_of_run {r : Except StoreError (α × σ)} (h : x.run.run s = settled s r) : x.attempt s = r := by
  unfold attempt
  rw [h]
  cases r <;> rfl

theorem atomic_of_run {r : σ → Except StoreError (α × σ)} (h : ∀ s, x.run.run s = settled s (r s)) : x.Atomic := fun s => by
  rw [attempt_of_run (h s), h s]

/-- What only gives something else after an atomic step is atomic as well. -/
theorem run_map (h : x.Atomic) (f : α → β) (s : σ) :
    (x >>= fun a => pure (f a)).run.run s = settled s (x.attempt s >>= fun (a, s') => .ok (f a, s')) := by
  rw [run_bind, h s]
  cases x.attempt s <;> rfl

theorem run_const (h : x.Atomic) (b : β) (s : σ) :
    (x >>= fun _ => pure b).run.run s = settled s ((x.attempt s).map (·.2) >>= fun s' => .ok (b, s')) := by
  rw [run_bind, h s]
  cases x.attempt s <;> rfl

theorem run_refuseIf_bind (obstacle : Bool) (e : StoreError) (f : Unit → StoreStep σ β) (s : σ) :
    (refuseIf obstacle e >>= f).run.run s = if obstacle then (.error e, s) else (f ()).run.run s := by
  cases obstacle <;> rfl

theorem run_lift_bind (r : Except StoreError α) (f : α → StoreStep σ β) (s : σ) :
    (liftM r >>= f : StoreStep σ β).run.run s =
      match r with
      | .ok a => (f a).run.run s
      | .error e => (.error e, s) := by
  cases r <;> rfl

end Steps

theorem run_within {σ α : Type} {x : StoreStep σ α} {part : Store → σ} {put : Store → σ → Store} {s : Store}
    {r : Except StoreError (α × σ)} (h : x.run.run (part s) = settled (part s) r) (hput : put s (part s) = s) :
    (within part put x).run.run s = settled s (r.map fun (a, p) => (a, put s p)) := by
  have hrun : (within part put x).run.run s =
      (do modify (put · (x.run.run (part s)).2)
          (x.run.run (part s)).1 : StoreStep Store α).run.run s := rfl
  rw [hrun, h]
  cases r with
  | error e => exact congrArg (Except.error e, ·) hput
  | ok p => rfl

end StoreStep

namespace Store

open StoreStep (settled attempt_of_run atomic_of_run)

variable {s s' : Store} {uuid : String} {now : Time.Instant}

theorem find_eq_ok {α : Type} {table : Table} {rows : List (String × α)} {row : α} :
    find table uuid rows = .ok row ↔ lookup? uuid rows = some row := by
  unfold find
  cases lookup? uuid rows <;> simp

theorem map_bind_ok {α β γ : Type} (r : Except StoreError α) (f : α → β) (g : β → γ) :
    (r >>= fun a => .ok (f a)).map g = (r >>= fun a => .ok (g (f a))) := by
  cases r <;> rfl

/-! ## New names -/

/-- The index of a table when a row has got a new name. -/
def rename (table : Table) (uuid old new : String) (names : List (String × String)) :
    Except StoreError (List (String × String)) :=
  if old = new then .ok names
  else if (lookup? new names).isSome then .error (.alreadyExists table new)
  else .ok (eraseKey old (insertKey new uuid names))

theorem rename_settles (table : Table) (uuid old new : String) (names : List (String × String)) :
    (StoreStep.rename table uuid old new).run.run names =
      settled names ((rename table uuid old new names).map fun names => ((), names)) := by
  unfold rename
  by_cases ho : old = new
  · rw [if_pos ho, StoreStep.rename, if_pos ho]
    rfl
  · rw [if_neg ho, StoreStep.rename, if_neg ho]
    show (StoreStep.refuseIf (lookup? new names).isSome _ >>= _ : StoreStep _ _).run.run names = _
    rw [StoreStep.run_refuseIf_bind]
    split <;> rfl

/-- Without a new name a row keeps the one it has. -/
theorem rename?_settles {part : Store → List (String × String)} {put : Store → List (String × String) → Store}
    (hput : put s (part s) = s) (table : Table) (uuid old : String) (new : Option String) :
    (new.forM fun name => StoreStep.within part put (StoreStep.rename table uuid old name)).run.run s =
      settled s ((rename table uuid old (new.getD old) (part s)).map fun names => ((), put s names)) := by
  cases new with
  | none =>
    rw [Option.getD_none, rename, if_pos rfl]
    exact congrArg (Except.ok (), ·) hput.symm
  | some name =>
    refine (StoreStep.run_within (rename_settles table uuid old name _) hput).trans ?_
    rw [Option.getD_some]
    cases rename table uuid old name (part s) <;> rfl

/-- A new name is the old one, or it is free and takes its place. -/
theorem rename_eq_ok {table : Table} {old new : String} {names names' : List (String × String)} :
    rename table uuid old new names = .ok names' ↔
      (old = new ∧ names' = names) ∨
        (old ≠ new ∧ lookup? new names = none ∧ names' = eraseKey old (insertKey new uuid names)) := by
  unfold rename
  by_cases ho : old = new
  · simp [ho, eq_comm]
  · cases hn : lookup? new names <;> simp [ho, eq_comm]

/-! ## Segments -/

/-- The row that a draft of a segment becomes. -/
def newSegment (s : Store) (uuid : String) (now : Time.Instant) (d : SegmentDraft) : Segment :=
  { id := s.lastSegmentId + 1
    uuid
    name := d.name
    description := d.description
    recoveryMethod := d.recoveryMethod
    serviceType := d.serviceType
    enabled := d.enabled.getD true
    createdAt := now
    updatedAt := none }

theorem createSegment_settles (d : SegmentDraft) :
    (StoreStep.createSegment uuid now d).run.run s =
      settled s
        (if (lookup? d.name s.segmentNames).isSome then .error (.alreadyExists .segments d.name)
        else
          .ok
            (s.newSegment uuid now d,
              { s with
                segments := insertKey uuid (s.newSegment uuid now d) s.segments
                segmentNames := insertKey d.name uuid s.segmentNames
                lastSegmentId := s.lastSegmentId + 1 })) := by
  show (StoreStep.refuseIf (lookup? d.name s.segmentNames).isSome _ >>= _ : StoreStep _ _).run.run s = _
  rw [StoreStep.run_refuseIf_bind]
  split <;> rfl

theorem createSegment_eq_ok {d : SegmentDraft} {row : Segment} :
    s.createSegment uuid now d = .ok (row, s') ↔
      lookup? d.name s.segmentNames = none ∧ row = s.newSegment uuid now d ∧
        s' =
          { s with
            segments := insertKey uuid row s.segments
            segmentNames := insertKey d.name uuid s.segmentNames
            lastSegmentId := s.lastSegmentId + 1 } := by
  rw [createSegment, attempt_of_run (createSegment_settles d)]
  cases lookup? d.name s.segmentNames with
  | some u => simp
  | none =>
    simp only [Option.isSome_none, Bool.false_eq_true, if_false, Except.ok.injEq, Prod.mk.injEq, true_and]
    constructor
    · rintro ⟨rfl, rfl⟩
      exact ⟨rfl, rfl⟩
    · rintro ⟨rfl, rfl⟩
      exact ⟨rfl, rfl⟩

theorem updateSegment_settles (p : SegmentPatch) :
    (StoreStep.updateSegment uuid now p).run.run s =
      settled s (do
        let row ← s.segment uuid
        let names ← rename .segments uuid row.name (p.name.getD row.name) s.segmentNames
        .ok
          (p.apply row now,
            { s with segments := insertKey uuid (p.apply row now) s.segments, segmentNames := names })) := by
  show (liftM (s.segment uuid) >>= _ : StoreStep _ _).run.run s = _
  rw [StoreStep.run_lift_bind]
  cases s.segment uuid with
  | error e => rfl
  | ok row =>
    show (p.name.forM (StoreStep.renameSegment uuid row.name) >>= _ : StoreStep _ _).run.run s = _
    rw [run_bind]
    unfold StoreStep.renameSegment
    rw [rename?_settles rfl]
    show _ = settled s (rename .segments uuid row.name (p.name.getD row.name) s.segmentNames >>= _)
    cases rename .segments uuid row.name (p.name.getD row.name) s.segmentNames <;> rfl

theorem updateSegment_eq_ok {p : SegmentPatch} {row : Segment} :
    s.updateSegment uuid now p = .ok (row, s') ↔
      ∃ old names, lookup? uuid s.segments = some old ∧
        rename .segments uuid old.name (p.name.getD old.name) s.segmentNames = .ok names ∧
        row = p.apply old now ∧
        s' = { s with segments := insertKey uuid row s.segments, segmentNames := names } := by
  rw [updateSegment, attempt_of_run (updateSegment_settles p)]
  unfold segment
  simp only [bind_eq_ok, find_eq_ok, Except.ok.injEq, Prod.mk.injEq]
  constructor
  · rintro ⟨old, ho, names, hn, rfl, rfl⟩
    exact ⟨old, names, ho, hn, rfl, rfl⟩
  · rintro ⟨old, names, ho, hn, rfl, rfl⟩
    exact ⟨old, ho, names, hn, rfl, rfl⟩

theorem run_releaseNames (gone : List (String × Host)) (s : Store) :
    (StoreStep.releaseNames gone).run.run s =
      (.ok (), { s with hostNames := gone.foldl (fun names p => eraseKey p.2.name names) s.hostNames }) := by
  induction gone generalizing s with
  | nil => rfl
  | cons p gone ih => exact ih { s with hostNames := eraseKey p.2.name s.hostNames }

theorem destroySegment_settles :
    (StoreStep.destroySegment uuid).run.run s =
      settled s (do
        let row ← s.segment uuid
        .ok
          ((),
            { s with
              segments := eraseKey uuid s.segments
              segmentNames := eraseKey row.name s.segmentNames
              hosts := s.hosts.filter fun p => p.2.segment != uuid
              hostNames :=
                (s.hosts.filter fun p => p.2.segment == uuid).foldl (fun names p => eraseKey p.2.name names)
                  s.hostNames })) := by
  show (liftM (s.segment uuid) >>= _ : StoreStep _ _).run.run s = _
  rw [StoreStep.run_lift_bind]
  cases s.segment uuid with
  | error e => rfl
  | ok row =>
    exact run_releaseNames _ _

theorem destroySegment_eq_ok :
    s.destroySegment uuid = .ok s' ↔
      ∃ row, lookup? uuid s.segments = some row ∧
        s' =
          { s with
            segments := eraseKey uuid s.segments
            segmentNames := eraseKey row.name s.segmentNames
            hosts := s.hosts.filter fun p => p.2.segment != uuid
            hostNames :=
              (s.hosts.filter fun p => p.2.segment == uuid).foldl (fun names p => eraseKey p.2.name names)
                s.hostNames } := by
  rw [destroySegment, attempt_of_run destroySegment_settles]
  unfold segment
  simp only [map_bind_ok, bind_eq_ok, find_eq_ok, Except.ok.injEq]
  exact exists_congr fun row => and_congr_right fun _ => eq_comm

/-! ## Hosts -/

/-- The row that a draft of a host becomes. -/
def newHost (s : Store) (uuid : String) (now : Time.Instant) (segment : String) (d : HostDraft) : Host :=
  { id := s.lastHostId + 1
    uuid
    name := d.name
    hostType := d.hostType
    controlAttributes := d.controlAttributes
    reserved := d.reserved.getD false
    onMaintenance := d.onMaintenance.getD false
    segment
    createdAt := now
    updatedAt := none }

theorem createHost_settles (segment : String) (d : HostDraft) :
    (StoreStep.createHost uuid now segment d).run.run s =
      settled s
        (if (lookup? segment s.segments).isNone then .error (.notFound .segments segment)
        else if (lookup? d.name s.hostNames).isSome then .error (.alreadyExists .hosts d.name)
        else
          .ok
            (s.newHost uuid now segment d,
              { s with
                hosts := insertKey uuid (s.newHost uuid now segment d) s.hosts
                hostNames := insertKey d.name uuid s.hostNames
                lastHostId := s.lastHostId + 1 })) := by
  show (StoreStep.refuseIf (lookup? segment s.segments).isNone _ >>= _ : StoreStep _ _).run.run s = _
  rw [StoreStep.run_refuseIf_bind]
  split
  · rfl
  · show (StoreStep.refuseIf (lookup? d.name s.hostNames).isSome _ >>= _ : StoreStep _ _).run.run s = _
    rw [StoreStep.run_refuseIf_bind]
    split <;> rfl

theorem createHost_eq_ok {segment : String} {d : HostDraft} {row : Host} :
    s.createHost uuid now segment d = .ok (row, s') ↔
      (∃ g, lookup? segment s.segments = some g) ∧ lookup? d.name s.hostNames = none ∧
        row = s.newHost uuid now segment d ∧
        s' =
          { s with
            hosts := insertKey uuid row s.hosts
            hostNames := insertKey d.name uuid s.hostNames
            lastHostId := s.lastHostId + 1 } := by
  rw [createHost, attempt_of_run (createHost_settles segment d)]
  cases lookup? segment s.segments with
  | none => simp
  | some g =>
    cases lookup? d.name s.hostNames with
    | some u => simp
    | none =>
      simp only [Option.isNone_some, Option.isSome_none, Bool.false_eq_true, if_false, Except.ok.injEq,
        Prod.mk.injEq, Option.some.injEq, exists_eq', true_and]
      constructor
      · rintro ⟨rfl, rfl⟩
        exact ⟨rfl, rfl⟩
      · rintro ⟨rfl, rfl⟩
        exact ⟨rfl, rfl⟩

theorem updateHost_settles (p : HostPatch) :
    (StoreStep.updateHost uuid now p).run.run s =
      settled s (do
        let row ← s.host uuid
        let names ← rename .hosts uuid row.name (p.name.getD row.name) s.hostNames
        .ok (p.apply row now, { s with hosts := insertKey uuid (p.apply row now) s.hosts, hostNames := names })) := by
  show (liftM (s.host uuid) >>= _ : StoreStep _ _).run.run s = _
  rw [StoreStep.run_lift_bind]
  cases s.host uuid with
  | error e => rfl
  | ok row =>
    show (p.name.forM (StoreStep.renameHost uuid row.name) >>= _ : StoreStep _ _).run.run s = _
    rw [run_bind]
    unfold StoreStep.renameHost
    rw [rename?_settles rfl]
    show _ = settled s (rename .hosts uuid row.name (p.name.getD row.name) s.hostNames >>= _)
    cases rename .hosts uuid row.name (p.name.getD row.name) s.hostNames <;> rfl

theorem updateHost_eq_ok {p : HostPatch} {row : Host} :
    s.updateHost uuid now p = .ok (row, s') ↔
      ∃ old names, lookup? uuid s.hosts = some old ∧
        rename .hosts uuid old.name (p.name.getD old.name) s.hostNames = .ok names ∧
        row = p.apply old now ∧ s' = { s with hosts := insertKey uuid row s.hosts, hostNames := names } := by
  rw [updateHost, attempt_of_run (updateHost_settles p)]
  unfold host
  simp only [bind_eq_ok, find_eq_ok, Except.ok.injEq, Prod.mk.injEq]
  constructor
  · rintro ⟨old, ho, names, hn, rfl, rfl⟩
    exact ⟨old, names, ho, hn, rfl, rfl⟩
  · rintro ⟨old, names, ho, hn, rfl, rfl⟩
    exact ⟨old, ho, names, hn, rfl, rfl⟩

theorem destroyHost_settles :
    (StoreStep.destroyHost uuid).run.run s =
      settled s (do
        let row ← s.host uuid
        .ok ((), { s with hosts := eraseKey uuid s.hosts, hostNames := eraseKey row.name s.hostNames })) := by
  show (liftM (s.host uuid) >>= _ : StoreStep _ _).run.run s = _
  rw [StoreStep.run_lift_bind]
  cases s.host uuid <;> rfl

theorem destroyHost_eq_ok :
    s.destroyHost uuid = .ok s' ↔
      ∃ row, lookup? uuid s.hosts = some row ∧
        s' = { s with hosts := eraseKey uuid s.hosts, hostNames := eraseKey row.name s.hostNames } := by
  rw [destroyHost, attempt_of_run destroyHost_settles]
  unfold host
  simp only [map_bind_ok, bind_eq_ok, find_eq_ok, Except.ok.injEq]
  exact exists_congr fun row => and_congr_right fun _ => eq_comm

/-! ## Notifications -/

theorem updateNotification_settles (progress : Option Progress) :
    (StoreStep.updateNotification uuid now progress).run.run s =
      settled s (do
        let old ← s.notification uuid
        let row := { old with progress := progress.getD old.progress, updatedAt := some now }
        .ok (row, { s with notifications := insertKey uuid row s.notifications })) := by
  show (liftM (s.notification uuid) >>= _ : StoreStep _ _).run.run s = _
  rw [StoreStep.run_lift_bind]
  cases s.notification uuid <;> rfl

theorem updateNotification_eq_ok {progress : Option Progress} {row : Notification} :
    s.updateNotification uuid now progress = .ok (row, s') ↔
      ∃ old, lookup? uuid s.notifications = some old ∧
        row = { old with progress := progress.getD old.progress, updatedAt := some now } ∧
        s' = { s with notifications := insertKey uuid row s.notifications } := by
  rw [updateNotification, attempt_of_run (updateNotification_settles progress)]
  unfold notification
  simp only [bind_eq_ok, find_eq_ok, Except.ok.injEq, Prod.mk.injEq]
  constructor
  · rintro ⟨old, ho, rfl, rfl⟩
    exact ⟨old, ho, rfl, rfl⟩
  · rintro ⟨old, ho, rfl, rfl⟩
    exact ⟨old, ho, rfl, rfl⟩

theorem destroyNotification_settles :
    (StoreStep.destroyNotification uuid).run.run s =
      settled s (do
        let _ ← s.notification uuid
        .ok ((), { s with notifications := eraseKey uuid s.notifications })) := by
  show (liftM (s.notification uuid) >>= _ : StoreStep _ _).run.run s = _
  rw [StoreStep.run_lift_bind]
  cases s.notification uuid <;> rfl

theorem destroyNotification_eq_ok :
    s.destroyNotification uuid = .ok s' ↔
      ∃ row, lookup? uuid s.notifications = some row ∧
        s' = { s with notifications := eraseKey uuid s.notifications } := by
  rw [destroyNotification, attempt_of_run destroyNotification_settles]
  unfold notification
  simp only [map_bind_ok, bind_eq_ok, find_eq_ok, Except.ok.injEq]
  exact exists_congr fun row => and_congr_right fun _ => eq_comm

/-! ## What is refused changes nothing -/

theorem atomic_createSegment (uuid : String) (now : Time.Instant) (d : SegmentDraft) :
    (StoreStep.createSegment uuid now d).Atomic :=
  atomic_of_run fun _ => createSegment_settles d

theorem atomic_updateSegment (uuid : String) (now : Time.Instant) (p : SegmentPatch) :
    (StoreStep.updateSegment uuid now p).Atomic :=
  atomic_of_run fun _ => updateSegment_settles p

theorem atomic_destroySegment (uuid : String) : (StoreStep.destroySegment uuid).Atomic :=
  atomic_of_run fun _ => destroySegment_settles

theorem atomic_createHost (uuid : String) (now : Time.Instant) (segment : String) (d : HostDraft) :
    (StoreStep.createHost uuid now segment d).Atomic :=
  atomic_of_run fun _ => createHost_settles segment d

theorem atomic_updateHost (uuid : String) (now : Time.Instant) (p : HostPatch) : (StoreStep.updateHost uuid now p).Atomic :=
  atomic_of_run fun _ => updateHost_settles p

theorem atomic_destroyHost (uuid : String) : (StoreStep.destroyHost uuid).Atomic :=
  atomic_of_run fun _ => destroyHost_settles

theorem atomic_updateNotification (uuid : String) (now : Time.Instant) (progress : Option Progress) :
    (StoreStep.updateNotification uuid now progress).Atomic :=
  atomic_of_run fun _ => updateNotification_settles progress

theorem atomic_destroyNotification (uuid : String) : (StoreStep.destroyNotification uuid).Atomic :=
  atomic_of_run fun _ => destroyNotification_settles

end Store

end Standby
