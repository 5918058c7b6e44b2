import Standby.Proofs.Store.Consistency
/-!
# Runs of the store

A run is any list of operations on an empty store, of which each may succeed or fail. `run_orderly` says that
after every run the store is consistent, that no id has been given out twice, not even after the rows have been
taken out, and that names are refused exactly if they are taken.
-/

namespace Standby.Store

open StoreStep (settled)

/-- An operation on the store. What creates a row brings the identifier that has been generated for it. -/
inductive Op where
  | createSegment (uuid : String) (now : Time.Instant) (draft : SegmentDraft)
  | updateSegment (uuid : String) (now : Time.Instant) (patch : SegmentPatch)
  | destroySegment (uuid : String)
  | createHost (uuid : String) (now : Time.Instant) (segment : String) (draft : HostDraft)
  | updateHost (uuid : String) (now : Time.Instant) (patch : HostPatch)
  | destroyHost (uuid : String)
  | createNotification (uuid : String) (now : Time.Instant) (draft : NewNotification)
  | updateNotification (uuid : String) (now : Time.Instant) (progress : Option Progress)
  | destroyNotification (uuid : String)
  | reset

/-- The identifier that an operation brings for a new row. -/
def Op.generated? : Op → Option String
  | .createSegment uuid .. => some uuid
  | .createHost uuid .. => some uuid
  | .createNotification uuid .. => some uuid
  | _ => none

/-- What an operation does, with the id that it gives out and its table. -/
def Op.steps : Op → StoreStep Store (Option (Table × Nat))
  | .createSegment uuid now d => do
    let row ← StoreStep.createSegment uuid now d
    return some (.segments, row.id)
  | .updateSegment uuid now p => do
    let _ ← StoreStep.updateSegment uuid now p
    return none
  | .destroySegment uuid => do
    StoreStep.destroySegment uuid
    return none
  | .createHost uuid now segment d => do
    let row ← StoreStep.createHost uuid now segment d
    return some (.hosts, row.id)
  | .updateHost uuid now p => do
    let _ ← StoreStep.updateHost uuid now p
    return none
  | .destroyHost uuid => do
    StoreStep.destroyHost uuid
    return none
  | .createNotification uuid now d => do
    let row ← StoreStep.createNotification uuid now d
    return some (.notifications, row.id)
  | .updateNotification uuid now progress => do
    let _ ← StoreStep.updateNotification uuid now progress
    return none
  | .destroyNotification uuid => do
    StoreStep.destroyNotification uuid
    return none
  | .reset => do
    modify Store.reset
    return none

/-- A store with all ids that have been given out, in order. -/
structure History where
  store : Store := empty
  issued : List (Table × Nat) := []

/-- Carries out an operation. What it has done before it is refused stays done. -/
def History.step (h : History) (op : Op) : History :=
  match op.steps.run.run h.store with
  | (.ok id, store) => { store, issued := h.issued ++ id.toList }
  | (.error _, store) => { h with store }

/-- What operations on an empty store lead to. -/
def run (ops : List Op) : History := ops.foldl History.step {}

/-! ## Operations succeed or change nothing -/

/-- What an operation comes to: the id that it gives out, and the store afterwards. -/
def exec (s : Store) : Op → Except StoreError (Option (Table × Nat) × Store)
  | .createSegment uuid now d => do
    let (row, s) ← s.createSegment uuid now d
    .ok (some (.segments, row.id), s)
  | .updateSegment uuid now p => do
    let (_, s) ← s.updateSegment uuid now p
    .ok (none, s)
  | .destroySegment uuid => do .ok (none, ← s.destroySegment uuid)
  | .createHost uuid now segment d => do
    let (row, s) ← s.createHost uuid now segment d
    .ok (some (.hosts, row.id), s)
  | .updateHost uuid now p => do
    let (_, s) ← s.updateHost uuid now p
    .ok (none, s)
  | .destroyHost uuid => do .ok (none, ← s.destroyHost uuid)
  | .createNotification uuid now d =>
    let (row, s) := s.createNotification uuid now d
    .ok (some (.notifications, row.id), s)
  | .updateNotification uuid now progress => do
    let (_, s) ← s.updateNotification uuid now progress
    .ok (none, s)
  | .destroyNotification uuid => do .ok (none, ← s.destroyNotification uuid)
  | .reset => .ok (none, s.reset)

theorem run_steps (op : Op) (s : Store) : op.steps.run.run s = settled s (s.exec op) := by
  cases op with
  | createSegment uuid now d =>
    exact StoreStep.run_map (atomic_createSegment uuid now d) (fun row => some (Table.segments, row.id)) s
  | updateSegment uuid now p => exact StoreStep.run_map (atomic_updateSegment uuid now p) (fun _ => none) s
  | destroySegment uuid => exact StoreStep.run_const (atomic_destroySegment uuid) none s
  | createHost uuid now segment d =>
    exact StoreStep.run_map (atomic_createHost uuid now segment d) (fun row => some (Table.hosts, row.id)) s
  | updateHost uuid now p => exact StoreStep.run_map (atomic_updateHost uuid now p) (fun _ => none) s
  | destroyHost uuid => exact StoreStep.run_const (atomic_destroyHost uuid) none s
  | createNotification uuid now d => rfl
  | updateNotification uuid now progress =>
    exact StoreStep.run_map (atomic_updateNotification uuid now progress) (fun _ => none) s
  | destroyNotification uuid => exact StoreStep.run_const (atomic_destroyNotification uuid) none s
  | reset => rfl

/-- An operation that is refused leaves everything as it is. -/
theorem History.step_eq (h : History) (op : Op) :
    h.step op =
      match h.store.exec op with
      | .ok (id, store) => { store, issued := h.issued ++ id.toList }
      | .error _ => h := by
  unfold step
  rw [run_steps]
  cases h.store.exec op <;> rfl

/-- The last id that a table has given out. -/
def lastId (s : Store) : Table → Nat
  | .segments => s.lastSegmentId
  | .hosts => s.lastHostId
  | .notifications => s.lastNotificationId

/-- The identifiers and ids of the rows of a table. -/
def filed (s : Store) : Table → List (String × Nat)
  | .segments => s.segments.map fun p => (p.1, p.2.id)
  | .hosts => s.hosts.map fun p => (p.1, p.2.id)
  | .notifications => s.notifications.map fun p => (p.1, p.2.id)

/-! ## What a step does to ids and identifiers -/

/-- An operation that adds no row gives out no id and brings no identifier. -/
structure Keeps (s s' : Store) : Prop where
  lastId : ∀ t, s'.lastId t = s.lastId t
  filed : ∀ t, ∀ e ∈ s'.filed t, e ∈ s.filed t

/-- An operation that adds a row files it under `uuid` with the next id. -/
structure Adds (s s' : Store) (table : Table) (uuid : String) : Prop where
  lastId : ∀ t, s'.lastId t = s.lastId t + if t = table then 1 else 0
  filed : ∀ t, ∀ e ∈ s'.filed t, e ∈ s.filed t ∨ t = table ∧ e = (uuid, s.lastId table + 1)

section Rows
variable {α : Type} {key : String} {value old : α} {l : List (String × α)} {id : α → Nat} {e : String × Nat}

theorem mem_filed_add (h : e ∈ (insertKey key value l).map fun p => (p.1, id p.2)) :
    e ∈ l.map (fun p => (p.1, id p.2)) ∨ e = (key, id value) := by
  obtain ⟨p, hp, rfl⟩ := List.mem_map.1 h
  rcases mem_insertKey hp with rfl | hp
  · exact .inr rfl
  · exact .inl (List.mem_map.2 ⟨p, hp, rfl⟩)

theorem mem_filed_change (ho : lookup? key l = some old)
    (h : e ∈ (insertKey key value l).map fun p => (p.1, id p.2)) (hid : id value = id old) :
    e ∈ l.map fun p => (p.1, id p.2) := by
  rw [map_insertKey value (fun p => (p.1, id p.2)) ho (by rw [hid])] at h
  exact h

theorem mem_filed_filter {keep : String × α → Bool} (h : e ∈ (l.filter keep).map fun p => (p.1, id p.2)) :
    e ∈ l.map fun p => (p.1, id p.2) :=
  (List.Sublist.map _ List.filter_sublist).subset h

end Rows

section Operations
variable {s s' : Store} {uuid : String} {now : Time.Instant}

theorem createSegment_adds {d : SegmentDraft} {row : Segment} (h : s.createSegment uuid now d = .ok (row, s')) :
    row.id = s.lastId .segments + 1 ∧ Adds s s' .segments uuid := by
  obtain ⟨-, rfl, rfl⟩ := createSegment_eq_ok.1 h
  refine ⟨rfl, fun t => by cases t <;> rfl, fun t e he => ?_⟩
  cases t with
  | segments => exact (mem_filed_add he).imp_right fun he => ⟨rfl, he⟩
  | _ => exact .inl he

theorem createHost_adds {segment : String} {d : HostDraft} {row : Host}
    (h : s.createHost uuid now segment d = .ok (row, s')) :
    row.id = s.lastId .hosts + 1 ∧ Adds s s' .hosts uuid := by
  obtain ⟨-, -, rfl, rfl⟩ := createHost_eq_ok.1 h
  refine ⟨rfl, fun t => by cases t <;> rfl, fun t e he => ?_⟩
  cases t with
  | hosts => exact (mem_filed_add he).imp_right fun he => ⟨rfl, he⟩
  | _ => exact .inl he

theorem createNotification_adds (s : Store) (uuid : String) (now : Time.Instant) (d : NewNotification) :
    Adds s (s.createNotification uuid now d).2 .notifications uuid := by
  refine ⟨fun t => by cases t <;> rfl, fun t e he => ?_⟩
  cases t with
  | notifications => exact (mem_filed_add he).imp_right fun he => ⟨rfl, he⟩
  | _ => exact .inl he

theorem updateSegment_keeps {p : SegmentPatch} {row : Segment} (h : s.updateSegment uuid now p = .ok (row, s')) :
    Keeps s s' := by
  obtain ⟨old, names, ho, -, rfl, rfl⟩ := updateSegment_eq_ok.1 h
  refine ⟨fun t => by cases t <;> rfl, fun t e he => ?_⟩
  cases t with
  | segments => exact mem_filed_change ho he rfl
  | _ => exact he

theorem updateHost_keeps {p : HostPatch} {row : Host} (h : s.updateHost uuid now p = .ok (row, s')) :
    Keeps s s' := by
  obtain ⟨old, names, ho, -, rfl, rfl⟩ := updateHost_eq_ok.1 h
  refine ⟨fun t => by cases t <;> rfl, fun t e he => ?_⟩
  cases t with
  | hosts => exact mem_filed_change ho he rfl
  | _ => exact he

theorem updateNotification_keeps {progress : Option Progress} {row : Notification}
    (h : s.updateNotification uuid now progress = .ok (row, s')) : Keeps s s' := by
  obtain ⟨old, ho, rfl, rfl⟩ := updateNotification_eq_ok.1 h
  refine ⟨fun t => by cases t <;> rfl, fun t e he => ?_⟩
  cases t with
  | notifications => exact mem_filed_change ho he rfl
  | _ => exact he

/-- A segment that goes takes hosts with it, but no ids. -/
theorem destroySegment_keeps (h : s.destroySegment uuid = .ok s') : Keeps s s' := by
  obtain ⟨row, -, rfl⟩ := destroySegment_eq_ok.1 h
  refine ⟨fun t => by cases t <;> rfl, fun t e he => ?_⟩
  cases t with
  | notifications => exact he
  | _ => exact mem_filed_filter he

theorem destroyHost_keeps (h : s.destroyHost uuid = .ok s') : Keeps s s' := by
  obtain ⟨row, -, rfl⟩ := destroyHost_eq_ok.1 h
  refine ⟨fun t => by cases t <;> rfl, fun t e he => ?_⟩
  cases t with
  | hosts => exact mem_filed_filter he
  | _ => exact he

theorem destroyNotification_keeps (h : s.destroyNotification uuid = .ok s') : Keeps s s' := by
  obtain ⟨row, -, rfl⟩ := destroyNotification_eq_ok.1 h
  refine ⟨fun t => by cases t <;> rfl, fun t e he => ?_⟩
  cases t with
  | notifications => exact mem_filed_filter he
  | _ => exact he

theorem reset_keeps (s : Store) : Keeps s s.reset :=
  ⟨fun t => by cases t <;> rfl, fun t e he => by cases t <;> cases he⟩

end Operations

/-- A step either gives out no id, or the next one of a table for the row that it adds. -/
theorem exec_eq_ok {s s' : Store} {op : Op} {id : Option (Table × Nat)} (h : s.exec op = .ok (id, s')) :
    (id = none ∧ Keeps s s') ∨
      ∃ table uuid, op.generated? = some uuid ∧ id = some (table, s.lastId table + 1) ∧ Adds s s' table uuid := by
  cases op with
  | createSegment uuid now d =>
    obtain ⟨⟨row, s1⟩, hs, hr⟩ := bind_eq_ok.1 h
    obtain ⟨hid, ha⟩ := createSegment_adds hs
    cases hr
    exact .inr ⟨.segments, uuid, rfl, by rw [hid], ha⟩
  | createHost uuid now segment d =>
    obtain ⟨⟨row, s1⟩, hs, hr⟩ := bind_eq_ok.1 h
    obtain ⟨hid, ha⟩ := createHost_adds hs
    cases hr
    exact .inr ⟨.hosts, uuid, rfl, by rw [hid], ha⟩
  | createNotification uuid now d =>
    cases h
    exact .inr ⟨.notifications, uuid, rfl, rfl, createNotification_adds s uuid now d⟩
  | updateSegment uuid now p =>
    obtain ⟨⟨row, s1⟩, hs, hr⟩ := bind_eq_ok.1 h
    cases hr
    exact .inl ⟨rfl, updateSegment_keeps hs⟩
  | updateHost uuid now p =>
    obtain ⟨⟨row, s1⟩, hs, hr⟩ := bind_eq_ok.1 h
    cases hr
    exact .inl ⟨rfl, updateHost_keeps hs⟩
  | updateNotification uuid now progress =>
    obtain ⟨⟨row, s1⟩, hs, hr⟩ := bind_eq_ok.1 h
    cases hr
    exact .inl ⟨rfl, updateNotification_keeps hs⟩
  | destroySegment uuid =>
    obtain ⟨s1, hs, hr⟩ := bind_eq_ok.1 h
    cases hr
    exact .inl ⟨rfl, destroySegment_keeps hs⟩
  | destroyHost uuid =>
    obtain ⟨s1, hs, hr⟩ := bind_eq_ok.1 h
    cases hr
    exact .inl ⟨rfl, destroyHost_keeps hs⟩
  | destroyNotification uuid =>
    obtain ⟨s1, hs, hr⟩ := bind_eq_ok.1 h
    cases hr
    exact .inl ⟨rfl, destroyNotification_keeps hs⟩
  | reset =>
    cases h
    exact .inl ⟨rfl, reset_keeps s⟩

/-- A step keeps a store consistent if it brings a new identifier. -/
theorem Consistent.exec {s s' : Store} {op : Op} {id : Option (Table × Nat)} (h : s.Consistent)
    (hf : ∀ u, op.generated? = some u → ∀ t, u ∉ (s.filed t).map (·.1)) (hx : s.exec op = .ok (id, s')) :
    s'.Consistent := by
  cases op with
  | createSegment uuid now d =>
    obtain ⟨⟨row, s1⟩, hs, hr⟩ := bind_eq_ok.1 hx
    cases hr
    refine h.createSegment (lookup?_eq_none_iff.2 ?_) hs
    simpa [filed] using hf uuid rfl .segments
  | createHost uuid now segment d =>
    obtain ⟨⟨row, s1⟩, hs, hr⟩ := bind_eq_ok.1 hx
    cases hr
    refine h.createHost (lookup?_eq_none_iff.2 ?_) hs
    simpa [filed] using hf uuid rfl .hosts
  | createNotification uuid now d =>
    cases hx
    exact h.createNotification
  | updateSegment uuid now p =>
    obtain ⟨⟨row, s1⟩, hs, hr⟩ := bind_eq_ok.1 hx
    cases hr
    exact h.updateSegment hs
  | updateHost uuid now p =>
    obtain ⟨⟨row, s1⟩, hs, hr⟩ := bind_eq_ok.1 hx
    cases hr
    exact h.updateHost hs
  | updateNotification uuid now progress =>
    obtain ⟨⟨row, s1⟩, hs, hr⟩ := bind_eq_ok.1 hx
    cases hr
    exact h.updateNotification hs
  | destroySegment uuid =>
    obtain ⟨s1, hs, hr⟩ := bind_eq_ok.1 hx
    cases hr
    exact h.destroySegment hs
  | destroyHost uuid =>
    obtain ⟨s1, hs, hr⟩ := bind_eq_ok.1 hx
    cases hr
    exact h.destroyHost hs
  | destroyNotification uuid =>
    obtain ⟨s1, hs, hr⟩ := bind_eq_ok.1 hx
    cases hr
    exact h.destroyNotification hs
  | reset =>
    cases hx
    exact consistent_reset

/-! ## What holds after a run -/

/-- What holds of a history in which the identifiers `used` have been brought. -/
structure History.Sound (h : History) (used : List String) : Prop where
  consistent : h.store.Consistent
  /-- No id is given out twice. -/
  unique : h.issued.Nodup
  /-- Ids go up to the last one that their table has given out. -/
  counted : ∀ e ∈ h.issued, e.2 ≤ h.store.lastId e.1
  /-- The ids of the rows are among those given out. -/
  filed : ∀ t, ∀ e ∈ h.store.filed t, e.1 ∈ used ∧ (t, e.2) ∈ h.issued
  /-- A table gives out an id only for a new identifier. -/
  few : ∀ t, h.store.lastId t ≤ used.length

theorem History.sound_nil : ({} : History).Sound [] where
  consistent := consistent_empty
  unique := List.nodup_nil
  counted e he := by cases he
  filed t e he := by cases t <;> cases he
  few t := by cases t <;> exact Nat.le_refl 0

theorem History.Sound.step {h : History} {used : List String} (hs : h.Sound used) (op : Op)
    (hu : (used ++ op.generated?.toList).Nodup) : (h.step op).Sound (used ++ op.generated?.toList) := by
  have hmore : used.length ≤ (used ++ op.generated?.toList).length := by simp
  rw [History.step_eq]
  cases hx : h.store.exec op with
  | error e =>
    exact
      { hs with
        filed := fun t e he => (hs.filed t e he).imp_left (List.mem_append_left _)
        few := fun t => Nat.le_trans (hs.few t) hmore }
  | ok r =>
    obtain ⟨id, s'⟩ := r
    -- A row that is there has an identifier that was brought before, which the new one is not.
    have hc : s'.Consistent := by
      refine hs.consistent.exec (fun u hgen t hmem => ?_) hx
      obtain ⟨e, he, rfl⟩ := List.mem_map.1 hmem
      have hd := List.disjoint_of_nodup_append hu (hs.filed t e he).1
      exact hd (by simp [hgen])
    rcases exec_eq_ok hx with ⟨rfl, hk⟩ | ⟨table, uuid, hgen, rfl, ha⟩
    · refine ⟨hc, by simpa using hs.unique, fun e he => ?_, fun t e he => ?_, fun t => ?_⟩
      · simp only [Option.toList_none, List.append_nil] at he
        rw [hk.lastId]
        exact hs.counted e he
      · obtain ⟨h1, h2⟩ := hs.filed t e (hk.filed t e he)
        exact ⟨List.mem_append_left _ h1, List.mem_append_left _ h2⟩
      · rw [hk.lastId]
        exact Nat.le_trans (hs.few t) hmore
    · -- The new id is above all that the table has given out.
      have hle : ∀ t, h.store.lastId t ≤ s'.lastId t := fun t => by
        rw [ha.lastId]
        exact Nat.le_add_right _ _
      refine ⟨hc, ?_, fun e he => ?_, fun t e he => ?_, fun t => ?_⟩
      · refine List.nodup_append.2 ⟨hs.unique, by simp, ?_⟩
        rintro e he _ hm rfl
        rw [List.mem_singleton.1 hm] at he
        exact Nat.not_succ_le_self _ (hs.counted _ he)
      · rcases List.mem_append.1 he with he | he
        · exact Nat.le_trans (hs.counted e he) (hle e.1)
        · simp only [Option.toList_some, List.mem_singleton] at he
          simp [he, ha.lastId]
      · rcases ha.filed t e he with he | ⟨rfl, rfl⟩
        · obtain ⟨h1, h2⟩ := hs.filed t e he
          exact ⟨List.mem_append_left _ h1, List.mem_append_left _ h2⟩
        · simp [hgen]
      · have := hs.few t
        rw [ha.lastId]
        simp only [hgen, Option.toList_some, List.length_append, List.length_singleton]
        split <;> omega

/-- Every history is sound if the identifiers that it brings are different. -/
theorem run_sound (ops : List Op) (hu : (ops.filterMap Op.generated?).Nodup) :
    (run ops).Sound (ops.filterMap Op.generated?) := by
  -- Later operations need to know which identifiers earlier ones have brought.
  suffices h : ∀ (ops : List Op) (h : History) (used : List String), h.Sound used →
      (used ++ ops.filterMap Op.generated?).Nodup →
      (ops.foldl History.step h).Sound (used ++ ops.filterMap Op.generated?) from
    h ops {} [] History.sound_nil hu
  intro ops
  induction ops with
  | nil =>
    intro h used hs _
    simpa using hs
  | cons op ops ih =>
    intro h used hs hu
    have happ : used ++ (op :: ops).filterMap Op.generated?
        = (used ++ op.generated?.toList) ++ ops.filterMap Op.generated? := by
      cases hg : op.generated? <;> simp [hg]
    rw [happ] at hu ⊢
    exact ih _ _ (hs.step op (List.Nodup.of_append_left hu)) hu

/-- What can be relied on after a run. -/
structure History.Orderly (h : History) : Prop where
  /-- Rows are filed under their identifiers, indexes are the inverse of tables, hosts belong to segments. -/
  consistent : h.store.Consistent
  segmentNames : (h.store.segments.map (·.2.name)).Nodup
  hostNames : (h.store.hosts.map (·.2.name)).Nodup
  /-- No id of a table is given out twice, and each is at most the last one, which fits 64 bits. -/
  unique : h.issued.Nodup
  counted : ∀ e ∈ h.issued, e.2 ≤ h.store.lastId e.1
  fits : ∀ t, h.store.lastId t < UInt64.size
  /-- Every row that is there has got its id so. -/
  filed : ∀ t, ∀ e ∈ h.store.filed t, (t, e.2) ∈ h.issued
  refusesTaken : h.store.RefusesTaken

/-- Whatever the operations of a run are and whether they succeed or fail, the store is consistent afterwards, no
id has been given out twice, and a name is refused exactly if another row has it. -/
theorem run_orderly (ops : List Op) (distinct : (ops.filterMap Op.generated?).Nodup)
    (few : (ops.filterMap Op.generated?).length < UInt64.size) : (run ops).Orderly := by
  have hs := run_sound ops distinct
  exact
    { consistent := hs.consistent
      segmentNames := hs.consistent.segmentNames.nodup_names hs.consistent.segments.keys
      hostNames := hs.consistent.hostNames.nodup_names hs.consistent.hosts.keys
      unique := hs.unique
      counted := hs.counted
      fits := fun t => Nat.lt_of_le_of_lt (hs.few t) few
      filed := fun t e he => (hs.filed t e he).2
      refusesTaken := hs.consistent.refusesTaken }

/-- A run in which a segment takes the name that another one has given up, is refused the name of a third, and
goes with its host. -/
def renames : List Op :=
  let draft (name : String) : SegmentDraft := ⟨name, none, .auto, "COMPUTE", none⟩
  let host : HostDraft := ⟨"h", "COMPUTE", "ssh", none, none⟩
  let now : Time.Instant := ⟨0, 0⟩
  [.createSegment "1" now (draft "a"), .createSegment "2" now (draft "b"),
    .updateSegment "1" now { name := some "c" }, .updateSegment "2" now { name := some "a" },
    .updateSegment "2" now { name := some "c" }, .createHost "3" now "2" host, .destroySegment "2",
    .createSegment "4" now (draft "a"), .createHost "5" now "4" host, .reset, .createSegment "6" now (draft "a")]

theorem run_orderly_renames :
    (renames.filterMap Op.generated?).Nodup ∧ (renames.filterMap Op.generated?).length < UInt64.size ∧
      (run renames).issued
        = [(.segments, 1), (.segments, 2), (.hosts, 1), (.segments, 3), (.hosts, 2), (.segments, 4)] ∧
      (run renames).Orderly :=
  ⟨by decide, by decide, by decide, run_orderly renames (by decide) (by decide)⟩

end Standby.Store
