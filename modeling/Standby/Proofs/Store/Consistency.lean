import Standby.Proofs.Store.Effects
import Standby.Proofs.Store.Names
/-!
# Consistent stores

A store is consistent if its rows are filed under their own identifiers, its two indexes of names are the inverse
of their tables, and every host belongs to a segment that is there. Every operation keeps a store consistent,
if a new row comes with an identifier that its table does not have. In a consistent store a name is refused
exactly if another row has it.
-/

namespace Standby.Store

open StoreStep (attempt_of_run)

/-- What holds of the tables and indexes of a store together. -/
structure Consistent (s : Store) : Prop where
  segments : Filed Segment.uuid Segment.id s.segments s.lastSegmentId
  hosts : Filed Host.uuid Host.id s.hosts s.lastHostId
  notifications : Filed Notification.uuid Notification.id s.notifications s.lastNotificationId
  segmentNames : Indexed Segment.name s.segments s.segmentNames
  hostNames : Indexed Host.name s.hosts s.hostNames
  housed : ∀ p ∈ s.hosts, ∃ g, lookup? p.2.segment s.segments = some g

variable {s s' : Store} {uuid : String} {now : Time.Instant}

theorem consistent_empty : empty.Consistent where
  segments := Filed.nil
  hosts := Filed.nil
  notifications := Filed.nil
  segmentNames := Indexed.nil
  hostNames := Indexed.nil
  housed p hp := by cases hp

/-- The index follows a row whose name may have changed. -/
theorem Indexed.rename {α : Type} {name : α → String} {rows : List (String × α)} {names names' : List (String × String)}
    {table : Table} {old : α} (h : Indexed name rows names) (row : α) (hu : lookup? uuid rows = some old)
    (hr : Store.rename table uuid (name old) (name row) names = .ok names') :
    Indexed name (insertKey uuid row rows) names' := by
  rcases rename_eq_ok.1 hr with ⟨hn, rfl⟩ | ⟨-, hn, rfl⟩
  · exact h.change row hu hn.symm
  · exact h.move row hu hn

/-- A segment is still there after a change under some identifier. -/
theorem lookup?_insertKey_isSome {α : Type} {key other : String} {value : α} {l : List (String × α)}
    (h : ∃ g, lookup? other l = some g) : ∃ g, lookup? other (insertKey key value l) = some g := by
  by_cases hk : key = other
  · exact ⟨value, by rw [lookup?_insertKey, if_pos hk]⟩
  · obtain ⟨g, hg⟩ := h
    exact ⟨g, by rw [lookup?_insertKey, if_neg hk, hg]⟩

/-! ## Each operation keeps a store consistent -/

theorem Consistent.createSegment {d : SegmentDraft} {row : Segment} (h : s.Consistent)
    (hf : lookup? uuid s.segments = none) (hs : s.createSegment uuid now d = .ok (row, s')) : s'.Consistent := by
  obtain ⟨hn, rfl, rfl⟩ := createSegment_eq_ok.1 hs
  exact
    { h with
      segments := h.segments.put rfl rfl
      segmentNames := h.segmentNames.add (s.newSegment uuid now d) hf hn
      housed := fun p hp => lookup?_insertKey_isSome (h.housed p hp) }

theorem Consistent.updateSegment {p : SegmentPatch} {row : Segment} (h : s.Consistent)
    (hs : s.updateSegment uuid now p = .ok (row, s')) : s'.Consistent := by
  obtain ⟨old, names, ho, hr, rfl, rfl⟩ := updateSegment_eq_ok.1 hs
  exact
    { h with
      segments := h.segments.change ho rfl rfl
      segmentNames := h.segmentNames.rename (p.apply old now) ho hr
      housed := fun q hq => lookup?_insertKey_isSome (h.housed q hq) }

/-- The hosts that go with a segment are those that do not stay without it. -/
theorem filter_gone (rows : List (String × Host)) (uuid : String) :
    (rows.filter fun p => p.2.segment == uuid) = rows.filter fun p => !(p.2.segment != uuid) := by
  simp [bne]

theorem Consistent.destroySegment (h : s.Consistent) (hs : s.destroySegment uuid = .ok s') : s'.Consistent := by
  obtain ⟨row, ho, rfl⟩ := destroySegment_eq_ok.1 hs
  refine
    { h with
      segments := h.segments.filter _
      hosts := h.hosts.filter _
      segmentNames := h.segmentNames.erase ho
      hostNames := ?_
      housed := ?_ }
  · -- The names of the hosts that go with the segment leave the index one by one.
    simp only [filter_gone]
    exact h.hostNames.filter h.hosts.keys fun p => p.2.segment != uuid
  · -- A host that stays belongs to another segment.
    intro p hp
    obtain ⟨hp, hne⟩ := List.mem_filter.1 hp
    obtain ⟨g, hg⟩ := h.housed p hp
    have hne : uuid ≠ p.2.segment := by
      rintro rfl
      simp at hne
    exact ⟨g, by rw [lookup?_eraseKey, if_neg hne, hg]⟩

theorem Consistent.createHost {segment : String} {d : HostDraft} {row : Host} (h : s.Consistent)
    (hf : lookup? uuid s.hosts = none) (hs : s.createHost uuid now segment d = .ok (row, s')) : s'.Consistent := by
  obtain ⟨hg, hn, rfl, rfl⟩ := createHost_eq_ok.1 hs
  refine
    { h with
      hosts := h.hosts.put rfl rfl
      hostNames := h.hostNames.add (s.newHost uuid now segment d) hf hn
      housed := ?_ }
  intro p hp
  rcases mem_insertKey hp with rfl | hp
  · exact hg
  · exact h.housed p hp

theorem Consistent.updateHost {p : HostPatch} {row : Host} (h : s.Consistent)
    (hs : s.updateHost uuid now p = .ok (row, s')) : s'.Consistent := by
  obtain ⟨old, names, ho, hr, rfl, rfl⟩ := updateHost_eq_ok.1 hs
  refine
    { h with
      hosts := h.hosts.change ho rfl rfl
      hostNames := h.hostNames.rename (p.apply old now) ho hr
      housed := ?_ }
  intro q hq
  rcases mem_insertKey hq with rfl | hq
  · exact h.housed (uuid, old) (mem_of_lookup?_eq_some ho)
  · exact h.housed q hq

theorem Consistent.destroyHost (h : s.Consistent) (hs : s.destroyHost uuid = .ok s') : s'.Consistent := by
  obtain ⟨row, ho, rfl⟩ := destroyHost_eq_ok.1 hs
  exact
    { h with
      hosts := h.hosts.filter _
      hostNames := h.hostNames.erase ho
      housed := fun p hp => h.housed p (List.mem_filter.1 hp).1 }

theorem Consistent.createNotification {d : NewNotification} (h : s.Consistent) :
    (s.createNotification uuid now d).2.Consistent :=
  { h with notifications := h.notifications.put rfl rfl }

theorem Consistent.updateNotification {progress : Option Progress} {row : Notification} (h : s.Consistent)
    (hs : s.updateNotification uuid now progress = .ok (row, s')) : s'.Consistent := by
  obtain ⟨old, ho, rfl, rfl⟩ := updateNotification_eq_ok.1 hs
  exact { h with notifications := h.notifications.change ho rfl rfl }

theorem Consistent.destroyNotification (h : s.Consistent) (hs : s.destroyNotification uuid = .ok s') :
    s'.Consistent := by
  obtain ⟨row, ho, rfl⟩ := destroyNotification_eq_ok.1 hs
  exact { h with notifications := h.notifications.filter _ }

theorem consistent_reset : s.reset.Consistent where
  segments := Filed.nil
  hosts := Filed.nil
  notifications := Filed.nil
  segmentNames := Indexed.nil
  hostNames := Indexed.nil
  housed p hp := by cases hp

/-! ## Names that are refused -/

/-- An operation fails because a name exists exactly if the name is taken, and else it succeeds. -/
def RefusedIff {β : Type} (result : Except StoreError β) (table : Table) (name : String) (taken : Prop) : Prop :=
  (result = .error (.alreadyExists table name) ↔ taken) ∧ ((∃ b, result = .ok b) ↔ ¬taken)

/-- In a store the names of segments and of hosts are refused exactly if another row has them. -/
structure RefusesTaken (s : Store) : Prop where
  createSegment : ∀ uuid now (d : SegmentDraft),
    RefusedIff (s.createSegment uuid now d) .segments d.name
      (∃ u row, lookup? u s.segments = some row ∧ row.name = d.name)
  createHost : ∀ uuid now segment (d : HostDraft), (∃ g, lookup? segment s.segments = some g) →
    RefusedIff (s.createHost uuid now segment d) .hosts d.name
      (∃ u row, lookup? u s.hosts = some row ∧ row.name = d.name)
  updateSegment : ∀ uuid now (p : SegmentPatch) name, (∃ old, lookup? uuid s.segments = some old) →
    p.name = some name →
    RefusedIff (s.updateSegment uuid now p) .segments name
      (∃ u row, u ≠ uuid ∧ lookup? u s.segments = some row ∧ row.name = name)
  updateHost : ∀ uuid now (p : HostPatch) name, (∃ old, lookup? uuid s.hosts = some old) →
    p.name = some name →
    RefusedIff (s.updateHost uuid now p) .hosts name
      (∃ u row, u ≠ uuid ∧ lookup? u s.hosts = some row ∧ row.name = name)

theorem RefusedIff.of_taken {β : Type} {table : Table} {name : String} {taken : Prop} (h : taken) :
    RefusedIff (.error (.alreadyExists table name) : Except StoreError β) table name taken := by
  refine ⟨⟨fun _ => h, fun _ => rfl⟩, ⟨?_, fun hn => absurd h hn⟩⟩
  rintro ⟨b, hb⟩
  cases hb

theorem RefusedIff.of_free {β : Type} {table : Table} {name : String} {taken : Prop} {b : β} (h : ¬taken) :
    RefusedIff (.ok b) table name taken := by
  refine ⟨⟨?_, fun ht => absurd ht h⟩, ⟨fun _ => h, fun _ => ⟨b, rfl⟩⟩⟩
  intro hb
  cases hb

/-- What follows a check and cannot fail does not change what is refused. -/
theorem RefusedIff.bind {β γ : Type} {x : Except StoreError β} {table : Table} {name : String} {taken : Prop}
    (f : β → γ) (h : RefusedIff x table name taken) : RefusedIff (x >>= fun b => .ok (f b)) table name taken := by
  obtain ⟨herr, hok⟩ := h
  unfold RefusedIff
  rw [← hok, ← herr]
  cases x <;> simp [Bind.bind, Except.bind]

/-- A row may take a name unless another row has it; its own name is no obstacle. -/
theorem Indexed.refused_iff {α : Type} {name : α → String} {rows : List (String × α)}
    {names : List (String × String)} {table : Table} {old : α} (h : Indexed name rows names)
    (hu : lookup? uuid rows = some old) (new : String) :
    RefusedIff (Store.rename table uuid (name old) new names) table new
      (∃ u row, u ≠ uuid ∧ lookup? u rows = some row ∧ name row = new) := by
  unfold Store.rename
  by_cases ho : name old = new
  · rw [if_pos ho]
    -- The name that is asked for is the row's own, which no other row can have.
    apply RefusedIff.of_free
    rintro ⟨u, row, hne, hrow, hn⟩
    exact hne (h.unique hrow hu (hn.trans ho.symm))
  · rw [if_neg ho]
    by_cases hs : (lookup? new names).isSome = true
    · rw [if_pos hs]
      obtain ⟨u, row, hrow, hn⟩ := (h.isSome_iff new).1 hs
      refine RefusedIff.of_taken ⟨u, row, ?_, hrow, hn⟩
      rintro rfl
      rw [hu, Option.some.injEq] at hrow
      exact ho (hrow ▸ hn)
    · rw [if_neg hs]
      apply RefusedIff.of_free
      rintro ⟨u, row, -, hrow, hn⟩
      exact hs ((h.isSome_iff new).2 ⟨u, row, hrow, hn⟩)

theorem Consistent.refusesTaken (h : s.Consistent) : s.RefusesTaken where
  createSegment uuid now d := by
    rw [Store.createSegment, attempt_of_run (createSegment_settles d)]
    by_cases hs : (lookup? d.name s.segmentNames).isSome = true
    · rw [if_pos hs]
      exact RefusedIff.of_taken ((h.segmentNames.isSome_iff d.name).1 hs)
    · rw [if_neg hs]
      exact RefusedIff.of_free (mt (h.segmentNames.isSome_iff d.name).2 hs)
  createHost uuid now segment d hg := by
    obtain ⟨g, hg⟩ := hg
    rw [Store.createHost, attempt_of_run (createHost_settles segment d), hg, if_neg (by simp)]
    by_cases hs : (lookup? d.name s.hostNames).isSome = true
    · rw [if_pos hs]
      exact RefusedIff.of_taken ((h.hostNames.isSome_iff d.name).1 hs)
    · rw [if_neg hs]
      exact RefusedIff.of_free (mt (h.hostNames.isSome_iff d.name).2 hs)
  updateSegment uuid now p name hold hp := by
    obtain ⟨old, hold⟩ := hold
    rw [Store.updateSegment, attempt_of_run (updateSegment_settles p)]
    unfold segment
    rw [find_eq_ok.2 hold, hp]
    exact (h.segmentNames.refused_iff hold name).bind _
  updateHost uuid now p name hold hp := by
    obtain ⟨old, hold⟩ := hold
    rw [Store.updateHost, attempt_of_run (updateHost_settles p)]
    unfold host
    rw [find_eq_ok.2 hold, hp]
    exact (h.hostNames.refused_iff hold name).bind _

end Standby.Store
