import Standby.Proofs.Failover.Bodies
import Standby.Proofs.Store.Effects
/-!
# Rows that are revised

A body that changes a row says something of some of its attributes. The row takes what is said, keeps what nothing is said
of, and notes the time; the index of names follows if the name is another one. Revising the row once more by the same body
changes nothing but the time, as the row has got its name by then.
-/

namespace Standby

/-! ## Attributes -/

/-- An attribute is what a body says of it, as it is read, and what it was if the body says nothing. -/
def Revises {α : Type} (attrs : List (String × Json)) (key : String) (read : Json → Option α) (old new : α) : Prop :=
  match lookup? key attrs with
  | none => new = old
  | some v => read v = some new

theorem revises_getD {α : Type} {attrs : List (String × Json)} {key : String} {read : Json → Option α} {said : Option α}
    (old : α) (h : (lookup? key attrs).map read = said.map some) : Revises attrs key read old (said.getD old) := by
  unfold Revises
  cases hv : lookup? key attrs with
  | none =>
    cases said with
    | none => rfl
    | some a => simp [hv] at h
  | some v =>
    cases said with
    | none => simp [hv] at h
    | some a => simpa [hv] using h

/-- The text that a value is, or none if it is `null`. -/
def Json.nullableText? : Json → Option (Option String)
  | .null => some none
  | .str s => some (some s)
  | _ => none

/-- A segment after a body has changed some of its attributes. -/
structure Segment.RevisedBy (attrs : List (String × Json)) (now : Time.Instant) (old new : Segment) : Prop where
  name : Revises attrs "name" Json.str? old.name new.name
  description : Revises attrs "description" Json.nullableText? old.description new.description
  recoveryMethod :
    Revises attrs "recovery_method" (fun v => v.str?.bind RecoveryMethod.ofName?) old.recoveryMethod new.recoveryMethod
  serviceType : Revises attrs "service_type" Json.str? old.serviceType new.serviceType
  enabled : Revises attrs "enabled" Flag.ofJson? old.enabled new.enabled
  id : new.id = old.id
  uuid : new.uuid = old.uuid
  createdAt : new.createdAt = old.createdAt
  updatedAt : new.updatedAt = some now

/-- A host after a body has changed some of its attributes. -/
structure Host.RevisedBy (attrs : List (String × Json)) (now : Time.Instant) (old new : Host) : Prop where
  name : Revises attrs "name" Json.str? old.name new.name
  hostType : Revises attrs "type" Json.str? old.hostType new.hostType
  controlAttributes : Revises attrs "control_attributes" Json.str? old.controlAttributes new.controlAttributes
  reserved : Revises attrs "reserved" Flag.ofJson? old.reserved new.reserved
  onMaintenance : Revises attrs "on_maintenance" Flag.ofJson? old.onMaintenance new.onMaintenance
  id : new.id = old.id
  uuid : new.uuid = old.uuid
  segment : new.segment = old.segment
  createdAt : new.createdAt = old.createdAt
  updatedAt : new.updatedAt = some now

section Patches
variable {attrs : List (String × Json)}

theorem SegmentPatch.Matches.revised {p : SegmentPatch} (h : p.Matches attrs) (old : Segment) (now : Time.Instant) :
    old.RevisedBy attrs now (p.apply old now) where
  name := revises_getD _ (by rw [h.name]; cases p.name <;> rfl)
  description := revises_getD _ (by rw [h.description]; rcases p.description with _ | _ | s <;> rfl)
  recoveryMethod := revises_getD _ (by
    rw [h.recoveryMethod, Option.map_map]
    exact congrArg (p.recoveryMethod.map ·) (funext RecoveryMethod.ofName?_name))
  serviceType := revises_getD _ (by rw [h.serviceType]; cases p.serviceType <;> rfl)
  enabled := revises_getD _ h.enabled
  id := rfl
  uuid := rfl
  createdAt := rfl
  updatedAt := rfl

theorem HostPatch.Matches.revised {p : HostPatch} (h : p.Matches attrs) (old : Host) (now : Time.Instant) :
    old.RevisedBy attrs now (p.apply old now) where
  name := revises_getD _ (by rw [h.name]; cases p.name <;> rfl)
  hostType := revises_getD _ (by rw [h.hostType]; cases p.hostType <;> rfl)
  controlAttributes := revises_getD _ (by rw [h.controlAttributes]; cases p.controlAttributes <;> rfl)
  reserved := revises_getD _ h.reserved
  onMaintenance := revises_getD _ h.onMaintenance
  id := rfl
  uuid := rfl
  segment := rfl
  createdAt := rfl
  updatedAt := rfl

/-- What a row already is, it is made only as of another time. -/
theorem SegmentPatch.apply_apply (p : SegmentPatch) (old : Segment) (now again : Time.Instant) :
    p.apply (p.apply old now) again = { p.apply old now with updatedAt := some again } := by
  obtain ⟨name, description, method, service, enabled⟩ := p
  cases name <;> cases description <;> cases method <;> cases service <;> cases enabled <;> rfl

theorem HostPatch.apply_apply (p : HostPatch) (old : Host) (now again : Time.Instant) :
    p.apply (p.apply old now) again = { p.apply old now with updatedAt := some again } := by
  obtain ⟨name, type, control, reserved, maintenance⟩ := p
  cases name <;> cases type <;> cases control <;> cases reserved <;> cases maintenance <;> rfl

end Patches

/-! ## The index of names -/

namespace Store

/-- An index in which a row with an old name has come to have a new one. Nothing happens if the names are the same; else
the new one has been free, leads to the row, and the old one leads nowhere. -/
structure Reindexed (uuid old new : String) (names names' : List (String × String)) : Prop where
  same : new = old → names' = names
  moved : new ≠ old → lookup? new names = none ∧ lookup? new names' = some uuid ∧ lookup? old names' = none
  others : ∀ n, n ≠ old → n ≠ new → lookup? n names' = lookup? n names

theorem reindexed_of_rename {table : Table} {uuid old new : String} {names names' : List (String × String)}
    (h : rename table uuid old new names = .ok names') : Reindexed uuid old new names names' := by
  rcases rename_eq_ok.1 h with ⟨rfl, rfl⟩ | ⟨hne, hfree, rfl⟩
  · exact ⟨fun _ => rfl, fun hne => absurd rfl hne, fun _ _ _ => rfl⟩
  · refine ⟨fun heq => absurd heq.symm hne, fun _ => ⟨hfree, ?_, ?_⟩, fun n hold hnew => ?_⟩
    · rw [lookup?_eraseKey, if_neg hne, lookup?_insertKey, if_pos rfl]
    · rw [lookup?_eraseKey, if_pos rfl]
    · rw [lookup?_eraseKey, if_neg (Ne.symm hold), lookup?_insertKey, if_neg (Ne.symm hnew)]

/-! ## Revising a row once more -/

variable {s s' : Store} {uuid : String} {now : Time.Instant}

/-- The store that a segment has been changed in takes the same change again, as of another time. -/
theorem updateSegment_again {p : SegmentPatch} {row : Segment} (h : s.updateSegment uuid now p = .ok (row, s'))
    (again : Time.Instant) :
    s'.updateSegment uuid again p = .ok ({ row with updatedAt := some again },
      { s' with segments := insertKey uuid { row with updatedAt := some again } s'.segments }) := by
  obtain ⟨old, names, hold, hnames, rfl, rfl⟩ := updateSegment_eq_ok.1 h
  refine updateSegment_eq_ok.2 ⟨p.apply old now, names, by rw [lookup?_insertKey, if_pos rfl], ?_,
    (p.apply_apply old now again).symm, rfl⟩
  -- The name that the body asks for, if any, is the row's own by now.
  exact rename_eq_ok.2 (.inl ⟨(congrArg Segment.name (p.apply_apply old now again)).symm, rfl⟩)

theorem updateHost_again {p : HostPatch} {row : Host} (h : s.updateHost uuid now p = .ok (row, s'))
    (again : Time.Instant) :
    s'.updateHost uuid again p = .ok ({ row with updatedAt := some again },
      { s' with hosts := insertKey uuid { row with updatedAt := some again } s'.hosts }) := by
  obtain ⟨old, names, hold, hnames, rfl, rfl⟩ := updateHost_eq_ok.1 h
  refine updateHost_eq_ok.2 ⟨p.apply old now, names, by rw [lookup?_insertKey, if_pos rfl], ?_,
    (p.apply_apply old now again).symm, rfl⟩
  -- The name that the body asks for, if any, is the row's own by now.
  exact rename_eq_ok.2 (.inl ⟨(congrArg Host.name (p.apply_apply old now again)).symm, rfl⟩)

end Store

end Standby
