import Standby.Failover.View
import Standby.Proofs.Listing.Order
import Standby.Proofs.Store.Effects
/-!
# Segments whose flags do not matter

Masking the flags of some segments sets them all. What the store does to segments and hosts, and which segments it
lists where the flag is no filter, does not depend on the flags: done to two stores that are the same when these are
masked, it gives the same, but for the flags of those segments.
-/

namespace Standby

variable {ids : List Nat}

/-! ## Masking flags -/

/-- A segment with its flag set if it has one of some ids. -/
def Segment.masked (ids : List Nat) (s : Segment) : Segment := if s.id ∈ ids then { s with enabled := true } else s

/-- Two segments are the same, but for the flag if they have one of some ids. -/
def Segment.SameBut (ids : List Nat) (s s' : Segment) : Prop := s.masked ids = s'.masked ids

theorem same_masked : Listing.Same (Segment.masked ids) where
  id s := by
    unfold Segment.masked
    split <;> rfl
  uuid s := by
    unfold Segment.masked
    split <;> rfl
  sortValue s key := by
    unfold Segment.masked
    split <;> rfl

namespace Segment

theorem masked_nil (s : Segment) : s.masked [] = s := if_neg List.not_mem_nil

variable {s s' : Segment}

theorem sameBut_refl (ids : List Nat) (s : Segment) : s.SameBut ids s := rfl

/-- All but the flag is the same. -/
theorem SameBut.eq_with (h : s.SameBut ids s') : ∃ enabled, s' = { s with enabled } := by
  unfold SameBut masked at h
  split at h <;> split at h
  · exact ⟨s'.enabled, by rw [Segment.mk.injEq] at h ⊢; simp_all⟩
  · exact ⟨true, h.symm⟩
  · exact ⟨s'.enabled, by rw [h]⟩
  · exact ⟨s'.enabled, by rw [h]⟩

theorem SameBut.uuid (h : s.SameBut ids s') : s.uuid = s'.uuid := by
  obtain ⟨_, rfl⟩ := h.eq_with
  rfl

theorem SameBut.name (h : s.SameBut ids s') : s.name = s'.name := by
  obtain ⟨_, rfl⟩ := h.eq_with
  rfl

/-- Two segments that are shown without their flags are shown the same. -/
theorem SameBut.toJson (h : s.SameBut ids s') : s.toJson false = s'.toJson false := by
  obtain ⟨_, rfl⟩ := h.eq_with
  rfl

theorem SameBut.apply (h : s.SameBut ids s') (p : SegmentPatch) (now : Time.Instant) :
    (p.apply s now).SameBut ids (p.apply s' now) := by
  by_cases hid : s.id ∈ ids
  · obtain ⟨_, rfl⟩ := h.eq_with
    simp [SameBut, masked, SegmentPatch.apply, hid]
  · -- The flag of a segment that is not among those is the same too.
    obtain ⟨enabled, rfl⟩ := h.eq_with
    rw [SameBut, masked, if_neg hid, masked, if_neg hid] at h
    rw [← h]
    rfl

end Segment

namespace Store

open StoreStep (attempt_of_run)

/-- Two stores are the same, but for the flags of the segments with some ids. -/
structure SameBut (ids : List Nat) (s s' : Store) : Prop where
  segments : (s.segments.map fun p => (p.1, p.2.masked ids)) = s'.segments.map fun p => (p.1, p.2.masked ids)
  segmentNames : s.segmentNames = s'.segmentNames
  hosts : s.hosts = s'.hosts
  hostNames : s.hostNames = s'.hostNames
  notifications : s.notifications = s'.notifications
  lastSegmentId : s.lastSegmentId = s'.lastSegmentId
  lastHostId : s.lastHostId = s'.lastHostId
  lastNotificationId : s.lastNotificationId = s'.lastNotificationId

theorem sameBut_refl (ids : List Nat) (s : Store) : s.SameBut ids s := ⟨rfl, rfl, rfl, rfl, rfl, rfl, rfl, rfl⟩

variable {s s' : Store}

/-- Two stores that differ in no flag are the same. -/
theorem SameBut.eq (h : s.SameBut [] s') : s = s' := by
  have hmask : (fun p : String × Segment => (p.1, p.2.masked [])) = id := by
    funext p
    rw [Segment.masked_nil]
    rfl
  have hsegments := h.segments
  rw [hmask, List.map_id, List.map_id] at hsegments
  obtain ⟨segments, segmentNames, hosts, hostNames, notifications, lastSegmentId, lastHostId, lastNotificationId⟩ := s
  cases hsegments
  cases h.segmentNames
  cases h.hosts
  cases h.hostNames
  cases h.notifications
  cases h.lastSegmentId
  cases h.lastHostId
  cases h.lastNotificationId
  rfl

variable (h : s.SameBut ids s') (uuid : String) (now : Time.Instant)
include h

theorem SameBut.insert {row row' : Segment} (hrow : row.SameBut ids row') :
    ((insertKey uuid row s.segments).map fun p => (p.1, p.2.masked ids)) =
      (insertKey uuid row' s'.segments).map fun p => (p.1, p.2.masked ids) := by
  rw [← insertKey_map_value, ← insertKey_map_value, h.segments, show row.masked ids = row'.masked ids from hrow]

theorem SameBut.lookup?_masked :
    (lookup? uuid s.segments).map (Segment.masked ids) = (lookup? uuid s'.segments).map (Segment.masked ids) := by
  rw [← lookup?_map_value, ← lookup?_map_value, h.segments]

/-- A segment that is none of those whose flags may differ is the same in both. -/
theorem SameBut.lookup?_iff {row : Segment} (hrow : row.id ∉ ids) :
    lookup? uuid s.segments = some row ↔ lookup? uuid s'.segments = some row := by
  have hiff (found : Option Segment) : found = some row ↔ found.map (Segment.masked ids) = some row := by
    cases found with
    | none => simp
    | some other =>
      simp only [Option.some.injEq, Option.map_some]
      constructor
      · rintro rfl
        exact if_neg hrow
      · intro hother
        have hid : other.id = row.id := (same_masked.id other).symm.trans (congrArg Segment.id hother)
        rwa [Segment.masked, hid, if_neg hrow] at hother
  rw [hiff, h.lookup?_masked, ← hiff]

theorem SameBut.segment : Results (Segment.SameBut ids) (s.segment uuid) (s'.segment uuid) := by
  have hlookup := h.lookup?_masked uuid
  unfold Store.segment find
  cases hrow : lookup? uuid s.segments <;> cases hrow' : lookup? uuid s'.segments <;> rw [hrow, hrow'] at hlookup
  · exact .error _
  · cases hlookup
  · cases hlookup
  · exact .ok (Option.some.inj hlookup)

/-- Segments and stores that are the same, but for flags. -/
def SameButs (ids : List Nat) (p p' : Segment × Store) : Prop := p.1.SameBut ids p'.1 ∧ p.2.SameBut ids p'.2

theorem SameBut.createSegment (d : SegmentDraft) :
    Results (SameButs ids) (s.createSegment uuid now d) (s'.createSegment uuid now d) := by
  have hrow : s.newSegment uuid now d = s'.newSegment uuid now d := by rw [newSegment, newSegment, h.lastSegmentId]
  unfold Store.createSegment
  rw [attempt_of_run (createSegment_settles d), attempt_of_run (createSegment_settles d), hrow, h.segmentNames,
    h.lastSegmentId]
  split
  · exact .error _
  · refine .ok ⟨rfl, ?_⟩
    exact { h with segments := h.insert uuid rfl, segmentNames := rfl, lastSegmentId := rfl }

theorem SameBut.updateSegment (p : SegmentPatch) :
    Results (SameButs ids) (s.updateSegment uuid now p) (s'.updateSegment uuid now p) := by
  unfold Store.updateSegment
  rw [attempt_of_run (updateSegment_settles p), attempt_of_run (updateSegment_settles p)]
  refine (h.segment uuid).bind fun row row' hrow => ?_
  rw [h.segmentNames, hrow.name]
  refine (results_refl _).bind ?_
  rintro names _ rfl
  have hafter := hrow.apply p now
  exact .ok ⟨hafter, { h with segments := h.insert uuid hafter, segmentNames := rfl }⟩

theorem SameBut.destroySegment : Results (SameBut ids) (s.destroySegment uuid) (s'.destroySegment uuid) := by
  unfold Store.destroySegment
  rw [attempt_of_run destroySegment_settles, attempt_of_run destroySegment_settles, map_bind_ok, map_bind_ok]
  refine (h.segment uuid).bind fun row row' hrow => ?_
  rw [h.segmentNames, hrow.name, h.hosts, h.hostNames]
  refine .ok { h with segments := ?_, segmentNames := rfl, hosts := rfl, hostNames := rfl }
  rw [← eraseKey_map_value, ← eraseKey_map_value, h.segments]

/-- Stores that are the same, but for flags, with the same host. -/
def SameHosts (ids : List Nat) (p p' : Host × Store) : Prop := p.1 = p'.1 ∧ p.2.SameBut ids p'.2

theorem SameBut.createHost (segment : String) (d : HostDraft) :
    Results (SameHosts ids) (s.createHost uuid now segment d) (s'.createHost uuid now segment d) := by
  have hisNone : (lookup? segment s.segments).isNone = (lookup? segment s'.segments).isNone := by
    simpa using congrArg Option.isNone (h.lookup?_masked segment)
  have hrow : s.newHost uuid now segment d = s'.newHost uuid now segment d := by rw [newHost, newHost, h.lastHostId]
  unfold Store.createHost
  rw [attempt_of_run (createHost_settles segment d), attempt_of_run (createHost_settles segment d), hrow, hisNone,
    h.hosts, h.hostNames, h.lastHostId]
  split
  · exact .error _
  · split
    · exact .error _
    · exact .ok ⟨rfl, { h with hosts := rfl, hostNames := rfl, lastHostId := rfl }⟩

theorem SameBut.updateHost (p : HostPatch) :
    Results (SameHosts ids) (s.updateHost uuid now p) (s'.updateHost uuid now p) := by
  unfold Store.updateHost
  rw [attempt_of_run (updateHost_settles p), attempt_of_run (updateHost_settles p)]
  unfold Store.host
  rw [h.hosts, h.hostNames]
  refine (results_refl _).bind ?_
  rintro row _ rfl
  refine (results_refl _).bind ?_
  rintro names _ rfl
  exact .ok ⟨rfl, { h with hosts := rfl, hostNames := rfl }⟩

theorem SameBut.destroyHost : Results (SameBut ids) (s.destroyHost uuid) (s'.destroyHost uuid) := by
  unfold Store.destroyHost
  rw [attempt_of_run destroyHost_settles, attempt_of_run destroyHost_settles, map_bind_ok, map_bind_ok]
  unfold Store.host
  rw [h.hosts, h.hostNames]
  refine (results_refl _).bind ?_
  rintro row _ rfl
  exact .ok { h with hosts := rfl, hostNames := rfl }

theorem SameBut.createNotification (d : NewNotification) :
    (s.createNotification uuid now d).1 = (s'.createNotification uuid now d).1 ∧
      (s.createNotification uuid now d).2.SameBut ids (s'.createNotification uuid now d).2 := by
  refine ⟨?_, { h with notifications := ?_, lastNotificationId := congrArg (· + 1) h.lastNotificationId }⟩
  · show ({ id := s.lastNotificationId + 1, .. } : Notification) = { id := s'.lastNotificationId + 1, .. }
    rw [h.lastNotificationId]
  · show insertKey uuid ({ id := s.lastNotificationId + 1, .. } : Notification) s.notifications =
      insertKey uuid { id := s'.lastNotificationId + 1, .. } s'.notifications
    rw [h.lastNotificationId, h.notifications]

/-- Where the flag is no filter, the same segments are listed. -/
theorem SameBut.listSegments {f : SegmentFilter} (hf : f.enabled = none) (slice : Slice) :
    Results (fun rows rows' => rows.map (Segment.masked ids) = rows'.map (Segment.masked ids))
      (s.listSegments f slice) (s'.listSegments f slice) := by
  have hkeeps : f.keeps ∘ Segment.masked ids = f.keeps := by
    funext row
    unfold Segment.masked SegmentFilter.keeps
    simp only [Function.comp, hf]
    split <;> rfl
  have hrows : ((s.segments.map (·.2)).filter f.keeps).map (Segment.masked ids) =
      ((s'.segments.map (·.2)).filter f.keeps).map (Segment.masked ids) := by
    have hall := congrArg (List.map Prod.snd) h.segments
    simp only [List.map_map] at hall
    rw [← hkeeps, ← List.filter_map, ← List.filter_map, List.map_map, List.map_map]
    exact congrArg (List.filter f.keeps) hall
  have hslice : (Listing.slice? slice ((s.segments.map (·.2)).filter f.keeps)).map (List.map (Segment.masked ids)) =
      (Listing.slice? slice ((s'.segments.map (·.2)).filter f.keeps)).map (List.map (Segment.masked ids)) := by
    rw [← same_masked.slice?, ← same_masked.slice?, hrows]
  unfold Store.listSegments list
  generalize Listing.slice? slice ((s.segments.map (·.2)).filter f.keeps) = listed at hslice
  generalize Listing.slice? slice ((s'.segments.map (·.2)).filter f.keeps) = listed' at hslice
  cases listed with
  | none =>
    cases listed' with
    | none => exact .error _
    | some rows' => cases hslice
  | some rows =>
    cases listed' with
    | none => cases hslice
    | some rows' => exact .ok (Option.some.inj hslice)

end Store

end Standby
