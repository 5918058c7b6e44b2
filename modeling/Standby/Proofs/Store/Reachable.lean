import Standby.Proofs.Store.Runs
/-!
# Reachable stores

Whatever operations have led to a store, even if they brought an identifier twice, its rows stand under their own
identifiers and have ids of their own.
-/

namespace Standby

namespace Store

/-- What holds of the tables of a store, whatever its indexes are. -/
structure Tabled (s : Store) : Prop where
  segments : Filed Segment.uuid Segment.id s.segments s.lastSegmentId
  hosts : Filed Host.uuid Host.id s.hosts s.lastHostId
  notifications : Filed Notification.uuid Notification.id s.notifications s.lastNotificationId
  named : ∀ t, ∀ e ∈ s.filed t, e.1 ≠ ""

theorem tabled_empty : empty.Tabled where
  segments := Filed.nil
  hosts := Filed.nil
  notifications := Filed.nil
  named t e he := by cases t <;> cases he

/-- A step keeps the tables in order if it brings an identifier that is not empty. -/
theorem Tabled.exec {s s' : Store} {op : Op} {id : Option (Table × Nat)} (h : s.Tabled)
    (hop : op.generated? ≠ some "") (hx : s.exec op = .ok (id, s')) : s'.Tabled := by
  have hnamed : ∀ t, ∀ e ∈ s'.filed t, e.1 ≠ "" := by
    intro t e he
    rcases exec_eq_ok hx with ⟨-, hk⟩ | ⟨table, uuid, hgen, -, ha⟩
    · exact h.named t e (hk.filed t e he)
    · rcases ha.filed t e he with he | ⟨-, rfl⟩
      · exact h.named t e he
      · exact fun hu => hop (hgen.trans (congrArg some hu))
  cases op with
  | createSegment uuid now d =>
    obtain ⟨⟨row, s₁⟩, hs, hr⟩ := bind_eq_ok.1 hx
    cases hr
    obtain ⟨-, rfl, rfl⟩ := createSegment_eq_ok.1 hs
    exact ⟨h.segments.put rfl rfl, h.hosts, h.notifications, hnamed⟩
  | createHost uuid now segment d =>
    obtain ⟨⟨row, s₁⟩, hs, hr⟩ := bind_eq_ok.1 hx
    cases hr
    obtain ⟨-, -, rfl, rfl⟩ := createHost_eq_ok.1 hs
    exact ⟨h.segments, h.hosts.put rfl rfl, h.notifications, hnamed⟩
  | createNotification uuid now d =>
    cases hx
    exact ⟨h.segments, h.hosts, h.notifications.put rfl rfl, hnamed⟩
  | updateSegment uuid now p =>
    obtain ⟨⟨row, s₁⟩, hs, hr⟩ := bind_eq_ok.1 hx
    cases hr
    obtain ⟨old, names, ho, -, rfl, rfl⟩ := updateSegment_eq_ok.1 hs
    exact ⟨h.segments.change ho rfl rfl, h.hosts, h.notifications, hnamed⟩
  | updateHost uuid now p =>
    obtain ⟨⟨row, s₁⟩, hs, hr⟩ := bind_eq_ok.1 hx
    cases hr
    obtain ⟨old, names, ho, -, rfl, rfl⟩ := updateHost_eq_ok.1 hs
    exact ⟨h.segments, h.hosts.change ho rfl rfl, h.notifications, hnamed⟩
  | updateNotification uuid now progress =>
    obtain ⟨⟨row, s₁⟩, hs, hr⟩ := bind_eq_ok.1 hx
    cases hr
    obtain ⟨old, ho, rfl, rfl⟩ := updateNotification_eq_ok.1 hs
    exact ⟨h.segments, h.hosts, h.notifications.change ho rfl rfl, hnamed⟩
  | destroySegment uuid =>
    obtain ⟨s₁, hs, hr⟩ := bind_eq_ok.1 hx
    cases hr
    obtain ⟨row, -, rfl⟩ := destroySegment_eq_ok.1 hs
    exact ⟨h.segments.filter _, h.hosts.filter _, h.notifications, hnamed⟩
  | destroyHost uuid =>
    obtain ⟨s₁, hs, hr⟩ := bind_eq_ok.1 hx
    cases hr
    obtain ⟨row, -, rfl⟩ := destroyHost_eq_ok.1 hs
    exact ⟨h.segments, h.hosts.filter _, h.notifications, hnamed⟩
  | destroyNotification uuid =>
    obtain ⟨s₁, hs, hr⟩ := bind_eq_ok.1 hx
    cases hr
    obtain ⟨row, -, rfl⟩ := destroyNotification_eq_ok.1 hs
    exact ⟨h.segments, h.hosts, h.notifications.filter _, hnamed⟩
  | reset =>
    cases hx
    exact ⟨Filed.nil, Filed.nil, Filed.nil, hnamed⟩

theorem History.step_store (h : History) (op : Op) :
    (h.step op).store = h.store ∨ ∃ id s', h.store.exec op = .ok (id, s') ∧ (h.step op).store = s' := by
  rw [History.step_eq]
  cases hx : h.store.exec op with
  | error e => exact .inl rfl
  | ok r => exact .inr ⟨r.1, r.2, rfl, rfl⟩

/-! ## Runs -/

/-- A store that operations lead to, of which none brings an empty identifier. -/
def Reachable (s : Store) : Prop := ∃ ops : List Op, (∀ op ∈ ops, op.generated? ≠ some "") ∧ (run ops).store = s

theorem reachable_empty : empty.Reachable := ⟨[], by simp, rfl⟩

theorem Reachable.exec {s s' : Store} {op : Op} {id : Option (Table × Nat)} (h : s.Reachable)
    (hop : op.generated? ≠ some "") (hx : s.exec op = .ok (id, s')) : s'.Reachable := by
  obtain ⟨ops, hops, rfl⟩ := h
  refine ⟨ops ++ [op], fun op' hop' => ?_, ?_⟩
  · rcases List.mem_append.1 hop' with hop' | hop'
    · exact hops op' hop'
    · exact List.mem_singleton.1 hop' ▸ hop
  · unfold run at hx ⊢
    rw [List.foldl_append, List.foldl_cons, List.foldl_nil, History.step_eq, hx]

/-- What holds of the empty store, and is kept by every operation that succeeds, holds after the operations of a run. -/
theorem run_invariant {P : Store → Prop} (ops : List Op) (hempty : P empty)
    (hexec : ∀ op ∈ ops, ∀ {s s' : Store} {id : Option (Table × Nat)}, P s → s.exec op = .ok (id, s') → P s') :
    P (run ops).store := by
  suffices hrun : ∀ h : History, P h.store → P (ops.foldl History.step h).store from hrun {} hempty
  induction ops with
  | nil => exact fun h hP => hP
  | cons op ops ih =>
    intro h hP
    refine ih (fun op' hop' => hexec op' (List.mem_cons_of_mem _ hop')) _ ?_
    rcases h.step_store op with hs | ⟨id, s', hx, hs⟩
    · rw [hs]
      exact hP
    · rw [hs]
      exact hexec op List.mem_cons_self hP hx

/-- In every reachable store the tables are in order. -/
theorem Reachable.tabled {s : Store} (h : s.Reachable) : s.Tabled := by
  obtain ⟨ops, hops, rfl⟩ := h
  exact run_invariant ops tabled_empty fun op hop _ _ _ ht hx => ht.exec (hops op hop) hx

end Store

end Standby
