import Standby.Proofs.Store.Reachable
/-!
# Segments that go with their hosts

In every store that operations lead to, the rows are found by their names (`run_findsRows`). So a segment that is taken
out takes the names of its hosts and its own with it, and no name that another row has (`run_destroySegment`): what has
gone can be made anew under its name, and what has stayed keeps others from taking its name. None of this asks for
identifiers that are different: a row that comes in the place of another one only leaves a name behind that leads to it.
-/

namespace Standby.Store

open StoreStep (attempt_of_run)

variable {s s' : Store} {uuid : String} {now : Time.Instant}

/-! ## Rows that are found by their names -/

/-- The rows of a store stand under unique identifiers and are found by their names. -/
structure FindsRows (s : Store) : Prop where
  segmentKeys : (s.segments.map (·.1)).Nodup
  hostKeys : (s.hosts.map (·.1)).Nodup
  segments : Finds Segment.name s.segments s.segmentNames
  hosts : Finds Host.name s.hosts s.hostNames

theorem findsRows_empty : empty.FindsRows where
  segmentKeys := List.nodup_nil
  hostKeys := List.nodup_nil
  segments := Finds.nil
  hosts := Finds.nil

theorem Finds.rename {α : Type} {name : α → String} {rows : List (String × α)} {names names' : List (String × String)}
    {table : Table} {old : α} (h : Finds name rows names) (row : α) (hu : lookup? uuid rows = some old)
    (hr : Store.rename table uuid (name old) (name row) names = .ok names') :
    Finds name (insertKey uuid row rows) names' := by
  rcases rename_eq_ok.1 hr with ⟨hn, rfl⟩ | ⟨-, hn, rfl⟩
  · exact h.change row hu hn.symm
  · exact h.move row hu hn

theorem FindsRows.destroySegment (h : s.FindsRows) (hs : s.destroySegment uuid = .ok s') : s'.FindsRows := by
  obtain ⟨row, ho, rfl⟩ := destroySegment_eq_ok.1 hs
  refine ⟨h.segmentKeys.sublist (List.filter_sublist.map _), h.hostKeys.sublist (List.filter_sublist.map _),
    h.segments.erase ho, ?_⟩
  simp only [filter_gone]
  exact h.hosts.filter h.hostKeys fun p => p.2.segment != uuid

/-- Every operation that succeeds leaves the rows where they are found by their names. -/
theorem FindsRows.exec {op : Op} {id : Option (Table × Nat)} (h : s.FindsRows) (hx : s.exec op = .ok (id, s')) :
    s'.FindsRows := by
  cases op with
  | createSegment uuid now d =>
    obtain ⟨⟨row, s₁⟩, hs, hr⟩ := bind_eq_ok.1 hx
    cases hr
    obtain ⟨hn, rfl, rfl⟩ := createSegment_eq_ok.1 hs
    exact
      { h with
        segmentKeys := nodup_keys_insertKey h.segmentKeys _ _
        segments := h.segments.put (s.newSegment uuid now d) hn }
  | createHost uuid now segment d =>
    obtain ⟨⟨row, s₁⟩, hs, hr⟩ := bind_eq_ok.1 hx
    cases hr
    obtain ⟨-, hn, rfl, rfl⟩ := createHost_eq_ok.1 hs
    exact
      { h with
        hostKeys := nodup_keys_insertKey h.hostKeys _ _
        hosts := h.hosts.put (s.newHost uuid now segment d) hn }
  | updateSegment uuid now p =>
    obtain ⟨⟨row, s₁⟩, hs, hr⟩ := bind_eq_ok.1 hx
    cases hr
    obtain ⟨old, names, ho, hn, rfl, rfl⟩ := updateSegment_eq_ok.1 hs
    exact
      { h with
        segmentKeys := nodup_keys_insertKey h.segmentKeys _ _
        segments := h.segments.rename (p.apply old now) ho hn }
  | updateHost uuid now p =>
    obtain ⟨⟨row, s₁⟩, hs, hr⟩ := bind_eq_ok.1 hx
    cases hr
    obtain ⟨old, names, ho, hn, rfl, rfl⟩ := updateHost_eq_ok.1 hs
    exact
      { h with
        hostKeys := nodup_keys_insertKey h.hostKeys _ _
        hosts := h.hosts.rename (p.apply old now) ho hn }
  | destroySegment uuid =>
    obtain ⟨s₁, hs, hr⟩ := bind_eq_ok.1 hx
    cases hr
    exact h.destroySegment hs
  | destroyHost uuid =>
    obtain ⟨s₁, hs, hr⟩ := bind_eq_ok.1 hx
    cases hr
    obtain ⟨row, ho, rfl⟩ := destroyHost_eq_ok.1 hs
    exact
      { h with
        hostKeys := h.hostKeys.sublist (List.filter_sublist.map _)
        hosts := h.hosts.erase ho }
  | createNotification uuid now d =>
    cases hx
    exact { h with }
  | updateNotification uuid now progress =>
    obtain ⟨⟨row, s₁⟩, hs, hr⟩ := bind_eq_ok.1 hx
    cases hr
    obtain ⟨old, ho, rfl, rfl⟩ := updateNotification_eq_ok.1 hs
    exact { h with }
  | destroyNotification uuid =>
    obtain ⟨s₁, hs, hr⟩ := bind_eq_ok.1 hx
    cases hr
    obtain ⟨row, ho, rfl⟩ := destroyNotification_eq_ok.1 hs
    exact { h with }
  | reset =>
    cases hx
    exact ⟨List.nodup_nil, List.nodup_nil, Finds.nil, Finds.nil⟩

theorem run_findsRows (ops : List Op) : (run ops).store.FindsRows :=
  run_invariant ops findsRows_empty fun _ _ _ _ _ h hx => h.exec hx

/-! ## Names that are in use -/

/-- A name that a row has is refused to all others. -/
structure GuardsNames (s : Store) : Prop where
  createSegment : ∀ u row, lookup? u s.segments = some row → ∀ uuid now (d : SegmentDraft), d.name = row.name →
    s.createSegment uuid now d = .error (.alreadyExists .segments row.name)
  createHost : ∀ u row, lookup? u s.hosts = some row → ∀ uuid now segment (d : HostDraft), d.name = row.name →
    (∃ g, lookup? segment s.segments = some g) →
    s.createHost uuid now segment d = .error (.alreadyExists .hosts row.name)
  updateSegment : ∀ u row, lookup? u s.segments = some row → ∀ v other, lookup? v s.segments = some other → v ≠ u →
    ∀ now (p : SegmentPatch), p.name = some row.name →
    s.updateSegment v now p = .error (.alreadyExists .segments row.name)
  updateHost : ∀ u row, lookup? u s.hosts = some row → ∀ v other, lookup? v s.hosts = some other → v ≠ u →
    ∀ now (p : HostPatch), p.name = some row.name → s.updateHost v now p = .error (.alreadyExists .hosts row.name)

theorem Finds.rename_eq_error {α : Type} {name : α → String} {rows : List (String × α)}
    {names : List (String × String)} {u v : String} {row other : α} (h : Finds name rows names) (table : Table)
    (hu : lookup? u rows = some row) (hv : lookup? v rows = some other) (hne : v ≠ u) :
    Store.rename table v (name other) (name row) names = .error (.alreadyExists table (name row)) := by
  have hnames : name other ≠ name row := fun hn => hne (h.unique hv hu hn)
  simp [Store.rename, hnames, h u row hu]

theorem FindsRows.guardsNames (h : s.FindsRows) : s.GuardsNames where
  createSegment u row hu uuid now d hd := by
    rw [Store.createSegment, attempt_of_run (createSegment_settles d), hd, h.segments u row hu]
    rfl
  createHost u row hu uuid now segment d hd hg := by
    obtain ⟨g, hg⟩ := hg
    rw [Store.createHost, attempt_of_run (createHost_settles segment d), hg, hd, h.hosts u row hu]
    rfl
  updateSegment u row hu v other hv hne now p hp := by
    rw [Store.updateSegment, attempt_of_run (updateSegment_settles p), segment, find_eq_ok.2 hv, bind_ok, hp,
      Option.getD_some,
      h.segments.rename_eq_error .segments hu hv hne]
    rfl
  updateHost u row hu v other hv hne now p hp := by
    rw [Store.updateHost, attempt_of_run (updateHost_settles p), host, find_eq_ok.2 hv, bind_ok, hp, Option.getD_some,
      h.hosts.rename_eq_error .hosts hu hv hne]
    rfl

/-! ## Segments that are taken out -/

/-- Some host of a segment has a name. -/
def Houses (s : Store) (segment name : String) : Prop :=
  ∃ u h, lookup? u s.hosts = some h ∧ h.segment = segment ∧ h.name = name

/-- A store after the segment `gone` has been taken out. The segment and its hosts are gone, and their names are; all
other rows and names and all ids are as they were. -/
structure Loses (s s' : Store) (uuid : String) (gone : Segment) : Prop where
  segments : ∀ u, lookup? u s'.segments = if u = uuid then none else lookup? u s.segments
  hosts : ∀ u h, lookup? u s'.hosts = some h ↔ lookup? u s.hosts = some h ∧ h.segment ≠ uuid
  segmentNames : ∀ n, lookup? n s'.segmentNames = if n = gone.name then none else lookup? n s.segmentNames
  released : ∀ n, s.Houses uuid n → lookup? n s'.hostNames = none
  kept : ∀ n, ¬s.Houses uuid n → lookup? n s'.hostNames = lookup? n s.hostNames
  notifications : s'.notifications = s.notifications
  lastId : ∀ t, s'.lastId t = s.lastId t

/-- The hosts that go with a segment are those that belong to it, under whatever identifiers they stand. -/
theorem FindsRows.houses_iff (h : s.FindsRows) (n : String) :
    s.Houses uuid n ↔ ∃ p ∈ s.hosts.filter fun p => p.2.segment == uuid, p.2.name = n := by
  constructor
  · rintro ⟨u, host, hu, hsegment, hn⟩
    exact ⟨(u, host), List.mem_filter.2 ⟨mem_of_lookup?_eq_some hu, beq_iff_eq.2 hsegment⟩, hn⟩
  · rintro ⟨⟨u, host⟩, hp, hn⟩
    obtain ⟨hmem, hsegment⟩ := List.mem_filter.1 hp
    exact ⟨u, host, (lookup?_eq_some_iff h.hostKeys).2 hmem, beq_iff_eq.1 hsegment, hn⟩

theorem FindsRows.loses (h : s.FindsRows) {gone : Segment} (hgone : lookup? uuid s.segments = some gone) :
    ∃ s', s.destroySegment uuid = .ok s' ∧ Loses s s' uuid gone := by
  refine ⟨_, destroySegment_eq_ok.2 ⟨gone, hgone, rfl⟩, ?_⟩
  constructor
  · intro u
    rw [lookup?_eraseKey]
    exact if_congr eq_comm rfl rfl
  · intro u host
    simp [lookup?_filter h.hostKeys]
  · intro n
    rw [lookup?_eraseKey]
    exact if_congr eq_comm rfl rfl
  · intro n hn
    rw [lookup?_foldl_eraseKey, if_pos ((h.houses_iff n).1 hn)]
  · intro n hn
    rw [lookup?_foldl_eraseKey, if_neg (mt (h.houses_iff n).2 hn)]
  · rfl
  · intro t
    cases t <;> rfl

/-- A segment can be created under a name. -/
def AcceptsSegment (s : Store) (name : String) : Prop :=
  ∀ uuid now (d : SegmentDraft), d.name = name → ∃ r, s.createSegment uuid now d = .ok r

/-- In every segment that is there, a host can be created under a name. -/
def AcceptsHost (s : Store) (name : String) : Prop :=
  ∀ uuid now segment (d : HostDraft), (∃ g, lookup? segment s.segments = some g) → d.name = name →
    ∃ r, s.createHost uuid now segment d = .ok r

theorem Loses.acceptsSegment {gone : Segment} (h : Loses s s' uuid gone) : s'.AcceptsSegment gone.name := by
  intro fresh now d hd
  have hfree : lookup? d.name s'.segmentNames = none := by rw [h.segmentNames, if_pos hd]
  exact ⟨_, createSegment_eq_ok.2 ⟨hfree, rfl, rfl⟩⟩

theorem Loses.acceptsHost {gone : Segment} {n : String} (h : Loses s s' uuid gone) (hn : s.Houses uuid n) :
    s'.AcceptsHost n := by
  intro fresh now segment d hg hd
  exact ⟨_, createHost_eq_ok.2 ⟨hg, by rw [hd, h.released n hn], rfl, rfl⟩⟩

/-- **What goes with a segment.** In a store that any operations have led to, taking out a segment that is not there fails
and changes nothing. Taking out one that is there succeeds; it and its hosts are gone, with their names and nothing else.
Afterwards their names are free again, and the names of all rows that are there are refused to others. -/
theorem run_destroySegment (ops : List Op) (uuid : String) :
    match lookup? uuid (run ops).store.segments with
    | none =>
      (run ops).store.destroySegment uuid = .error (.notFound .segments uuid) ∧
        (run ops).step (.destroySegment uuid) = run ops
    | some gone =>
      ∃ s', (run ops).store.destroySegment uuid = .ok s' ∧
        (run ops).step (.destroySegment uuid) = { run ops with store := s' } ∧ Loses (run ops).store s' uuid gone ∧
        s'.AcceptsSegment gone.name ∧ (∀ n, (run ops).store.Houses uuid n → s'.AcceptsHost n) ∧ s'.GuardsNames := by
  have hfinds := run_findsRows ops
  split
  · next hnone =>
    have hfails : (run ops).store.destroySegment uuid = .error (.notFound .segments uuid) := by
      rw [destroySegment, attempt_of_run destroySegment_settles]
      simp only [segment, find, hnone]
      rfl
    refine ⟨hfails, ?_⟩
    simp only [History.step_eq, exec, hfails]
    rfl
  · next gone hgone =>
    obtain ⟨s', hs, hloses⟩ := hfinds.loses hgone
    refine ⟨s', hs, ?_, hloses, hloses.acceptsSegment, fun n hn => hloses.acceptsHost hn, ?_⟩
    · simp only [History.step_eq, exec, hs, bind_ok, Option.toList_none, List.append_nil]
    · exact (hfinds.destroySegment hs).guardsNames

/-- The names of two hosts are free again after their segment has been taken out, and that of a third one is not. -/
example :
    let host (name : String) : HostDraft := ⟨name, "COMPUTE", "ssh", none, none⟩
    let now : Time.Instant := ⟨0, 0⟩
    (run
      [.createSegment "1" now ⟨"east", none, .auto, "COMPUTE", none⟩,
        .createSegment "2" now ⟨"west", none, .auto, "COMPUTE", none⟩, .createHost "3" now "1" (host "a"),
        .createHost "4" now "2" (host "b"), .createHost "5" now "1" (host "c"), .destroySegment "1"]).store.hostNames
      = [("b", "4")] := by
  decide

end Standby.Store
