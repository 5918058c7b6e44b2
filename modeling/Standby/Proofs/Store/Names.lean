import Standby.Proofs.Basic
import Standby.Store.Basic
/-!
# Identifiers, ids and names of a table

`Filed` says that every row stands under its own identifier and that no id is given twice or is above the last
one given out. `Finds` says that an index leads from the name of every row to the row, and `Indexed` that it does
nothing else, so that it is exactly the inverse of a table. All three are kept when a row is added, changed or taken
out, so long as the index goes with it; an index keeps finding the rows even if one takes the place of another.
-/

namespace Standby.Store

variable {α : Type} {uuid name : α → String} {id : α → Nat} {rows : List (String × α)}
  {names : List (String × String)} {last : Nat}

/-- The rows of a table stand under their own identifiers and have ids of their own, none above `last`. -/
structure Filed (uuid : α → String) (id : α → Nat) (rows : List (String × α)) (last : Nat) : Prop where
  keys : (rows.map (·.1)).Nodup
  own : ∀ p ∈ rows, uuid p.2 = p.1
  ids : (rows.map (id ·.2)).Nodup
  bounded : ∀ p ∈ rows, id p.2 ≤ last

/-- An index finds the identifier of every row under the row's name. -/
def Finds (name : α → String) (rows : List (String × α)) (names : List (String × String)) : Prop :=
  ∀ u row, lookup? u rows = some row → lookup? (name row) names = some u

/-- An index finds the identifier of a row under the row's name, and nothing else. -/
def Indexed (name : α → String) (rows : List (String × α)) (names : List (String × String)) : Prop :=
  ∀ n u, lookup? n names = some u ↔ ∃ row, lookup? u rows = some row ∧ name row = n

/-! ## Rows under their identifiers -/

theorem Filed.nil : Filed uuid id [] last := by
  constructor <;> simp

theorem nodup_ids_insertKey {u : String} {row : α} (hids : (rows.map (id ·.2)).Nodup)
    (hbounded : ∀ p ∈ rows, id p.2 ≤ last) (hid : id row = last + 1) :
    ((insertKey u row rows).map (id ·.2)).Nodup := by
  induction rows with
  | nil => exact List.nodup_singleton _
  | cons p rows ih =>
    obtain ⟨k, v⟩ := p
    obtain ⟨hv, hrest⟩ := List.nodup_cons.1 hids
    have hle : ∀ q ∈ rows, id q.2 ≤ last := fun q hq => hbounded q (List.mem_cons_of_mem _ hq)
    by_cases hk : k = u
    · rw [insertKey, if_pos hk, List.map_cons, List.nodup_cons]
      refine ⟨fun h => ?_, hrest⟩
      obtain ⟨q, hq, hqid⟩ := List.mem_map.1 h
      have hqid : id q.2 = id row := hqid
      have := hle q hq
      omega
    · rw [insertKey, if_neg hk, List.map_cons, List.nodup_cons]
      refine ⟨fun h => ?_, ih hrest hle⟩
      obtain ⟨q, hq, hqid⟩ := List.mem_map.1 h
      rcases mem_insertKey hq with rfl | hq
      · have hrow : id row = id v := hqid
        have hle : id v ≤ last := hbounded (k, v) List.mem_cons_self
        omega
      · exact hv (List.mem_map.2 ⟨q, hq, hqid⟩)

/-- A new row takes the next id, also if it comes in the place of another one. -/
theorem Filed.put {u : String} {row : α} (h : Filed uuid id rows last) (huuid : uuid row = u)
    (hid : id row = last + 1) : Filed uuid id (insertKey u row rows) (last + 1) := by
  refine ⟨nodup_keys_insertKey h.keys u row, fun p hp => ?_, nodup_ids_insertKey h.ids h.bounded hid, fun p hp => ?_⟩
  · rcases mem_insertKey hp with rfl | hp
    · exact huuid
    · exact h.own p hp
  · rcases mem_insertKey hp with rfl | hp
    · exact Nat.le_of_eq hid
    · exact Nat.le_succ_of_le (h.bounded p hp)

/-- A row that keeps its identifier and its id can change otherwise. -/
theorem Filed.change {u : String} {old row : α} (h : Filed uuid id rows last) (hu : lookup? u rows = some old)
    (huuid : uuid row = uuid old) (hid : id row = id old) : Filed uuid id (insertKey u row rows) last := by
  have hold := mem_of_lookup?_eq_some hu
  refine ⟨?_, ?_, ?_, ?_⟩
  · rw [map_insertKey row (·.1) hu rfl]
    exact h.keys
  · intro p hp
    rcases mem_insertKey hp with rfl | hp
    · exact huuid.trans (h.own _ hold)
    · exact h.own p hp
  · rw [map_insertKey row (id ·.2) hu hid]
    exact h.ids
  · intro p hp
    rcases mem_insertKey hp with rfl | hp
    · exact hid ▸ h.bounded _ hold
    · exact h.bounded p hp

/-- Rows can be taken out. -/
theorem Filed.filter (h : Filed uuid id rows last) (keep : String × α → Bool) :
    Filed uuid id (rows.filter keep) last where
  keys := (List.Sublist.map _ List.filter_sublist).nodup h.keys
  own p hp := h.own p (List.mem_filter.1 hp).1
  ids := (List.Sublist.map _ List.filter_sublist).nodup h.ids
  bounded p hp := h.bounded p (List.mem_filter.1 hp).1

/-! ## Rows that are found by their names -/

theorem Finds.nil : Finds name [] names := by
  intro u row hu
  cases hu

/-- Two rows of one name are the same row. -/
theorem Finds.unique {u v : String} {row other : α} (h : Finds name rows names) (hu : lookup? u rows = some row)
    (hv : lookup? v rows = some other) (hn : name row = name other) : u = v := by
  have hrow := h u row hu
  rw [hn, h v other hv] at hrow
  exact (Option.some.inj hrow).symm

/-- A row comes in under a name that is free, also in the place of another row. -/
theorem Finds.put {u : String} (h : Finds name rows names) (row : α) (hn : lookup? (name row) names = none) :
    Finds name (insertKey u row rows) (insertKey (name row) u names) := by
  intro v other hv
  rw [lookup?_insertKey] at hv ⊢
  by_cases huv : u = v
  · rw [if_pos huv, Option.some.injEq] at hv
    rw [if_pos (by rw [hv]), huv]
  · rw [if_neg huv] at hv
    have hother := h v other hv
    have hne : name row ≠ name other := by
      intro he
      rw [he, hother] at hn
      cases hn
    rw [if_neg hne, hother]

/-- A row that keeps its name can change otherwise. -/
theorem Finds.change {u : String} {old : α} (h : Finds name rows names) (row : α) (hu : lookup? u rows = some old)
    (hn : name row = name old) : Finds name (insertKey u row rows) names := by
  intro v other hv
  rw [lookup?_insertKey] at hv
  by_cases huv : u = v
  · rw [if_pos huv, Option.some.injEq] at hv
    rw [← hv, hn, ← huv]
    exact h u old hu
  · rw [if_neg huv] at hv
    exact h v other hv

/-- A row takes a free name in place of its old one. -/
theorem Finds.move {u : String} {old : α} (h : Finds name rows names) (row : α) (hu : lookup? u rows = some old)
    (hn : lookup? (name row) names = none) :
    Finds name (insertKey u row rows) (eraseKey (name old) (insertKey (name row) u names)) := by
  have hold := h u old hu
  intro v other hv
  rw [lookup?_eraseKey]
  have hnew := h.put row hn v other hv
  rw [if_neg, hnew]
  -- The old name is that of a row of its own, unless the row has changed.
  intro he
  rw [lookup?_insertKey] at hv
  by_cases huv : u = v
  · rw [if_pos huv, Option.some.injEq] at hv
    rw [hv, ← he, hold] at hn
    cases hn
  · rw [if_neg huv] at hv
    exact huv (h.unique hu hv he)

/-- A row that is taken out leaves the index with its name. -/
theorem Finds.erase {u : String} {row : α} (h : Finds name rows names) (hu : lookup? u rows = some row) :
    Finds name (eraseKey u rows) (eraseKey (name row) names) := by
  intro v other hv
  rw [lookup?_eraseKey] at hv ⊢
  by_cases huv : u = v
  · simp [huv] at hv
  · rw [if_neg huv] at hv
    have hne : name row ≠ name other := fun he => huv (h.unique hu hv he)
    rw [if_neg hne]
    exact h v other hv

/-! ## Rows under their names -/

theorem Indexed.finds (h : Indexed name rows names) : Finds name rows names :=
  fun u row hu => (h (name row) u).2 ⟨row, hu, rfl⟩

theorem Indexed.nil : Indexed name [] [] := by
  intro n u
  simp [lookup?]

/-- Two rows of one name are the same row. -/
theorem Indexed.unique {u v : String} {row other : α} (h : Indexed name rows names)
    (hu : lookup? u rows = some row) (hv : lookup? v rows = some other) (hn : name row = name other) : u = v :=
  h.finds.unique hu hv hn

theorem Indexed.nodup_names (h : Indexed name rows names) (hk : (rows.map (·.1)).Nodup) :
    (rows.map (name ·.2)).Nodup := by
  refine List.Nodup.map_on ?_ (List.Nodup.of_map _ hk)
  rintro ⟨u, row⟩ hu ⟨v, other⟩ hv hn
  obtain rfl := h.unique ((lookup?_eq_some_iff hk).2 hu) ((lookup?_eq_some_iff hk).2 hv) hn
  exact List.inj_on_of_nodup_map hk hu hv rfl

/-- A name is in the index exactly if some row has it. -/
theorem Indexed.isSome_iff (h : Indexed name rows names) (n : String) :
    (lookup? n names).isSome = true ↔ ∃ u row, lookup? u rows = some row ∧ name row = n := by
  rw [Option.isSome_iff_exists]
  exact exists_congr fun u => h n u

/-- A new row goes into the index under a name that is free. -/
theorem Indexed.add {u : String} (h : Indexed name rows names) (row : α) (hu : lookup? u rows = none)
    (hn : lookup? (name row) names = none) :
    Indexed name (insertKey u row rows) (insertKey (name row) u names) := by
  intro n v
  constructor
  · intro hv
    rw [lookup?_insertKey] at hv
    by_cases hnn : name row = n
    · rw [if_pos hnn, Option.some.injEq] at hv
      exact ⟨row, by rw [lookup?_insertKey, if_pos hv], hnn⟩
    · rw [if_neg hnn] at hv
      obtain ⟨other, ho, hno⟩ := (h n v).1 hv
      have hne : u ≠ v := by
        rintro rfl
        rw [hu] at ho
        cases ho
      exact ⟨other, by rw [lookup?_insertKey, if_neg hne, ho], hno⟩
  · rintro ⟨other, ho, rfl⟩
    exact h.finds.put row hn v other ho

/-- A row that keeps its name can change otherwise. -/
theorem Indexed.change {u : String} {old : α} (h : Indexed name rows names) (row : α)
    (hu : lookup? u rows = some old) (hn : name row = name old) : Indexed name (insertKey u row rows) names := by
  intro n v
  rw [h n v]
  by_cases huv : u = v
  · subst huv
    simp [lookup?_insertKey, hu, hn]
  · simp [lookup?_insertKey, huv]

/-- A row that is taken out leaves the index with its name. -/
theorem Indexed.erase {u : String} {row : α} (h : Indexed name rows names) (hu : lookup? u rows = some row) :
    Indexed name (eraseKey u rows) (eraseKey (name row) names) := by
  intro n v
  constructor
  · intro hv
    rw [lookup?_eraseKey] at hv
    by_cases hn : name row = n
    · simp [hn] at hv
    · rw [if_neg hn] at hv
      obtain ⟨other, ho, hno⟩ := (h n v).1 hv
      have hne : u ≠ v := by
        rintro rfl
        rw [hu, Option.some.injEq] at ho
        exact hn (ho ▸ hno)
      exact ⟨other, by rw [lookup?_eraseKey, if_neg hne, ho], hno⟩
  · rintro ⟨other, ho, rfl⟩
    exact h.finds.erase hu v other ho

/-- A row moves in the index when its name changes to a free one. -/
theorem Indexed.move {u : String} {old : α} (h : Indexed name rows names) (row : α)
    (hu : lookup? u rows = some old) (hn : lookup? (name row) names = none) :
    Indexed name (insertKey u row rows) (eraseKey (name old) (insertKey (name row) u names)) := by
  intro n v
  constructor
  · intro hv
    rw [lookup?_eraseKey, lookup?_insertKey] at hv
    by_cases ho : name old = n
    · simp [ho] at hv
    rw [if_neg ho] at hv
    by_cases hr : name row = n
    · rw [if_pos hr, Option.some.injEq] at hv
      exact ⟨row, by rw [lookup?_insertKey, if_pos hv], hr⟩
    · rw [if_neg hr] at hv
      obtain ⟨other, hother, hno⟩ := (h n v).1 hv
      have huv : u ≠ v := by
        rintro rfl
        rw [hu, Option.some.injEq] at hother
        exact ho (hother ▸ hno)
      exact ⟨other, by rw [lookup?_insertKey, if_neg huv, hother], hno⟩
  · rintro ⟨other, hother, rfl⟩
    exact h.finds.move row hu hn v other hother

/-! ## Several rows at once -/

theorem lookup?_foldl_eraseKey (gone : List (String × α)) (n : String) :
    lookup? n (gone.foldl (fun names p => eraseKey (name p.2) names) names)
      = if ∃ p ∈ gone, name p.2 = n then none else lookup? n names := by
  induction gone generalizing names with
  | nil => simp
  | cons p gone ih =>
    rw [List.foldl_cons, ih, lookup?_eraseKey]
    by_cases h : ∃ q ∈ gone, name q.2 = n
    · have h' : ∃ q ∈ p :: gone, name q.2 = n := by
        obtain ⟨q, hq, hn⟩ := h
        exact ⟨q, List.mem_cons_of_mem _ hq, hn⟩
      rw [if_pos h, if_pos h']
    · by_cases hp : name p.2 = n
      · rw [if_neg h, if_pos hp, if_pos ⟨p, List.mem_cons_self, hp⟩]
      · rw [if_neg h, if_neg hp, if_neg]
        rintro ⟨q, hq, hn⟩
        rcases List.mem_cons.1 hq with rfl | hq
        · exact hp hn
        · exact h ⟨q, hq, hn⟩

/-- The rows that stay are found although the names of those that are taken out have left the index. -/
theorem Finds.filter (h : Finds name rows names) (hk : (rows.map (·.1)).Nodup) (keep : String × α → Bool) :
    Finds name (rows.filter keep)
      ((rows.filter fun p => !keep p).foldl (fun names p => eraseKey (name p.2) names) names) := by
  intro u row hrow
  obtain ⟨hrow, hkeep⟩ := (lookup?_filter hk keep).1 hrow
  rw [lookup?_foldl_eraseKey, if_neg]
  · exact h u row hrow
  · -- A row that goes and has the same name would be the row that stays.
    rintro ⟨⟨v, other⟩, hother, hn⟩
    obtain ⟨hmem, hgone⟩ := List.mem_filter.1 hother
    have hv := (lookup?_eq_some_iff hk).2 hmem
    obtain rfl := h.unique hv hrow hn
    rw [hv, Option.some.injEq] at hrow
    subst hrow
    simp [hkeep] at hgone

/-- Rows that are taken out together leave the index with all their names. -/
theorem Indexed.filter (h : Indexed name rows names) (hk : (rows.map (·.1)).Nodup) (keep : String × α → Bool) :
    Indexed name (rows.filter keep)
      ((rows.filter fun p => !keep p).foldl (fun names p => eraseKey (name p.2) names) names) := by
  intro n u
  constructor
  · intro hu
    rw [lookup?_foldl_eraseKey] at hu
    by_cases hg : ∃ p ∈ rows.filter fun p => !keep p, name p.2 = n
    · rw [if_pos hg] at hu
      cases hu
    · rw [if_neg hg] at hu
      obtain ⟨row, hrow, hn⟩ := (h n u).1 hu
      refine ⟨row, (lookup?_filter hk keep).2 ⟨hrow, ?_⟩, hn⟩
      by_contra hkeep
      refine hg ⟨(u, row), List.mem_filter.2 ⟨mem_of_lookup?_eq_some hrow, ?_⟩, hn⟩
      simpa using hkeep
  · rintro ⟨row, hrow, rfl⟩
    exact h.finds.filter hk keep u row hrow

end Standby.Store
