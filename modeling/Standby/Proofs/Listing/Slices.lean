import Mathlib.Data.List.Sort
import Standby.Proofs.Listing.Paging
import Standby.Proofs.Time.Order
import Standby.Store.Segments
/-!
# Slices of a listing

`Listing.Ahead` says when one row comes before another in a listing: the first key on which they differ decides, in its
direction, and the ids do if there is none. Rows with ids of their own are in one order by this, whatever order they are
found in (`eq_sorted`). A listing is refused exactly if its marker is no row's identifier, and else it is the rows right
behind its marker in this order (`Store.list_slices`); going on behind the last row of each full page leads through all
of them.
-/

namespace Standby

open Std

/-! ## Values -/

namespace SortValue

/-- One value comes before another if its kind does, or if both are of one kind and it is the lesser of them. -/
inductive Less : SortValue → SortValue → Prop
  | kind {a b} (h : a.rank < b.rank) : Less a b
  | bool : Less (bool false) (bool true)
  | int {m n} (h : m < n) : Less (int m) (int n)
  | text {s t} (h : s < t) : Less (text s) (text t)
  | time {t u} (h : t.Before u) : Less (time t) (time u)

theorem compareInstants_eq_lt_iff {t u : Time.Instant} : compareInstants t u = .lt ↔ t.Before u := by
  rw [compareInstants, Ordering.then_eq_lt, compare_lt_iff_lt, compare_lt_iff_lt, Std.compare_eq_iff_eq]
  rfl

theorem compareInstants_eq_eq_iff {t u : Time.Instant} : compareInstants t u = .eq ↔ t = u := by
  rw [compareInstants, Ordering.then_eq_eq, Std.compare_eq_iff_eq, Std.compare_eq_iff_eq]
  constructor
  · rintro ⟨hseconds, hnanos⟩
    cases t
    cases u
    simp_all
  · rintro rfl
    exact ⟨rfl, rfl⟩

theorem cmp_eq_lt_iff {a b : SortValue} : cmp a b = .lt ↔ Less a b := by
  constructor
  · intro h
    by_cases hrank : a.rank = b.rank
    · cases a <;> cases b <;> simp [rank] at hrank
      case null.null => cases h
      case bool.bool x y => cases x <;> cases y <;> first | exact .bool | cases h
      case int.int => exact .int (compare_lt_iff_lt.1 h)
      case text.text => exact .text (compareOfLessAndEq_eq_lt.1 h)
      case time.time => exact .time (compareInstants_eq_lt_iff.1 h)
    · rw [cmp_of_rank_ne hrank] at h
      exact .kind (Nat.compare_eq_lt.1 h)
  · intro h
    cases h with
    | kind h => rw [cmp_of_rank_ne (Nat.ne_of_lt h), Nat.compare_eq_lt.2 h]
    | bool => rfl
    | int h => exact compare_lt_iff_lt.2 h
    | text h => exact compareOfLessAndEq_eq_lt.2 h
    | time h => exact compareInstants_eq_lt_iff.2 h

theorem cmp_eq_eq_iff {a b : SortValue} : cmp a b = .eq ↔ a = b := by
  by_cases hrank : a.rank = b.rank
  · cases a <;> cases b <;> simp [rank] at hrank
    case null.null => simp [cmp]
    case bool.bool x y => cases x <;> cases y <;> decide
    case int.int => simp [cmp]
    case text.text => simp [cmp]
    case time.time => rw [cmp, compareInstants_eq_eq_iff, time.injEq]
  · rw [cmp_of_rank_ne hrank, Nat.compare_eq_eq]
    exact iff_of_false hrank fun h => hrank (congrArg rank h)

end SortValue

/-- One value comes before another in a direction. -/
def SortDir.Before : SortDir → SortValue → SortValue → Prop
  | .asc, a, b => a.Less b
  | .desc, a, b => b.Less a

namespace Listing

variable {α : Type} [Listed α] {sort : List (String × SortDir)}

/-! ## Rows -/

/-- A row comes before another one in a listing: by the first key that they differ in, and by their ids if they differ in
none. -/
inductive Ahead : List (String × SortDir) → α → α → Prop
  | id {a b : α} (h : Listed.id a < Listed.id b) : Ahead [] a b
  | key {key dir sort} {a b : α} (h : dir.Before (Listed.sortValue a key) (Listed.sortValue b key)) :
      Ahead ((key, dir) :: sort) a b
  | rest {key dir sort} {a b : α} (hkey : Listed.sortValue a key = Listed.sortValue b key) (h : Ahead sort a b) :
      Ahead ((key, dir) :: sort) a b

theorem compareKey_eq_lt_iff {key : String} {dir : SortDir} {a b : α} :
    compareKey a b (key, dir) = .lt ↔ dir.Before (Listed.sortValue a key) (Listed.sortValue b key) := by
  cases dir with
  | asc => exact SortValue.cmp_eq_lt_iff
  | desc => rw [compareKey, ← SortValue.cmp_swap, SortValue.cmp_eq_lt_iff, SortDir.Before]

theorem compareKey_eq_eq_iff {key : String} {dir : SortDir} {a b : α} :
    compareKey a b (key, dir) = .eq ↔ Listed.sortValue a key = Listed.sortValue b key := by
  cases dir with
  | asc => exact SortValue.cmp_eq_eq_iff
  | desc => rw [compareKey, Ordering.swap_eq_eq, SortValue.cmp_eq_eq_iff]

theorem compareRows_eq_lt_iff {a b : α} : compareRows sort a b = .lt ↔ Ahead sort a b := by
  induction sort with
  | nil =>
    rw [compareRows, List.foldr_nil, Nat.compare_eq_lt]
    constructor
    · exact .id
    · rintro ⟨h⟩
      exact h
  | cons k sort ih =>
    obtain ⟨key, dir⟩ := k
    rw [show compareRows ((key, dir) :: sort) a b = (compareKey a b (key, dir)).then (compareRows sort a b) from rfl,
      Ordering.then_eq_lt, compareKey_eq_lt_iff, compareKey_eq_eq_iff, ih]
    constructor
    · rintro (h | ⟨hkey, h⟩)
      · exact .key h
      · exact .rest hkey h
    · rintro (_ | h | ⟨hkey, h⟩)
      · exact .inl h
      · exact .inr ⟨hkey, h⟩

theorem compareRows_eq_gt_iff {a b : α} : compareRows sort a b = .gt ↔ Ahead sort b a := by
  rw [← compareRows_eq_lt_iff]
  exact OrientedCmp.gt_iff_lt

/-- The order of a listing tells some rows apart: it is strict, and of any two of them one comes before the other. What
comparing two of them says is which one that is. -/
structure Orders (sort : List (String × SortDir)) (rows : List α) : Prop where
  irrefl : ∀ a : α, ¬Ahead sort a a
  trans : ∀ a b c : α, Ahead sort a b → Ahead sort b c → Ahead sort a c
  total : ∀ a ∈ rows, ∀ b ∈ rows, a ≠ b → Ahead sort a b ∨ Ahead sort b a
  lt : ∀ a b : α, compareRows sort a b = .lt ↔ Ahead sort a b
  gt : ∀ a b : α, compareRows sort a b = .gt ↔ Ahead sort b a
  eq : ∀ a ∈ rows, ∀ b ∈ rows, compareRows sort a b = .eq ↔ a = b

theorem orders_of_nodup_ids (sort : List (String × SortDir)) {rows : List α} (hids : (rows.map Listed.id).Nodup) :
    Orders sort rows := by
  have hrefl : ∀ a : α, compareRows sort a a = .eq := fun a => ReflCmp.compare_self
  have heq : ∀ a ∈ rows, ∀ b ∈ rows, compareRows sort a b = .eq ↔ a = b := by
    intro a ha b hb
    constructor
    · exact fun h => List.inj_on_of_nodup_map hids ha hb (id_eq_of_compareRows h)
    · rintro rfl
      exact hrefl a
  refine ⟨fun a h => ?_, fun a b c hab hbc => ?_, fun a ha b hb hne => ?_, fun _ _ => compareRows_eq_lt_iff,
    fun _ _ => compareRows_eq_gt_iff, heq⟩
  · rw [← compareRows_eq_lt_iff, hrefl a] at h
    cases h
  · rw [← compareRows_eq_lt_iff] at hab hbc ⊢
    exact TransCmp.lt_trans hab hbc
  · rw [← compareRows_eq_lt_iff, ← compareRows_eq_gt_iff]
    cases hab : compareRows sort a b with
    | lt => exact .inl rfl
    | eq => exact absurd ((heq a ha b hb).1 hab) hne
    | gt => exact .inr rfl

/-! ## Sorted rows -/

theorem perm_sorted (sort : List (String × SortDir)) (rows : List α) : (sorted sort rows).Perm rows :=
  List.mergeSort_perm _ _

theorem ahead_sorted (sort : List (String × SortDir)) {rows : List α} (hids : (rows.map Listed.id).Nodup) :
    (sorted sort rows).Pairwise (Ahead sort) :=
  (pairwise_sorted sort hids).imp compareRows_eq_lt_iff.1

/-- There is one way only to put rows with ids of their own in order. -/
theorem eq_sorted {rows ordered : List α} (hids : (rows.map Listed.id).Nodup) (hperm : ordered.Perm rows)
    (hordered : ordered.Pairwise (Ahead sort)) : ordered = sorted sort rows := by
  have horders := orders_of_nodup_ids sort hids
  refine (hperm.trans (perm_sorted sort rows).symm).eq_of_pairwise ?_ hordered (ahead_sorted sort hids)
  intro a b _ _ hab hba
  exact absurd (horders.trans a b a hab hba) (horders.irrefl a)

/-- In what order rows are found does not matter. -/
theorem sorted_perm (sort : List (String × SortDir)) {rows rows' : List α} (hids : (rows.map Listed.id).Nodup)
    (hperm : rows'.Perm rows) : sorted sort rows' = sorted sort rows := by
  have hids' : (rows'.map Listed.id).Nodup := (hperm.map Listed.id).nodup_iff.2 hids
  exact eq_sorted hids ((perm_sorted sort rows').trans hperm) (ahead_sorted sort hids')

/-! ## Rows behind a marker -/

theorem afterMarker?_eq_none_iff {marker : String} {rows : List α} :
    afterMarker? marker rows = none ↔ ∀ row ∈ rows, Listed.uuid row ≠ marker := by
  induction rows with
  | nil => simp [afterMarker?]
  | cons row rows ih =>
    rw [afterMarker?, List.forall_mem_cons, ← ih]
    by_cases hrow : Listed.uuid row = marker <;> simp [hrow]

theorem exists_of_afterMarker? {marker : String} {rows rest : List α} (h : afterMarker? marker rows = some rest) :
    ∃ before, rows = before ++ rest ∧ before.getLast?.map Listed.uuid = some marker := by
  induction rows with
  | nil => cases h
  | cons row rows ih =>
    rw [afterMarker?] at h
    split at h
    · next hrow =>
      cases h
      exact ⟨[row], rfl, congrArg some hrow⟩
    · obtain ⟨before, rfl, hlast⟩ := ih h
      refine ⟨row :: before, rfl, ?_⟩
      cases before with
      | nil => cases hlast
      | cons next before => rwa [List.getLast?_cons_cons]

theorem slice?_eq_none_iff {slice : Slice} {rows : List α} :
    slice? slice rows = none ↔ ∃ marker, slice.marker = some marker ∧ ∀ row ∈ rows, Listed.uuid row ≠ marker := by
  unfold slice?
  rw [Option.map_eq_none_iff]
  cases slice.marker with
  | none => simp
  | some marker =>
    simp only [afterMarker?_eq_none_iff, mem_sorted, Option.some.injEq, exists_eq_left']

/-- A slice is what begins behind the rows up to its marker. -/
theorem slice?_eq_some_iff {slice : Slice} {rows page : List α} (huuids : (rows.map Listed.uuid).Nodup) :
    slice? slice rows = some page ↔ ∃ before rest, sorted slice.sort rows = before ++ rest ∧
      before.getLast?.map Listed.uuid = slice.marker ∧ page = cut slice.limit rest := by
  obtain ⟨sort, limit, marker⟩ := slice
  constructor
  · intro h
    obtain ⟨rest, hrest, rfl⟩ := Option.map_eq_some_iff.1 h
    cases marker with
    | none => exact ⟨[], rest, Option.some.inj hrest, rfl, rfl⟩
    | some marker =>
      obtain ⟨before, hrows, hlast⟩ := exists_of_afterMarker? hrest
      exact ⟨before, rest, hrows, hlast, rfl⟩
  · rintro ⟨before, rest, hrows, rfl, rfl⟩
    exact slice?_eq_some huuids hrows limit

/-- A page of rows in order: those right behind the marker of a slice, or the first ones if it has none, as many of them
as there is room for. -/
def IsPage (slice : Slice) (ordered page : List α) : Prop :=
  ∃ before after, ordered = before ++ page ++ after ∧ before.getLast?.map Listed.uuid = slice.marker ∧
    (∀ n, slice.limit = some n → page.length ≤ n) ∧ (after ≠ [] → slice.limit = some page.length)

theorem slice?_eq_some_iff_isPage {slice : Slice} {rows page : List α} (huuids : (rows.map Listed.uuid).Nodup) :
    slice? slice rows = some page ↔ IsPage slice (sorted slice.sort rows) page := by
  rw [slice?_eq_some_iff huuids]
  constructor
  · rintro ⟨before, rest, hrows, hmarker, hpage⟩
    obtain ⟨after, rfl, hroom, hfull⟩ := eq_cut_iff.1 hpage
    exact ⟨before, after, by rw [hrows, List.append_assoc], hmarker, hroom, hfull⟩
  · rintro ⟨before, after, hrows, hmarker, hroom, hfull⟩
    exact ⟨before, page ++ after, by rw [hrows, List.append_assoc], hmarker, eq_cut_iff.2 ⟨after, rfl, hroom, hfull⟩⟩

end Listing

/-! ## Listings of a table -/

namespace Store

open Listing

variable {α : Type} [Listed α] {rows : List (String × α)} {keep : α → Bool} {slice : Slice}

/-- The rows of a table that a filter keeps. -/
def kept (rows : List (String × α)) (keep : α → Bool) : List α := (rows.map (·.2)).filter keep

theorem list_eq_error_iff {e : StoreError} : list rows keep slice = .error e ↔
    ∃ marker, slice.marker = some marker ∧ (∀ row ∈ kept rows keep, Listed.uuid row ≠ marker) ∧
      e = .invalidMarker marker := by
  have hnone : slice? slice (kept rows keep) = none ↔
      ∃ marker, slice.marker = some marker ∧ ∀ row ∈ kept rows keep, Listed.uuid row ≠ marker := slice?_eq_none_iff
  unfold list
  cases hslice : slice? slice ((rows.map (·.2)).filter keep) with
  | none =>
    obtain ⟨marker, hmarker, hall⟩ := hnone.1 hslice
    simp only [hmarker, Option.getD_some, Except.error.injEq, Option.some.injEq, exists_eq_left']
    exact ⟨fun he => ⟨hall, he.symm⟩, fun he => he.2.symm⟩
  | some page =>
    refine iff_of_false nofun ?_
    rintro ⟨marker, hmarker, hall, -⟩
    have := hnone.2 ⟨marker, hmarker, hall⟩
    rw [kept, hslice] at this
    cases this

theorem list_eq_ok_iff {page : List α} : list rows keep slice = .ok page ↔ slice? slice (kept rows keep) = some page := by
  unfold list kept
  cases slice? slice ((rows.map (·.2)).filter keep) <;> simp

/-- Pages of a listing, each behind the last row of the one before, up to the first one that is not full. -/
inductive Turns (rows : List (String × α)) (keep : α → Bool) (slice : Slice) : Option String → List (List α) → Prop
  | last {marker page} (h : list rows keep { slice with marker } = .ok page) (hshort : slice.limit ≠ some page.length) :
      Turns rows keep slice marker [page]
  | next {marker page row pages} (h : list rows keep { slice with marker } = .ok page)
      (hfull : slice.limit = some page.length) (hlast : page.getLast? = some row)
      (rest : Turns rows keep slice (some (Listed.uuid row)) pages) : Turns rows keep slice marker (page :: pages)

/-- From a marker on, pages can be turned in one way only. -/
theorem Turns.unique {marker : Option String} {pages pages' : List (List α)} (h : Turns rows keep slice marker pages)
    (h' : Turns rows keep slice marker pages') : pages' = pages := by
  induction h generalizing pages' with
  | last h hshort =>
    cases h' with
    | last h' =>
      rw [h] at h'
      cases h'
      rfl
    | next h' hfull' =>
      rw [h] at h'
      cases h'
      exact absurd hfull' hshort
  | next h hfull hlast _ ih =>
    cases h' with
    | last h' hshort' =>
      rw [h] at h'
      cases h'
      exact absurd hfull hshort'
    | next h' _ hlast' rest' =>
      rw [h] at h'
      cases h'
      rw [hlast] at hlast'
      cases hlast'
      rw [ih rest']

/-- Turning pages behind some of the sorted rows leads through the others. -/
theorem exists_turns (huuids : ((kept rows keep).map Listed.uuid).Nodup) (hroom : slice.limit ≠ some 0)
    {before rest : List α} (hrows : sorted slice.sort (kept rows keep) = before ++ rest) :
    ∃ pages, Turns rows keep slice (before.getLast?.map Listed.uuid) pages ∧ pages.flatten = rest := by
  -- Each full page leaves fewer rows, for it has at least one.
  induction hn : rest.length using Nat.strongRecOn generalizing before rest with
  | ind n ih =>
    have hpage : list rows keep { slice with marker := before.getLast?.map Listed.uuid } = .ok (cut slice.limit rest) :=
      list_eq_ok_iff.2 (slice?_eq_some huuids hrows slice.limit)
    obtain ⟨after, hrest, -, hleft⟩ := eq_cut_iff.1 (Eq.refl (cut slice.limit rest))
    generalize cut slice.limit rest = page at hpage hrest hleft
    subst hrest
    by_cases hfull : slice.limit = some page.length
    · obtain ⟨row, hlast⟩ : ∃ row, page.getLast? = some row := by
        have hne : page ≠ [] := by
          rintro rfl
          exact hroom hfull
        exact ⟨_, List.getLast?_eq_some_getLast hne⟩
      have hbehind : (before ++ page).getLast?.map Listed.uuid = some (Listed.uuid row) := by
        rw [List.getLast?_append, hlast]
        rfl
      have hless : after.length < n := by
        have hpositive : page.length ≠ 0 := fun h => hroom (h ▸ hfull)
        rw [← hn, List.length_append]
        omega
      obtain ⟨pages, hturns, hflatten⟩ := ih _ hless (by rw [hrows, List.append_assoc]) rfl
      rw [hbehind] at hturns
      exact ⟨page :: pages, .next hpage hfull hlast hturns, by rw [List.flatten_cons, hflatten]⟩
    · have hnil : after = [] := by_contra fun hne => hfull (hleft hne)
      exact ⟨[page], .last hpage hfull, by rw [hnil, List.flatten_singleton, List.append_nil]⟩

/-- **Slices of a listing.** The rows that a filter keeps, if their ids and their identifiers are their own, are put into a
total order, in which comparing two of them decides; and in what order they were found does not matter. Asking for a slice
fails exactly if it has a marker that is no row's identifier, and is else answered with the rows right behind the marker
in the order of the listing, as many as there is room for. If there is room for one, going on behind the last row of each
full page comes to an end, and all pages together are the rows in this order, each of them once. -/
theorem list_slices (hids : ((kept rows keep).map Listed.id).Nodup) (huuids : ((kept rows keep).map Listed.uuid).Nodup)
    (slice : Slice) :
    Orders slice.sort (kept rows keep) ∧
      (∀ (rows' : List (String × α)) keep', (kept rows' keep').Perm (kept rows keep) →
        list rows' keep' slice = list rows keep slice) ∧
      (∀ e, list rows keep slice = .error e ↔ ∃ marker, slice.marker = some marker ∧
        (∀ row ∈ kept rows keep, Listed.uuid row ≠ marker) ∧ e = .invalidMarker marker) ∧
      ∃ ordered, ordered.Perm (kept rows keep) ∧ ordered.Pairwise (Ahead slice.sort) ∧
        (∀ page, list rows keep slice = .ok page ↔ IsPage slice ordered page) ∧
        (slice.limit ≠ some 0 →
          ∃ pages, (∀ pages', Turns rows keep slice none pages' ↔ pages' = pages) ∧ pages.flatten = ordered) := by
  refine ⟨orders_of_nodup_ids slice.sort hids, fun rows' keep' hperm => ?_, fun e => list_eq_error_iff,
    sorted slice.sort (kept rows keep), perm_sorted _ _, ahead_sorted _ hids, fun page => ?_, fun hroom => ?_⟩
  · have hsorted := sorted_perm slice.sort hids hperm
    unfold kept at hsorted
    unfold list slice?
    rw [hsorted]
  · rw [list_eq_ok_iff, slice?_eq_some_iff_isPage huuids]
  · obtain ⟨pages, hturns, hflatten⟩ := exists_turns huuids hroom (List.nil_append _).symm
    refine ⟨pages, fun pages' => ⟨fun h => hturns.unique h, ?_⟩, hflatten⟩
    rintro rfl
    exact hturns

/-- Four segments with names of one letter, the last of which is switched off. -/
def fourSegments : List (String × Segment) :=
  let row (id : Nat) (name : String) (description : Option String) (enabled : Bool) : String × Segment :=
    (name, ⟨id, name, name, description, .auto, "COMPUTE", enabled, ⟨0, 0⟩, none⟩)
  [row 4 "a" (some "east") true, row 2 "b" none true, row 3 "c" (some "east") true, row 1 "d" none false]

/-- The segments that are switched on, by their descriptions and by a key that segments do not have, two on a page. -/
theorem list_slices_fourSegments :
    let slice : Slice := { sort := [("description", .desc), ("colour", .asc)], limit := some 2 }
    let listed := kept fourSegments (·.enabled)
    (listed.map Listed.id).Nodup ∧ (listed.map Listed.uuid).Nodup ∧ Orders slice.sort listed ∧
      list fourSegments (·.enabled) { slice with marker := some "d" } = .error (.invalidMarker "d") ∧
      ∃ pages, (∀ pages', Turns fourSegments (·.enabled) slice none pages' ↔ pages' = pages) ∧
        pages.flatten.Perm listed ∧ pages.flatten.Pairwise (Ahead slice.sort) := by
  intro slice listed
  have hids : (listed.map Listed.id).Nodup := by decide
  have huuids : (listed.map Listed.uuid).Nodup := by decide
  obtain ⟨-, -, hfails, -⟩ := list_slices hids huuids { slice with marker := some "d" }
  obtain ⟨horders, -, -, ordered, hperm, hahead, -, hturns⟩ := list_slices hids huuids slice
  obtain ⟨pages, hpages, rfl⟩ := hturns (by decide)
  exact ⟨hids, huuids, horders, (hfails _).2 ⟨"d", rfl, by decide, rfl⟩, pages, hpages, hperm, hahead⟩

end Store

end Standby
