import Mathlib.Data.List.Nodup
import Standby.Listing.Order
/-!
# The order of a listing is total

Values of sort keys are in a total order, and so are rows: by the keys of a listing, each in its direction, and then
by their ids. Rows with ids of their own are therefore sorted in exactly one way.
-/

namespace Standby

open Std

/-! ## Values -/

namespace SortValue

instance : TransCmp compareInstants :=
  inferInstanceAs (TransCmp (compareLex (compareOn Time.Instant.seconds) (compareOn Time.Instant.nanos)))

theorem compareInstants_swap (a b : Time.Instant) : compareInstants a b = (compareInstants b a).swap :=
  OrientedCmp.eq_swap

theorem compareInstants_trans {a b c : Time.Instant} (hab : (compareInstants a b).isLE = true)
    (hbc : (compareInstants b c).isLE = true) : (compareInstants a c).isLE = true := TransCmp.isLE_trans hab hbc

/-- Values of different kinds are ordered as their kinds are. -/
theorem cmp_of_rank_ne {a b : SortValue} (h : a.rank ≠ b.rank) : cmp a b = compare a.rank b.rank := by
  cases a <;> cases b <;> first | rfl | exact absurd rfl h

theorem rank_le_of_isLE {a b : SortValue} (h : (cmp a b).isLE = true) : a.rank ≤ b.rank := by
  by_cases hab : a.rank = b.rank
  · exact Nat.le_of_eq hab
  · rw [cmp_of_rank_ne hab] at h
    exact Nat.isLE_compare.1 h

theorem cmp_swap (a b : SortValue) : cmp a b = (cmp b a).swap := by
  by_cases h : a.rank = b.rank
  · cases a <;> cases b <;> simp [rank] at h
    case null.null => rfl
    case time.time => exact compareInstants_swap _ _
    all_goals exact OrientedOrd.eq_swap
  · rw [cmp_of_rank_ne h, cmp_of_rank_ne (Ne.symm h)]
    exact OrientedOrd.eq_swap

theorem cmp_trans {a b c : SortValue} (hab : (cmp a b).isLE = true) (hbc : (cmp b c).isLE = true) :
    (cmp a c).isLE = true := by
  have h₁ := rank_le_of_isLE hab
  have h₂ := rank_le_of_isLE hbc
  by_cases h : a.rank = c.rank
  · have hb : a.rank = b.rank := by omega
    clear h₁ h₂
    -- All three are of one kind.
    cases a <;> cases b <;> simp [rank] at hb <;> cases c <;> simp [rank] at h
    case null.null.null => rfl
    case time.time.time => exact compareInstants_trans hab hbc
    all_goals exact TransOrd.isLE_trans hab hbc
  · rw [cmp_of_rank_ne h]
    exact Nat.isLE_compare.2 (Nat.le_trans h₁ h₂)

end SortValue

/-! ## Rows -/

namespace Listing

variable {α : Type} [Listed α]

theorem compareKey_swap (key : String × SortDir) (a b : α) : compareKey a b key = (compareKey b a key).swap := by
  obtain ⟨name, dir⟩ := key
  cases dir with
  | asc => exact SortValue.cmp_swap _ _
  | desc => exact congrArg Ordering.swap (SortValue.cmp_swap _ _)

theorem compareKey_trans {key : String × SortDir} {a b c : α} (hab : (compareKey a b key).isLE = true)
    (hbc : (compareKey b c key).isLE = true) : (compareKey a c key).isLE = true := by
  obtain ⟨name, dir⟩ := key
  cases dir with
  | asc => exact SortValue.cmp_trans hab hbc
  | desc =>
    simp only [compareKey, ← SortValue.cmp_swap] at hab hbc ⊢
    exact SortValue.cmp_trans hbc hab

instance transCmp_compareKey (key : String × SortDir) : TransCmp fun a b : α => compareKey a b key where
  eq_swap := compareKey_swap key _ _
  isLE_trans := compareKey_trans

instance transCmp_compareRows (sort : List (String × SortDir)) : TransCmp fun a b : α => compareRows sort a b := by
  induction sort with
  | nil => exact inferInstanceAs (TransCmp (compareOn fun row : α => Listed.id row))
  | cons key sort ih => exact inferInstanceAs (TransCmp (compareLex (fun a b : α => compareKey a b key) (compareRows sort)))

/-- Rows that come neither before nor after each other have the same id. -/
theorem id_eq_of_compareRows {sort : List (String × SortDir)} {a b : α} (h : compareRows sort a b = .eq) :
    Listed.id a = Listed.id b := by
  induction sort with
  | nil => exact Nat.compare_eq_eq.1 h
  | cons key sort ih => exact ih (Ordering.then_eq_eq.1 h).2

/-! ## Sorted rows -/

theorem mem_sorted {sort : List (String × SortDir)} {rows : List α} {row : α} :
    row ∈ sorted sort rows ↔ row ∈ rows := List.mem_mergeSort

/-- Rows with ids of their own are sorted strictly. -/
theorem pairwise_sorted (sort : List (String × SortDir)) {rows : List α} (hids : (rows.map Listed.id).Nodup) :
    (sorted sort rows).Pairwise fun a b => compareRows sort a b = .lt := by
  have hle : (sorted sort rows).Pairwise fun a b => (compareRows sort a b).isLE = true :=
    List.pairwise_mergeSort (fun a b c => TransCmp.isLE_trans)
      (fun a b => by
        have hswap : compareRows sort b a = (compareRows sort a b).swap := OrientedCmp.eq_swap
        rw [hswap]
        cases compareRows sort a b <;> rfl) rows
  have hne : (sorted sort rows).Pairwise fun a b => Listed.id a ≠ Listed.id b := by
    have hperm : (sorted sort rows).Perm rows := List.mergeSort_perm _ _
    exact List.pairwise_map.1 ((hperm.map Listed.id).nodup_iff.2 hids)
  refine (hle.and hne).imp fun {a b} h => ?_
  cases hab : compareRows sort a b with
  | lt => rfl
  | eq => exact absurd (id_eq_of_compareRows hab) h.2
  | gt =>
    rw [hab] at h
    exact absurd h.1 (by decide)

/-! ## Listings of other rows -/

/-- What a listing goes by is the same for a row and for another one. -/
structure Same (f : α → α) : Prop where
  id : ∀ a, Listed.id (f a) = Listed.id a
  uuid : ∀ a, Listed.uuid (f a) = Listed.uuid a
  sortValue : ∀ a key, Listed.sortValue (f a) key = Listed.sortValue a key

section Same
variable {f : α → α} (h : Same f)
include h

theorem Same.compareRows (sort : List (String × SortDir)) (a b : α) :
    Listing.compareRows sort (f a) (f b) = Listing.compareRows sort a b := by
  have hkey : compareKey (f a) (f b) = compareKey a b := by
    funext ⟨key, dir⟩
    cases dir <;> simp only [compareKey, h.sortValue]
  simp only [Listing.compareRows, hkey, h.id]

theorem Same.sorted (sort : List (String × SortDir)) (rows : List α) :
    Listing.sorted sort (rows.map f) = (Listing.sorted sort rows).map f :=
  (List.map_mergeSort fun a _ b _ => by rw [h.compareRows]).symm

theorem Same.afterMarker? (marker : String) (rows : List α) :
    Listing.afterMarker? marker (rows.map f) = (Listing.afterMarker? marker rows).map (List.map f) := by
  induction rows with
  | nil => rfl
  | cons row rows ih =>
    rw [List.map_cons, Listing.afterMarker?, Listing.afterMarker?, h.uuid]
    by_cases hrow : Listed.uuid row = marker
    · simp [hrow]
    · simpa [hrow] using ih

theorem Same.slice? (s : Slice) (rows : List α) :
    Listing.slice? s (rows.map f) = (Listing.slice? s rows).map (List.map f) := by
  unfold Listing.slice?
  rw [h.sorted]
  cases s.marker with
  | none => cases s.limit <;> simp [List.map_take]
  | some marker =>
    simp only [h.afterMarker?]
    cases Listing.afterMarker? marker (Listing.sorted s.sort rows) <;> cases s.limit <;> simp [List.map_take]

end Same

end Listing

end Standby
