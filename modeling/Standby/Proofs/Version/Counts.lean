import Mathlib.Data.List.Induction
import Standby.Proofs.Version.Overlap
/-!
# The count of open ranges

The walk along the bounds of ranges keeps a count of the ranges that are open. Of ranges that are not inverted, no bound
closes one that has not been opened before, so the count never goes below zero, and it never goes above the number of
the ranges. Two ranges at different places in the list share a version exactly if the count comes to more than one.
-/

namespace Standby

namespace VersionRange

/-- The counts that a walk comes to, one for each bound, when it begins at `d`. -/
def countsFrom (d : Int) : List Bound → List Int
  | [] => []
  | b :: bs =>
    let d := if b.opens then d + 1 else d - 1
    d :: countsFrom d bs

/-- The counts of the walk along the bounds of ranges. -/
def counts (ranges : List VersionRange) : List Int := countsFrom 0 ((ranges.flatMap bounds).mergeSort Bound.le)

/-! ## Counts along a walk -/

/-- The walk looks at these counts, and at nothing else. -/
theorem exceedsOne_eq_any (d : Int) (bs : List Bound) : exceedsOne d bs = (countsFrom d bs).any (1 < ·) := by
  induction bs generalizing d with
  | nil => rfl
  | cons b bs ih => simp only [exceedsOne, countsFrom, List.any_cons, ih]

/-- A count is what some of the bounds at the beginning have opened and not closed. -/
theorem exists_of_mem_countsFrom {d n : Int} {bs : List Bound} (h : n ∈ countsFrom d bs) :
    ∃ before after, bs = before ++ after ∧ n = d + depth before := by
  induction bs generalizing d with
  | nil => cases h
  | cons b bs ih =>
    have hstep : (if b.opens then d + 1 else d - 1) = d + depth [b] := by
      cases hb : b.opens <;> simp [depth, hb, Int.sub_eq_add_neg]
    rw [countsFrom, hstep] at h
    rcases List.mem_cons.1 h with rfl | h
    · exact ⟨[b], bs, rfl, rfl⟩
    · obtain ⟨before, after, rfl, rfl⟩ := ih h
      have hcons : depth (b :: before) = depth [b] + depth before := depth_append [b] before
      exact ⟨b :: before, after, rfl, by omega⟩

/-! ## How far down the count goes -/

/-- Of the bounds that are not beyond some place, none closes a range without one that opens it. -/
theorem depth_filter_le_nonneg {ranges : List VersionRange} (h : ∀ r ∈ ranges, r.isInverted = false) (b : Bound) :
    0 ≤ depth ((ranges.flatMap bounds).filter (·.le b)) := by
  induction ranges with
  | nil => exact Int.le_refl 0
  | cons r ranges ih =>
    have hrest := ih fun s hs => h s (List.mem_cons_of_mem _ hs)
    have hself := contains_iff.1 (contains_lower (h r List.mem_cons_self))
    have hplaces : (Bound.mk r.upper false).le b = true → (Bound.mk r.lower true).le b = true := by
      simp only [Bound.le_iff_place, Bound.place, if_true, Bool.false_eq_true, if_false]
      omega
    have hfirst : 0 ≤ depth (r.bounds.filter (·.le b)) := by
      by_cases hlower : (Bound.mk r.lower true).le b = true
      · by_cases hupper : (Bound.mk r.upper false).le b = true
        · simp [bounds, hlower, hupper, depth]
        · simp [bounds, hlower, hupper, depth]
      · simp [bounds, hlower, mt hplaces hlower, depth]
    rw [List.flatMap_cons, List.filter_append, depth_append]
    omega

/-- What comes after a bound that closes a range and is not beyond it is the same bound again. -/
theorem depth_filter_le_nonpos {b : Bound} {after : List Bound} (hb : b.opens = false)
    (h : ∀ c ∈ after, b.le c = true) : depth (after.filter (·.le b)) ≤ 0 := by
  have hnone : (after.filter (·.le b)).countP (·.opens) = 0 := by
    refine List.countP_eq_zero.2 fun c hc => ?_
    obtain ⟨hc, hle⟩ := List.mem_filter.1 hc
    cases Bound.place_inj (Nat.le_antisymm (Bound.le_iff_place.1 hle) (Bound.le_iff_place.1 (h c hc)))
    simp [hb]
  rw [depth, hnone]
  omega

/-- At the beginning of bounds in order, as many ranges have been opened as closed, or more. -/
theorem depth_nonneg {ranges : List VersionRange} (h : ∀ r ∈ ranges, r.isInverted = false) {before after : List Bound}
    (hperm : (before ++ after).Perm (ranges.flatMap bounds))
    (hsorted : (before ++ after).Pairwise fun a b => a.le b = true) : 0 ≤ depth before := by
  induction before using List.reverseRecOn generalizing after with
  | nil => exact Int.le_refl 0
  | append_singleton before b ih =>
    rw [List.append_assoc, List.singleton_append] at hperm hsorted
    cases hopens : b.opens with
    | true =>
      have hbefore := ih hperm hsorted
      have hb : depth [b] = 1 := by simp [depth, hopens]
      rw [depth_append]
      omega
    | false =>
      obtain ⟨-, hrest, hbefore⟩ := List.pairwise_append.1 hsorted
      have hself : b.le b = true := Bound.le_iff_place.2 (Nat.le_refl _)
      have hall : (before ++ b :: after).filter (·.le b) = before ++ [b] ++ after.filter (·.le b) := by
        rw [List.filter_append, List.append_assoc, List.singleton_append]
        congr 1
        · exact List.filter_eq_self.2 fun c hc => hbefore c hc b List.mem_cons_self
        · exact List.filter_cons_of_pos hself
      have hafter := depth_filter_le_nonpos hopens (List.pairwise_cons.1 hrest).1
      have hpos := depth_filter_le_nonneg h b
      rw [← depth_perm (hperm.filter _), hall, depth_append] at hpos
      omega

/-! ## How far up it goes -/

theorem countP_opens_bounds (ranges : List VersionRange) :
    (ranges.flatMap bounds).countP (·.opens) = ranges.length := by
  induction ranges with
  | nil => rfl
  | cons r ranges ih => simp [List.flatMap_cons, bounds, ih]

theorem depth_le_length {ranges : List VersionRange} {before after : List Bound}
    (hperm : (before ++ after).Perm (ranges.flatMap bounds)) : depth before ≤ ranges.length := by
  have hopens := hperm.countP_eq (·.opens)
  rw [countP_opens_bounds, List.countP_append] at hopens
  rw [depth]
  omega

/-! ## Two ranges -/

/-- Two things in a list have a property if two places in it are those of things that have it. -/
theorem two_le_countP_iff {α : Type} {p : α → Bool} {l : List α} :
    2 ≤ l.countP p ↔ ∃ i j : Fin l.length, i ≠ j ∧ p l[i] = true ∧ p l[j] = true := by
  constructor
  · intro h
    refine Classical.byContradiction fun hnone => ?_
    have hapart : l.Pairwise fun a b => ¬(p a = true ∧ p b = true) := by
      refine List.pairwise_iff_getElem.2 fun i j hi hj hij hboth => hnone ⟨⟨i, hi⟩, ⟨j, hj⟩, ?_, hboth⟩
      exact fun heq => absurd (Fin.mk.inj heq) (Nat.ne_of_lt hij)
    have hle := countP_le_one hapart
    omega
  · have hordered {i j : Nat} (hj : j < l.length) (hij : i < j) (hpi : p l[i] = true) (hpj : p l[j] = true) :
        2 ≤ l.countP p := by
      have hfirst : 0 < (l.take j).countP p :=
        List.countP_pos_iff.2 ⟨l[i], List.mem_take_iff_getElem.2 ⟨i, by omega, rfl⟩, hpi⟩
      have hsecond : 0 < (l.drop j).countP p :=
        List.countP_pos_iff.2 ⟨l[j], List.mem_drop_iff_getElem.2 ⟨0, by omega, rfl⟩, hpj⟩
      rw [← List.take_append_drop j l, List.countP_append]
      omega
    rintro ⟨⟨i, hi⟩, ⟨j, hj⟩, hne, hpi, hpj⟩
    rcases Nat.lt_or_gt_of_ne fun heq => hne (Fin.ext heq) with hij | hji
    · exact hordered hj hij hpi hpj
    · exact hordered hi hji hpj hpi

/-- **Ranges that overlap.** Of ranges that are not inverted, in whatever order, the walk says that some overlap exactly
if two at different places share a version. It says so by its count of the ranges that are open, and from the first bound
to the last this is no less than zero and no more than the number of the ranges. -/
theorem overlap_counts {ranges : List VersionRange} (h : ∀ r ∈ ranges, r.isInverted = false) :
    (overlap ranges = true ↔ ∃ i j : Fin ranges.length, i ≠ j ∧
      ∃ v, ranges[i].contains v = true ∧ ranges[j].contains v = true) ∧
    overlap ranges = (counts ranges).any (1 < ·) ∧
    ∀ n ∈ counts ranges, 0 ≤ n ∧ n ≤ ranges.length := by
  refine ⟨?_, exceedsOne_eq_any 0 _, fun n hn => ?_⟩
  · rw [overlap_iff h]
    constructor
    · rintro ⟨v, hv⟩
      obtain ⟨i, j, hne, hi, hj⟩ := two_le_countP_iff.1 hv
      exact ⟨i, j, hne, v, hi, hj⟩
    · rintro ⟨i, j, hne, v, hi, hj⟩
      exact ⟨v, two_le_countP_iff.2 ⟨i, j, hne, hi, hj⟩⟩
  · obtain ⟨before, after, hsplit, rfl⟩ := exists_of_mem_countsFrom hn
    have hperm := List.mergeSort_perm (ranges.flatMap bounds) Bound.le
    have hsorted := pairwise_mergeSort_bounds (ranges.flatMap bounds)
    rw [hsplit] at hperm hsorted
    rw [Int.zero_add]
    exact ⟨depth_nonneg h hperm hsorted, depth_le_length hperm⟩

/-- A range that is open below, one up to the greatest version, and one between them that touches the first: the first
and the last of the list share a version, and no count leaves the numbers from zero to three. -/
theorem overlap_counts_touching :
    let ranges : List VersionRange := [⟨none, some ⟨1, 4⟩⟩, since ⟨2, 0⟩, between ⟨1, 4⟩ ⟨1, 9⟩]
    (∀ r ∈ ranges, r.isInverted = false) ∧ overlap ranges = true ∧ ∀ n ∈ counts ranges, 0 ≤ n ∧ n ≤ 3 := by
  have hproper : ∀ r ∈ [⟨none, some ⟨1, 4⟩⟩, since ⟨2, 0⟩, between ⟨1, 4⟩ ⟨1, 9⟩], r.isInverted = false := by decide
  obtain ⟨hoverlap, -, hcounts⟩ := overlap_counts hproper
  exact ⟨hproper, hoverlap.2 ⟨0, 2, by decide, ⟨1, 4⟩, by decide, by decide⟩, hcounts⟩

end VersionRange

end Standby
