import Standby.Proofs.Version.Order
import Standby.Version.Range
/-!
# Ranges that share a version

The walk along the bounds of ranges comes to a point where more than one range is open exactly if two of them share a
version. What is open at the lower bounds of a version are the ranges that contain it.
-/

namespace Standby

namespace VersionRange

/-! ## Bounds as ranks -/

theorem contains_iff {r : VersionRange} {v : Version} :
    r.contains v = true ↔ r.lower.rank ≤ v.rank ∧ v.rank ≤ r.upper.rank := by
  obtain ⟨min, max⟩ := r
  have hleast : Version.least.rank = 0 := rfl
  have hgreatest := v.rank_le_greatest
  cases min <;> cases max <;>
    simp [contains, Version.isWithin, lower, upper, Version.le_iff_rank, hleast, hgreatest]

theorem isInverted_iff {r : VersionRange} : r.isInverted = true ↔ r.upper.rank < r.lower.rank := by
  obtain ⟨min, max⟩ := r
  have hleast : Version.least.rank = 0 := rfl
  cases min with
  | none => simp [isInverted, lower, hleast]
  | some lo =>
    have hgreatest := lo.rank_le_greatest
    cases max with
    | none =>
      simp only [isInverted, lower, upper, Option.getD_some, Option.getD_none, Bool.false_eq_true, false_iff]
      omega
    | some hi =>
      have h := Version.le_iff_rank (a := lo) (b := hi)
      cases hle : lo.le hi <;> simp [isInverted, lower, upper, hle] <;> simp [hle] at h <;> omega

/-- A range that is not inverted contains its lower bound. -/
theorem contains_lower {r : VersionRange} (h : r.isInverted = false) : r.contains r.lower = true := by
  have hi : ¬r.upper.rank < r.lower.rank := fun hlt => by
    rw [isInverted_iff.2 hlt] at h
    cases h
  exact contains_iff.2 ⟨Nat.le_refl _, Nat.le_of_not_lt hi⟩

/-- The place of a bound on the way: the lower bounds at a version come before the upper ones. -/
def Bound.place (b : Bound) : Nat := 2 * b.version.rank + if b.opens then 0 else 1

theorem Bound.le_iff_place {a b : Bound} : a.le b = true ↔ a.place ≤ b.place := by
  obtain ⟨v, opens⟩ := a
  obtain ⟨v', opens'⟩ := b
  by_cases hv : v = v'
  · subst hv
    cases opens <;> cases opens' <;> simp [Bound.le, Bound.place]
  · have hne : v.rank ≠ v'.rank := fun h => hv (Version.rank_inj.1 h)
    simp only [Bound.le, if_neg hv, Version.le_iff_rank, Bound.place]
    cases opens <;> cases opens' <;> simp <;> omega

theorem Bound.place_inj {a b : Bound} (h : a.place = b.place) : a = b := by
  obtain ⟨v, opens⟩ := a
  obtain ⟨v', opens'⟩ := b
  simp only [Bound.place] at h
  have hv : v = v' := Version.rank_inj.1 (by cases opens <;> cases opens' <;> simp at h <;> omega)
  subst hv
  cases opens <;> cases opens' <;> simp at h ⊢

/-! ## The walk along the bounds -/

/-- How many more ranges are open after some bounds than before them. -/
def depth (bs : List Bound) : Int := bs.countP (·.opens) - bs.countP (!·.opens)

theorem depth_append (as bs : List Bound) : depth (as ++ bs) = depth as + depth bs := by
  simp only [depth, List.countP_append]
  omega

theorem depth_perm {as bs : List Bound} (h : as.Perm bs) : depth as = depth bs := by
  rw [depth, depth, h.countP_eq, h.countP_eq]

theorem exceedsOne_cons (d : Int) (b : Bound) (bs : List Bound) :
    exceedsOne d (b :: bs) = true ↔
      1 < d + depth [b] ∨ exceedsOne (d + depth [b]) bs = true := by
  cases hb : b.opens <;> simp [exceedsOne, depth, hb, Int.sub_eq_add_neg]

/-- The walk exceeds one where it first goes through the lower bound of a range. -/
theorem exists_of_exceedsOne {d : Int} {bs : List Bound} (hd : d ≤ 1) (h : exceedsOne d bs = true) :
    ∃ before b after, bs = before ++ b :: after ∧ b.opens = true ∧ 1 < d + depth (before ++ [b]) := by
  induction bs generalizing d with
  | nil => cases h
  | cons b bs ih =>
    by_cases hnow : 1 < d + depth [b]
    · refine ⟨[], b, bs, rfl, ?_, hnow⟩
      cases hb : b.opens with
      | true => rfl
      | false =>
        simp [depth, hb] at hnow
        omega
    · obtain hlater := ((exceedsOne_cons d b bs).1 h).resolve_left hnow
      obtain ⟨before, b', after, rfl, hopens, hlt⟩ := ih (by omega) hlater
      refine ⟨b :: before, b', after, rfl, hopens, ?_⟩
      rw [List.cons_append, ← List.singleton_append, depth_append]
      omega

theorem exceedsOne_of_prefix {d : Int} {before after : List Bound} (hd : d ≤ 1) (h : 1 < d + depth before) :
    exceedsOne d (before ++ after) = true := by
  induction before generalizing d with
  | nil =>
    simp only [depth, List.countP_nil] at h
    omega
  | cons b before ih =>
    rw [List.cons_append, exceedsOne_cons]
    by_cases hnow : 1 < d + depth [b]
    · exact .inl hnow
    · rw [← List.singleton_append, depth_append] at h
      exact .inr (ih (by omega) (by omega))

/-! ## What is open at a version -/

/-- The bounds as far as the lower ones at a version. -/
def upTo (v : Version) (bs : List Bound) : List Bound := bs.filter (·.le ⟨v, true⟩)

theorem upTo_append (v : Version) (as bs : List Bound) : upTo v (as ++ bs) = upTo v as ++ upTo v bs :=
  List.filter_append as bs

theorem upTo_cons_of_le {v : Version} {b : Bound} (h : b.le ⟨v, true⟩ = true) (bs : List Bound) :
    upTo v (b :: bs) = b :: upTo v bs :=
  List.filter_cons_of_pos (p := fun b : Bound => b.le ⟨v, true⟩) h

theorem depth_upTo_bounds {r : VersionRange} (h : r.isInverted = false) (v : Version) :
    depth (upTo v r.bounds) = if r.contains v then 1 else 0 := by
  have hproper : r.lower.rank ≤ r.upper.rank :=
    Nat.le_trans (contains_iff.1 (contains_lower h)).1 (contains_iff.1 (contains_lower h)).2
  have hlower : (Bound.mk r.lower true).le ⟨v, true⟩ = decide (r.lower.rank ≤ v.rank) := by
    rw [Bool.eq_iff_iff, decide_eq_true_iff, Bound.le_iff_place]
    simp only [Bound.place, if_true]
    omega
  have hupper : (Bound.mk r.upper false).le ⟨v, true⟩ = decide (r.upper.rank < v.rank) := by
    rw [Bool.eq_iff_iff, decide_eq_true_iff, Bound.le_iff_place]
    simp only [Bound.place, if_true, Bool.false_eq_true, if_false]
    omega
  have hcontains : r.contains v = decide (r.lower.rank ≤ v.rank ∧ v.rank ≤ r.upper.rank) := by
    rw [Bool.eq_iff_iff, decide_eq_true_iff, contains_iff]
  simp only [upTo, bounds, List.filter_cons, List.filter_nil, hlower, hupper, hcontains, decide_eq_true_eq]
  -- Below the range neither bound is there yet, inside it the lower one is, above it both are.
  by_cases hbelow : r.lower.rank ≤ v.rank
  · by_cases habove : r.upper.rank < v.rank
    · rw [if_pos hbelow, if_pos habove, if_neg (by omega)]
      rfl
    · rw [if_pos hbelow, if_neg habove, if_pos (by omega)]
      rfl
  · rw [if_neg hbelow, if_neg (by omega), if_neg (by omega)]
    rfl

/-- The ranges that are open at a version are those that contain it. -/
theorem depth_upTo {ranges : List VersionRange} (h : ∀ r ∈ ranges, r.isInverted = false) (v : Version) :
    depth (upTo v (ranges.flatMap bounds)) = ranges.countP (·.contains v) := by
  induction ranges with
  | nil => rfl
  | cons r ranges ih =>
    rw [List.flatMap_cons, upTo_append, depth_append, depth_upTo_bounds (h r List.mem_cons_self),
      ih fun r' hr' => h r' (List.mem_cons_of_mem _ hr'), List.countP_cons]
    split <;> simp [Int.add_comm]

/-- Along bounds in order, those as far as the lower ones at a version come first. -/
theorem exists_eq_upTo_append {bs : List Bound} (h : bs.Pairwise fun a b => a.le b = true) (v : Version) :
    ∃ after, bs = upTo v bs ++ after := by
  induction bs with
  | nil => exact ⟨[], rfl⟩
  | cons b bs ih =>
    obtain ⟨hb, hbs⟩ := List.pairwise_cons.1 h
    by_cases hle : b.le ⟨v, true⟩ = true
    · obtain ⟨after, hafter⟩ := ih hbs
      refine ⟨after, ?_⟩
      rw [upTo_cons_of_le hle, List.cons_append, ← hafter]
    · have hnone : upTo v (b :: bs) = [] := by
        refine List.filter_eq_nil_iff.2 fun b' hb' hle' => hle ?_
        rcases List.mem_cons.1 hb' with rfl | hb'
        · exact hle'
        · have hplace := Bound.le_iff_place.1 (hb b' hb')
          exact Bound.le_iff_place.2 (Nat.le_trans hplace (Bound.le_iff_place.1 hle'))
      exact ⟨b :: bs, by rw [hnone, List.nil_append]⟩

/-- A walk along bounds in order exceeds one exactly if at some version more than one range is open. -/
theorem exceedsOne_iff_of_pairwise {bs : List Bound} (h : bs.Pairwise fun a b => a.le b = true) :
    exceedsOne 0 bs = true ↔ ∃ v, 1 < depth (upTo v bs) := by
  constructor
  · intro hexceeds
    obtain ⟨before, ⟨v, opens⟩, after, rfl, hopens, hlt⟩ := exists_of_exceedsOne (by omega) hexceeds
    cases hopens
    obtain ⟨-, hrest, hbefore⟩ := List.pairwise_append.1 h
    -- All that comes later and is not beyond the version is one more lower bound at it.
    have hafter : 0 ≤ depth (upTo v after) := by
      have hnone : (upTo v after).countP (!·.opens) = 0 := by
        refine List.countP_eq_zero.2 fun b hb => ?_
        obtain ⟨hb, hle⟩ := List.mem_filter.1 hb
        have hge := (List.pairwise_cons.1 hrest).1 b hb
        cases Bound.place_inj (Nat.le_antisymm (Bound.le_iff_place.1 hle) (Bound.le_iff_place.1 hge))
        simp
      rw [depth, hnone]
      omega
    have hupTo : upTo v (before ++ ⟨v, true⟩ :: after) = before ++ [⟨v, true⟩] ++ upTo v after := by
      have hself : (Bound.mk v true).le ⟨v, true⟩ = true := Bound.le_iff_place.2 (Nat.le_refl _)
      rw [upTo_append, upTo_cons_of_le hself, List.append_assoc, List.singleton_append]
      congr 1
      exact List.filter_eq_self.2 fun b hb => hbefore b hb _ List.mem_cons_self
    refine ⟨v, ?_⟩
    rw [hupTo, depth_append]
    omega
  · rintro ⟨v, hv⟩
    obtain ⟨after, hafter⟩ := exists_eq_upTo_append h v
    rw [hafter]
    exact exceedsOne_of_prefix (by omega) (by omega)

theorem pairwise_mergeSort_bounds (bs : List Bound) : (bs.mergeSort Bound.le).Pairwise fun a b => a.le b = true := by
  refine List.pairwise_mergeSort (fun a b c hab hbc => ?_) (fun a b => ?_) _
  · rw [Bound.le_iff_place] at hab hbc ⊢
    omega
  · rw [Bool.or_eq_true, Bound.le_iff_place, Bound.le_iff_place]
    omega

/-! ## Overlaps -/

/-- Of ranges that are not inverted, two share a version exactly if the walk says so. -/
theorem overlap_iff {ranges : List VersionRange} (h : ∀ r ∈ ranges, r.isInverted = false) :
    overlap ranges = true ↔ ∃ v, 2 ≤ ranges.countP (·.contains v) := by
  rw [overlap, exceedsOne_iff_of_pairwise (pairwise_mergeSort_bounds _)]
  refine exists_congr fun v => ?_
  have hperm := List.mergeSort_perm (ranges.flatMap bounds) Bound.le
  rw [show depth (upTo v _) = _ from depth_perm (hperm.filter _), ← upTo, depth_upTo h]
  omega

/-- Two ranges that share no version. -/
def Apart (r s : VersionRange) : Prop := ∀ v, ¬(r.contains v = true ∧ s.contains v = true)

theorem Apart.symm {r s : VersionRange} (h : r.Apart s) : s.Apart r := fun v hv => h v hv.symm

/-- Of things no two of which have a property, at most one has it. -/
theorem countP_le_one {α : Type} {p : α → Bool} {l : List α} (h : l.Pairwise fun a b => ¬(p a = true ∧ p b = true)) :
    l.countP p ≤ 1 := by
  induction l with
  | nil => simp
  | cons a l ih =>
    obtain ⟨ha, hl⟩ := List.pairwise_cons.1 h
    by_cases hp : p a = true
    · have hnone : l.countP p = 0 := List.countP_eq_zero.2 fun b hb hpb => ha b hb ⟨hp, hpb⟩
      exact Nat.le_of_eq (by rw [List.countP_cons_of_pos hp, hnone])
    · rw [List.countP_cons_of_neg hp]
      exact ih hl

/-- One more range overlaps with ranges that are apart exactly if it shares a version with one of them. -/
theorem overlap_concat_iff {ranges : List VersionRange} {r : VersionRange} (hranges : ∀ s ∈ ranges, s.isInverted = false)
    (hr : r.isInverted = false) (hapart : ranges.Pairwise Apart) :
    overlap (ranges ++ [r]) = true ↔ ∃ s ∈ ranges, ¬s.Apart r := by
  rw [overlap_iff fun s hs => (List.mem_append.1 hs).elim (hranges s) fun hs => List.mem_singleton.1 hs ▸ hr]
  simp only [List.countP_append, List.countP_singleton, Apart, Classical.not_forall, Classical.not_not]
  constructor
  · rintro ⟨v, hv⟩
    have hle := countP_le_one (hapart.imp fun h => h v)
    split at hv
    · rename_i hrv
      obtain ⟨s, hs, hsv⟩ := List.countP_pos_iff.1 (show 0 < ranges.countP (·.contains v) by omega)
      exact ⟨s, hs, v, hsv, hrv⟩
    · omega
  · rintro ⟨s, hs, v, hsv, hrv⟩
    have hpos : 0 < ranges.countP (·.contains v) := List.countP_pos_iff.2 ⟨s, hs, hsv⟩
    exact ⟨v, by rw [if_pos hrv]; omega⟩

end VersionRange

end Standby
