import Standby.Failover.Draft
import Standby.Proofs.Basic
/-!
# The order of instants

Instants are in a total order, of which `Before` is the strict part. No instant that can be read is before the first
one, and going back in time never leads to a later instant.
-/

namespace Standby.Time

namespace Instant

/-- Whether one instant comes strictly before another. -/
def Before (a b : Instant) : Prop := a.seconds < b.seconds ∨ a.seconds = b.seconds ∧ a.nanos < b.nanos

/-- Whether an instant is no earlier than the first one, and no later than the last second. -/
def InRange (t : Instant) : Prop := minSeconds ≤ t.seconds ∧ t.seconds ≤ maxSeconds

theorem le_iff {a b : Instant} :
    a.le b = true ↔ a.seconds < b.seconds ∨ a.seconds = b.seconds ∧ a.nanos ≤ b.nanos := by
  simp [le]

theorem before_iff_not_le {a b : Instant} : a.Before b ↔ ¬b.le a = true := by
  rw [le_iff, Before]
  omega

theorem first_le {t : Instant} (h : minSeconds ≤ t.seconds) : first.le t = true := by
  rw [le_iff]
  rcases Int.lt_or_eq_of_le h with h | h
  · exact .inl h
  · exact .inr ⟨h, Nat.zero_le _⟩

/-- Going back leads to an instant in range that is not later. -/
theorem minus?_eq_some {t earlier : Instant} {span : Span} (h : t.minus? span = some earlier) :
    earlier.le t = true ∧ minSeconds ≤ earlier.seconds := by
  simp only [minus?, Option.ite_none_right_eq_some, Option.some.injEq] at h
  obtain ⟨hrange, rfl⟩ := h
  refine ⟨?_, hrange⟩
  rw [le_iff]
  -- A step out of a leap second gains a second and loses the fraction that is above one.
  by_cases hleap : 1000000000 ≤ t.nanos <;> by_cases hspan : 0 < span.seconds <;>
    simp only [hleap, hspan, decide_true, decide_false, Bool.and_true, Bool.and_false, Bool.false_eq_true, if_true,
      if_false] <;> split <;> simp only <;> omega

/-- The instant `n` seconds earlier, if it is not before the first. A step back out of a leap second begins at the end of
it. -/
def sub? (t : Instant) (n : Nat) : Option Instant :=
  let earlier : Instant :=
    if n = 0 then t
    else if 1000000000 ≤ t.nanos then ⟨t.seconds + 1 - n, t.nanos - 1000000000⟩
    else ⟨t.seconds - n, t.nanos⟩
  if minSeconds ≤ earlier.seconds then some earlier else none

/-- A span of whole seconds leads back by these. -/
theorem minus?_seconds (t : Instant) (n : Nat) : t.minus? ⟨n, 0⟩ = t.sub? n := by
  by_cases hn : n = 0
  · subst hn
    simp [minus?, sub?]
  · have hpositive : 0 < n := Nat.pos_of_ne_zero hn
    by_cases hleap : 1000000000 ≤ t.nanos <;> simp [minus?, sub?, hn, hpositive, hleap]

/-- The longest span is longer than the time between any two instants. -/
theorem maxSeconds_lt : maxSeconds + 1 - Span.longest.seconds < minSeconds := by decide

theorem minus?_longest {t : Instant} (h : t.InRange) : t.minus? .longest = none := by
  have hlt := maxSeconds_lt
  have hmost := h.2
  refine if_neg fun hmin => ?_
  split at hmin <;> split at hmin <;> simp only at hmin <;> omega

theorem sub?_eq_none {t : Instant} (h : t.InRange) {n : Nat} (hn : Span.longest.seconds < n) : t.sub? n = none := by
  have hlt := maxSeconds_lt
  have hmost := h.2
  refine if_neg fun hmin => ?_
  split at hmin
  · omega
  · split at hmin <;> simp only at hmin <;> omega

end Instant

namespace Timestamp

theorem inRange_of_instant? {p : Parts} {t : Instant} (h : p.instant? = some t) : t.InRange := by
  simp only [Parts.instant?, Option.ite_none_right_eq_some, Option.some.injEq, Bool.and_eq_true,
    decide_eq_true_eq] at h
  obtain ⟨⟨⟨-, hmin⟩, hmax⟩, rfl⟩ := h
  exact ⟨hmin, hmax⟩

theorem inRange_of_lenient? {s : String} {t : Instant} (h : lenient? s = some t) : t.InRange := by
  unfold lenient? at h
  simp only [Option.bind_eq_bind, Option.bind_eq_some_iff, Prod.exists] at h
  obtain ⟨year, c₁, -, c₂, -, month, c₃, -, c₄, -, day, c₅, -, c₆, -, h⟩ := h
  obtain ⟨hour, c₇, -, c₈, -, minute, c₉, -, c₁₀, -, second, c₁₁, -, nanos, c₁₂, -, offset, c₁₃, -, h⟩ := h
  split at h
  · exact inRange_of_instant? h
  · cases h

end Timestamp

end Standby.Time

namespace Standby

/-- The time of a failure in a body that can be read is in range. -/
theorem NotificationDraft.inRange_of_ofBody? {body : Json} {draft : NotificationDraft}
    (h : NotificationDraft.ofBody? body = some draft) : draft.generatedAt.InRange := by
  simp only [ofBody?, Record.inner?] at h
  split at h
  · obtain ⟨j, -, h⟩ := Option.bind_eq_some_iff.1 h
    unfold ofJson? at h
    split at h
    · simp only [Option.bind_eq_bind, Option.bind_eq_some_iff, Option.some.injEq] at h
      obtain ⟨kind, -, name, -, t, ht, payload, -, rfl⟩ := h
      obtain ⟨j', -, ht⟩ := Option.bind_eq_some_iff.1 ht
      obtain ⟨s, -, ht⟩ := Option.bind_eq_some_iff.1 ht
      exact Time.Timestamp.inRange_of_lenient? ht
    · cases h
  · cases h

end Standby
