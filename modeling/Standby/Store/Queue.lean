import Standby.Failover.Rows
/-!
# The queue to the recovery engine

Accepted notifications wait in a queue of limited length for the engine that recovers what has failed. Nothing
is queued any more once the engine's end is closed.
-/

namespace Standby

/-- The notifications that wait, the oldest first. -/
structure Queue where
  capacity : Nat
  waiting : List Notification := []
  isOpen : Bool := true

/-- Why a notification is not queued. -/
inductive QueueError where
  | full
  | closed
  deriving DecidableEq, Repr

def QueueError.message : QueueError → String
  | .full => "recovery engine queue is full"
  | .closed => "recovery engine is not running"

namespace Queue

/-- Adds a notification at the end. -/
def send (q : Queue) (n : Notification) : Except QueueError Queue :=
  if !q.isOpen then .error .closed
  else if q.waiting.length < q.capacity then .ok { q with waiting := q.waiting ++ [n] }
  else .error .full

/-- What has waited longest, with the queue without it. -/
def receive? (q : Queue) : Option (Notification × Queue) :=
  match q.waiting with
  | [] => none
  | n :: waiting => some (n, { q with waiting })

theorem receive?_eq_some {q rest : Queue} {n : Notification} :
    q.receive? = some (n, rest) ↔ q.waiting = n :: rest.waiting ∧ rest = { q with waiting := rest.waiting } := by
  obtain ⟨capacity, waiting, isOpen⟩ := q
  cases waiting with
  | nil => simp [receive?]
  | cons head waiting =>
    simp only [receive?, Option.some.injEq, Prod.mk.injEq, List.cons.injEq]
    constructor
    · rintro ⟨rfl, rfl⟩
      exact ⟨⟨rfl, rfl⟩, rfl⟩
    · rintro ⟨⟨rfl, hwaiting⟩, hrest⟩
      exact ⟨rfl, by rw [hrest, hwaiting]⟩

/-- The engine receives until nothing waits, when no more can come, and counts on from what it has received before. -/
def recover (q : Queue) (received : Nat) : Nat :=
  match _h : q.receive? with
  | none => received
  | some (_, rest) => rest.recover (received + 1)
termination_by q.waiting.length
decreasing_by
  rw [(receive?_eq_some.1 _h).1]
  exact Nat.lt_succ_self _

/-- Takes out all that wait. -/
def drain (q : Queue) : List Notification × Queue := (q.waiting, { q with waiting := [] })

/-- Closes the engine's end. What waits is lost. -/
def close (q : Queue) : Queue := { q with waiting := [], isOpen := false }

/-- How many notifications the engine still receives when no more can come, unless its end is closed. -/
def recovered? (q : Queue) : Option Nat := if q.isOpen then some (q.recover 0) else none

end Queue

end Standby
