/-
# Queues

A queue hands items from any number of senders to one receiver in the order in
which they were sent. A bounded queue refuses an item while it is full; every
queue refuses items once its receiver is gone. Items that wait are still
received after the last sender is gone.

Key definitions: `Queue`, `Queue.offer`, `Queue.take`, `Queue.bounded`, `Queue.ofBuffer?`.
Key theorems: `Queue.offer_accepted_iff`, `Queue.take_item_iff`.
-/
import QuotaWatch.Log

namespace QuotaWatch

/-- A queue with its senders and its receiver. -/
structure Queue (α : Type) where
  /-- The most items that may wait, if there is a bound. -/
  limit : Option Nat
  waiting : List α := []
  senders : Nat := 1
  hasReceiver : Bool := true
  withinLimit : ∀ n, limit = some n → waiting.length ≤ n := by intros; simp

/-- What becomes of an item that is sent. -/
inductive Offer where
  | accepted
  | full
  | closed
deriving Repr, DecidableEq

/-- What a receiver gets. -/
inductive Received (α : Type) where
  | item (a : α)
  | empty
  | disconnected
deriving Repr, DecidableEq

namespace Queue

/-- A queue that never is full. -/
def unbounded : Queue α := { limit := none }

/-- A queue for at most this many items; it holds at least one. -/
def bounded (buffer : UInt64) : Queue α := { limit := some (max buffer.toNat 1) }

/-- The most items that a bounded queue can be made for. -/
def largestBuffer : UInt64 := 2305843009213693951

/-- A bounded queue, where one of this size can be made. -/
def ofBuffer? (buffer : UInt64) : Option (Queue α) :=
  if buffer ≤ largestBuffer then some (bounded buffer) else none

/-- Whether no further item may wait. -/
def isFull (q : Queue α) : Bool := q.limit.any (· ≤ q.waiting.length)

/-- Send an item. -/
def offer (q : Queue α) (a : α) : Queue α × Offer :=
  if !q.hasReceiver then (q, .closed)
  else if h : q.isFull = true then (q, .full)
  else
    ({ q with
        waiting := q.waiting ++ [a]
        withinLimit := by
          intro n hn
          simp only [isFull, hn, Option.any_some, decide_eq_true_eq] at h
          simp only [List.length_append, List.length_singleton]
          omega },
      .accepted)

/-- Receive the item that has waited longest. -/
def take (q : Queue α) : Queue α × Received α :=
  match h : q.waiting with
  | a :: rest =>
    ({ q with
        waiting := rest
        withinLimit := by
          intro n hn
          have := q.withinLimit n hn
          simp only [h, List.length_cons] at this
          omega },
      .item a)
  | [] => (q, if q.senders = 0 then .disconnected else .empty)

/-- One more sender, made from one that is there. -/
def cloneSender (q : Queue α) : Queue α :=
  { q with senders := if q.senders = 0 then 0 else q.senders + 1 }

/-- One sender fewer. -/
def dropSender (q : Queue α) : Queue α := { q with senders := q.senders - 1 }

/-- No receiver any more; what waits is lost. -/
def dropReceiver (q : Queue α) : Queue α :=
  { q with waiting := [], hasReceiver := false, withinLimit := by intros; simp }

/-- Receive all that waits. -/
def drain (q : Queue α) : Queue α × List α :=
  ({ q with waiting := [], withinLimit := by intros; simp }, q.waiting)

/-- An item is accepted unless the receiver is gone or the queue is full. -/
theorem offer_accepted_iff (q : Queue α) (a : α) :
    (q.offer a).2 = .accepted ↔ q.hasReceiver = true ∧ q.isFull = false := by
  unfold offer
  cases q.hasReceiver <;> simp
  split <;> simp_all

/-- The item received is the first that waits. -/
theorem take_item_iff (q : Queue α) (a : α) :
    q.take.2 = .item a ↔ ∃ rest, q.waiting = a :: rest := by
  unfold take
  split
  · rename_i b rest h
    simp [h]
  · rename_i h
    simp only [h, List.nil_eq, reduceCtorEq, exists_false, iff_false]
    split <;> simp

end Queue

/-- What is noted when a snapshot is sent. -/
def Offer.snapshotNotice (s : Snapshot) : Offer → List Notice
  | .accepted => []
  | .full => [.snapshotQueueFull s.timestamp]
  | .closed => [.snapshotQueueClosed]

/-- What is noted when an alert is sent. -/
def Offer.alertNotice : Offer → List Notice
  | .closed => [.alertQueueClosed]
  | _ => []

end QuotaWatch
