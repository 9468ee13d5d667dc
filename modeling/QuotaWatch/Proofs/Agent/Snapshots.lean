/-
# From the senders to the readers

Snapshots go through a bounded queue with any number of sending ends and one receiving end. The
receiving end is read by whoever holds it, or by a forwarder that takes one snapshot after the
other and records it as the latest one, which clients read at any time. A run is any
interleaving of what all of them do, and what is seen of it is a trace (`Channel.trace`).

What is accepted is what has been taken and what waits, in the order in which it was sent
(`Channel.Held`). So nothing is lost between the ends, nothing is taken twice, and what is
recorded is a part of what was sent, without gaps. A reader sees what was recorded last, and
readers never see an older snapshot after a newer one.

Key definitions: `Channel`, `Channel.Act`, `Channel.step`, `Channel.Seen`, `Channel.trace`,
`Channel.Held`.
Key theorems: `Queue.offer_cases`, `Queue.take_cases`, `Channel.Held.step`,
`Channel.delivery`, `Agent.channel_serveForwarder`.
-/
import Mathlib.Data.List.Induction
import Mathlib.Data.List.Nodup
import QuotaWatch.Agent.Api

namespace QuotaWatch

/-! ### One queue -/

namespace Queue

variable {α : Type}

/-- The queues have the same bound and the same ends. -/
structure SameEnds (q q' : Queue α) : Prop where
  limit : q'.limit = q.limit
  senders : q'.senders = q.senders
  hasReceiver : q'.hasReceiver = q.hasReceiver

/-- **What becomes of an item**: the queue is closed or full and stays as it is, or the item
waits behind all others. -/
theorem offer_cases (q : Queue α) (a : α) :
    (q.hasReceiver = false ∧ q.offer a = (q, .closed)) ∨
    (q.hasReceiver = true ∧ q.isFull = true ∧ q.offer a = (q, .full)) ∨
    (q.hasReceiver = true ∧ q.isFull = false ∧ (q.offer a).2 = .accepted ∧
      (q.offer a).1.waiting = q.waiting ++ [a] ∧ SameEnds q (q.offer a).1) := by
  unfold offer
  cases hreceiver : q.hasReceiver with
  | false => exact Or.inl ⟨rfl, rfl⟩
  | true =>
    refine Or.inr ?_
    by_cases hfull : q.isFull = true
    · refine Or.inl ⟨rfl, hfull, ?_⟩
      simp [hfull]
    · refine Or.inr ⟨rfl, by simpa using hfull, ?_⟩
      simp only [hfull]
      exact ⟨rfl, rfl, rfl, rfl, hreceiver.symm⟩

/-- **What a receiver gets**: the item that has waited longest, or the news that none waits. -/
theorem take_cases (q : Queue α) :
    (∃ a rest, q.waiting = a :: rest ∧ q.take.2 = .item a ∧ q.take.1.waiting = rest ∧
      SameEnds q q.take.1) ∨
    (q.waiting = [] ∧ q.take = (q, if q.senders = 0 then .disconnected else .empty)) := by
  unfold take
  split
  · rename_i a rest hwaiting
    exact Or.inl ⟨a, rest, hwaiting, rfl, rfl, rfl, rfl, rfl⟩
  · rename_i hwaiting
    exact Or.inr ⟨hwaiting, rfl⟩

/-- Queues with the same ends are the same once they are emptied. -/
theorem SameEnds.drain {q q' : Queue α} (h : SameEnds q q') : q'.drain.1 = q.drain.1 := by
  obtain ⟨hlimit, hsenders, hreceiver⟩ := h
  simp only [Queue.drain, Queue.mk.injEq, true_and]
  exact ⟨hlimit, hsenders, hreceiver⟩

/-- An empty queue is left as it is by emptying it. -/
theorem drain_of_nil {q : Queue α} (h : q.waiting = []) : q.drain.1 = q := by
  obtain ⟨limit, waiting, senders, hasReceiver, within⟩ := q
  obtain rfl : waiting = [] := h
  rfl

end Queue

/-! ### The parties -/

/-- Who has the receiving end. -/
inductive Reader (α : Type) where
  /-- Somebody who receives from it. -/
  | held
  /-- The forwarder, with the item that it has in hand. -/
  | forwarding (hand : Option α)
  | ended

/-- A queue with its ends and what is recorded behind it. -/
structure Channel (α : Type) where
  queue : Queue α
  /-- The sending ends that are there. -/
  handles : List ℕ := [0]
  /-- How many sending ends have been made. -/
  made : ℕ := 1
  reader : Reader α := .held
  /-- What was recorded last. -/
  latest : Option α := none

namespace Channel

/-- What the parties do next. -/
inductive Act (α : Type) where
  | send (handle : ℕ) (a : α)
  | clone (handle : ℕ)
  | dropSender (handle : ℕ)
  | receive
  /-- The receiving end is dropped, by its holder or with the forwarder. -/
  | dropReceiver
  /-- The receiving end is given to the forwarder. -/
  | forward
  /-- The forwarder asks for the next item. -/
  | fetch
  /-- The forwarder records the item in its hand. -/
  | record
  | read

/-- What is seen of an act. -/
inductive Seen (α : Type) where
  | sent (a : α) (offer : Offer)
  | received (r : Received α)
  | fetched (r : Received α)
  | recorded (a : α)
  | read (latest : Option α)

variable {α : Type}

/-- A channel as it is made, where a queue of this size can be made. -/
def make? (buffer : UInt64) : Option (Channel α) :=
  (Queue.ofBuffer? buffer).map fun queue => { queue }

/-- One act: the channel behind it, and what is seen of it. An act through an end that is not
there is none. -/
def step (c : Channel α) : Act α → Channel α × Option (Seen α)
  | .send handle a =>
    if handle ∈ c.handles then
      ({ c with queue := (c.queue.offer a).1 }, some (.sent a (c.queue.offer a).2))
    else (c, none)
  | .clone handle =>
    if handle ∈ c.handles then
      ({ c with
          queue := c.queue.cloneSender
          handles := c.handles ++ [c.made]
          made := c.made + 1 },
        none)
    else (c, none)
  | .dropSender handle =>
    if handle ∈ c.handles then
      ({ c with queue := c.queue.dropSender, handles := c.handles.erase handle }, none)
    else (c, none)
  | .receive =>
    match c.reader with
    | .held => ({ c with queue := c.queue.take.1 }, some (.received c.queue.take.2))
    | _ => (c, none)
  | .dropReceiver => ({ c with queue := c.queue.dropReceiver, reader := .ended }, none)
  | .forward =>
    match c.reader with
    | .held => ({ c with reader := .forwarding none }, none)
    | _ => (c, none)
  | .fetch =>
    match c.reader with
    | .forwarding none =>
      match c.queue.take.2 with
      | .item a =>
        ({ c with queue := c.queue.take.1, reader := .forwarding (some a) },
          some (.fetched (.item a)))
      | .empty => (c, some (.fetched .empty))
      | .disconnected =>
        ({ c with queue := c.queue.dropReceiver, reader := .ended }, some (.fetched .disconnected))
    | _ => (c, none)
  | .record =>
    match c.reader with
    | .forwarding (some a) =>
      ({ c with reader := .forwarding none, latest := some a }, some (.recorded a))
    | _ => (c, none)
  | .read => (c, some (.read c.latest))

/-- The channel behind acts. -/
def after (c : Channel α) : List (Act α) → Channel α
  | [] => c
  | act :: acts => (c.step act).1.after acts

/-- What is seen of acts, in order. -/
def trace (c : Channel α) : List (Act α) → List (Seen α)
  | [] => []
  | act :: acts => (c.step act).2.toList ++ (c.step act).1.trace acts

theorem after_concat (act : Act α) : ∀ (c : Channel α) (acts : List (Act α)),
    c.after (acts ++ [act]) = ((c.after acts).step act).1
  | _, [] => rfl
  | c, first :: acts => after_concat act (c.step first).1 acts

theorem trace_concat (act : Act α) : ∀ (c : Channel α) (acts : List (Act α)),
    c.trace (acts ++ [act]) = c.trace acts ++ ((c.after acts).step act).2.toList
  | c, [] => by simp [trace, after]
  | c, first :: acts => by
    rw [List.cons_append, trace, trace_concat act (c.step first).1 acts, trace, after,
      List.append_assoc]

/-! ### What a trace shows -/

namespace Seen

/-- The item that was sent and not dropped. -/
def accepted? : Seen α → Option α
  | .sent a .accepted => some a
  | _ => none

/-- The item that was taken by a holder of the receiving end. -/
def received? : Seen α → Option α
  | .received (.item a) => some a
  | _ => none

/-- The item that was taken by the forwarder. -/
def fetched? : Seen α → Option α
  | .fetched (.item a) => some a
  | _ => none

def recorded? : Seen α → Option α
  | .recorded a => some a
  | _ => none

def read? : Seen α → Option (Option α)
  | .read latest => some latest
  | _ => none

end Seen

section Trace

variable (t : List (Seen α))

def accepted : List α := t.filterMap Seen.accepted?

def received : List α := t.filterMap Seen.received?

def fetched : List α := t.filterMap Seen.fetched?

def recorded : List α := t.filterMap Seen.recorded?

/-- What readers saw, in order. -/
def reads : List (Option α) := t.filterMap Seen.read?

end Trace

/-- The readers saw what was recorded last, and never went back. -/
def ReadInOrder (recorded : List α) (reads : List (Option α)) : Prop :=
  ∃ ks : List ℕ, ks.Pairwise (· ≤ ·) ∧ (∀ k ∈ ks, k ≤ recorded.length) ∧
    reads = ks.map fun k => (recorded.take k).getLast?

namespace ReadInOrder

variable {items : List α} {rs : List (Option α)}

theorem nil : ReadInOrder ([] : List α) [] := ⟨[], List.Pairwise.nil, nofun, rfl⟩

theorem record (h : ReadInOrder items rs) (a : α) : ReadInOrder (items ++ [a]) rs := by
  obtain ⟨ks, hks, hle, rfl⟩ := h
  refine ⟨ks, hks, fun k hk => ?_, List.map_congr_left fun k hk => ?_⟩
  · have := hle k hk
    simp only [List.length_append, List.length_singleton]
    omega
  · rw [List.take_append_of_le_length (hle k hk)]

theorem read (h : ReadInOrder items rs) : ReadInOrder items (rs ++ [items.getLast?]) := by
  obtain ⟨ks, hks, hle, rfl⟩ := h
  refine ⟨ks ++ [items.length], ?_, ?_, ?_⟩
  · rw [List.pairwise_append]
    refine ⟨hks, List.pairwise_singleton _ _, fun k hk l hl => ?_⟩
    rw [List.mem_singleton.mp hl]
    exact hle k hk
  · intro k hk
    rcases List.mem_append.mp hk with hk | hk
    · exact hle k hk
    · exact Nat.le_of_eq (List.mem_singleton.mp hk)
  · rw [List.map_append, List.map_singleton, List.take_length]

end ReadInOrder

/-- What holds of a channel and of the trace of the run that led to it. -/
structure Held (cap : ℕ) (c : Channel α) (t : List (Seen α)) : Prop where
  limit : c.queue.limit = some cap
  senders : c.queue.senders = c.handles.length
  once : c.handles.Nodup
  old : ∀ handle ∈ c.handles, handle < c.made
  receiver : c.queue.hasReceiver = true ↔ c.reader ≠ .ended
  /-- What is accepted has been taken or waits; with the receiving end goes what waits. -/
  order : ∃ lost, accepted t = received t ++ fetched t ++ c.queue.waiting ++ lost ∧
    (c.reader ≠ .ended → lost = []) ∧ (c.reader = .ended → c.queue.waiting = [])
  /-- What the forwarder takes it records, but for the item that it has or had in hand. -/
  hand : ∃ hand : Option α, fetched t = recorded t ++ hand.toList ∧
    (c.reader = .held → fetched t = []) ∧ ∀ item, c.reader = .forwarding item → hand = item
  latest : c.latest = (recorded t).getLast?
  reads : ReadInOrder (recorded t) (reads t)

/-- A channel can be made exactly for the sizes of queues. -/
theorem make?_eq_some {buffer : UInt64} {made : Channel α} : make? buffer = some made ↔
    buffer ≤ Queue.largestBuffer ∧ made = { queue := Queue.bounded buffer } := by
  unfold make? Queue.ofBuffer?
  by_cases hsize : buffer ≤ Queue.largestBuffer
  · simp [hsize, eq_comm]
  · simp [hsize]

theorem held_make {buffer : UInt64} {made : Channel α} (h : make? buffer = some made) :
    Held (max buffer.toNat 1) made [] := by
  obtain ⟨-, rfl⟩ := make?_eq_some.mp h
  exact {
    limit := rfl
    senders := rfl
    once := List.nodup_singleton 0
    old := by simp
    receiver := iff_of_true rfl nofun
    order := ⟨[], rfl, fun _ => rfl, nofun⟩
    hand := ⟨none, rfl, fun _ => rfl, nofun⟩
    latest := rfl
    reads := ReadInOrder.nil }

variable {cap : ℕ} {c : Channel α} {t : List (Seen α)}

/-- The parts of a trace that are told apart. -/
theorem concat_eq (t : List (Seen α)) (x : Seen α) :
    accepted (t ++ [x]) = accepted t ++ x.accepted?.toList ∧
      received (t ++ [x]) = received t ++ x.received?.toList ∧
      fetched (t ++ [x]) = fetched t ++ x.fetched?.toList ∧
      recorded (t ++ [x]) = recorded t ++ x.recorded?.toList ∧
      reads (t ++ [x]) = reads t ++ x.read?.toList := by
  have hone : ∀ {β : Type} (f : Seen α → Option β),
      (t ++ [x]).filterMap f = t.filterMap f ++ (f x).toList := by
    intro β f
    rw [List.filterMap_append]
    cases hx : f x with
    | none => simp [hx]
    | some y => simp [hx]
  exact ⟨hone _, hone _, hone _, hone _, hone _⟩

namespace Held

variable (h : Held cap c t)
include h

/-- What carries no item is not told apart. -/
theorem unseen {x : Seen α} (haccepted : x.accepted? = none) (hreceived : x.received? = none)
    (hfetched : x.fetched? = none) (hrecorded : x.recorded? = none) (hread : x.read? = none) :
    Held cap c (t ++ [x]) := by
  obtain ⟨ha, hr, hf, hd, hs⟩ := concat_eq t x
  rw [haccepted, Option.toList_none, List.append_nil] at ha
  rw [hreceived, Option.toList_none, List.append_nil] at hr
  rw [hfetched, Option.toList_none, List.append_nil] at hf
  rw [hrecorded, Option.toList_none, List.append_nil] at hd
  rw [hread, Option.toList_none, List.append_nil] at hs
  constructor
  · exact h.limit
  · exact h.senders
  · exact h.once
  · exact h.old
  · exact h.receiver
  · rw [ha, hr, hf]
    exact h.order
  · rw [hf, hd]
    exact h.hand
  · rw [hd]
    exact h.latest
  · rw [hd, hs]
    exact h.reads

/-- With the receiving end goes what waits. -/
theorem dropReceiver : Held cap { c with queue := c.queue.dropReceiver, reader := .ended } t where
  limit := h.limit
  senders := h.senders
  once := h.once
  old := h.old
  receiver := iff_of_false Bool.false_ne_true fun hne => hne rfl
  order := by
    obtain ⟨lost, hall, -, -⟩ := h.order
    refine ⟨c.queue.waiting ++ lost, ?_, fun hne => absurd rfl hne, fun _ => rfl⟩
    rw [hall]
    simp [Queue.dropReceiver]
  hand := by
    obtain ⟨hand, hfetched, -, -⟩ := h.hand
    refine ⟨hand, hfetched, fun hheld => ?_, fun item hitem => ?_⟩
    · cases hheld
    · cases hitem
  latest := h.latest
  reads := h.reads

theorem send (a : α) : Held cap { c with queue := (c.queue.offer a).1 }
    (t ++ [.sent a (c.queue.offer a).2]) := by
  rcases c.queue.offer_cases a with ⟨-, he⟩ | ⟨-, -, he⟩ |
    ⟨hreceiver, -, haccepted, hwaiting, hends⟩
  · rw [he]
    exact h.unseen rfl rfl rfl rfl rfl
  · rw [he]
    exact h.unseen rfl rfl rfl rfl rfl
  · rw [haccepted]
    obtain ⟨ha, hr, hf, hd, hs⟩ := concat_eq t (.sent a .accepted)
    have hthere : c.reader ≠ .ended := h.receiver.mp hreceiver
    constructor
    · exact hends.limit.trans h.limit
    · exact hends.senders.trans h.senders
    · exact h.once
    · exact h.old
    · rw [hends.hasReceiver]
      exact h.receiver
    · obtain ⟨lost, hall, hkept, -⟩ := h.order
      refine ⟨[], ?_, fun _ => rfl, fun hended => absurd hended hthere⟩
      rw [ha, hr, hf, hall, hkept hthere, hwaiting]
      simp [Seen.accepted?, Seen.received?, Seen.fetched?]
    · rw [hf, hd]
      simpa [Seen.fetched?, Seen.recorded?] using h.hand
    · rw [hd]
      simpa [Seen.recorded?] using h.latest
    · rw [hd, hs]
      simpa [Seen.recorded?, Seen.read?] using h.reads

/-- The holder of the receiving end gets an item. -/
theorem receive (hheld : c.reader = .held) : Held cap { c with queue := c.queue.take.1 }
    (t ++ [.received c.queue.take.2]) := by
  rcases c.queue.take_cases with ⟨a, rest, hwaiting, hitem, hrest, hends⟩ | ⟨hnone, he⟩
  · rw [hitem]
    obtain ⟨ha, hr, hf, hd, hs⟩ := concat_eq t (.received (.item a))
    have hthere : c.reader ≠ .ended := by rw [hheld]; nofun
    obtain ⟨hand, hfetched, hnone, -⟩ := h.hand
    constructor
    · exact hends.limit.trans h.limit
    · exact hends.senders.trans h.senders
    · exact h.once
    · exact h.old
    · rw [hends.hasReceiver]
      exact h.receiver
    · -- the forwarder has taken nothing yet, so that the item is the next one
      obtain ⟨lost, hall, hkept, -⟩ := h.order
      refine ⟨[], ?_, fun _ => rfl, fun hended => absurd hended hthere⟩
      rw [ha, hr, hf, hall, hkept hthere, hwaiting, hrest, hnone hheld]
      simp [Seen.accepted?, Seen.received?, Seen.fetched?]
    · rw [hf, hd]
      simpa [Seen.fetched?, Seen.recorded?] using h.hand
    · rw [hd]
      simpa [Seen.recorded?] using h.latest
    · rw [hd, hs]
      simpa [Seen.recorded?, Seen.read?] using h.reads
  · rw [he]
    split
    · exact h.unseen rfl rfl rfl rfl rfl
    · exact h.unseen rfl rfl rfl rfl rfl

/-- The forwarder gets an item into its hand. -/
theorem fetch (hfree : c.reader = .forwarding none) {a : α} (hitem : c.queue.take.2 = .item a) :
    Held cap { c with queue := c.queue.take.1, reader := .forwarding (some a) }
      (t ++ [.fetched (.item a)]) := by
  have hthere : c.reader ≠ .ended := by rw [hfree]; nofun
  rcases c.queue.take_cases with ⟨b, rest, hwaiting, hfirst, hrest, hends⟩ | ⟨-, he⟩
  · obtain rfl : b = a := Received.item.inj (hfirst.symm.trans hitem)
    obtain ⟨ha, hr, hf, hd, hs⟩ := concat_eq t (.fetched (.item b))
    constructor
    · exact hends.limit.trans h.limit
    · exact hends.senders.trans h.senders
    · exact h.once
    · exact h.old
    · rw [hends.hasReceiver]
      exact iff_of_true (h.receiver.mpr hthere) nofun
    · obtain ⟨lost, hall, hkept, -⟩ := h.order
      refine ⟨[], ?_, fun _ => rfl, nofun⟩
      rw [ha, hr, hf, hall, hkept hthere, hwaiting, hrest]
      simp [Seen.accepted?, Seen.received?, Seen.fetched?]
    · -- the hand was free, so that all that was taken before is recorded
      obtain ⟨hand, hfetched, -, hfull⟩ := h.hand
      obtain rfl : hand = none := hfull none hfree
      refine ⟨some b, ?_, nofun, ?_⟩
      · rw [hf, hd, hfetched]
        simp [Seen.fetched?, Seen.recorded?]
      · rintro item ⟨⟩
        rfl
    · rw [hd]
      simpa [Seen.recorded?] using h.latest
    · rw [hd, hs]
      simpa [Seen.recorded?, Seen.read?] using h.reads
  · rw [he] at hitem
    split at hitem <;> cases hitem

/-- The forwarder records the item in its hand. -/
theorem record {a : α} (hfull : c.reader = .forwarding (some a)) :
    Held cap { c with reader := .forwarding none, latest := some a } (t ++ [.recorded a]) := by
  have hthere : c.reader ≠ .ended := by rw [hfull]; nofun
  obtain ⟨ha, hr, hf, hd, hs⟩ := concat_eq t (.recorded a)
  constructor
  · exact h.limit
  · exact h.senders
  · exact h.once
  · exact h.old
  · exact iff_of_true (h.receiver.mpr hthere) nofun
  · obtain ⟨lost, hall, hkept, -⟩ := h.order
    refine ⟨[], ?_, fun _ => rfl, nofun⟩
    rw [ha, hr, hf, hall, hkept hthere]
    simp [Seen.accepted?, Seen.received?, Seen.fetched?]
  · obtain ⟨hand, hfetched, -, hhand⟩ := h.hand
    obtain rfl : hand = some a := hhand (some a) hfull
    refine ⟨none, ?_, nofun, ?_⟩
    · rw [hf, hd, hfetched]
      simp [Seen.fetched?, Seen.recorded?]
    · rintro item ⟨⟩
      rfl
  · rw [hd]
    simp [Seen.recorded?]
  · rw [hd, hs]
    simpa [Seen.recorded?, Seen.read?] using h.reads.record a

/-- A reader sees what was recorded last. -/
theorem read : Held cap c (t ++ [.read c.latest]) := by
  obtain ⟨ha, hr, hf, hd, hs⟩ := concat_eq t (.read c.latest)
  simp only [Seen.accepted?, Seen.received?, Seen.fetched?, Seen.recorded?, Option.toList_none,
    List.append_nil] at ha hr hf hd
  constructor
  · exact h.limit
  · exact h.senders
  · exact h.once
  · exact h.old
  · exact h.receiver
  · rw [ha, hr, hf]
    exact h.order
  · rw [hf, hd]
    exact h.hand
  · rw [hd]
    exact h.latest
  · rw [hd, hs, h.latest]
    exact h.reads.read

/-- One more sending end, made from one that is there. -/
theorem clone {handle : ℕ} (hlive : handle ∈ c.handles) :
    Held cap
      { c with queue := c.queue.cloneSender, handles := c.handles ++ [c.made], made := c.made + 1 }
      t where
  limit := h.limit
  senders := by
    have hpos : 0 < c.handles.length := List.length_pos_of_mem hlive
    have hsenders := h.senders
    have hsome : c.queue.senders ≠ 0 := by omega
    simp only [Queue.cloneSender, hsome, if_false, List.length_append, List.length_singleton]
    omega
  once := by
    rw [List.nodup_append]
    refine ⟨h.once, List.nodup_singleton _, fun i hi j hj heq => ?_⟩
    have hlt := h.old i hi
    rw [List.mem_singleton.mp hj] at heq
    omega
  old := by
    intro i hi
    show i < c.made + 1
    rcases List.mem_append.mp hi with hi | hi
    · have := h.old i hi
      omega
    · rw [List.mem_singleton.mp hi]
      omega
  receiver := h.receiver
  order := h.order
  hand := h.hand
  latest := h.latest
  reads := h.reads

theorem dropSender {handle : ℕ} (hlive : handle ∈ c.handles) :
    Held cap { c with queue := c.queue.dropSender, handles := c.handles.erase handle } t where
  limit := h.limit
  senders := by
    show c.queue.senders - 1 = (c.handles.erase handle).length
    rw [List.length_erase_of_mem hlive, h.senders]
  once := h.once.erase handle
  old := fun i hi => h.old i (List.mem_of_mem_erase hi)
  receiver := h.receiver
  order := h.order
  hand := h.hand
  latest := h.latest
  reads := h.reads

/-- The holder gives the receiving end to the forwarder. -/
theorem forward (hheld : c.reader = .held) : Held cap { c with reader := .forwarding none } t where
  limit := h.limit
  senders := h.senders
  once := h.once
  old := h.old
  receiver := iff_of_true (h.receiver.mpr (by rw [hheld]; nofun)) nofun
  order := by
    obtain ⟨lost, hall, hkept, -⟩ := h.order
    exact ⟨lost, hall, fun _ => hkept (by rw [hheld]; nofun), nofun⟩
  hand := by
    obtain ⟨hand, hfetched, hnone, -⟩ := h.hand
    have hboth : recorded t = [] ∧ hand.toList = [] := by
      rw [hnone hheld] at hfetched
      exact List.append_eq_nil_iff.mp hfetched.symm
    refine ⟨none, ?_, nofun, ?_⟩
    · rw [hnone hheld, hboth.1]
      rfl
    · rintro item ⟨⟩
      rfl
  latest := h.latest
  reads := h.reads

/-- **What every act keeps.** -/
theorem step (act : Act α) : Held cap (c.step act).1 (t ++ (c.step act).2.toList) := by
  have hself : Held cap c (t ++ (none : Option (Seen α)).toList) := by simpa using h
  cases act with
  | send handle a =>
    by_cases hlive : handle ∈ c.handles
    · simpa only [Channel.step, if_pos hlive, Option.toList_some] using h.send a
    · simpa only [Channel.step, if_neg hlive] using hself
  | clone handle =>
    by_cases hlive : handle ∈ c.handles
    · simpa [Channel.step, hlive] using h.clone hlive
    · simpa only [Channel.step, if_neg hlive] using hself
  | dropSender handle =>
    by_cases hlive : handle ∈ c.handles
    · simpa [Channel.step, hlive] using h.dropSender hlive
    · simpa only [Channel.step, if_neg hlive] using hself
  | receive =>
    cases hreader : c.reader with
    | held => simpa only [Channel.step, hreader, Option.toList_some] using h.receive hreader
    | _ => simpa only [Channel.step, hreader] using hself
  | dropReceiver => simpa [Channel.step] using h.dropReceiver
  | forward =>
    cases hreader : c.reader with
    | held => simpa [Channel.step, hreader] using h.forward hreader
    | _ => simpa only [Channel.step, hreader] using hself
  | fetch =>
    cases hreader : c.reader with
    | forwarding hand =>
      cases hand with
      | none =>
        cases hitem : c.queue.take.2 with
        | item a =>
          simpa only [Channel.step, hreader, hitem, Option.toList_some] using h.fetch hreader hitem
        | empty =>
          have hsame : Held cap c (t ++ [.fetched .empty]) := h.unseen rfl rfl rfl rfl rfl
          simpa only [Channel.step, hreader, hitem, Option.toList_some] using hsame
        | disconnected =>
          have hended := h.dropReceiver.unseen (x := .fetched .disconnected) rfl rfl rfl rfl rfl
          simpa only [Channel.step, hreader, hitem, Option.toList_some] using hended
      | some a => simpa only [Channel.step, hreader] using hself
    | _ => simpa only [Channel.step, hreader] using hself
  | record =>
    cases hreader : c.reader with
    | forwarding hand =>
      cases hand with
      | none => simpa only [Channel.step, hreader] using hself
      | some a => simpa only [Channel.step, hreader, Option.toList_some] using h.record hreader
    | _ => simpa only [Channel.step, hreader] using hself
  | read => exact h.read

end Held

/-- **What holds behind every run** of a channel from its making on. -/
theorem held_after {buffer : UInt64} {made : Channel α} (h : make? buffer = some made)
    (acts : List (Act α)) :
    Held (max buffer.toNat 1) (made.after acts) (made.trace acts) := by
  induction acts using List.reverseRecOn with
  | nil => exact held_make h
  | append_singleton acts act ih =>
    rw [after_concat, trace_concat]
    exact ih.step act

/-! ### What is delivered -/

/-- What the receiving end gives next: the first item of all that were accepted that has not
been taken, or else the news whether there still is a sending end. -/
def nextOf (c : Channel α) (t : List (Seen α)) : Received α :=
  match (accepted t)[(received t ++ fetched t).length]? with
  | some a => .item a
  | none => if c.handles = [] then .disconnected else .empty

/-- What the parties meet with next, behind a run with a trace. -/
structure Next (cap : ℕ) (c : Channel α) (t : List (Seen α)) : Prop where
  /-- An item is dropped exactly if the queue is full or its receiver is gone, and then
  nothing has changed. -/
  send : ∀ handle ∈ c.handles, ∀ a, ∃ offer, (c.step (.send handle a)).2 = some (.sent a offer) ∧
    (offer ≠ .accepted ↔ c.queue.waiting.length = cap ∨ c.reader = .ended) ∧
    (offer ≠ .accepted → (c.step (.send handle a)).1 = c)
  receive : c.reader = .held → (c.step .receive).2 = some (.received (nextOf c t))
  fetch : c.reader = .forwarding none → (c.step .fetch).2 = some (.fetched (nextOf c t))
  read : c.step .read = (c, some (.read (recorded t).getLast?))

namespace Held

variable (h : Held cap c t)
include h

theorem isFull_iff : c.queue.isFull = true ↔ c.queue.waiting.length = cap := by
  have hwithin := c.queue.withinLimit cap h.limit
  unfold Queue.isFull
  rw [h.limit, Option.any_some, decide_eq_true_eq]
  omega

/-- The receiving end gives what is next in the order of sending. -/
theorem take_eq (hthere : c.reader ≠ .ended) : c.queue.take.2 = nextOf c t := by
  obtain ⟨lost, hall, hkept, -⟩ := h.order
  have hnext : (accepted t)[(received t ++ fetched t).length]? = c.queue.waiting.head? := by
    rw [hall, hkept hthere, List.append_nil, List.getElem?_append_right (Nat.le_refl _),
      Nat.sub_self, List.head?_eq_getElem?]
  unfold nextOf
  rw [hnext]
  rcases c.queue.take_cases with ⟨a, rest, hwaiting, hitem, -⟩ | ⟨hnone, he⟩
  · rw [hwaiting, hitem]
    rfl
  · have hends : c.queue.senders = 0 ↔ c.handles = [] := by
      rw [h.senders, List.length_eq_zero_iff]
    rw [hnone, he]
    simp only [List.head?_nil, hends]

theorem next : Next cap c t where
  send := by
    intro handle hlive a
    refine ⟨(c.queue.offer a).2, ?_, ?_, ?_⟩
    · simp only [Channel.step, if_pos hlive]
    · rcases c.queue.offer_cases a with ⟨hgone, he⟩ | ⟨-, hfull, he⟩ |
        ⟨hreceiver, hfree, haccepted, -⟩
      · have hended : c.reader = .ended := by
          by_contra hthere
          rw [h.receiver.mpr hthere] at hgone
          cases hgone
        rw [he]
        exact iff_of_true nofun (Or.inr hended)
      · rw [he]
        exact iff_of_true nofun (Or.inl (h.isFull_iff.mp hfull))
      · have hnot : ¬ c.queue.waiting.length = cap := by
          rw [← h.isFull_iff, hfree]
          exact Bool.false_ne_true
        rw [haccepted]
        refine iff_of_false (fun hne => hne rfl) ?_
        rintro (hlen | hended)
        · exact hnot hlen
        · exact h.receiver.mp hreceiver hended
    · intro hdropped
      simp only [Channel.step, if_pos hlive]
      rcases c.queue.offer_cases a with ⟨-, he⟩ | ⟨-, -, he⟩ | ⟨-, -, haccepted, -⟩
      · rw [he]
      · rw [he]
      · exact absurd haccepted hdropped
  receive := by
    intro hheld
    have hthere : c.reader ≠ .ended := by rw [hheld]; nofun
    simp only [Channel.step, hheld, h.take_eq hthere]
  fetch := by
    intro hfree
    have hthere : c.reader ≠ .ended := by rw [hfree]; nofun
    simp only [Channel.step, hfree, ← h.take_eq hthere]
    cases c.queue.take.2 <;> rfl
  read := by rw [Channel.step, h.latest]

end Held

/-- **From the senders to the readers.** A channel can be made for every size up to the largest
one of queues. However the parties take turns then, no more items wait
than the queue is made for. What is accepted is, in the order of sending, what the holder of the
receiving end and then the forwarder took, what waits, and what was lost with the receiving end
when it was dropped. The forwarder records what it takes, up to the item in its hand. Readers
see what was recorded last and never go back. And what comes next is what `Next` says: an item
is dropped only by a full queue or one without a receiver, and a receiver gets the next item in
order, also behind the last sender, and only then learns that there is none. -/
theorem delivery (buffer : UInt64) (acts : List (Act α)) :
    let cap := max buffer.toNat 1
    ((∃ made : Channel α, make? buffer = some made) ↔ buffer ≤ Queue.largestBuffer) ∧
      ∀ made : Channel α, make? buffer = some made →
        let c := made.after acts
        let t := made.trace acts
        c.queue.waiting.length ≤ cap ∧
          (∃ lost, accepted t = received t ++ fetched t ++ c.queue.waiting ++ lost ∧
            (c.reader ≠ .ended → lost = [])) ∧
          (∃ hand : Option α, fetched t = recorded t ++ hand.toList ∧
            ∀ item, c.reader = .forwarding item → hand = item) ∧
          ReadInOrder (recorded t) (reads t) ∧
          Next cap c t := by
  intro cap
  refine ⟨by simp [make?_eq_some], fun made hmade => ?_⟩
  intro c t
  have h : Held cap c t := held_after hmade acts
  obtain ⟨lost, hall, hkept, -⟩ := h.order
  obtain ⟨hand, hfetched, -, hhand⟩ := h.hand
  refine ⟨c.queue.withinLimit cap h.limit, ⟨lost, hall, hkept⟩, ?_, h.reads, h.next⟩
  exact ⟨hand, hfetched, hhand⟩

/-! ### Agents -/

/-- The forwarder alone takes all that waits, item by item, and records it. -/
theorem after_forwarding : ∀ (waiting : List α) (c : Channel α), c.reader = .forwarding none →
    c.queue.waiting = waiting →
      c.after (waiting.flatMap fun _ => [.fetch, .record]) =
        { c with queue := c.queue.drain.1, latest := waiting.getLast?.or c.latest }
  | [], c, _, hwaiting => by
    rw [Queue.drain_of_nil hwaiting]
    rfl
  | a :: waiting, c, hreader, hwaiting => by
    rcases c.queue.take_cases with ⟨b, rest, hfront, hitem, hrest, hends⟩ | ⟨hnone, -⟩
    · obtain ⟨rfl, rfl⟩ : a = b ∧ waiting = rest := List.cons.inj (hwaiting.symm.trans hfront)
      have hfetch : c.step .fetch =
          ({ c with queue := c.queue.take.1, reader := .forwarding (some a) },
            some (.fetched (.item a))) := by
        simp only [step, hreader, hitem]
      have hrest' := after_forwarding waiting
        { c with queue := c.queue.take.1, reader := .forwarding none, latest := some a } rfl hrest
      have hboth : c.after ((a :: waiting).flatMap fun _ => [.fetch, .record]) =
          Channel.after
            { c with queue := c.queue.take.1, reader := .forwarding none, latest := some a }
            (waiting.flatMap fun _ => [.fetch, .record]) := by
        rw [List.flatMap_cons, List.cons_append, List.singleton_append, after, after, hfetch]
        rfl
      rw [hboth, hrest', hends.drain, hreader, List.getLast?_cons]
      cases waiting.getLast? <;> rfl
    · rw [hwaiting] at hnone
      cases hnone

end Channel

namespace Agent

/-- The agent's queue with its ends and the latest snapshot. -/
def channel (a : Agent) (queue : Queue Snapshot) : Channel Snapshot where
  queue := queue
  handles := List.range queue.senders
  made := queue.senders
  reader :=
    match a.receiver with
    | .inside | .held => .held
    | .forwarding => .forwarding none
    | .gone => .ended
  latest := a.latest.map (·.snapshot)

variable {a : Agent} {queue : Queue Snapshot}

/-- An agent hands a snapshot on as a sending end of its channel does. -/
theorem channel_deliver (hqueue : a.queue = some queue) (hsender : 0 < queue.senders)
    (s : Snapshot) : ∃ queue', (a.deliver s).1 = { a with queue := some queue' } ∧
      (a.channel queue).step (.send 0 s) =
        (a.channel queue', some (.sent s (queue.offer s).2)) := by
  refine ⟨(queue.offer s).1, ?_, ?_⟩
  · rw [deliver, hqueue]
  · have hsenders : (queue.offer s).1.senders = queue.senders := by
      rcases queue.offer_cases s with ⟨-, he⟩ | ⟨-, -, he⟩ | ⟨-, -, -, -, hends⟩
      · rw [he]
      · rw [he]
      · exact hends.senders
    have hlive : 0 ∈ (a.channel queue).handles := List.mem_range.mpr hsender
    rw [Channel.step, if_pos hlive]
    simp only [channel, hsenders]

/-- The forwarder of an agent does at once what the forwarder of its channel does item by item,
with nothing in between. -/
theorem channel_serveForwarder (hqueue : a.queue = some queue)
    (hreceiver : a.receiver = .forwarding) :
    ∃ queue', (a.serveForwarder.1.queue = some queue') ∧
      a.serveForwarder.1.channel queue' =
        (a.channel queue).after (queue.waiting.flatMap fun _ => [.fetch, .record]) := by
  have hreader : (a.channel queue).reader = .forwarding none := by simp only [channel, hreceiver]
  rw [Channel.after_forwarding queue.waiting (a.channel queue) hreader rfl]
  unfold serveForwarder
  rw [hreceiver, hqueue]
  refine ⟨queue.drain.1, rfl, ?_⟩
  simp only [channel, hreceiver, Queue.drain]
  cases queue.waiting.getLast? <;> rfl

/-- A client is answered with what a reader of the channel sees. -/
theorem latestResponse_eq (queue : Queue Snapshot) : a.latestResponse =
    match (a.channel queue).latest with
    | some s => .ofJson s.toJson
    | none => .ofFault 404 "no snapshot delivered yet" := by
  unfold latestResponse channel
  cases a.latest <;> rfl

end Agent

end QuotaWatch
