import WaterGateway.Common.Fifo
import WaterGateway.Common.Run
import WaterGateway.Common.Word

/-!
# The sample queue

`sample_queue.c`: a ring of `capacity` slots behind one mutex. A call runs
in critical sections. It enters one when it first takes the mutex and one
more each time a timed wait gives the mutex back to it, woken or timed
out; a section ends with the call asleep on its condition variable or with
its return. The functions here are these sections, so `none` is a call
that has gone to sleep.

The contents are of any type: the queue copies them and never looks at
them. `w` is the width of `unsigned long`.
-/

namespace WaterGateway

/-- `sample_queue_t`, less its mutex and condition variables. -/
structure SampleQueue (α : Type) (w : ℕ) where
  samples : List α
  capacity : ℕ
  head : ℕ
  tail : ℕ
  count : ℕ
  shutdown : Bool
  overflowCount : BitVec w
  pushCount : BitVec w
  popCount : BitVec w
  deriving DecidableEq

/-- How a call came by the mutex: at its start, or from a timed wait. -/
inductive Resume
  | enter
  | woken
  | timedOut
  deriving DecidableEq

namespace Queue

variable {α : Type} [Inhabited α] {w : ℕ}

/-- `sample_queue_create`, where memory is there. -/
def sampleQueueCreate (capacity : ℤ) : Option (SampleQueue α w) :=
  if capacity ≤ 0 then none
  else some
    { samples := List.replicate capacity.toNat default
      capacity := capacity.toNat
      head := 0
      tail := 0
      count := 0
      shutdown := false
      overflowCount := 0
      pushCount := 0
      popCount := 0 }

/-- The overflow branch of `sample_queue_push`: a full queue moves `tail`
past its oldest sample. -/
def dropOldest (q : SampleQueue α w) : SampleQueue α w :=
  if q.count ≥ q.capacity then
    { q with
      tail := (q.tail + 1) % q.capacity
      count := q.count - 1
      overflowCount := q.overflowCount + 1 }
  else q

/-- The write of `sample_queue_push`. -/
def putSample (q : SampleQueue α w) (sample : α) : SampleQueue α w :=
  { q with
    samples := q.samples.set q.head sample
    head := (q.head + 1) % q.capacity
    count := q.count + 1
    pushCount := q.pushCount + 1 }

/-- `sample_queue_push`, one section: the queue it leaves and its result. -/
def sampleQueuePush (q : SampleQueue α w) (sample : α) (timeoutMs : ℤ) (r : Resume) :
    Option (SampleQueue α w × ℤ) :=
  -- a wait that timed out leaves the loop whatever the count is now
  if q.count ≥ q.capacity ∧ q.shutdown = false ∧ 0 < timeoutMs ∧ r ≠ .timedOut then none
  else if q.shutdown then some (q, -1)
  else some (putSample (dropOldest q) sample, 0)

/-- The read of `sample_queue_pop`. -/
def takeSample (q : SampleQueue α w) : SampleQueue α w :=
  { q with
    tail := (q.tail + 1) % q.capacity
    count := q.count - 1
    popCount := q.popCount + 1 }

/-- `sample_queue_pop`, one section: the queue it leaves, its result, and
what it stores in `*sample`. -/
def sampleQueuePop (q : SampleQueue α w) (timeoutMs : ℤ) (r : Resume) :
    Option (SampleQueue α w × ℤ × Option α) :=
  -- a wait that timed out returns at once, the queue is not looked at again
  if r = .timedOut then some (q, -1, none)
  else if q.count = 0 ∧ q.shutdown = false then
    if timeoutMs ≤ 0 then some (q, -1, none) else none
  else if q.shutdown ∧ q.count = 0 then some (q, -1, none)
  else some (takeSample q, 0, some (q.samples.getD q.tail default))

/-- `sample_queue_shutdown`. -/
def sampleQueueShutdown (q : SampleQueue α w) : SampleQueue α w := { q with shutdown := true }

/-- `sample_queue_count`. -/
def sampleQueueCount (q : SampleQueue α w) : ℕ := q.count

/-- The sample a push would write over: the oldest of a full queue. -/
def overwritten (q : SampleQueue α w) : Option α :=
  if q.count ≥ q.capacity then some (q.samples.getD q.tail default) else none

/-! ## Calls on one queue -/

/-- A section of a call. -/
inductive Op (α : Type)
  | push (sample : α) (timeoutMs : ℤ) (r : Resume)
  | pop (timeoutMs : ℤ) (r : Resume)
  | shutdown
  deriving DecidableEq

/-- How a section ends. -/
inductive Answer (α : Type)
  | asleep
  | returned (code : ℤ) (out : Option α)
  deriving DecidableEq

/-- The queue under its calls. -/
def move (q : SampleQueue α w) : Op α → SampleQueue α w × Answer α
  | .push sample timeoutMs r =>
    match sampleQueuePush q sample timeoutMs r with
    | none => (q, .asleep)
    | some (q', code) => (q', .returned code none)
  | .pop timeoutMs r =>
    match sampleQueuePop q timeoutMs r with
    | none => (q, .asleep)
    | some (q', code, out) => (q', .returned code out)
  | .shutdown => (sampleQueueShutdown q, .returned 0 none)

/-! ## The ring invariant -/

/-- **What the ring keeps**: the slots it was made with, a count within
them, and `head` where the next free slot is. -/
structure WellFormed (q : SampleQueue α w) : Prop where
  slots : q.samples.length = q.capacity
  count_le : q.count ≤ q.capacity
  tail_lt : q.tail < q.capacity
  head_eq : q.head = (q.tail + q.count) % q.capacity

namespace WellFormed

variable {q : SampleQueue α w} (h : WellFormed q)

include h

omit [Inhabited α] in
theorem capacity_pos : 0 < q.capacity := Nat.zero_lt_of_lt h.tail_lt

omit [Inhabited α] in
theorem head_lt : q.head < q.capacity := h.head_eq ▸ Nat.mod_lt _ h.capacity_pos

end WellFormed

/-- The samples in the queue, oldest first. -/
def items (q : SampleQueue α w) : List α := ringItems q.samples q.capacity q.tail q.count

/-- **What the queue stands for.** -/
def abs (q : SampleQueue α w) : Fifo α := ⟨items q, q.shutdown⟩

@[simp] theorem length_items (q : SampleQueue α w) : (items q).length = q.count :=
  length_ringItems _ _

/-- Advancing both ends of the window by one slot. -/
theorem mod_succ_add (a n cap : ℕ) : ((a + 1) % cap + n) % cap = (a + (n + 1)) % cap := by
  rw [Nat.mod_add_mod, Nat.add_assoc, Nat.add_comm 1 n]

variable {q : SampleQueue α w}

theorem wellFormed_create {capacity : ℤ} (h : sampleQueueCreate capacity = some q) :
    WellFormed q ∧ abs q = ⟨[], false⟩ ∧ (q.capacity : ℤ) = capacity := by
  rw [sampleQueueCreate] at h
  split at h
  · cases h
  · cases h
    exact ⟨⟨by simp, by simp, by simp; omega, by simp⟩, rfl, by simp; omega⟩

/-- The items of a queue that is not empty. -/
theorem items_eq_cons (hcount : q.count ≠ 0) :
    items q = q.samples.getD q.tail default :: items (takeSample q) := by
  obtain ⟨n, hn⟩ := Nat.exists_eq_succ_of_ne_zero hcount
  simp only [items, takeSample, hn, Nat.succ_sub_one]
  rfl

omit [Inhabited α] in
theorem wellFormed_takeSample (h : WellFormed q) (hcount : q.count ≠ 0) :
    WellFormed (takeSample q) where
  slots := h.slots
  count_le := le_trans (Nat.sub_le _ _) h.count_le
  tail_lt := Nat.mod_lt _ h.capacity_pos
  head_eq := by
    simp only [takeSample]
    rw [mod_succ_add, Nat.sub_add_cancel (Nat.pos_of_ne_zero hcount), h.head_eq]

theorem wellFormed_dropOldest (h : WellFormed q) :
    WellFormed (dropOldest q) ∧ (dropOldest q).count < q.capacity ∧
      items (dropOldest q) = Fifo.room q.capacity (items q) := by
  have hpos := h.capacity_pos
  have hle := h.count_le
  unfold dropOldest
  split
  · next hfull =>
    -- the ring is full, so `tail` leaves its slot as a pop would
    have hcount : q.count ≠ 0 := by omega
    have hw := wellFormed_takeSample h hcount
    have hitems := items_eq_cons hcount
    refine ⟨⟨hw.slots, hw.count_le, hw.tail_lt, hw.head_eq⟩, ?_, ?_⟩
    · simp only
      omega
    · rw [Fifo.room, length_items, if_pos (by omega), hitems, List.tail_cons]
      rfl
  · next hfree =>
    refine ⟨h, by omega, ?_⟩
    rw [Fifo.room, length_items, if_neg (by omega)]

theorem wellFormed_putSample (h : WellFormed q) (hfree : q.count < q.capacity) (a : α) :
    WellFormed (putSample q a) ∧ items (putSample q a) = items q ++ [a] := by
  refine ⟨⟨?_, hfree, h.tail_lt, ?_⟩, ?_⟩
  · simpa [putSample] using h.slots
  · simp only [putSample]
    rw [h.head_eq, Nat.mod_add_mod, Nat.add_assoc]
  · simp only [items, putSample]
    rw [h.head_eq]
    exact ringItems_write h.tail_lt hfree h.slots a

/-! ## What a section does -/

/-- **A push**: refused by a queue that is shut down, else its sample is
the newest, after the oldest has gone if the queue was full. -/
theorem push_spec (h : WellFormed q) {a : α} {timeoutMs : ℤ} {r : Resume}
    {q' : SampleQueue α w} {code : ℤ} (hpush : sampleQueuePush q a timeoutMs r = some (q', code)) :
    (q.shutdown = true ∧ code = -1 ∧ q' = q) ∨
      (q.shutdown = false ∧ code = 0 ∧ WellFormed q' ∧ q'.capacity = q.capacity ∧
        q'.shutdown = false ∧ items q' = Fifo.room q.capacity (items q) ++ [a]) := by
  unfold sampleQueuePush at hpush
  split at hpush
  · cases hpush
  split at hpush
  · next hshut =>
    cases hpush
    exact Or.inl ⟨hshut, rfl, rfl⟩
  · next hshut =>
    cases hpush
    have hopen : q.shutdown = false := by simpa using hshut
    obtain ⟨hw, hfree, hroom⟩ := wellFormed_dropOldest h
    have hcap : (dropOldest q).capacity = q.capacity := by unfold dropOldest; split <;> rfl
    have hkeep : (dropOldest q).shutdown = q.shutdown := by unfold dropOldest; split <;> rfl
    obtain ⟨hw', hitems⟩ := wellFormed_putSample hw (hcap ▸ hfree) a
    exact Or.inr ⟨hopen, rfl, hw', hcap, hkeep.trans hopen, by rw [hitems, hroom]⟩

/-- **A pop**: the oldest sample and the rest, or `-1` and no change,
which only a wait that timed out can return from a queue that is not
empty. -/
theorem pop_spec (h : WellFormed q) {timeoutMs : ℤ} {r : Resume} {q' : SampleQueue α w}
    {code : ℤ} {out : Option α} (hpop : sampleQueuePop q timeoutMs r = some (q', code, out)) :
    (code = -1 ∧ out = none ∧ q' = q ∧ (r = .timedOut ∨ items q = [])) ∨
      (∃ a, code = 0 ∧ out = some a ∧ r ≠ .timedOut ∧ items q = a :: items q' ∧ WellFormed q' ∧
        q'.capacity = q.capacity ∧ q'.shutdown = q.shutdown) := by
  have hnil : q.count = 0 → items q = [] := fun h0 => by
    rw [← List.length_eq_zero_iff, length_items, h0]
  unfold sampleQueuePop at hpop
  split at hpop
  · next hr => cases hpop; exact Or.inl ⟨rfl, rfl, rfl, Or.inl hr⟩
  split at hpop
  · next hempty =>
    split at hpop
    · cases hpop; exact Or.inl ⟨rfl, rfl, rfl, Or.inr (hnil hempty.1)⟩
    · cases hpop
  split at hpop
  · next hclosed => cases hpop; exact Or.inl ⟨rfl, rfl, rfl, Or.inr (hnil hclosed.2)⟩
  · next hr hopen hclosed =>
    cases hpop
    have hcount : q.count ≠ 0 := by
      intro h0
      cases hs : q.shutdown
      · exact hopen ⟨h0, hs⟩
      · exact hclosed ⟨hs, h0⟩
    exact Or.inr ⟨_, rfl, rfl, hr, items_eq_cons hcount, wellFormed_takeSample h hcount, rfl, rfl⟩

/-- A call that starts on a queue with samples in it takes one. -/
theorem pop_enter (hcount : q.count ≠ 0) (timeoutMs : ℤ) :
    sampleQueuePop q timeoutMs .enter =
      some (takeSample q, 0, some (q.samples.getD q.tail default)) := by
  rw [sampleQueuePop, if_neg (by decide), if_neg (by simp [hcount]), if_neg (by simp [hcount])]

omit [Inhabited α] in
theorem wellFormed_shutdown (h : WellFormed q) : WellFormed (sampleQueueShutdown q) :=
  ⟨h.slots, h.count_le, h.tail_lt, h.head_eq⟩

@[simp] theorem abs_shutdown : abs (sampleQueueShutdown q) = (abs q).close := rfl

@[simp] theorem items_shutdown : items (sampleQueueShutdown q) = items q := rfl

end Queue

end WaterGateway
