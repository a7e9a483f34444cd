import WaterGateway.Queue.Model

/-!
# A queue with the record of its pushes

`Channel` is a sample queue together with the samples it has accepted and
those it has overwritten. The record is written beside the calls and never
read by them; `push_cases` and `pop_cases` say what a call does to the
queue's items and to the record at once.
-/

namespace WaterGateway

/-- **A queue and its record**: the samples whose push returned `0`, and
those that an overflow has written over. -/
structure Channel (α : Type) (w : ℕ) where
  queue : SampleQueue α w
  accepted : List α
  overwritten : List α
  deriving DecidableEq

namespace Channel

variable {α : Type} [Inhabited α] {w : ℕ}

/-- A queue no call has been made on. -/
def fresh (q : SampleQueue α w) : Channel α w := ⟨q, [], []⟩

/-- The samples in the queue, oldest first. -/
def items (c : Channel α w) : List α := Queue.items c.queue

/-- `sample_queue_push`, recorded. -/
def push (c : Channel α w) (sample : α) (timeoutMs : ℤ) (r : Resume) :
    Option (Channel α w × ℤ) :=
  (Queue.sampleQueuePush c.queue sample timeoutMs r).map fun res =>
    if res.2 = 0 then
      (⟨res.1, c.accepted ++ [sample],
        c.overwritten ++ (Queue.overwritten c.queue).toList⟩, res.2)
    else ({ c with queue := res.1 }, res.2)

/-- `sample_queue_pop`. -/
def pop (c : Channel α w) (timeoutMs : ℤ) (r : Resume) : Option (Channel α w × ℤ × Option α) :=
  (Queue.sampleQueuePop c.queue timeoutMs r).map fun res => ({ c with queue := res.1 }, res.2)

/-- `sample_queue_shutdown`. -/
def shutdown (c : Channel α w) : Channel α w :=
  { c with queue := Queue.sampleQueueShutdown c.queue }

variable {c c' : Channel α w} {a : α} {timeoutMs : ℤ} {r : Resume} {code : ℤ} {out : Option α}

@[simp] theorem length_items (c : Channel α w) : c.items.length = c.queue.count :=
  Queue.length_items _

@[simp] theorem items_shutdown : c.shutdown.items = c.items := rfl

omit [Inhabited α] in
@[simp] theorem accepted_shutdown : c.shutdown.accepted = c.accepted := rfl

omit [Inhabited α] in
@[simp] theorem overwritten_shutdown : c.shutdown.overwritten = c.overwritten := rfl

/-- The oldest sample of a full queue is the one a push writes over, and
the others stay. -/
theorem overwritten_append_room {q : SampleQueue α w} (h : Queue.WellFormed q) :
    (Queue.overwritten q).toList ++ Fifo.room q.capacity (Queue.items q) = Queue.items q := by
  have hle := h.count_le
  have hpos := h.capacity_pos
  unfold Queue.overwritten Fifo.room
  rw [Queue.length_items]
  split
  · next hfull =>
    rw [if_pos (by omega), Queue.items_eq_cons (by omega)]
    rfl
  · next hfree =>
    rw [if_neg (by omega)]
    rfl

/-- **A push**: refused, with nothing changed, or the sample joins at the
end while the oldest of a full queue leaves. -/
theorem push_cases (h : Queue.WellFormed c.queue)
    (hpush : c.push a timeoutMs r = some (c', code)) :
    (c.queue.shutdown = true ∧ c' = c) ∨
      (c.queue.shutdown = false ∧ c'.queue.shutdown = false ∧ Queue.WellFormed c'.queue ∧
        c'.accepted = c.accepted ++ [a] ∧
        ∃ old kept, c.items = old ++ kept ∧ c'.items = kept ++ [a] ∧
          c'.overwritten = c.overwritten ++ old) := by
  obtain ⟨⟨q', code'⟩, hq, heq⟩ := Option.map_eq_some_iff.1 hpush
  obtain ⟨hshut, hcode, rfl⟩ | ⟨hopen, hcode, hw, -, hopen', hitems⟩ := Queue.push_spec h hq
  · refine Or.inl ⟨hshut, ?_⟩
    rw [if_neg (by simp [hcode])] at heq
    exact (Prod.mk.inj heq).1.symm
  · refine Or.inr ?_
    rw [if_pos (by simp [hcode])] at heq
    obtain ⟨rfl, -⟩ := Prod.mk.inj heq
    exact ⟨hopen, hopen', hw, rfl, _, _, (overwritten_append_room h).symm, hitems, rfl⟩

/-- **A pop**: the oldest sample and the rest, or `-1` with nothing
changed. -/
theorem pop_cases (h : Queue.WellFormed c.queue)
    (hpop : c.pop timeoutMs r = some (c', code, out)) :
    (code = -1 ∧ c' = c ∧ (r = .timedOut ∨ c.items = [])) ∨
      (∃ a, code = 0 ∧ out = some a ∧ c.items = a :: c'.items ∧ Queue.WellFormed c'.queue ∧
        c'.queue.shutdown = c.queue.shutdown ∧ c'.accepted = c.accepted ∧
        c'.overwritten = c.overwritten) := by
  obtain ⟨⟨q', code', out'⟩, hq, heq⟩ := Option.map_eq_some_iff.1 hpop
  obtain ⟨rfl, hres⟩ := Prod.mk.inj heq
  obtain ⟨rfl, rfl⟩ := Prod.mk.inj hres
  obtain ⟨hcode, -, rfl, hwhy⟩ | ⟨a, hcode, hout, -, hitems, hw, -, hshut⟩ := Queue.pop_spec h hq
  · exact Or.inl ⟨hcode, rfl, hwhy⟩
  · exact Or.inr ⟨a, hcode, hout, hitems, hw, hshut, rfl, rfl⟩

/-! ## After a shutdown -/

/-- A push is refused, without a wait. -/
theorem push_of_shutdown (h : c.queue.shutdown = true) (a : α) (timeoutMs : ℤ) (r : Resume) :
    c.push a timeoutMs r = some (c, -1) := by
  rw [push, Queue.sampleQueuePush, if_neg (by simp [h]), if_pos h]
  rfl

/-- A pop returns, without a wait. -/
theorem exists_pop_of_shutdown (h : c.queue.shutdown = true) (timeoutMs : ℤ) (r : Resume) :
    ∃ res, c.pop timeoutMs r = some res := by
  rw [pop, Queue.sampleQueuePop]
  split_ifs with htimedOut hempty
  · exact ⟨_, rfl⟩
  · rw [h] at hempty
    cases hempty.2
  · rw [h] at hempty
    cases hempty.2
  · exact ⟨_, rfl⟩
  · exact ⟨_, rfl⟩

end Channel

end WaterGateway
