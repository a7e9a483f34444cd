import WaterGateway.Queue.Model

/-!
# The ring refines the queue

`FifoCalls.move` says what the sections of the calls do to a plain list:
when a call sleeps, what it returns, and what becomes of the list.
`move_refines` carries every section of the ring to it, answer for answer,
so a run of the ring is a run of the list (`sampleQueue_refines_fifo`).
-/

namespace WaterGateway

namespace Queue

variable {α : Type} [Inhabited α] {w : ℕ}

/-- **The calls on a plain list of at most `cap` samples.** A push sleeps
on a full list and a pop on an empty one, while the list is open, the call
may wait and its wait has not timed out. -/
def fifoMove (cap : ℕ) (f : Fifo α) : Op α → Fifo α × Answer α
  | .push sample timeoutMs r =>
    if f.items.length = cap ∧ f.closed = false ∧ 0 < timeoutMs ∧ r ≠ .timedOut then (f, .asleep)
    else ((f.push cap sample).1, .returned (if (f.push cap sample).2 then 0 else -1) none)
  | .pop timeoutMs r =>
    if r = .timedOut then (f, .returned (-1) none)
    else if f.items = [] ∧ f.closed = false ∧ 0 < timeoutMs then (f, .asleep)
    else (f.pop.1, .returned (if f.items = [] then -1 else 0) f.pop.2)
  | .shutdown => (f.close, .returned 0 none)

variable {q : SampleQueue α w} {cap : ℕ}

/-- What a section preserves: the ring, and its capacity. -/
def Keeps (cap : ℕ) (q : SampleQueue α w) : Prop := WellFormed q ∧ q.capacity = cap

theorem items_eq_nil_iff : items q = [] ↔ q.count = 0 := by
  rw [← List.length_eq_zero_iff, length_items]

theorem push_eq_none_iff (h : WellFormed q) {a : α} {timeoutMs : ℤ} {r : Resume} :
    sampleQueuePush q a timeoutMs r = none ↔
      (items q).length = q.capacity ∧ q.shutdown = false ∧ 0 < timeoutMs ∧ r ≠ .timedOut := by
  have hle := h.count_le
  rw [length_items, sampleQueuePush]
  split
  · next hc => exact ⟨fun _ => ⟨by omega, hc.2⟩, fun _ => rfl⟩
  · next hc =>
    constructor
    · intro hn
      split at hn <;> cases hn
    · intro hs
      exact absurd ⟨by omega, hs.2⟩ hc

theorem pop_eq_none_iff {timeoutMs : ℤ} {r : Resume} :
    sampleQueuePop q timeoutMs r = none ↔
      r ≠ .timedOut ∧ items q = [] ∧ q.shutdown = false ∧ 0 < timeoutMs := by
  rw [items_eq_nil_iff, sampleQueuePop]
  split
  · next hr => exact ⟨fun hn => (by cases hn), fun hs => absurd hr hs.1⟩
  split
  · next hr hempty =>
    split
    · next ht => exact ⟨fun hn => (by cases hn), fun hs => by omega⟩
    · next ht => exact ⟨fun _ => ⟨hr, hempty.1, hempty.2, by omega⟩, fun _ => rfl⟩
  · next hr hopen =>
    constructor
    · intro hn
      split at hn <;> cases hn
    · intro hs
      exact absurd ⟨hs.2.1, hs.2.2.1⟩ hopen

/-- **Every section keeps the ring.** -/
theorem move_keeps (h : Keeps cap q) (op : Op α) : Keeps cap (move q op).1 := by
  obtain ⟨hw, rfl⟩ := h
  cases op with
  | push a timeoutMs r =>
    cases hpush : sampleQueuePush q a timeoutMs r with
    | none => simp only [move, hpush]; exact ⟨hw, rfl⟩
    | some res =>
      simp only [move, hpush]
      obtain ⟨-, -, rfl⟩ | ⟨-, -, hw', hcap, -⟩ := push_spec hw hpush
      · exact ⟨hw, rfl⟩
      · exact ⟨hw', hcap⟩
  | pop timeoutMs r =>
    cases hpop : sampleQueuePop q timeoutMs r with
    | none => simp only [move, hpop]; exact ⟨hw, rfl⟩
    | some res =>
      simp only [move, hpop]
      obtain ⟨-, -, rfl, -⟩ | ⟨a, -, -, -, -, hw', hcap, -⟩ := pop_spec hw hpop
      · exact ⟨hw, rfl⟩
      · exact ⟨hw', hcap⟩
  | shutdown => exact ⟨wellFormed_shutdown hw, rfl⟩

/-- **Every section of the ring is the section of the list**, with the
same answer. -/
theorem move_refines (h : Keeps cap q) (op : Op α) :
    fifoMove cap (abs q) op = (abs (move q op).1, (move q op).2) := by
  obtain ⟨hw, rfl⟩ := h
  cases op with
  | push a timeoutMs r =>
    cases hpush : sampleQueuePush q a timeoutMs r with
    | none =>
      simp only [fifoMove, move, hpush, abs]
      exact if_pos ((push_eq_none_iff hw).1 hpush)
    | some res =>
      have hawake : ¬ ((items q).length = q.capacity ∧ q.shutdown = false ∧ 0 < timeoutMs ∧
          r ≠ .timedOut) := fun hs => by
        rw [(push_eq_none_iff hw).2 hs] at hpush
        cases hpush
      simp only [fifoMove, move, hpush, abs]
      refine (if_neg hawake).trans ?_
      simp only [Fifo.push]
      obtain ⟨hshut, hcode, hq⟩ | ⟨hopen, hcode, -, -, hkeep, hitems⟩ := push_spec hw hpush
      · simp [hshut, hcode, hq]
      · simp [hopen, hcode, hkeep, hitems]
  | pop timeoutMs r =>
    cases hpop : sampleQueuePop q timeoutMs r with
    | none =>
      obtain ⟨hr, hwait⟩ := pop_eq_none_iff.1 hpop
      simp only [fifoMove, move, hpop, abs, if_neg hr]
      exact if_pos hwait
    | some res =>
      simp only [fifoMove, move, hpop, abs, Fifo.pop]
      obtain ⟨hcode, hout, hq, hwhy⟩ | ⟨a, hcode, hout, hr, hitems, -, -, hkeep⟩ := pop_spec hw hpop
      · by_cases hr : r = .timedOut
        · simp [hr, hcode, hout, hq]
        · have hnil := hwhy.resolve_left hr
          have hawake : ¬ (items q = [] ∧ q.shutdown = false ∧ 0 < timeoutMs) := fun hs => by
            rw [pop_eq_none_iff.2 ⟨hr, hs⟩] at hpop
            cases hpop
          rw [if_neg hr]
          refine (if_neg hawake).trans ?_
          simp [hnil, hcode, hout, hq]
      · rw [if_neg hr]
        refine (if_neg (by simp [hitems])).trans ?_
        simp [hitems, hcode, hout, hkeep]
  | shutdown => rfl

/-! ## After the shutdown -/

omit [Inhabited α] in
/-- **A closed list is emptied in order**: calls of pop, no wait of which
has timed out, return its samples and from then on `-1`. -/
theorem runOut_pops_closed (xs : List α) (calls : List (ℤ × Resume))
    (hcalls : ∀ c ∈ calls, c.2 ≠ .timedOut) :
    Run.runOut (fifoMove cap) ⟨xs, true⟩ (calls.map fun c => .pop c.1 c.2) =
      (⟨xs.drop calls.length, true⟩,
        ((xs.take calls.length).map fun a => .returned 0 (some a)) ++
          List.replicate (calls.length - xs.length) (.returned (-1) none)) := by
  induction calls generalizing xs with
  | nil => simp [Run.runOut]
  | cons c calls ih =>
    have hc : c.2 ≠ .timedOut := hcalls c List.mem_cons_self
    rw [List.map_cons, Run.runOut]
    simp only [fifoMove, if_neg hc]
    cases xs with
    | nil =>
      simp only [Bool.true_eq_false, false_and, and_false, ↓reduceIte, Fifo.pop, List.tail_nil,
        List.head?_nil]
      rw [ih [] fun c' hc' => hcalls c' (List.mem_cons_of_mem _ hc')]
      simp [List.replicate_succ]
    | cons a xs =>
      simp only [reduceCtorEq, false_and, ↓reduceIte, Fifo.pop, List.tail_cons, List.head?_cons]
      rw [ih xs fun c' hc' => hcalls c' (List.mem_cons_of_mem _ hc')]
      simp

/-- A shut down ring stays shut down, with a list of pops run on it. -/
theorem runOut_pops_shutdown (h : Keeps cap q) (hshut : q.shutdown = true)
    (calls : List (ℤ × Resume)) (hcalls : ∀ c ∈ calls, c.2 ≠ .timedOut) :
    (Run.runOut move q (calls.map fun c => .pop c.1 c.2)).2 =
      ((items q).take calls.length).map (fun a => .returned 0 (some a)) ++
        List.replicate (calls.length - (items q).length) (.returned (-1) none) := by
  have hsim := Run.runOut_simulates (I := Keeps cap) abs (fun s i hs => move_keeps hs i)
    (fun s i hs => move_refines hs i) h (calls.map fun c => .pop c.1 c.2)
  rw [show abs q = ⟨items q, true⟩ by rw [abs, hshut], runOut_pops_closed _ _ hcalls] at hsim
  exact (congrArg Prod.snd hsim).symm

/-- **What the ring owes for a run**: the state `q` it ends in keeps the
ring invariant; the run is the run of the plain list, answer for answer;
and once the queue is shut down a push is refused and changes nothing, and
pops return what is left, in order, and then `-1`. -/
structure RefinesFifo (capacity : ℤ) (q₀ : SampleQueue α w) (ops : List (Op α))
    (q : SampleQueue α w) : Prop where
  run : (Run.runOut move q₀ ops).1 = q
  capacity_eq : (q.capacity : ℤ) = capacity
  slots : q.samples.length = q.capacity
  count_le : q.count ≤ q.capacity
  head_lt : q.head < q.capacity
  tail_lt : q.tail < q.capacity
  head_eq : q.head = (q.tail + q.count) % q.capacity
  simulates : Run.runOut (fifoMove capacity.toNat) ⟨[], false⟩ ops =
    (⟨items q, q.shutdown⟩, (Run.runOut move q₀ ops).2)
  push_shutdown : q.shutdown = true →
    ∀ a timeoutMs r, move q (.push a timeoutMs r) = (q, .returned (-1) none)
  pops_shutdown : q.shutdown = true →
    ∀ calls : List (ℤ × Resume), (∀ c ∈ calls, c.2 ≠ .timedOut) →
      (Run.runOut move q (calls.map fun c => .pop c.1 c.2)).2 =
        ((items q).take calls.length).map (fun a => .returned 0 (some a)) ++
          List.replicate (calls.length - (items q).length) (.returned (-1) none)

/-- **The ring buffer is a bounded drop-oldest queue**, from a new queue
of any positive capacity and under any sections of any calls. -/
theorem sampleQueue_refines_fifo {capacity : ℤ} (hcap : 0 < capacity) (ops : List (Op α)) :
    ∃ q₀ q : SampleQueue α w, sampleQueueCreate capacity = some q₀ ∧
      RefinesFifo capacity q₀ ops q := by
  obtain ⟨q₀, hq₀⟩ : ∃ q₀ : SampleQueue α w, sampleQueueCreate capacity = some q₀ :=
    ⟨_, by rw [sampleQueueCreate, if_neg (by omega)]⟩
  obtain ⟨hw₀, habs, hcap₀⟩ := wellFormed_create hq₀
  have hk₀ : Keeps capacity.toNat q₀ := ⟨hw₀, by omega⟩
  have hk : Keeps capacity.toNat (Run.runOut move q₀ ops).1 :=
    Run.runOut_invariant (I := Keeps capacity.toNat) (fun s i hs => move_keeps hs i) hk₀ ops
  have hsim := Run.runOut_simulates (I := Keeps capacity.toNat) abs
    (fun s i hs => move_keeps hs i) (fun s i hs => move_refines hs i) hk₀ ops
  rw [habs] at hsim
  exact ⟨q₀, _, hq₀,
    { run := rfl
      capacity_eq := by have := hk.2; omega
      slots := hk.1.slots
      count_le := hk.1.count_le
      head_lt := hk.1.head_lt
      tail_lt := hk.1.tail_lt
      head_eq := hk.1.head_eq
      simulates := hsim
      push_shutdown := fun hshut a timeoutMs r => by simp [move, sampleQueuePush, hshut]
      pops_shutdown := fun hshut calls hcalls => runOut_pops_shutdown hk hshut calls hcalls }⟩

/-- A ring of one slot: a push on it full goes over the sample there, and
a pop whose wait times out returns at once. -/
theorem sampleQueue_refines_fifo_one :
    ∃ q₀ q : SampleQueue ℕ 32, sampleQueueCreate 1 = some q₀ ∧
      RefinesFifo 1 q₀ [.push 7 100 .enter, .push 8 100 .enter, .push 8 100 .timedOut,
        .pop 500 .timedOut, .shutdown, .pop 500 .enter, .pop 500 .enter] q :=
  sampleQueue_refines_fifo (by decide) _

end Queue

end WaterGateway
