import WaterGateway.Queue.Channel
import WaterGateway.Queue.Refinement

/-!
# Conservation

Every sample a queue has accepted has left it once or is still in it. The
ledger writes down, beside a run of the calls, the samples accepted and the
samples that have left, each with the way it took; `Balanced` ties both to
the ring and to its three counters, which wrap at the width of
`unsigned long`. Every section keeps the balance (`balanced_record`).
-/

namespace WaterGateway

namespace Queue

variable {α : Type} [Inhabited α] {w : ℕ}

/-- `sample_queue_overflow_count`. -/
def sampleQueueOverflowCount (q : SampleQueue α w) : BitVec w := q.overflowCount

/-- `sample_queue_push_count`. -/
def sampleQueuePushCount (q : SampleQueue α w) : BitVec w := q.pushCount

/-- `sample_queue_pop_count`. -/
def sampleQueuePopCount (q : SampleQueue α w) : BitVec w := q.popCount

/-- The two ways out of the queue. -/
inductive Exit
  | popped
  | discarded
  deriving DecidableEq

/-- **The ledger**: the samples accepted, and the samples that have left in
the order they left. -/
structure Ledger (α : Type) where
  accepted : List α
  removed : List (α × Exit)
  deriving DecidableEq

namespace Ledger

/-- No entries. -/
def empty : Ledger α := ⟨[], []⟩

/-- The samples that have left, whichever way. -/
def samples (led : Ledger α) : List α := led.removed.map Prod.fst

/-- How many have left this way. -/
def exits (led : Ledger α) (e : Exit) : ℕ := (led.removed.map Prod.snd).count e

/-- A sample accepted, where `old` is discarded for it. -/
def accept (led : Ledger α) (a : α) (old : Option α) : Ledger α :=
  ⟨led.accepted ++ [a], led.removed ++ old.toList.map fun b => (b, Exit.discarded)⟩

/-- A sample handed out. -/
def handOut (led : Ledger α) (a : α) : Ledger α :=
  ⟨led.accepted, led.removed ++ [(a, Exit.popped)]⟩

variable (led : Ledger α) (a : α) (old : Option α)

omit [Inhabited α]

@[simp] theorem accepted_accept : (led.accept a old).accepted = led.accepted ++ [a] := rfl

@[simp] theorem accepted_handOut : (led.handOut a).accepted = led.accepted := rfl

@[simp] theorem samples_accept : (led.accept a old).samples = led.samples ++ old.toList := by
  cases old <;> simp [samples, accept]

@[simp] theorem samples_handOut : (led.handOut a).samples = led.samples ++ [a] := by
  simp [samples, handOut]

@[simp] theorem popped_accept : (led.accept a old).exits .popped = led.exits .popped := by
  cases old <;> simp [exits, accept]

@[simp] theorem popped_handOut : (led.handOut a).exits .popped = led.exits .popped + 1 := by
  simp [exits, handOut]

@[simp] theorem discarded_accept :
    (led.accept a old).exits .discarded = led.exits .discarded + old.toList.length := by
  cases old <;> simp [exits, accept]

@[simp] theorem discarded_handOut :
    (led.handOut a).exits .discarded = led.exits .discarded := by
  simp [exits, handOut]

/-- Every sample that left took one of the two ways. -/
theorem length_samples : led.samples.length = led.exits .popped + led.exits .discarded := by
  rw [samples, exits, exits, List.length_map]
  induction led.removed with
  | nil => rfl
  | cons r rs ih =>
    obtain ⟨a, e⟩ := r
    rw [List.map_cons, List.count_cons, List.count_cons, List.length_cons, ih]
    cases e <;> simp <;> omega

end Ledger

/-- What a section adds to the ledger: a push that returns `0` accepts its
sample, over the oldest of a full queue, and a pop hands one out. -/
def record (q : SampleQueue α w) (led : Ledger α) (op : Op α) : Ledger α :=
  match op, (move q op).2 with
  | .push sample _ _, .returned code _ =>
    if code = 0 then led.accept sample (overwritten q) else led
  | .pop _ _, .returned _ (some a) => led.handOut a
  | _, _ => led

/-- A run of sections with its ledger. -/
def runLedger (q : SampleQueue α w) (led : Ledger α) : List (Op α) → SampleQueue α w × Ledger α
  | [] => (q, led)
  | op :: ops => runLedger (move q op).1 (record q led op) ops

/-- **The balance of a queue and its ledger.** -/
structure Balanced (q : SampleQueue α w) (led : Ledger α) : Prop where
  accepted : led.accepted = led.samples ++ items q
  push : q.pushCount = BitVec.ofNat w led.accepted.length
  pop : q.popCount = BitVec.ofNat w (led.exits .popped)
  overflow : q.overflowCount = BitVec.ofNat w (led.exits .discarded)

/-! ## One section -/

variable {q q' : SampleQueue α w} {led : Ledger α} {cap : ℕ}

/-- The counters of a push that is accepted. -/
theorem push_counters {a : α} {timeoutMs : ℤ} {r : Resume}
    (hpush : sampleQueuePush q a timeoutMs r = some (q', 0)) :
    q'.pushCount = q.pushCount + 1 ∧ q'.popCount = q.popCount ∧
      q'.overflowCount = q.overflowCount + BitVec.ofNat w (overwritten q).toList.length := by
  unfold sampleQueuePush at hpush
  split at hpush
  · cases hpush
  split at hpush
  · cases hpush
  cases hpush
  unfold overwritten
  by_cases hfull : q.count ≥ q.capacity
  · simp [putSample, dropOldest, hfull]
  · simp [putSample, dropOldest, hfull]

/-- The counters of a pop that hands a sample out. -/
theorem pop_counters {timeoutMs : ℤ} {r : Resume} {out : Option α}
    (hpop : sampleQueuePop q timeoutMs r = some (q', 0, out)) :
    q'.pushCount = q.pushCount ∧ q'.popCount = q.popCount + 1 ∧
      q'.overflowCount = q.overflowCount := by
  unfold sampleQueuePop at hpop
  split at hpop
  · cases hpop
  split at hpop
  · split at hpop <;> cases hpop
  split at hpop
  · cases hpop
  cases hpop
  exact ⟨rfl, rfl, rfl⟩

/-- **A push keeps the balance.** -/
theorem balanced_push (hw : WellFormed q) (hb : Balanced q led) (a : α) (timeoutMs : ℤ)
    (r : Resume) :
    Balanced (move q (.push a timeoutMs r)).1 (record q led (.push a timeoutMs r)) := by
  cases hpush : sampleQueuePush q a timeoutMs r with
  | none =>
    simp only [record, move, hpush]
    exact hb
  | some res =>
    obtain ⟨q', code⟩ := res
    simp only [record, move, hpush]
    obtain ⟨-, rfl, rfl⟩ | ⟨-, rfl, -, -, -, hitems⟩ := push_spec hw hpush
    · exact hb
    obtain ⟨hcount, hpop, hover⟩ := push_counters hpush
    have hroom := Channel.overwritten_append_room hw
    rw [if_pos rfl]
    refine ⟨?_, ?_, ?_, ?_⟩
    · -- the oldest sample moves from the queue to the ledger, the new one joins both
      calc (led.accept a (overwritten q)).accepted
          = led.samples ++ items q ++ [a] := by rw [Ledger.accepted_accept, hb.accepted]
        _ = led.samples ++ ((overwritten q).toList ++ Fifo.room q.capacity (items q)) ++ [a] := by
            rw [hroom]
        _ = (led.accept a (overwritten q)).samples ++ items q' := by
            rw [Ledger.samples_accept, hitems]
            simp only [List.append_assoc]
    · rw [hcount, hb.push, Ledger.accepted_accept, List.length_append, BitVec.ofNat_add]
      rfl
    · rw [hpop, hb.pop, Ledger.popped_accept]
    · rw [hover, hb.overflow, Ledger.discarded_accept, BitVec.ofNat_add]

/-- **A pop keeps the balance.** -/
theorem balanced_pop (hw : WellFormed q) (hb : Balanced q led) (timeoutMs : ℤ) (r : Resume) :
    Balanced (move q (.pop timeoutMs r)).1 (record q led (.pop timeoutMs r)) := by
  cases hpop : sampleQueuePop q timeoutMs r with
  | none =>
    simp only [record, move, hpop]
    exact hb
  | some res =>
    obtain ⟨q', code, out⟩ := res
    simp only [record, move, hpop]
    obtain ⟨rfl, rfl, rfl, -⟩ | ⟨a, rfl, rfl, -, hitems, -⟩ := pop_spec hw hpop
    · exact hb
    obtain ⟨hpush, hcount, hover⟩ := pop_counters hpop
    refine ⟨?_, ?_, ?_, ?_⟩
    · rw [Ledger.samples_handOut, Ledger.accepted_handOut, hb.accepted, hitems, List.append_assoc]
      rfl
    · rw [hpush, hb.push, Ledger.accepted_handOut]
    · rw [hcount, hb.pop, Ledger.popped_handOut, BitVec.ofNat_add]
      rfl
    · rw [hover, hb.overflow, Ledger.discarded_handOut]

/-- **Every section keeps the balance.** -/
theorem balanced_record (hw : WellFormed q) (hb : Balanced q led) (op : Op α) :
    Balanced (move q op).1 (record q led op) := by
  cases op with
  | push a timeoutMs r => exact balanced_push hw hb a timeoutMs r
  | pop timeoutMs r => exact balanced_pop hw hb timeoutMs r
  | shutdown => exact ⟨hb.accepted, hb.push, hb.pop, hb.overflow⟩

/-! ## Runs -/

/-- The ledger is written beside the run and does not change it. -/
theorem runLedger_fst (led : Ledger α) (ops : List (Op α)) :
    (runLedger q led ops).1 = (Run.runOut move q ops).1 := by
  induction ops generalizing q led with
  | nil => rfl
  | cons op ops ih => rw [runLedger, ih, Run.runOut]

theorem balanced_runLedger (hk : Keeps cap q) (hb : Balanced q led) (ops : List (Op α)) :
    Balanced (runLedger q led ops).1 (runLedger q led ops).2 := by
  induction ops generalizing q led with
  | nil => exact hb
  | cons op ops ih => exact ih (move_keeps hk op) (balanced_record hk.1 hb op)

/-- The three counters of a balanced queue tell how many samples are in it,
up to the width of the counters. -/
theorem count_of_balanced (hb : Balanced q led) :
    q.pushCount - q.popCount - q.overflowCount = BitVec.ofNat w q.count := by
  have hlen : led.accepted.length = led.exits .popped + led.exits .discarded + q.count := by
    rw [hb.accepted, List.length_append, Ledger.length_samples, length_items]
  rw [hb.push, hb.pop, hb.overflow, hlen, BitVec.ofNat_add, BitVec.ofNat_add]
  grind

/-- **What a run conserves**, at its end `q` with the ledger `led`. -/
structure Conserves (ops : List (Op α)) (q₀ q : SampleQueue α w) (led : Ledger α) : Prop where
  run : (Run.runOut move q₀ ops).1 = q
  accepted : led.accepted = led.samples ++ items q
  overflow : sampleQueueOverflowCount q = BitVec.ofNat w (led.exits .discarded)
  push : sampleQueuePushCount q = BitVec.ofNat w led.accepted.length
  pop : sampleQueuePopCount q = BitVec.ofNat w (led.exits .popped)
  count : sampleQueuePushCount q - sampleQueuePopCount q - sampleQueueOverflowCount q =
    BitVec.ofNat w (sampleQueueCount q)

/-- **Conservation**, from a new queue of any capacity and under any
sections of any calls. -/
theorem sampleQueue_conserves {capacity : ℤ} {q₀ : SampleQueue α w}
    (hq₀ : sampleQueueCreate capacity = some q₀) (ops : List (Op α)) :
    Conserves ops q₀ (runLedger q₀ .empty ops).1 (runLedger q₀ .empty ops).2 := by
  obtain ⟨hw, habs, -⟩ := wellFormed_create hq₀
  have hitems : items q₀ = [] := congrArg Fifo.items habs
  have hzero : q₀.pushCount = 0 ∧ q₀.popCount = 0 ∧ q₀.overflowCount = 0 := by
    rw [sampleQueueCreate] at hq₀
    split at hq₀
    · cases hq₀
    · cases hq₀
      exact ⟨rfl, rfl, rfl⟩
  have hb₀ : Balanced q₀ (.empty : Ledger α) :=
    ⟨by rw [hitems]; rfl, hzero.1, hzero.2.1, hzero.2.2⟩
  have hb := balanced_runLedger ⟨hw, rfl⟩ hb₀ ops
  exact ⟨(runLedger_fst _ _).symm, hb.accepted, hb.overflow, hb.push, hb.pop,
    count_of_balanced hb⟩

/-- A ring of one slot under counters of one bit: the third push is the
second overflow, and both counters have wrapped. -/
theorem sampleQueue_conserves_one :
    let ops : List (Op ℕ) := [.push 7 0 .enter, .push 8 0 .enter, .push 9 0 .enter,
      .pop 0 .enter, .shutdown, .push 10 0 .enter]
    ∃ q₀ : SampleQueue ℕ 1, sampleQueueCreate 1 = some q₀ ∧
      (runLedger q₀ .empty ops).2 =
        ⟨[7, 8, 9], [(7, .discarded), (8, .discarded), (9, .popped)]⟩ ∧
      Conserves ops q₀ (runLedger q₀ .empty ops).1 (runLedger q₀ .empty ops).2 :=
  ⟨_, rfl, by decide +kernel, @sampleQueue_conserves ℕ _ 1 1 _ rfl _⟩

end Queue

end WaterGateway
