import WaterGateway.Common.Condvar
import WaterGateway.Queue.Refinement

/-!
# The monitor of the sample queue

Any number of threads call `sample_queue_push`, `sample_queue_pop` and
`sample_queue_shutdown` on one queue. A step is one critical section of one
call, or a sleeper that times out or wakes spuriously; a successful push
signals `cond_not_empty` and a successful pop `cond_not_full`, each waking
one sleeper of the world's choice. `no_lost_wakeup` is the promise of
`Condvar.Served` at both conditions: for the samples in the queue at the
one, for the free slots at the other.
-/

namespace WaterGateway

namespace Queue

open Condvar

/-- The two condition variables of a queue. -/
inductive Cond
  | notEmpty
  | notFull
  deriving DecidableEq

/-- A call, with its arguments. -/
inductive Call (α : Type)
  | push (sample : α) (timeoutMs : ℤ)
  | pop (timeoutMs : ℤ)
  deriving DecidableEq

namespace Call

variable {α : Type}

/-- The variable its timed wait is on. -/
def cond : Call α → Cond
  | push _ _ => .notFull
  | pop _ => .notEmpty

/-- The variable it signals when it succeeds. -/
def signals : Call α → Cond
  | push _ _ => .notEmpty
  | pop _ => .notFull

/-- Its section, by how it came by the mutex. -/
def op : Call α → Resume → Op α
  | push sample timeoutMs, r => .push sample timeoutMs r
  | pop timeoutMs, r => .pop timeoutMs r

theorem signals_ne_cond (c : Call α) : c.signals ≠ c.cond := by
  cases c <;> exact fun h => nomatch h

end Call

/-- **The monitor**: the queue, and for each thread the call it is in and
where its wait stands. A thread outside any wait is `none`. -/
structure Monitor (ι α : Type) (w : ℕ) where
  queue : SampleQueue α w
  threads : ι → Option (Call α × Wait)

/-- The steps. `wake` is the sleeper a signal of the section wakes. -/
inductive MonitorStep (ι α : Type)
  | call (i : ι) (c : Call α) (wake : Option ι)
  | resume (i : ι) (wake : Option ι)
  | expire (i : ι)
  | spurious (i : ι)
  | shutdown (i : ι)
  deriving DecidableEq

namespace Monitor

variable {ι α : Type} [Fintype ι] [DecidableEq ι] [Inhabited α] {w : ℕ}

/-- A queue nobody has called yet. -/
def fresh (q : SampleQueue α w) : Monitor ι α w := ⟨q, fun _ => none⟩

/-- One section of the call `c` of thread `i`: it falls asleep, or returns
and signals if it succeeded. -/
def runSection (s : Monitor ι α w) (i : ι) (c : Call α) (r : Resume) (wake : Option ι) :
    Option (Monitor ι α w) :=
  match move s.queue (c.op r) with
  | (q, .asleep) => some ⟨q, Function.update s.threads i (some (c, .asleep))⟩
  | (q, .returned code _) =>
    let threads := Function.update s.threads i none
    if code = 0 then (signal Call.cond c.signals wake threads).map fun threads' => ⟨q, threads'⟩
    else some ⟨q, threads⟩

/-- **One step of the monitor.** -/
def step (s : Monitor ι α w) : MonitorStep ι α → Option (Monitor ι α w)
  | .call i c wake =>
    match s.threads i with
    | none => runSection s i c .enter wake
    | some _ => none
  | .resume i wake =>
    match s.threads i with
    | some (c, .notified) | some (c, .spurious) => runSection s i c .woken wake
    | some (c, .timedOut) => runSection s i c .timedOut wake
    | _ => none
  | .expire i =>
    match s.threads i with
    | some (c, .asleep) =>
      some { s with threads := Function.update s.threads i (some (c, .timedOut)) }
    | _ => none
  | .spurious i =>
    match s.threads i with
    | some (c, .asleep) =>
      some { s with threads := Function.update s.threads i (some (c, .spurious)) }
    | _ => none
  | .shutdown i =>
    match s.threads i with
    | none => some ⟨sampleQueueShutdown s.queue, broadcast s.threads⟩
    | some _ => none

end Monitor

/-! ## The work at a condition -/

/-- What a condition variable is about: samples to take, or slots to
fill. -/
def work {α : Type} {w : ℕ} (q : SampleQueue α w) : Cond → ℕ
  | .notEmpty => q.count
  | .notFull => q.capacity - q.count

variable {α : Type} [Inhabited α] {w : ℕ} {q : SampleQueue α w} {q' : SampleQueue α w}

/-- **A section of either call**: it sleeps only without work; it fails
with nothing changed when the queue is shut down, the wait has timed out
or there is no work; and when it succeeds it takes one unit of its own
work and makes at most one of the other's. -/
theorem section_cases (h : WellFormed q) (c : Call α) (r : Resume) :
    (move q (c.op r) = (q, .asleep) ∧ q.shutdown = false ∧ work q c.cond = 0) ∨
      (∃ out, move q (c.op r) = (q, .returned (-1) out) ∧
        (q.shutdown = true ∨ r = .timedOut ∨ work q c.cond = 0)) ∨
      ∃ q' out, move q (c.op r) = (q', .returned 0 out) ∧ WellFormed q' ∧
        q'.shutdown = q.shutdown ∧ work q' c.cond ≤ work q c.cond - 1 ∧
        work q' c.signals ≤ work q c.signals + 1 := by
  have hle := h.count_le
  cases c with
  | push a timeoutMs =>
    cases hpush : sampleQueuePush q a timeoutMs r with
    | none =>
      obtain ⟨hfull, hopen, -⟩ := (push_eq_none_iff h).1 hpush
      rw [length_items] at hfull
      refine Or.inl ⟨by simp only [Call.op, move, hpush], hopen, ?_⟩
      simp only [Call.cond, work]
      omega
    | some res =>
      obtain ⟨q', code⟩ := res
      obtain ⟨hshut, rfl, rfl⟩ | ⟨hopen, rfl, hw, hcap, hopen', hitems⟩ := push_spec h hpush
      · exact Or.inr (Or.inl ⟨none, by simp only [Call.op, move, hpush], Or.inl hshut⟩)
      · have hcount := congrArg List.length hitems
        rw [List.length_append, List.length_singleton, length_items, Fifo.room] at hcount
        refine Or.inr (Or.inr ⟨q', none, by simp only [Call.op, move, hpush], hw,
          hopen'.trans hopen.symm, ?_, ?_⟩)
        · simp only [Call.cond, work, hcap]
          split_ifs at hcount <;>
            simp only [List.length_tail, length_items] at * <;> omega
        · simp only [Call.signals, work]
          split_ifs at hcount <;>
            simp only [List.length_tail, length_items] at * <;> omega
  | pop timeoutMs =>
    cases hpop : sampleQueuePop q timeoutMs r with
    | none =>
      obtain ⟨-, hempty, hopen, -⟩ := pop_eq_none_iff.1 hpop
      exact Or.inl ⟨by simp only [Call.op, move, hpop], hopen, items_eq_nil_iff.1 hempty⟩
    | some res =>
      obtain ⟨q', code, out⟩ := res
      obtain ⟨rfl, rfl, rfl, hwhy⟩ | ⟨a, rfl, rfl, -, hitems, hw, hcap, hshut⟩ := pop_spec h hpop
      · exact Or.inr (Or.inl ⟨none, by simp only [Call.op, move, hpop],
          Or.inr (hwhy.imp_right items_eq_nil_iff.1)⟩)
      · have hcount := congrArg List.length hitems
        rw [List.length_cons, length_items, length_items] at hcount
        refine Or.inr (Or.inr ⟨q', some a, by simp only [Call.op, move, hpop], hw, hshut, ?_, ?_⟩)
        · simp only [Call.cond, work]
          omega
        · simp only [Call.signals, work, hcap]
          omega

/-! ## The invariant -/

namespace Monitor

variable {ι : Type} [Fintype ι] [DecidableEq ι] {s t : Monitor ι α w}

/-- **The invariant**: the ring is kept, each condition variable is served
for the work it is about, and nobody sleeps on a queue that is shut down. -/
structure Awake (s : Monitor ι α w) : Prop where
  ring : WellFormed s.queue
  served : ∀ k, Served Call.cond s.threads k (work s.queue k)
  shutdown : s.queue.shutdown = true → ∀ k, number Call.cond s.threads k .asleep = 0

omit [Inhabited α] [DecidableEq ι] in
theorem awake_fresh (hw : WellFormed q) : Awake (fresh q : Monitor ι α w) where
  ring := hw
  served _ := served_of_asleep (number_eq_zero_iff.2 fun _ => not_at_none)
  shutdown _ _ := number_eq_zero_iff.2 fun _ => not_at_none

/-- **A section keeps the invariant.** The thread was outside any wait or
waits on its own variable, and it was not asleep. -/
theorem awake_runSection (h : Awake s) {i : ι} {c : Call α} {r : Resume} {wake : Option ι}
    (hi : ∀ k wt, At Call.cond k wt (s.threads i) → k = c.cond ∧ wt ≠ .asleep)
    (hr : r = .timedOut → ¬ At Call.cond c.cond .notified (s.threads i))
    (hrun : runSection s i c r wake = some t) : Awake t := by
  have hother : ∀ k, k ≠ c.cond → ∀ wt, ¬ At Call.cond k wt (s.threads i) :=
    fun k hk wt hat => hk (hi k wt hat).1
  have hleft : ∀ k wt, ¬ At Call.cond k wt (none : Option (Call α × Wait)) :=
    fun k wt => not_at_none
  obtain ⟨hmove, hopen, hwork⟩ | ⟨out, hmove, hwhy⟩ | ⟨q', out, hmove, hw, hshut, htake, hmake⟩ :=
    section_cases h.ring c r
  · -- asleep: there is no work at its variable
    simp only [runSection, hmove, Option.some.injEq] at hrun
    subst hrun
    refine ⟨h.ring, fun k => ?_, fun hs => ?_⟩
    · by_cases hk : k = c.cond
      · rw [hk]
        exact served_zero.mono (by rw [hwork])
      · refine served_update_elsewhere (h.served k) (hother k hk) fun wt => ?_
        rw [at_some]
        exact fun hat => hk hat.2.symm
    · exact absurd hs (by simp [hopen])
  · -- returned without effect
    simp only [runSection, hmove, if_neg (by decide : ¬ (-1 : ℤ) = 0), Option.some.injEq] at hrun
    subst hrun
    refine ⟨h.ring, fun k => ?_, fun hs k => ?_⟩
    · by_cases hk : k = c.cond
      · obtain hs | ht | hwork := hwhy
        · refine served_of_asleep (Nat.le_zero.1 ?_)
          exact (asleep_update_le (hleft k _)).trans (h.shutdown hs k).le
        · exact served_update (h.served k) (hk ▸ hr ht) (hleft k _)
        · rw [hk]
          exact served_zero.mono (by rw [hwork])
      · exact served_update_elsewhere (h.served k) (hother k hk) (hleft k)
    · exact Nat.le_zero.1 ((asleep_update_le (hleft k _)).trans (h.shutdown hs k).le)
  · -- returned with a signal on the other variable
    simp only [runSection, hmove, if_true, Option.map_eq_some_iff] at hrun
    obtain ⟨threads', hsignal, rfl⟩ := hrun
    refine ⟨hw, fun k => ?_, fun hs k => ?_⟩
    · by_cases hk : k = c.cond
      · subst hk
        refine served_signal_elsewhere ?_ c.signals_ne_cond hsignal
        exact (served_update_pred (h.served c.cond) (hleft _ _)).mono htake
      · have hk' : c.signals = k := by
          cases c <;> cases k <;> first | rfl | exact absurd rfl hk
        subst hk'
        refine (served_signal ?_ hsignal).mono hmake
        exact served_update_elsewhere (h.served _) (hother _ hk) (hleft _)
    · have hzero := h.shutdown (hshut ▸ hs) k
      exact Nat.le_zero.1 ((asleep_signal_le hsignal).trans
        ((asleep_update_le (hleft k _)).trans hzero.le))

omit [Inhabited α] in
/-- A sleeper that wakes without a signal keeps the invariant. -/
theorem awake_update (h : Awake s) {i : ι} {c : Call α} {wt : Wait}
    (hi : s.threads i = some (c, .asleep)) (hwt : wt ≠ .asleep) :
    Awake { s with threads := Function.update s.threads i (some (c, wt)) } where
  ring := h.ring
  served k := by
    refine served_update (h.served k) ?_ ?_
    · rw [hi, at_some]
      exact fun hat => absurd hat.1 (by decide)
    · rw [at_some]
      exact fun hat => hwt hat.1
  shutdown hs k := by
    refine Nat.le_zero.1 ((asleep_update_le ?_).trans (h.shutdown hs k).le)
    rw [at_some]
    exact fun hat => hwt hat.1

/-- **Every step keeps the invariant.** -/
theorem awake_step {l : MonitorStep ι α} (h : Awake s) (hstep : step s l = some t) : Awake t := by
  cases l with
  | call i c wake =>
    simp only [step] at hstep
    split at hstep
    · next hi =>
      refine awake_runSection h (fun k wt hat => ?_) (fun hr => absurd hr (by decide))
        hstep
      rw [hi] at hat
      exact absurd hat not_at_none
    · cases hstep
  | resume i wake =>
    simp only [step] at hstep
    split at hstep
    · next c hi =>
      refine awake_runSection h (fun k wt hat => ?_) (fun hr => absurd hr (by decide))
        hstep
      rw [hi, at_some] at hat
      exact ⟨hat.2.symm, hat.1 ▸ by decide⟩
    · next c hi =>
      refine awake_runSection h (fun k wt hat => ?_) (fun hr => absurd hr (by decide))
        hstep
      rw [hi, at_some] at hat
      exact ⟨hat.2.symm, hat.1 ▸ by decide⟩
    · next c hi =>
      refine awake_runSection h (fun k wt hat => ?_) (fun _ hat => ?_) hstep
      · rw [hi, at_some] at hat
        exact ⟨hat.2.symm, hat.1 ▸ by decide⟩
      · rw [hi, at_some] at hat
        exact absurd hat.1 (by decide)
    · cases hstep
  | expire i =>
    simp only [step] at hstep
    split at hstep
    · next c hi =>
      cases hstep
      exact awake_update h hi (by decide)
    · cases hstep
  | spurious i =>
    simp only [step] at hstep
    split at hstep
    · next c hi =>
      cases hstep
      exact awake_update h hi (by decide)
    · cases hstep
  | shutdown i =>
    simp only [step] at hstep
    split at hstep
    · cases hstep
      exact ⟨wellFormed_shutdown h.ring, fun k => served_of_asleep asleep_broadcast,
        fun _ k => asleep_broadcast⟩
    · cases hstep

/-! ## No lost wake-up -/

/-- **What the monitor owes**: while a consumer sleeps the samples in the
queue are no more than the consumers notified and not yet back; while a
producer sleeps the same of the free slots and producers; and nobody sleeps
once the queue is shut down. -/
structure NoLostWakeup (s : Monitor ι α w) : Prop where
  not_empty : (∃ i, At Call.cond .notEmpty .asleep (s.threads i)) →
    s.queue.count ≤ number Call.cond s.threads .notEmpty .notified
  not_full : (∃ i, At Call.cond .notFull .asleep (s.threads i)) →
    s.queue.capacity - s.queue.count ≤ number Call.cond s.threads .notFull .notified
  shutdown : s.queue.shutdown = true → ∀ i k, ¬ At Call.cond k .asleep (s.threads i)

/-- **No wake-up is lost**, for any number of threads and in every state
the monitor reaches. -/
theorem no_lost_wakeup {capacity : ℤ} {q₀ : SampleQueue α w}
    (hq₀ : sampleQueueCreate capacity = some q₀) {ls : List (MonitorStep ι α)}
    (hrun : Run.exec step (fresh q₀) ls = some s) : NoLostWakeup s := by
  have h : Awake s := Run.exec_invariant (I := Awake) (fun _ _ _ => awake_step)
    (awake_fresh (wellFormed_create hq₀).1) hrun
  refine ⟨fun ⟨i, hi⟩ => ?_, fun ⟨i, hi⟩ => ?_,
    fun hs i k => number_eq_zero_iff.1 (h.shutdown hs k) i⟩
  · exact (h.served .notEmpty).resolve_left fun hzero => number_eq_zero_iff.1 hzero i hi
  · exact (h.served .notFull).resolve_left fun hzero => number_eq_zero_iff.1 hzero i hi

/-- Two consumers asleep and one push: the consumer it has not notified
sleeps on, with one sample in the queue and one consumer on its way. -/
theorem no_lost_wakeup_two :
    ∃ q₀ : SampleQueue ℕ 32, sampleQueueCreate 4 = some q₀ ∧
      ∃ s : Monitor (Fin 3) ℕ 32,
        Run.exec step (fresh q₀) [.call 0 (.pop 500) none, .call 1 (.pop 500) none,
          .call 2 (.push 7 100) (some 0)] = some s ∧
        At Call.cond .notEmpty .asleep (s.threads 1) ∧ s.queue.count = 1 ∧ NoLostWakeup s := by
  refine ⟨_, rfl, ?_⟩
  obtain ⟨s, hrun, hasleep, hcount⟩ := Run.exists_of_exec step
    (fresh (⟨List.replicate 4 default, 4, 0, 0, 0, false, 0, 0, 0⟩ : SampleQueue ℕ 32))
    [.call (0 : Fin 3) (.pop 500) none, .call 1 (.pop 500) none, .call 2 (.push 7 100) (some 0)]
    (fun s => At Call.cond .notEmpty .asleep (s.threads 1) ∧ s.queue.count = 1)
    (by decide +kernel)
  exact ⟨s, hrun, hasleep, hcount, @no_lost_wakeup _ _ _ _ _ _ _ 4 _ rfl _ hrun⟩

end Monitor

end Queue

end WaterGateway
