import Mathlib.Data.List.TakeWhile
import WaterGateway.Queue.Monitor

/-!
# The deadlines of a waiting call

A call that has to wait reads the clock, adds its time-out and sleeps until
then; the reading and the sum stand inside the wait loop, so a call that is
woken to no work computes its deadline anew. Every deadline is a normalised
`timespec`, and exactly the time-out after its own reading
(`nanos_timespecAddMs`). It honours the deadline of the first wait if and
only if the clock has stood still since (`oneDeadline_iff`).

Seconds are unbounded here, so the end of `time_t` is not in this model.
-/

namespace WaterGateway

namespace Queue

/-- `struct timeval`, as `gettimeofday` leaves it. -/
structure Timeval where
  sec : ℤ
  usec : ℤ
  usec_nonneg : 0 ≤ usec
  usec_lt : usec < 1000000
  deriving DecidableEq

/-- `struct timespec`. -/
structure Timespec where
  sec : ℤ
  nsec : ℤ
  deriving DecidableEq

/-- `timespec_add_ms`, from the reading `tv` of the clock. Division and
remainder are those of C. -/
def timespecAddMs (tv : Timeval) (timeoutMs : ℤ) : Timespec :=
  let sec := tv.sec + tv.usec.tdiv 1000000 + timeoutMs.tdiv 1000
  let nsec := tv.usec.tmod 1000000 * 1000 + timeoutMs.tmod 1000 * 1000000
  if nsec ≥ 1000000000 then ⟨sec + 1, nsec - 1000000000⟩ else ⟨sec, nsec⟩

/-- A reading in nanoseconds. -/
def Timeval.nanos (tv : Timeval) : ℤ := tv.sec * 1000000000 + tv.usec * 1000

/-- A deadline in nanoseconds. -/
def Timespec.nanos (ts : Timespec) : ℤ := ts.sec * 1000000000 + ts.nsec

/-- What `pthread_cond_timedwait` asks of its deadline. -/
def Timespec.Normalised (ts : Timespec) : Prop := 0 ≤ ts.nsec ∧ ts.nsec < 1000000000

instance (ts : Timespec) : Decidable ts.Normalised := inferInstanceAs (Decidable (_ ∧ _))

theorem Timeval.nanos_inj {tv tv' : Timeval} (h : tv.nanos = tv'.nanos) : tv = tv' := by
  obtain ⟨sec, usec, h₀, h₁⟩ := tv
  obtain ⟨sec', usec', h₀', h₁'⟩ := tv'
  simp only [Timeval.nanos] at h
  obtain rfl : sec = sec' := by omega
  obtain rfl : usec = usec' := by omega
  rfl

section AddMs

variable {timeoutMs : ℤ} (h : 0 ≤ timeoutMs) (tv : Timeval)

include h

/-- The sum in `tv_nsec`, before the carry, fits a `long` of 32 bits. -/
theorem nsec_lt_two_pow : tv.usec.tmod 1000000 * 1000 + timeoutMs.tmod 1000 * 1000000 < 2 ^ 31 := by
  rw [Int.tmod_eq_emod_of_nonneg tv.usec_nonneg, Int.tmod_eq_emod_of_nonneg h]
  omega

/-- **The deadline is the reading and the time-out**, to the nanosecond. -/
theorem nanos_timespecAddMs :
    (timespecAddMs tv timeoutMs).nanos = tv.nanos + timeoutMs * 1000000 := by
  have h₀ := tv.usec_nonneg
  rw [timespecAddMs, Int.tmod_eq_emod_of_nonneg h₀, Int.tmod_eq_emod_of_nonneg h,
    Int.tdiv_eq_ediv_of_nonneg h₀, Int.tdiv_eq_ediv_of_nonneg h, Timeval.nanos]
  split_ifs <;> simp only [Timespec.nanos] <;> omega

theorem normalised_timespecAddMs : (timespecAddMs tv timeoutMs).Normalised := by
  have h₀ := tv.usec_nonneg
  have h₁ := tv.usec_lt
  rw [timespecAddMs, Int.tmod_eq_emod_of_nonneg h₀, Int.tmod_eq_emod_of_nonneg h]
  split_ifs <;> constructor <;> dsimp only <;> omega

end AddMs

/-! ## One call -/

variable {α : Type} [Inhabited α] {w : ℕ}

/-- A section of a call: the queue it finds, how it came by the mutex, and
what the clock would read if it has to wait. -/
structure Visit (α : Type) (w : ℕ) where
  queue : SampleQueue α w
  resume : Resume
  clock : Timeval

namespace Call

/-- The argument `timeout_ms`. -/
def timeoutMs : Call α → ℤ
  | push _ timeoutMs => timeoutMs
  | pop timeoutMs => timeoutMs

variable {c : Call α} {vs : List (Visit α w)}

/-- The section goes to wait. -/
def waits (c : Call α) (v : Visit α w) : Bool :=
  match (move v.queue (c.op v.resume)).2 with
  | .asleep => true
  | .returned _ _ => false

/-- The waits of a call: its sections up to the one it returns from. -/
def waitVisits (c : Call α) (vs : List (Visit α w)) : List (Visit α w) := vs.takeWhile c.waits

/-- **The deadlines of a call**, one for each wait. -/
def deadlines (c : Call α) (vs : List (Visit α w)) : List Timespec :=
  (c.waitVisits vs).map fun v => timespecAddMs v.clock c.timeoutMs

/-- **One deadline for a call**: no wait of it is bounded later than the
time-out after the reading of its first wait. -/
def OneDeadline (c : Call α) (vs : List (Visit α w)) : Prop :=
  ∀ v ∈ (c.waitVisits vs).head?, ∀ ts ∈ c.deadlines vs,
    ts.Normalised ∧ ts.nanos ≤ v.clock.nanos + c.timeoutMs * 1000000

/-- Every wait of the call reads the clock as its first one does. -/
def ClockStands (c : Call α) (vs : List (Visit α w)) : Prop :=
  ∀ v ∈ (c.waitVisits vs).head?, ∀ v' ∈ c.waitVisits vs, v'.clock = v.clock

instance (c : Call α) (vs : List (Visit α w)) : Decidable (c.OneDeadline vs) :=
  inferInstanceAs (Decidable (∀ v ∈ _, ∀ ts ∈ _, _ ∧ _))

/-- Only a call with a time-out waits. -/
theorem timeoutMs_pos_of_waits {v : Visit α w} (h : c.waits v = true) : 0 < c.timeoutMs := by
  unfold waits at h
  split at h
  · next hasleep =>
    cases c with
    | push a timeoutMs =>
      by_contra hle
      rw [op, move, sampleQueuePush, if_neg fun hwait => hle hwait.2.2.1] at hasleep
      split_ifs at hasleep
    | pop timeoutMs =>
      by_contra hle
      have hnone : sampleQueuePop v.queue timeoutMs v.resume ≠ none := fun hnone =>
        hle (pop_eq_none_iff.1 hnone).2.2.2
      rw [op, move] at hasleep
      split at hasleep
      · next hpop => exact hnone hpop
      · cases hasleep
  · cases h

/-- **One deadline, exactly**: with a clock that does not go back, a call
keeps the deadline of its first wait if and only if the clock stands still
from there to its last. -/
theorem oneDeadline_iff
    (hmono : vs.Pairwise fun v v' : Visit α w => v.clock.nanos ≤ v'.clock.nanos) :
    c.OneDeadline vs ↔ c.ClockStands vs := by
  cases hwaits : c.waitVisits vs with
  | nil => simp [OneDeadline, ClockStands, hwaits]
  | cons v rest =>
    have hsub : (v :: rest).Pairwise fun v v' : Visit α w => v.clock.nanos ≤ v'.clock.nanos :=
      hwaits ▸ hmono.sublist (List.takeWhile_sublist _)
    have hmem : ∀ v' ∈ v :: rest, c.waits v' = true := fun v' hv' =>
      List.mem_takeWhile_imp (hwaits ▸ hv' : v' ∈ c.waitVisits vs)
    have hpos : 0 ≤ c.timeoutMs := (timeoutMs_pos_of_waits (hmem v List.mem_cons_self)).le
    -- the first reading is the least
    have hle : ∀ v' ∈ v :: rest, v.clock.nanos ≤ v'.clock.nanos := by
      intro v' hv'
      obtain rfl | hrest := List.mem_cons.1 hv'
      · exact le_rfl
      · exact (List.pairwise_cons.1 hsub).1 v' hrest
    simp only [OneDeadline, ClockStands, deadlines, hwaits, List.head?_cons, Option.mem_def,
      Option.some.injEq, List.mem_map, forall_eq', forall_exists_index, and_imp,
      forall_apply_eq_imp_iff₂]
    constructor
    · intro h v' hv'
      have hbound := (h v' hv').2
      rw [nanos_timespecAddMs hpos] at hbound
      exact Timeval.nanos_inj (le_antisymm (by omega) (hle v' hv'))
    · intro h v' hv'
      rw [nanos_timespecAddMs hpos, h v' hv']
      exact ⟨normalised_timespecAddMs hpos _, le_rfl⟩

/-- A consumer on an empty queue, woken to nothing after 300 ms. -/
def wokenOnce : List (Visit ℕ 32) :=
  let q := ⟨List.replicate 4 0, 4, 0, 0, 0, false, 0, 0, 0⟩
  [⟨q, .enter, ⟨0, 0, by decide, by decide⟩⟩, ⟨q, .woken, ⟨0, 300000, by decide, by decide⟩⟩]

/-- Its first wait ends at 500 ms, its second at 800 ms. -/
theorem oneDeadline_slides :
    (pop 500).deadlines wokenOnce = [⟨0, 500000000⟩, ⟨0, 800000000⟩] ∧
      ¬ (pop 500).OneDeadline wokenOnce := by
  decide

theorem oneDeadline_iff_wokenOnce :
    (wokenOnce.Pairwise fun v v' => v.clock.nanos ≤ v'.clock.nanos) ∧
      ((pop 500).OneDeadline wokenOnce ↔ (pop 500).ClockStands wokenOnce) := by
  have hmono : wokenOnce.Pairwise fun v v' => v.clock.nanos ≤ v'.clock.nanos := by decide
  exact ⟨hmono, oneDeadline_iff hmono⟩

end Call

end Queue

end WaterGateway
