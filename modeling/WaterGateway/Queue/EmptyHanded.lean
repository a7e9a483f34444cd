import WaterGateway.Queue.Monitor

/-!
# Pops that come back empty-handed

A pop that returns `-1` says there was nothing to take. Of its three
failing exits two are behind a look at the count; the third follows an
expired wait, and between the expiry and the mutex other threads may have
pushed. So the queue a failing pop leaves is empty except where an expired
pop comes back to samples (`BackInTime`). A push looks again after its own
time-out.
-/

namespace WaterGateway

namespace Queue

namespace Monitor

variable {ι α : Type} [Fintype ι] [DecidableEq ι] [Inhabited α] {w : ℕ}
  {s t : Monitor ι α w} {l : MonitorStep ι α}

/-- The section a step runs: the call, and how it came by the mutex. -/
def sectionOf (s : Monitor ι α w) : MonitorStep ι α → Option (Call α × Resume)
  | .call i c _ =>
    match s.threads i with
    | none => some (c, .enter)
    | some _ => none
  | .resume i _ =>
    match s.threads i with
    | some (c, .notified) | some (c, .spurious) => some (c, .woken)
    | some (c, .timedOut) => some (c, .timedOut)
    | _ => none
  | _ => none

theorem step_call_eq (s : Monitor ι α w) (i : ι) (c : Call α) (wake : Option ι) :
    step s (.call i c wake) =
      (sectionOf s (.call i c wake)).bind fun cr => runSection s i cr.1 cr.2 wake := by
  simp only [step, sectionOf]
  cases s.threads i <;> rfl

theorem step_resume_eq (s : Monitor ι α w) (i : ι) (wake : Option ι) :
    step s (.resume i wake) =
      (sectionOf s (.resume i wake)).bind fun cr => runSection s i cr.1 cr.2 wake := by
  simp only [step, sectionOf]
  rcases s.threads i with _ | ⟨c, _ | _ | _ | _⟩ <;> rfl

theorem queue_runSection {i : ι} {c : Call α} {r : Resume} {wake : Option ι}
    (h : runSection s i c r wake = some t) : t.queue = (move s.queue (c.op r)).1 := by
  unfold runSection at h
  split at h
  · next hmove =>
    obtain rfl := Option.some.inj h
    rw [hmove]
  · next hmove =>
    rw [hmove]
    split_ifs at h
    · obtain ⟨threads, -, rfl⟩ := Option.map_eq_some_iff.1 h
      rfl
    · obtain rfl := Option.some.inj h
      rfl

/-- **A step that runs a section** gives the mutex back on the queue its
section leaves. -/
theorem queue_step {c : Call α} {r : Resume} (hstep : step s l = some t)
    (hsec : sectionOf s l = some (c, r)) : t.queue = (move s.queue (c.op r)).1 := by
  cases l with
  | call i c' wake =>
    rw [step_call_eq, hsec, Option.bind_some] at hstep
    exact queue_runSection hstep
  | resume i wake =>
    rw [step_resume_eq, hsec, Option.bind_some] at hstep
    exact queue_runSection hstep
  | expire i | spurious i | shutdown i => cases hsec

/-- **Empty-handed from an empty queue**: where the step runs the section
in which a pop returns `-1`, the queue is empty when it gives the mutex
back. -/
def EmptyHanded (s : Monitor ι α w) (l : MonitorStep ι α) : Prop :=
  ∀ timeoutMs r out t, sectionOf s l = some (.pop timeoutMs, r) →
    (move s.queue (.pop timeoutMs r)).2 = .returned (-1) out → step s l = some t →
      t.queue.count = 0

/-- No pop whose wait has expired comes back to a queue with samples. -/
def BackInTime (s : Monitor ι α w) (l : MonitorStep ι α) : Prop :=
  ∀ timeoutMs, sectionOf s l = some (.pop timeoutMs, .timedOut) → s.queue.count = 0

/-- The failing exits of a pop: after an expired wait whatever the count
is, else on an empty queue. -/
theorem move_pop_eq_neg_one {q : SampleQueue α w} {timeoutMs : ℤ} {r : Resume} {out : Option α}
    (h : (move q (.pop timeoutMs r)).2 = .returned (-1) out) :
    (move q (.pop timeoutMs r)).1 = q ∧ (r = .timedOut ∨ q.count = 0) := by
  simp only [move] at h ⊢
  split at h
  · cases h
  · next hpop =>
    obtain ⟨rfl, rfl⟩ := Answer.returned.inj h
    unfold sampleQueuePop at hpop
    split_ifs at hpop with hr hempty hpoll hclosed
    · cases hpop
      exact ⟨rfl, Or.inl hr⟩
    · cases hpop
      exact ⟨rfl, Or.inr hempty.1⟩
    · cases hpop
      exact ⟨rfl, Or.inr hclosed.2⟩
    · -- a pop that takes a sample returns 0
      cases hpop

/-- An expired pop that has the mutex again returns with the queue as it
finds it. -/
theorem exists_step_of_timedOut {timeoutMs : ℤ}
    (hsec : sectionOf s l = some (.pop timeoutMs, .timedOut)) :
    ∃ t, step s l = some t ∧ t.queue = s.queue := by
  have hrun : ∀ i wake, ∃ t, runSection s i (.pop timeoutMs) .timedOut wake = some t :=
    fun i wake => ⟨_, rfl⟩
  have hsome : ∃ t, step s l = some t := by
    cases l with
    | call i c wake =>
      rw [step_call_eq, hsec]
      exact hrun i wake
    | resume i wake =>
      rw [step_resume_eq, hsec]
      exact hrun i wake
    | expire i | spurious i | shutdown i => cases hsec
  obtain ⟨t, ht⟩ := hsome
  exact ⟨t, ht, queue_step ht hsec⟩

/-- **One step**: only the exit after an expired wait can fail it. -/
theorem emptyHanded_iff_backInTime (s : Monitor ι α w) (l : MonitorStep ι α) :
    EmptyHanded s l ↔ BackInTime s l := by
  constructor
  · intro h timeoutMs hsec
    obtain ⟨t, ht, hqueue⟩ := exists_step_of_timedOut hsec
    exact hqueue ▸ h timeoutMs .timedOut none t hsec rfl ht
  · intro h timeoutMs r out t hsec hmove ht
    obtain ⟨hkeep, hwhy⟩ := move_pop_eq_neg_one hmove
    have hqueue : t.queue = s.queue := (queue_step ht hsec).trans hkeep
    rw [hqueue]
    obtain rfl | hempty := hwhy
    · exact h timeoutMs hsec
    · exact hempty

/-- **Empty-handed pops along a run**, for any number of threads and any
order of their steps: the queue was empty each time if and only if no pop
whose wait had expired came back to samples. -/
theorem emptyHanded_run_iff (s : Monitor ι α w) (ls : List (MonitorStep ι α)) :
    Run.Along step EmptyHanded s ls ↔ Run.Along step BackInTime s ls :=
  Run.along_congr (I := fun _ => True) (E := fun _ _ => True) (fun _ _ _ _ _ _ _ => trivial)
    (fun s l _ _ => emptyHanded_iff_backInTime s l) trivial
    (Run.along_of_all (fun _ _ => trivial) s ls)

/-- A push between the expiry of a consumer's wait and its return: `-1`
from a queue that holds a sample. -/
theorem emptyHanded_late :
    ∃ q₀ : SampleQueue ℕ 32, sampleQueueCreate 4 = some q₀ ∧
      ¬ Run.Along step EmptyHanded (fresh q₀ : Monitor (Fin 2) ℕ 32)
        [.call 0 (.pop 500) none, .expire 0, .call 1 (.push 7 100) none, .resume 0 none] := by
  refine ⟨_, rfl, fun halong => ?_⟩
  obtain ⟨s, hrun, hcount, hsec⟩ := Run.exists_of_exec step
    (fresh (⟨List.replicate 4 default, 4, 0, 0, 0, false, 0, 0, 0⟩ : SampleQueue ℕ 32))
    [.call (0 : Fin 2) (.pop 500) none, .expire 0, .call 1 (.push 7 100) none]
    (fun s => s.queue.count = 1 ∧ sectionOf s (.resume 0 none) = some (.pop 500, .timedOut))
    (by decide +kernel)
  obtain ⟨t, ht, hqueue⟩ := exists_step_of_timedOut hsec
  have hzero := Run.along_last hrun halong 500 .timedOut none t hsec rfl ht
  rw [hqueue] at hzero
  omega

end Monitor

end Queue

end WaterGateway
