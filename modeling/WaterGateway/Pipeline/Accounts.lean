import Mathlib.Data.List.Count
import WaterGateway.Pipeline.Joins
import WaterGateway.Queue.Conservation

/-!
# What becomes of each sample

A sample that was produced is in the hands of a thread or in a queue, it
was written over in a full queue, it was refused by a queue that was shut
down, or it was passed to the insert. The books are kept stage by stage:
what a queue has been offered, what it has accepted, and what has left it.
A thread whose push is refused has been told to stop, and takes nothing up
any more, so each queue refuses one sample at most. The counters of the
program are the lengths of these lists, as far as they count.
-/

namespace WaterGateway

namespace Pipeline

variable {w : ℕ} {cfg : Config} {s s' : State w} {l : Label} {ls : List Label} {db₀ : Samples}
variable {rawRefused storeRefused : List Item}

/-- The collect thread has no sample and is not about to produce one. -/
def CollectPc.resting : CollectPc → Bool
  | .acquire | .push _ _ => false
  | .loop | .sleep | .returned => true

/-- The processor has no sample and is not about to take one. -/
def ProcPc.resting : ProcPc → Bool
  | .pop _ | .handle _ | .push _ _ => false
  | .loop | .returned => true

/-- The sample that `raw_queue` refuses at a step: the one that is pushed
when the queue has been shut down. -/
def rawRefusal (s : State w) : Label → List Item
  | .collect _ => if s.rawQueue.queue.shutdown = true then s.collect.held else []
  | _ => []

/-- The sample the processor is pushing. -/
def ProcPc.pushed : ProcPc → List Item
  | .push item _ => [item]
  | _ => []

/-- The sample that `store_queue` refuses at a step. -/
def storeRefusal (s : State w) : Label → List Item
  | .proc _ => if s.storeQueue.queue.shutdown = true then s.proc.pushed else []
  | _ => []

/-- **The samples that `raw_queue` has refused** in a run. -/
def rawRefusals (cfg : Config) (s₀ : State w) (ls : List Label) : List Item :=
  Run.gather (step cfg) rawRefusal s₀ ls

/-- **The samples that `store_queue` has refused** in a run. -/
def storeRefusals (cfg : Config) (s₀ : State w) (ls : List Label) : List Item :=
  Run.gather (step cfg) storeRefusal s₀ ls

/-- What a refusal comes with: the queue is shut down, the thread has been
told to stop, and rests. -/
structure Refused (refused : List Item) (shut told rests : Bool) : Prop where
  one : refused.length = 1
  shut : shut = true
  told : told = true
  rests : rests = true

/-- **The books of the two queues**, with what they have refused. -/
structure Accounts (cfg : Config) (rawRefused storeRefused : List Item) (s : State w) : Prop where
  offered : (s.rawQueue.accepted ++ rawRefused ++ s.collect.held).Perm s.hist.produced
  left : ((s.rawQueue.overwritten ++ s.rawQueue.items).map (processItem cfg.thresholds) ++
    s.proc.held cfg.thresholds ++ storeRefused ++ s.storeQueue.accepted).Perm
      (s.rawQueue.accepted.map (processItem cfg.thresholds))
  stored : (s.storeQueue.overwritten ++ s.storeQueue.items ++ s.store.held ++
    s.hist.passed).Perm s.storeQueue.accepted
  raw : rawRefused = [] ∨
    Refused rawRefused s.rawQueue.queue.shutdown s.gShutdown s.collect.resting
  store : storeRefused = [] ∨
    Refused storeRefused s.storeQueue.queue.shutdown s.procShutdown s.proc.resting

theorem accounts_init (h : init w db₀ = some s) : Accounts cfg [] [] s := by
  obtain ⟨raw, store, -, hraw, -, hstore, rfl⟩ := init_cases h
  refine ⟨List.Perm.refl _, ?_, ?_, Or.inl rfl, Or.inl rfl⟩
  · simp [start, Channel.fresh, Channel.items, hraw, ProcPc.held]
  · simp [start, Channel.fresh, Channel.items, hstore, StorePc.held]

/-! ## A thread that has been refused -/

/-- **What the threads can tell of `main()`**: `raw_queue` is not shut down
in its wait loop, and `store_ctx.shutdown` is written behind
`proc_ctx.shutdown`. -/
structure Shown (s : State w) : Prop where
  raw : s.rawQueue.queue.shutdown = true → 1 ≤ s.main.stage
  store : s.storeShutdown = true → 3 ≤ s.main.stage

theorem shown_init (h : init w db₀ = some s) : Shown s := by
  obtain ⟨raw, store, hraw, -, -, -, rfl⟩ := init_cases h
  have hopen : raw.shutdown = false := congrArg Fifo.closed (Queue.wellFormed_create hraw).2.1
  exact ⟨fun hshut => absurd (hopen.symm.trans hshut) Bool.false_ne_true,
    fun hflag => absurd hflag Bool.false_ne_true⟩

theorem Shown.main (h : Shown s) (hstep : mainStep s = some s') : Shown s' := by
  have hlow : s.main.stage < 3 → ¬ s.storeShutdown = true := fun hlt hflag =>
    absurd (h.store hflag) (by omega)
  cases hpc : s.main with
  | running =>
    simp only [mainStep, hpc] at hstep
    cases hstep
    have hopen : ¬ s.rawQueue.queue.shutdown = true := fun hshut =>
      absurd (h.raw hshut) (by rw [hpc]; decide)
    exact ⟨fun hshut => absurd hshut hopen,
      fun hflag => absurd hflag (hlow (by rw [hpc]; decide))⟩
  | setProc =>
    simp only [mainStep, hpc] at hstep
    cases hstep
    exact ⟨fun _ => Nat.le_of_ble_eq_true rfl,
      fun hflag => absurd hflag (hlow (by rw [hpc]; decide))⟩
  | setStore | shutRaw | shutStore =>
    simp only [mainStep, hpc] at hstep
    cases hstep
    exact ⟨fun _ => Nat.le_of_ble_eq_true rfl, fun _ => Nat.le_of_ble_eq_true rfl⟩
  | joinCollect | joinProc | joinStore =>
    simp only [mainStep, hpc] at hstep
    obtain ⟨-, heq⟩ := Option.ite_none_right_eq_some.1 hstep
    cases heq
    exact ⟨fun _ => Nat.le_of_ble_eq_true rfl, fun _ => Nat.le_of_ble_eq_true rfl⟩
  | joined =>
    simp only [mainStep, hpc] at hstep
    cases hstep

theorem Shown.step (h : Shown s) (hok : Sound s) (hstep : step cfg s l = some s') :
    Shown s' := by
  by_cases hmain : l = .main
  · subst hmain
    exact h.main hstep
  · cases moves_of_step hok hstep with
    | main | setProc | setStore | shutRaw | shutStore => exact absurd rfl hmain
    | collectAccepted b item asleep c old kept hpc hawake hc =>
      exact ⟨fun hshut => absurd (hc.isOpen.symm.trans hshut) Bool.false_ne_true, h.store⟩
    | procPop b item asleep c hpc hc =>
      exact ⟨fun hshut => h.raw (hc.shutdown ▸ hshut), h.store⟩
    | signal | collect | acquire | collectRefused | proc | procHandle | procRefused | procAccepted
      | store | storePop | insert | insertFailed | trim | markUploaded | incRetry =>
      exact ⟨h.raw, h.store⟩

/-- A collect thread that rests, and has been told to stop, does not begin
another round. -/
theorem resting_collect {b : Bool} (hsignal : s.gShutdown = true)
    (hrest : s.collect.resting = true) (h : collectStep s b = some s') :
    s'.gShutdown = true ∧ s'.collect.resting = true := by
  unfold collectStep at h
  split at h
  · cases h
    rw [if_pos hsignal]
    exact ⟨hsignal, rfl⟩
  · next hpc =>
    rw [hpc] at hrest
    cases hrest
  · next item asleep hpc =>
    rw [hpc] at hrest
    cases hrest
  · cases h
    exact ⟨hsignal, rfl⟩
  · cases h

theorem resting_proc {b : Bool} (hflag : s.procShutdown = true) (hrest : s.proc.resting = true)
    (h : procStep cfg s b = some s') : s'.procShutdown = true ∧ s'.proc.resting = true := by
  unfold procStep at h
  split at h
  · cases h
    rw [if_pos hflag]
    exact ⟨hflag, rfl⟩
  · next asleep hpc =>
    rw [hpc] at hrest
    cases hrest
  · next item hpc =>
    rw [hpc] at hrest
    cases hrest
  · next item asleep hpc =>
    rw [hpc] at hrest
    cases hrest
  · cases h

/-! ## A step -/

/-- What the flags say of a queue that is shut down. -/
structure Flagged (s : State w) : Prop where
  raw : s.rawQueue.queue.shutdown = true → s.gShutdown = true
  store : s.storeQueue.queue.shutdown = true → s.procShutdown = true

theorem flagged (htold : Told s) (hshown : Shown s) : Flagged s where
  raw hshut := htold.signal (hshown.raw hshut)
  store hshut := htold.proc (by have := htold.queue.1 hshut; omega)

/-- A thread in its round has not been refused. -/
theorem Accounts.raw_nil (h : Accounts cfg rawRefused storeRefused s)
    (hpc : s.collect.resting = false) : rawRefused = [] :=
  h.raw.resolve_right fun href => absurd (hpc.symm.trans href.rests) Bool.false_ne_true

theorem Accounts.store_nil (h : Accounts cfg rawRefused storeRefused s)
    (hpc : s.proc.resting = false) : storeRefused = [] :=
  h.store.resolve_right fun href => absurd (hpc.symm.trans href.rests) Bool.false_ne_true

/-- A sample is passed to the insert. -/
theorem Accounts.stored_passed (h : Accounts cfg rawRefused storeRefused s) {item : Item}
    {drain : Bool} {pc : StorePc} (hpc : s.store = .insert item drain) (hheld : pc.held = []) :
    (s.storeQueue.overwritten ++ s.storeQueue.items ++ pc.held ++
      (s.hist.passed ++ [item])).Perm s.storeQueue.accepted := by
  refine List.perm_iff_count.2 fun a => ?_
  have hcount := List.perm_iff_count.1 h.stored a
  rw [hpc] at hcount
  rw [hheld]
  simp only [List.count_append, StorePc.held, List.count_nil] at hcount ⊢
  omega

/-- A queue that is open refuses nothing. -/
theorem rawRefusal_of_open (hopen : s.rawQueue.queue.shutdown = false) :
    rawRefusal s l = [] := by
  cases l with
  | collect b => exact if_neg (by rw [hopen]; exact Bool.false_ne_true)
  | signal | main | acquire | proc | store | sql | markUploaded | incRetry => rfl

theorem storeRefusal_of_open (hopen : s.storeQueue.queue.shutdown = false) :
    storeRefusal s l = [] := by
  cases l with
  | proc b => exact if_neg (by rw [hopen]; exact Bool.false_ne_true)
  | signal | main | acquire | collect | store | sql | markUploaded | incRetry => rfl

/-- A queue that is shut down refuses at once. -/
theorem push_of_shutdown {c : Channel Item w} {item : Item} {timeoutMs : ℤ} {r : Resume}
    (hshut : c.queue.shutdown = true) : c.push item timeoutMs r = some (c, -1) := by
  have hwait : ¬ (c.queue.count ≥ c.queue.capacity ∧ c.queue.shutdown = false ∧
      0 < timeoutMs ∧ r ≠ .timedOut) := fun hfull =>
    absurd (hshut.symm.trans hfull.2.1) (by decide)
  rw [Channel.push, Queue.sampleQueuePush, if_neg hwait, if_pos hshut]
  rfl

/-- A step of the collect thread that keeps its sample is not refused. -/
theorem rawRefusal_of_held {b : Bool} {pc : CollectPc} (hheld : pc.held = s.collect.held)
    (hstep : collectStep s b = some { s with collect := pc }) :
    rawRefusal s (.collect b) = [] := by
  by_cases hshut : s.rawQueue.queue.shutdown = true
  · cases hpc : s.collect with
    | push item asleep =>
      simp only [collectStep, hpc, push_of_shutdown hshut, Option.some.injEq] at hstep
      have hsleep : CollectPc.sleep = pc := congrArg State.collect hstep
      rw [← hsleep, hpc] at hheld
      cases hheld
    | loop | acquire | sleep | returned =>
      rw [rawRefusal, hpc]
      exact ite_self _
  · exact if_neg hshut

theorem storeRefusal_of_held {b : Bool} {pc : ProcPc}
    (hheld : pc.held cfg.thresholds = s.proc.held cfg.thresholds)
    (hstep : procStep cfg s b = some { s with proc := pc }) :
    storeRefusal s (.proc b) = [] := by
  by_cases hshut : s.storeQueue.queue.shutdown = true
  · cases hpc : s.proc with
    | push item asleep =>
      simp only [procStep, hpc, push_of_shutdown hshut, Option.some.injEq] at hstep
      have hloop : ProcPc.loop = pc := congrArg State.proc hstep
      rw [← hloop, hpc] at hheld
      cases hheld
    | loop | pop | handle | returned =>
      rw [storeRefusal, hpc]
      exact ite_self _
  · exact if_neg hshut

/-- **A step keeps the books.** -/
theorem Accounts.step (h : Accounts cfg rawRefused storeRefused s) (hok : Sound s)
    (hflags : Flagged s) (hstep : step cfg s l = some s') :
    Accounts cfg (rawRefused ++ rawRefusal s l) (storeRefused ++ storeRefusal s l) s' := by
  suffices ∃ rawRefused' storeRefused', rawRefused' = rawRefused ++ rawRefusal s l ∧
      storeRefused' = storeRefused ++ storeRefusal s l ∧
      Accounts cfg rawRefused' storeRefused' s' by
    obtain ⟨_, _, rfl, rfl, hnew⟩ := this
    exact hnew
  have hnone : ∀ refused : List Item, refused = refused ++ [] := fun refused =>
    (List.append_nil refused).symm
  cases moves_of_step hok hstep with
  | main | setStore | markUploaded | incRetry =>
    exact ⟨rawRefused, storeRefused, hnone _, hnone _, h.offered, h.left, h.stored, h.raw, h.store⟩
  | shutRaw =>
    refine ⟨rawRefused, storeRefused, hnone _, hnone _, h.offered, h.left, h.stored, ?_, h.store⟩
    exact h.raw.imp_right fun href => ⟨href.one, rfl, href.told, href.rests⟩
  | shutStore =>
    refine ⟨rawRefused, storeRefused, hnone _, hnone _, h.offered, h.left, h.stored, h.raw, ?_⟩
    exact h.store.imp_right fun href => ⟨href.one, rfl, href.told, href.rests⟩
  | signal =>
    refine ⟨rawRefused, storeRefused, hnone _, hnone _, h.offered, h.left, h.stored, ?_, h.store⟩
    exact h.raw.imp_right fun href => ⟨href.one, href.shut, rfl, href.rests⟩
  | setProc =>
    refine ⟨rawRefused, storeRefused, hnone _, hnone _, h.offered, h.left, h.stored, h.raw, ?_⟩
    exact h.store.imp_right fun href => ⟨href.one, href.shut, rfl, href.rests⟩
  | collect b pc hheld =>
    refine ⟨rawRefused, storeRefused, ?_, hnone _, ?_, h.left, h.stored, ?_, h.store⟩
    · rw [rawRefusal_of_held hheld hstep]
      exact hnone _
    · rw [hheld]
      exact h.offered
    · refine h.raw.imp_right fun href => ?_
      obtain ⟨htold, hrests⟩ := resting_collect href.told href.rests hstep
      exact ⟨href.one, href.shut, htold, hrests⟩
  | acquire sample hpc =>
    have hnil := h.raw_nil (by rw [hpc]; rfl)
    refine ⟨[], storeRefused, hnil ▸ hnone _, hnone _, ?_, h.left, h.stored, .inl rfl, h.store⟩
    have hoffered := h.offered
    rw [hnil, hpc] at hoffered
    simp only [CollectPc.held, List.append_nil] at hoffered
    change (s.rawQueue.accepted ++ [] ++ [_]).Perm (s.hist.produced ++ [_])
    rw [List.append_nil]
    exact hoffered.append_right _
  | collectRefused b item asleep hpc hshut =>
    have hnil := h.raw_nil (by rw [hpc]; rfl)
    have href : rawRefusal s (.collect b) = [item] := by
      rw [rawRefusal, if_pos hshut, hpc, CollectPc.held_push]
    refine ⟨[item], storeRefused, by rw [hnil, href, List.nil_append], hnone _, ?_, h.left,
      h.stored, .inr ⟨rfl, hshut, hflags.raw hshut, rfl⟩, h.store⟩
    have hoffered := h.offered
    rw [hnil, hpc] at hoffered
    simpa [CollectPc.held] using hoffered
  | collectAccepted b item asleep c old kept hpc hawake hc =>
    have hnil := h.raw_nil (by rw [hpc]; rfl)
    refine ⟨[], storeRefused, ?_, hnone _, ?_, ?_, h.stored, .inl rfl, h.store⟩
    · rw [hnil, rawRefusal_of_open hc.wasOpen, List.append_nil]
    · have hoffered := h.offered
      rw [hnil, hpc] at hoffered
      simpa [CollectPc.held, hc.accepted] using hoffered
    · refine List.perm_iff_count.2 fun a => ?_
      have hcount := List.perm_iff_count.1 h.left a
      simp only [hc.before, hc.after, hc.accepted, hc.overwritten, List.map_append,
        List.count_append] at hcount ⊢
      omega
  | proc b pc hheld hpc hreturned =>
    refine ⟨rawRefused, storeRefused, hnone _, ?_, h.offered, ?_, h.stored, h.raw, ?_⟩
    · rw [storeRefusal_of_held hheld hstep]
      exact hnone _
    · rw [hheld]
      exact h.left
    · refine h.store.imp_right fun href => ?_
      obtain ⟨htold, hrests⟩ := resting_proc href.told href.rests hstep
      exact ⟨href.one, href.shut, htold, hrests⟩
  | procPop b item asleep c hpc hc =>
    have hnil := h.store_nil (by rw [hpc]; rfl)
    refine ⟨rawRefused, [], hnone _, ?_, ?_, ?_, h.stored, ?_, .inl rfl⟩
    · rw [hnil, storeRefusal, hpc]
      exact (ite_self _).symm
    · rw [hc.accepted]
      exact h.offered
    · refine List.perm_iff_count.2 fun a => ?_
      have hcount := List.perm_iff_count.1 h.left a
      rw [hnil, hpc] at hcount
      simp only [hc.before, hc.accepted, hc.overwritten, List.map_append, List.map_cons,
        List.count_append, List.count_cons, ProcPc.held, List.count_nil] at hcount ⊢
      omega
    · exact h.raw.imp_right fun href =>
        ⟨href.one, hc.shutdown.trans href.shut, href.told, href.rests⟩
  | procHandle b item d alarms hpc =>
    have hnil := h.store_nil (by rw [hpc]; rfl)
    refine ⟨rawRefused, [], hnone _, ?_, h.offered, ?_, h.stored, h.raw, .inl rfl⟩
    · rw [hnil, storeRefusal, hpc]
      exact (ite_self _).symm
    · have hleft := h.left
      rwa [hnil, hpc] at hleft
  | procRefused b item asleep hpc hshut =>
    have hnil := h.store_nil (by rw [hpc]; rfl)
    have href : storeRefusal s (.proc b) = [item] := by
      rw [storeRefusal, if_pos hshut, hpc, ProcPc.pushed]
    refine ⟨rawRefused, [item], hnone _, by rw [hnil, href, List.nil_append], h.offered, ?_,
      h.stored, h.raw, .inr ⟨rfl, hshut, hflags.store hshut, rfl⟩⟩
    have hleft := h.left
    rw [hnil, hpc] at hleft
    simpa [ProcPc.held] using hleft
  | procAccepted b item asleep c old kept hpc hc =>
    have hnil := h.store_nil (by rw [hpc]; rfl)
    refine ⟨rawRefused, [], hnone _, ?_, h.offered, ?_, ?_, h.raw, .inl rfl⟩
    · rw [hnil, storeRefusal_of_open hc.wasOpen, List.append_nil]
    · refine List.perm_iff_count.2 fun a => ?_
      have hcount := List.perm_iff_count.1 h.left a
      rw [hnil, hpc] at hcount
      simp only [hc.accepted, List.count_append, ProcPc.held, List.count_nil] at hcount ⊢
      omega
    · refine List.perm_iff_count.2 fun a => ?_
      have hcount := List.perm_iff_count.1 h.stored a
      simp only [hc.before, hc.after, hc.accepted, hc.overwritten, List.count_append] at hcount ⊢
      omega
  | store b pc hheld hpc hdrained hempty hdrain =>
    refine ⟨rawRefused, storeRefused, hnone _, hnone _, h.offered, h.left, ?_, h.raw, h.store⟩
    rw [hheld]
    exact h.stored
  | storePop b item drain c hdrained hheld hc =>
    refine ⟨rawRefused, storeRefused, hnone _, hnone _, h.offered, ?_, ?_, h.raw, ?_⟩
    · rw [hc.accepted]
      exact h.left
    · refine List.perm_iff_count.2 fun a => ?_
      have hcount := List.perm_iff_count.1 h.stored a
      rw [hheld] at hcount
      simp only [hc.before, hc.accepted, hc.overwritten, List.count_append, List.count_cons,
        StorePc.held, List.count_nil] at hcount ⊢
      omega
    · exact h.store.imp_right fun href =>
        ⟨href.one, hc.shutdown.trans href.shut, href.told, href.rests⟩
  | insert a item drain pc hpc hafter hdb =>
    exact ⟨rawRefused, storeRefused, hnone _, hnone _, h.offered, h.left, h.stored_passed hpc
      (hafter ▸ held_afterInsert cfg _ drain), h.raw, h.store⟩
  | insertFailed a item drain pc hpc hafter =>
    exact ⟨rawRefused, storeRefused, hnone _, hnone _, h.offered, h.left, h.stored_passed hpc
      (hafter ▸ held_afterInsert cfg _ drain), h.raw, h.store⟩
  | trim a pc pc' final db hpc hrows hseq =>
    refine ⟨rawRefused, storeRefused, hnone _, hnone _, h.offered, h.left, ?_, h.raw, h.store⟩
    have hstored := h.stored
    rw [hpc] at hstored
    exact hstored

/-! ## The counters -/

/-- **A queue as `main()` has made it**: its counters count what it has
accepted and what it has written over, as far as an `unsigned long` counts. -/
structure Counted (c : Channel Item w) : Prop where
  capacity : c.queue.capacity = defaultQueueCapacity.toNat
  pushes : c.queue.pushCount = BitVec.ofNat w c.accepted.length
  overflows : c.queue.overflowCount = BitVec.ofNat w c.overwritten.length

theorem counted_fresh {q : SampleQueue Item w}
    (h : Queue.sampleQueueCreate defaultQueueCapacity = some q) : Counted (Channel.fresh q) := by
  rw [Queue.sampleQueueCreate] at h
  split at h
  · cases h
  · cases h
    exact ⟨rfl, rfl, rfl⟩

variable {c c' : Channel Item w} {item : Item} {timeoutMs code : ℤ} {r : Resume}

theorem Counted.push (h : Counted c) (hw : Queue.WellFormed c.queue)
    (hpush : c.push item timeoutMs r = some (c', code)) : Counted c' := by
  obtain ⟨⟨q', code'⟩, hq, heq⟩ := Option.map_eq_some_iff.1 hpush
  obtain ⟨-, rfl, rfl⟩ | ⟨-, rfl, -, hcapacity, -⟩ := Queue.push_spec hw hq
  · cases heq
    exact h
  · rw [if_pos rfl] at heq
    cases heq
    obtain ⟨hcount, -, hover⟩ := Queue.push_counters hq
    refine ⟨hcapacity.trans h.capacity, ?_, ?_⟩
    · rw [hcount, h.pushes, List.length_append, BitVec.ofNat_add]
      rfl
    · rw [hover, h.overflows, List.length_append, BitVec.ofNat_add]

theorem Counted.pop (h : Counted c) (hw : Queue.WellFormed c.queue) {out : Option Item}
    (hpop : c.pop timeoutMs r = some (c', code, out)) : Counted c' := by
  obtain ⟨⟨q', code', out'⟩, hq, heq⟩ := Option.map_eq_some_iff.1 hpop
  obtain ⟨rfl, -, rfl, -⟩ | ⟨a, rfl, rfl, -, -, -, hcapacity, -⟩ := Queue.pop_spec hw hq
  · cases heq
    exact h
  · cases heq
    obtain ⟨hcount, -, hover⟩ := Queue.pop_counters hq
    exact ⟨hcapacity.trans h.capacity, hcount.trans h.pushes, hover.trans h.overflows⟩

/-- **The counters of the program.** -/
structure Counters (s : State w) : Prop where
  raw : Counted s.rawQueue
  store : Counted s.storeQueue
  written : s.writeCount + s.writeFailCount = BitVec.ofNat w s.hist.passed.length

theorem counters_init (h : init w db₀ = some s) : Counters s := by
  obtain ⟨raw, store, hraw, -, hstore, -, rfl⟩ := init_cases h
  exact ⟨counted_fresh hraw, counted_fresh hstore, rfl⟩

theorem counters_main (h : Counters s) (hstep : mainStep s = some s') : Counters s' := by
  cases hpc : s.main with
  | running | setProc | setStore =>
    simp only [mainStep, hpc] at hstep
    cases hstep
    exact ⟨h.raw, h.store, h.written⟩
  | shutRaw | shutStore =>
    simp only [mainStep, hpc] at hstep
    cases hstep
    exact ⟨⟨h.raw.capacity, h.raw.pushes, h.raw.overflows⟩,
      ⟨h.store.capacity, h.store.pushes, h.store.overflows⟩, h.written⟩
  | joinCollect | joinProc | joinStore =>
    simp only [mainStep, hpc] at hstep
    obtain ⟨-, heq⟩ := Option.ite_none_right_eq_some.1 hstep
    cases heq
    exact ⟨h.raw, h.store, h.written⟩
  | joined =>
    simp only [mainStep, hpc] at hstep
    cases hstep

theorem counters_collect {b : Bool} (h : Counters s) (hok : Sound s)
    (hstep : collectStep s b = some s') : Counters s' := by
  unfold collectStep at hstep
  split at hstep
  · cases hstep
    exact ⟨h.raw, h.store, h.written⟩
  · cases hstep
  · split at hstep
    · cases hstep
      exact ⟨h.raw, h.store, h.written⟩
    · next hpush =>
      cases hstep
      exact ⟨h.raw.push hok.raw hpush, h.store, h.written⟩
  · cases hstep
    exact ⟨h.raw, h.store, h.written⟩
  · cases hstep

theorem counters_proc {b : Bool} (h : Counters s) (hok : Sound s)
    (hstep : procStep cfg s b = some s') : Counters s' := by
  unfold procStep at hstep
  split at hstep
  · cases hstep
    exact ⟨h.raw, h.store, h.written⟩
  · split at hstep
    · cases hstep
      exact ⟨h.raw, h.store, h.written⟩
    · next hpop =>
      have hraw := h.raw.pop hok.raw hpop
      split at hstep
      · cases hstep
        exact ⟨hraw, h.store, h.written⟩
      · cases hstep
        exact ⟨hraw, h.store, h.written⟩
  · cases hstep
    exact ⟨h.raw, h.store, h.written⟩
  · split at hstep
    · cases hstep
      exact ⟨h.raw, h.store, h.written⟩
    · next hpush =>
      cases hstep
      exact ⟨h.raw, h.store.push hok.store hpush, h.written⟩
  · cases hstep

theorem counters_store {b : Bool} (h : Counters s) (hok : Sound s)
    (hstep : storeStep cfg s b = some s') : Counters s' := by
  unfold storeStep at hstep
  split at hstep
  · cases hstep
    exact ⟨h.raw, h.store, h.written⟩
  · split at hstep
    · cases hstep
      exact ⟨h.raw, h.store, h.written⟩
    · next hpop =>
      have hstore := h.store.pop hok.store hpop
      split at hstep
      · cases hstep
        exact ⟨h.raw, hstore, h.written⟩
      · cases hstep
        exact ⟨h.raw, hstore, h.written⟩
  · cases hstep
    exact ⟨h.raw, h.store, h.written⟩
  · split at hstep
    · cases hstep
      exact ⟨h.raw, h.store, h.written⟩
    · next hpop =>
      have hstore := h.store.pop hok.store hpop
      split at hstep
      · cases hstep
        exact ⟨h.raw, hstore, h.written⟩
      · cases hstep
        exact ⟨h.raw, hstore, h.written⟩
  · cases hstep
    exact ⟨h.raw, h.store, h.written⟩
  · cases hstep
  · cases hstep
  · cases hstep

/-- An insert is counted, whichever way it ends. -/
theorem counters_sql {a : SqlAnswer} (h : Counters s) (hok : Sound s)
    (hstep : step cfg s (.sql a) = some s') : Counters s' := by
  have hlength : ∀ item : Item, BitVec.ofNat w (s.hist.passed ++ [item]).length =
      BitVec.ofNat w s.hist.passed.length + 1 := fun item => by
    rw [List.length_append, BitVec.ofNat_add]
    rfl
  cases moves_of_step hok hstep with
  | insert a item drain pc hpc hafter hdb =>
    refine ⟨h.raw, h.store, ?_⟩
    change s.writeCount + 1 + s.writeFailCount = BitVec.ofNat w (s.hist.passed ++ [item]).length
    rw [hlength, ← h.written]
    grind
  | insertFailed a item drain pc hpc hafter =>
    refine ⟨h.raw, h.store, ?_⟩
    change s.writeCount + (s.writeFailCount + 1) =
      BitVec.ofNat w (s.hist.passed ++ [item]).length
    rw [hlength, ← h.written, BitVec.add_assoc]
  | trim => exact ⟨h.raw, h.store, h.written⟩

theorem Counters.step (h : Counters s) (hok : Sound s) (hstep : step cfg s l = some s') :
    Counters s' := by
  cases l with
  | main => exact counters_main h hstep
  | collect b => exact counters_collect h hok hstep
  | proc b => exact counters_proc h hok hstep
  | store b => exact counters_store h hok hstep
  | sql a => exact counters_sql h hok hstep
  | signal | markUploaded | incRetry =>
    cases hstep
    exact ⟨h.raw, h.store, h.written⟩
  | acquire sample =>
    change acquireStep s sample = some s' at hstep
    unfold acquireStep at hstep
    split at hstep
    · cases hstep
      exact ⟨h.raw, h.store, h.written⟩
    · cases hstep

/-! ## Runs -/

open Queue (sampleQueuePushCount sampleQueueOverflowCount sampleQueueCount)

/-- **What becomes of the samples**: each is written over, refused, or in
the line of the samples that are under way or passed to the insert. Each
queue refuses one at most, and none that is not shut down, to a thread that
has been told to stop; and the counters that `main()` logs differ by those
and by what the threads have in hand. -/
structure Accounted (cfg : Config) (rawRefused storeRefused : List Item) (s : State w) :
    Prop where
  fates : ((s.rawQueue.overwritten ++ rawRefused).map (processItem cfg.thresholds) ++
    (s.storeQueue.overwritten ++ storeRefused) ++ line cfg s).Perm
      (s.hist.produced.map (processItem cfg.thresholds))
  refused : rawRefused.length ≤ 1 ∧ storeRefused.length ≤ 1
  rawShut : rawRefused ≠ [] → s.rawQueue.queue.shutdown = true ∧ s.gShutdown = true
  storeShut : storeRefused ≠ [] → s.storeQueue.queue.shutdown = true ∧ s.procShutdown = true
  offered : BitVec.ofNat w s.hist.produced.length = sampleQueuePushCount s.rawQueue.queue +
    BitVec.ofNat w (s.collect.held.length + rawRefused.length)
  raw : sampleQueuePushCount s.rawQueue.queue = sampleQueueOverflowCount s.rawQueue.queue +
    BitVec.ofNat w (sampleQueueCount s.rawQueue.queue) +
    BitVec.ofNat w ((s.proc.held cfg.thresholds).length + storeRefused.length) +
    sampleQueuePushCount s.storeQueue.queue
  store : sampleQueuePushCount s.storeQueue.queue =
    sampleQueueOverflowCount s.storeQueue.queue +
    BitVec.ofNat w (sampleQueueCount s.storeQueue.queue) + BitVec.ofNat w s.store.held.length +
    (s.writeCount + s.writeFailCount)

/-- The three books, put together. -/
theorem Accounts.fates (h : Accounts cfg rawRefused storeRefused s) :
    ((s.rawQueue.overwritten ++ rawRefused).map (processItem cfg.thresholds) ++
      (s.storeQueue.overwritten ++ storeRefused) ++ line cfg s).Perm
        (s.hist.produced.map (processItem cfg.thresholds)) := by
  refine List.perm_iff_count.2 fun a => ?_
  have hin := List.perm_iff_count.1 (h.offered.map (processItem cfg.thresholds)) a
  have hout := List.perm_iff_count.1 h.left a
  have hpassed := List.perm_iff_count.1 h.stored a
  simp only [line, List.map_append, List.count_append] at hin hout hpassed ⊢
  omega

theorem Accounts.accounted (h : Accounts cfg rawRefused storeRefused s) (hc : Counters s) :
    Accounted cfg rawRefused storeRefused s := by
  have hin := h.offered.length_eq
  have hout := h.left.length_eq
  have hpassed := h.stored.length_eq
  simp only [List.length_append, List.length_map, Channel.length_items] at hin hout hpassed
  refine ⟨h.fates, ⟨?_, ?_⟩, fun hne => ?_, fun hne => ?_, ?_, ?_, ?_⟩
  · obtain hnil | href := h.raw
    · exact hnil ▸ Nat.zero_le 1
    · exact href.one.le
  · obtain hnil | href := h.store
    · exact hnil ▸ Nat.zero_le 1
    · exact href.one.le
  · have href := h.raw.resolve_left hne
    exact ⟨href.shut, href.told⟩
  · have href := h.store.resolve_left hne
    exact ⟨href.shut, href.told⟩
  · rw [sampleQueuePushCount, hc.raw.pushes, ← BitVec.ofNat_add]
    exact congrArg _ (by omega)
  · rw [sampleQueuePushCount, sampleQueuePushCount, sampleQueueOverflowCount, hc.raw.pushes,
      hc.raw.overflows, hc.store.pushes, sampleQueueCount, ← BitVec.ofNat_add, ← BitVec.ofNat_add,
      ← BitVec.ofNat_add]
    exact congrArg _ (by omega)
  · rw [sampleQueuePushCount, sampleQueueOverflowCount, hc.store.pushes, hc.store.overflows,
      hc.written, sampleQueueCount, ← BitVec.ofNat_add, ← BitVec.ofNat_add, ← BitVec.ofNat_add]
    exact congrArg _ (by omega)

/-- **Every sample is accounted for**, at every moment of every run: the
order of the threads, the answers of SQLite and the shutdown make no sample
vanish but those that the run has seen refused, and the counters of the
queues and of the store thread add up. -/
theorem samples_accounted (h₀ : init w db₀ = some s) (h : Run.exec (step cfg) s ls = some s') :
    Accounted cfg (rawRefusals cfg s ls) (storeRefusals cfg s ls) s' := by
  obtain ⟨-, -, -, hcounters, haccounts⟩ := Run.exec_induction
    (I := fun ls t => Sound t ∧ Told t ∧ Shown t ∧ Counters t ∧
      Accounts cfg (rawRefusals cfg s ls) (storeRefusals cfg s ls) t)
    ⟨sound_init h₀, told_init h₀, shown_init h₀, counters_init h₀, accounts_init h₀⟩
    (fun ls t l t' hrun ⟨hok, htold, hshown, hcounters, haccounts⟩ hstep => by
      refine ⟨hok.step hstep, htold.step hok hstep, hshown.step hok hstep,
        hcounters.step hok hstep, ?_⟩
      rw [rawRefusals, storeRefusals, Run.gather_concat hrun hstep, Run.gather_concat hrun hstep]
      exact haccounts.step hok (flagged htold hshown) hstep) h
  exact haccounts.accounted hcounters

/-- A shutdown with a sample in the hands of the collect thread and one in
those of the processor. -/
def refusedRun : List Label :=
  collectOne 1 ++ [.proc false, .proc false, .collect false, .acquire (exampleSample 2)] ++
    setFlags ++ shutQueues ++ [.collect false, .proc false, .proc false]

/-- Both are refused. -/
theorem samples_accounted_refused :
    ∃ s₀ s : State 32, init 32 AutoTable.empty = some s₀ ∧
      Run.exec (step exampleConfig) s₀ refusedRun = some s ∧ s.hist.produced.length = 2 ∧
      line exampleConfig s = [] ∧
      (rawRefusals exampleConfig s₀ refusedRun).map Prod.fst = [1] ∧
      (storeRefusals exampleConfig s₀ refusedRun).map Prod.fst = [0] ∧
      Accounted exampleConfig (rawRefusals exampleConfig s₀ refusedRun)
        (storeRefusals exampleConfig s₀ refusedRun) s := by
  obtain ⟨s₀, s, h₀, h, hp⟩ := exists_of_runsTo refusedRun
    (fun s₀ s => decide (s.hist.produced.length = 2 ∧ line exampleConfig s = [] ∧
      (rawRefusals exampleConfig s₀ refusedRun).map Prod.fst = [1] ∧
      (storeRefusals exampleConfig s₀ refusedRun).map Prod.fst = [0]))
    (by decide +kernel)
  obtain ⟨hproduced, hline, hraw, hstore⟩ := of_decide_eq_true hp
  exact ⟨s₀, s, h₀, h, hproduced, hline, hraw, hstore, samples_accounted h₀ h⟩

end Pipeline

end WaterGateway
