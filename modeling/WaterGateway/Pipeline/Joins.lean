import WaterGateway.Pipeline.Shutdown

/-!
# The joins come to an end

`main()` joins its three threads one after another, and each join waits.
By then the flags are set and both queues are shut down, so that no call of
a queue sleeps, and each step takes its thread nearer to its end: the
store thread has the samples in `store_queue` to go through, the others
have a round to finish. There is no order of the steps in which the joins
take longer, and none in which they are stuck.
-/

namespace WaterGateway

namespace Pipeline

variable {w : ℕ} {cfg : Config} {s s₀ s' : State w} {l : Label} {ls ls' : List Label}
variable {db₀ : Samples}

/-! ## What `main()` has told the threads -/

/-- How far `main()` is. -/
def MainPc.stage : MainPc → ℕ
  | .running => 0
  | .setProc => 1
  | .setStore => 2
  | .shutRaw => 3
  | .shutStore => 4
  | .joinCollect => 5
  | .joinProc => 6
  | .joinStore => 7
  | .joined => 8

/-- **What a thread can see of the shutdown**, stage by stage. -/
structure Told (s : State w) : Prop where
  signal : 1 ≤ s.main.stage → s.gShutdown = true
  proc : 2 ≤ s.main.stage → s.procShutdown = true
  store : 3 ≤ s.main.stage → s.storeShutdown = true
  raw : 4 ≤ s.main.stage → s.rawQueue.queue.shutdown = true
  queue : s.storeQueue.queue.shutdown = true ↔ 5 ≤ s.main.stage

theorem told_init (h : init w db₀ = some s) : Told s := by
  obtain ⟨raw, store, -, -, hstore, -, rfl⟩ := init_cases h
  have hopen : store.shutdown = false := congrArg Fifo.closed (Queue.wellFormed_create hstore).2.1
  refine ⟨nofun, nofun, nofun, nofun, ?_⟩
  change store.shutdown = true ↔ 5 ≤ 0
  rw [hopen]
  exact ⟨nofun, nofun⟩

/-- A join tells nothing new. -/
theorem Told.join (h : Told s) {pc : MainPc} (hjoin : 5 ≤ s.main.stage) (hpc : 5 ≤ pc.stage) :
    Told { s with main := pc } :=
  ⟨fun _ => h.signal (by omega), fun _ => h.proc (by omega), fun _ => h.store (by omega),
    fun _ => h.raw (by omega), ⟨fun _ => hpc, fun _ => h.queue.2 hjoin⟩⟩

/-- A step of `main()`. -/
theorem Told.main (h : Told s) (hstep : mainStep s = some s') : Told s' := by
  have hopen : s.main.stage < 5 → ¬ s.storeQueue.queue.shutdown = true := fun hlt hshut =>
    absurd (h.queue.1 hshut) (by omega)
  unfold mainStep at hstep
  split at hstep
  · next hpc =>
    have hnot := hopen (by rw [hpc]; decide)
    cases hstep
    by_cases hsignal : s.gShutdown = true
    · rw [hsignal, if_pos rfl]
      exact ⟨fun _ => rfl, nofun, nofun, nofun, ⟨fun hshut => absurd hshut hnot, nofun⟩⟩
    · rw [if_neg hsignal]
      exact ⟨nofun, nofun, nofun, nofun, ⟨fun hshut => absurd hshut hnot, nofun⟩⟩
  · next hpc =>
    have hnot := hopen (by rw [hpc]; decide)
    cases hstep
    exact ⟨fun _ => h.signal (by rw [hpc]; decide), fun _ => rfl, nofun, nofun,
      ⟨fun hshut => absurd hshut hnot, nofun⟩⟩
  · next hpc =>
    have hnot := hopen (by rw [hpc]; decide)
    cases hstep
    exact ⟨fun _ => h.signal (by rw [hpc]; decide), fun _ => h.proc (by rw [hpc]; decide),
      fun _ => rfl, nofun, ⟨fun hshut => absurd hshut hnot, nofun⟩⟩
  · next hpc =>
    have hnot := hopen (by rw [hpc]; decide)
    cases hstep
    exact ⟨fun _ => h.signal (by rw [hpc]; decide), fun _ => h.proc (by rw [hpc]; decide),
      fun _ => h.store (by rw [hpc]; decide), fun _ => rfl,
      ⟨fun hshut => absurd hshut hnot, nofun⟩⟩
  · next hpc =>
    cases hstep
    exact ⟨fun _ => h.signal (by rw [hpc]; decide), fun _ => h.proc (by rw [hpc]; decide),
      fun _ => h.store (by rw [hpc]; decide), fun _ => h.raw (by rw [hpc]; decide),
      ⟨fun _ => Nat.le_refl 5, fun _ => rfl⟩⟩
  · next hpc =>
    split at hstep
    · cases hstep
      exact h.join (by rw [hpc]; decide) (by decide)
    · cases hstep
  · next hpc =>
    split at hstep
    · cases hstep
      exact h.join (by rw [hpc]; decide) (by decide)
    · cases hstep
  · next hpc =>
    split at hstep
    · cases hstep
      exact h.join (by rw [hpc]; decide) (by decide)
    · cases hstep
  · cases hstep

theorem Told.step (h : Told s) (hok : Sound s) (hstep : step cfg s l = some s') : Told s' := by
  by_cases hmain : l = .main
  · subst hmain
    exact h.main hstep
  · cases moves_of_step hok hstep with
    | main | setProc | setStore | shutRaw | shutStore => exact absurd rfl hmain
    | signal => exact ⟨fun _ => rfl, h.proc, h.store, h.raw, h.queue⟩
    | collect | acquire | collectRefused | proc | procHandle | procRefused | store | insert
      | insertFailed | trim | markUploaded | incRetry =>
      exact ⟨h.signal, h.proc, h.store, h.raw, h.queue⟩
    | collectAccepted b item asleep c old kept hpc hawake hc =>
      refine ⟨h.signal, h.proc, h.store, fun hstage => ?_, h.queue⟩
      exact absurd (hc.wasOpen.symm.trans (h.raw hstage)) Bool.false_ne_true
    | procPop b item asleep c hpc hc =>
      exact ⟨h.signal, h.proc, h.store, fun hstage => hc.shutdown.trans (h.raw hstage), h.queue⟩
    | procAccepted b item asleep c old kept hpc hc =>
      refine ⟨h.signal, h.proc, h.store, h.raw, ?_⟩
      change c.queue.shutdown = true ↔ 5 ≤ s.main.stage
      rw [hc.isOpen, ← hc.wasOpen]
      exact h.queue
    | storePop b item drain c hdrained hheld hc =>
      refine ⟨h.signal, h.proc, h.store, h.raw, ?_⟩
      change c.queue.shutdown = true ↔ 5 ≤ s.main.stage
      rw [hc.shutdown]
      exact h.queue

/-- **The threads have been told**: the flags are set, and the queues are
shut down. -/
structure Asked (s : State w) : Prop where
  signal : s.gShutdown = true
  proc : s.procShutdown = true
  store : s.storeShutdown = true
  raw : s.rawQueue.queue.shutdown = true
  queue : s.storeQueue.queue.shutdown = true

theorem Told.asked (h : Told s) (hshut : s.storeQueue.queue.shutdown = true) : Asked s := by
  have hstage := h.queue.1 hshut
  exact ⟨h.signal (by omega), h.proc (by omega), h.store (by omega), h.raw (by omega), hshut⟩

/-! ## The measure -/

/-- How many steps a thread has to its end, with nothing to take. -/
def CollectPc.rank : CollectPc → ℕ
  | .returned => 0
  | .loop => 1
  | .sleep => 2
  | .push _ _ => 3
  | .acquire => 4

/-- The same for the processor. -/
def ProcPc.rank : ProcPc → ℕ
  | .returned => 0
  | .loop => 1
  | .push _ _ => 2
  | .handle _ => 3
  | .pop _ => 4

/-- How many statements a trim has left. -/
def trimRank : Store.TrimPc → ℕ
  | .done _ => 0
  | .delete2 _ => 1
  | .count2 => 2
  | .delete1 _ => 3
  | .count1 => 4

/-- The same for the store thread, which goes from its loop to its drain
loop, and from there to its last trim. -/
def StorePc.rank : StorePc → ℕ
  | .returned => 0
  | .trim pc true => 1 + trimRank pc
  | .drainPop _ => 6
  | .drainCheck => 7
  | .insert _ true => 8
  | .loop => 8
  | .trim pc false => 9 + trimRank pc
  | .pop _ => 9
  | .insert _ false => 14

/-- **The measure of the joins**: a sample in `store_queue` is worth more
than any round. -/
def joinMeasure (s : State w) : ℕ :=
  (8 - s.main.stage) + s.collect.rank + s.proc.rank +
    (16 * s.storeQueue.items.length + s.store.rank)

variable {b : Bool} {a : SqlAnswer}

theorem measure_collect (hasked : Asked s) (h : collectStep s b = some s') :
    joinMeasure s' < joinMeasure s := by
  unfold collectStep at h
  split at h
  · next hpc =>
    rw [hasked.signal, if_pos rfl] at h
    cases h
    simp only [joinMeasure, hpc, CollectPc.rank]
    omega
  · cases h
  · next item asleep hpc =>
    -- the push is refused
    rw [Channel.push_of_shutdown hasked.raw] at h
    cases h
    simp only [joinMeasure, hpc, CollectPc.rank]
    omega
  · next hpc =>
    cases h
    simp only [joinMeasure, hpc, CollectPc.rank]
    omega
  · cases h

theorem measure_acquire {sample : WaterSample} (h : acquireStep s sample = some s') :
    joinMeasure s' < joinMeasure s := by
  unfold acquireStep at h
  split at h
  · next hpc =>
    cases h
    simp only [joinMeasure, hpc, CollectPc.rank]
    omega
  · cases h

theorem measure_proc (hasked : Asked s) (h : procStep cfg s b = some s') :
    joinMeasure s' < joinMeasure s := by
  unfold procStep at h
  split at h
  · next hpc =>
    rw [hasked.proc, if_pos rfl] at h
    cases h
    simp only [joinMeasure, hpc, ProcPc.rank]
    omega
  · next asleep hpc =>
    obtain ⟨⟨c, code, out⟩, hpop⟩ :=
      Channel.exists_pop_of_shutdown hasked.raw 500 (resume asleep b)
    simp only [hpop] at h
    split at h
    · cases h
      simp only [joinMeasure, hpc, ProcPc.rank]
      omega
    · cases h
      simp only [joinMeasure, hpc, ProcPc.rank]
      omega
  · next item hpc =>
    cases h
    simp only [joinMeasure, hpc, ProcPc.rank]
    omega
  · next item asleep hpc =>
    rw [Channel.push_of_shutdown hasked.queue] at h
    cases h
    simp only [joinMeasure, hpc, ProcPc.rank]
    omega
  · cases h

theorem trimRank_start (maxCount : ℤ) : trimRank (Store.trimStart maxCount) ≤ 4 := by
  unfold Store.trimStart
  split
  · exact Nat.zero_le 4
  · exact Nat.le_refl 4

/-- A statement of a trim is its last, or leads to a later one. -/
theorem trimRank_step {maxCount : ℤ} {db : Samples} {pc : Store.TrimPc}
    (hpc : ∀ ret, pc ≠ .done ret) :
    trimRank (Store.trimStep maxCount db pc a).2 < trimRank pc := by
  cases pc with
  | count1 =>
    simp only [Store.trimStep]
    split <;> simp only [trimRank] <;> omega
  | delete1 toDelete =>
    simp only [Store.trimStep]
    split <;> simp only [trimRank] <;> omega
  | count2 =>
    simp only [Store.trimStep]
    split <;> simp only [trimRank] <;> omega
  | delete2 toDelete =>
    simp only [Store.trimStep]
    split <;> simp only [trimRank] <;> omega
  | done ret => exact absurd rfl (hpc ret)

/-- A trim is less work than a loop. -/
theorem rank_trimStart (maxCount : ℤ) :
    (StorePc.trim (Store.trimStart maxCount) true).rank ≤ 5 ∧
      (StorePc.trim (Store.trimStart maxCount) false).rank ≤ 13 := by
  have hstart := trimRank_start maxCount
  simp only [StorePc.rank]
  omega

/-- The store thread, where it takes nothing. -/
theorem measure_store_pc {pc : StorePc} (h : pc.rank < s.store.rank) :
    joinMeasure { s with store := pc } < joinMeasure s := by
  simp only [joinMeasure]
  omega

theorem measure_store_pop {c : Channel Item w} {item : Item} {pc : StorePc}
    (hc : Takes s.storeQueue c item) (h : pc.rank < s.store.rank + 16) :
    joinMeasure { s with storeQueue := c, store := pc } < joinMeasure s := by
  have hlength : s.storeQueue.items.length = c.items.length + 1 := by
    rw [hc.before, List.length_cons]
  simp only [joinMeasure, hlength]
  omega

theorem measure_store (hasked : Asked s) (hok : Sound s) (h : storeStep cfg s b = some s') :
    joinMeasure s' < joinMeasure s := by
  obtain ⟨hfinal, hmore⟩ := rank_trimStart cfg.maxCacheCount
  unfold storeStep at h
  split at h
  · next hpc =>
    rw [hasked.store, if_pos rfl] at h
    cases h
    exact measure_store_pc (by rw [hpc]; decide)
  · next asleep hpc =>
    split at h
    · next hnone =>
      obtain ⟨res, hpop⟩ := Channel.exists_pop_of_shutdown hasked.queue 500 (resume asleep b)
      cases hpop.symm.trans hnone
    · next c code out hpop =>
      obtain ⟨hnone, rfl, -⟩ | ⟨item, hsome, hc⟩ := takes_or_fails hok.store hpop
      · simp only [hnone] at h
        cases h
        exact measure_store_pc (by rw [hpc]; exact Nat.lt_succ_self 8)
      · simp only [hsome] at h
        cases h
        exact measure_store_pop hc (by rw [hpc]; simp only [StorePc.rank]; omega)
  · next hpc =>
    cases h
    refine measure_store_pc ?_
    rw [hpc]
    split
    · exact Nat.lt_succ_self 6
    · exact Nat.lt_of_le_of_lt hfinal (by decide)
  · next asleep hpc =>
    split at h
    · next hnone =>
      obtain ⟨res, hpop⟩ := Channel.exists_pop_of_shutdown hasked.queue 100 (resume asleep b)
      cases hpop.symm.trans hnone
    · next c code out hpop =>
      obtain ⟨hnone, rfl, -⟩ | ⟨item, hsome, hc⟩ := takes_or_fails hok.store hpop
      · simp only [hnone] at h
        cases h
        exact measure_store_pc (by rw [hpc]; exact Nat.lt_succ_of_le hfinal)
      · simp only [hsome] at h
        cases h
        exact measure_store_pop hc (by rw [hpc]; simp only [StorePc.rank]; omega)
  · next ret final hpc =>
    cases h
    refine measure_store_pc ?_
    rw [hpc]
    cases final with
    | true => exact Nat.one_pos
    | false => exact Nat.lt_succ_self 8
  · cases h
  · cases h
  · cases h

theorem rank_afterInsert (cfg : Config) (counter : UInt) (item : Item) (drain : Bool) :
    (afterInsert cfg counter drain).rank < (StorePc.insert item drain).rank := by
  obtain ⟨-, hmore⟩ := rank_trimStart cfg.maxCacheCount
  unfold afterInsert
  cases drain with
  | true => exact Nat.lt_succ_self 7
  | false =>
    rw [if_neg Bool.false_ne_true]
    split
    · exact Nat.lt_of_le_of_lt hmore (Nat.lt_succ_self 13)
    · exact show 8 < 14 by omega

theorem measure_sql (h : sqlStep cfg s a = some s') : joinMeasure s' < joinMeasure s := by
  unfold sqlStep at h
  split at h
  · next item drain hpc =>
    cases h
    have hrank := rank_afterInsert cfg (s.storeCounter + 1) item drain
    simp only [joinMeasure, hpc]
    omega
  · cases h
  · next pc final hdone hpc =>
    cases h
    have hrank : trimRank (Store.trimStep cfg.maxCacheCount s.db pc a).2 < trimRank pc :=
      trimRank_step hdone
    simp only [joinMeasure, hpc]
    cases final with
    | true =>
      simp only [StorePc.rank]
      omega
    | false =>
      simp only [StorePc.rank]
      omega
  · cases h

theorem measure_main (htold : Told s) (hasked : Asked s) (h : mainStep s = some s') :
    joinMeasure s' < joinMeasure s := by
  have hstage := htold.queue.1 hasked.queue
  have hlower : ∀ pc : MainPc, s.main.stage < pc.stage → pc.stage ≤ 8 →
      joinMeasure { s with main := pc } < joinMeasure s := by
    intro pc hlt hle
    simp only [joinMeasure]
    omega
  cases hpc : s.main with
  | running | setProc | setStore | shutRaw | shutStore =>
    rw [hpc] at hstage
    exact absurd hstage (by decide)
  | joinCollect | joinProc | joinStore =>
    simp only [mainStep, hpc] at h
    split at h
    · cases h
      exact hlower _ (by rw [hpc]; decide) (by decide)
    · cases h
  | joined =>
    simp only [mainStep, hpc] at h
    cases h

/-- A step of one of the threads or of `main()`. The others are a signal,
and the uploader's updates. -/
def Label.thread : Label → Bool
  | .signal | .markUploaded _ _ | .incRetry _ _ => false
  | _ => true

/-- **Every step of a thread lowers the measure**, and no other step raises
it. -/
theorem measure_step (htold : Told s) (hasked : Asked s) (hok : Sound s)
    (h : step cfg s l = some s') :
    joinMeasure s' + (if l.thread then 1 else 0) ≤ joinMeasure s := by
  cases l with
  | signal | markUploaded | incRetry =>
    cases h
    exact Nat.le_refl _
  | main => exact measure_main htold hasked h
  | collect b => exact measure_collect hasked h
  | acquire sample => exact measure_acquire h
  | proc b => exact measure_proc hasked h
  | store b => exact measure_store hasked hok h
  | sql a => exact measure_sql h

/-- The measure, in samples. -/
theorem joinMeasure_le (hasked : Asked s) (htold : Told s) :
    joinMeasure s ≤ 16 * s.storeQueue.items.length + 25 := by
  have hstage := htold.queue.1 hasked.queue
  have hcollect : s.collect.rank ≤ 4 := by
    cases s.collect <;> simp only [CollectPc.rank] <;> omega
  have hproc : s.proc.rank ≤ 4 := by
    cases s.proc <;> simp only [ProcPc.rank] <;> omega
  have htrim : ∀ pc, trimRank pc ≤ 4 := fun pc => by
    cases pc <;> simp only [trimRank] <;> omega
  have hstore : s.store.rank ≤ 14 := by
    unfold StorePc.rank
    split
    case h_2 pc _ | h_7 pc _ =>
      have := htrim pc
      omega
    all_goals omega
  rw [joinMeasure]
  omega

/-! ## No thread is stuck -/

/-- A thread that has not returned can take a step. -/
theorem collect_enabled (hasked : Asked s) (hpc : s.collect ≠ .returned) :
    ∃ l, l.thread = true ∧ (step cfg s l).isSome = true := by
  cases hs : s.collect with
  | acquire =>
    exact ⟨.acquire default, rfl, by simp only [step, acquireStep, hs, Option.isSome_some]⟩
  | loop | sleep =>
    exact ⟨.collect false, rfl, by simp only [step, collectStep, hs, Option.isSome_some]⟩
  | push item asleep =>
    refine ⟨.collect false, rfl, ?_⟩
    simp only [step, collectStep, hs, Channel.push_of_shutdown hasked.raw, Option.isSome_some]
  | returned => exact absurd hs hpc

theorem proc_enabled (hasked : Asked s) (hpc : s.proc ≠ .returned) :
    ∃ l, l.thread = true ∧ (step cfg s l).isSome = true := by
  refine ⟨.proc false, rfl, ?_⟩
  cases hs : s.proc with
  | loop | handle => simp only [step, procStep, hs, Option.isSome_some]
  | pop asleep =>
    obtain ⟨⟨c, code, out⟩, hpop⟩ :=
      Channel.exists_pop_of_shutdown hasked.raw 500 (resume asleep false)
    simp only [step, procStep, hs, hpop]
    split <;> rfl
  | push item asleep =>
    simp only [step, procStep, hs, Channel.push_of_shutdown hasked.queue, Option.isSome_some]
  | returned => exact absurd hs hpc

theorem store_enabled (hasked : Asked s) (hpc : s.store ≠ .returned) :
    ∃ l, l.thread = true ∧ (step cfg s l).isSome = true := by
  have hmoves : (storeStep cfg s false).isSome = true →
      ∃ l, l.thread = true ∧ (step cfg s l).isSome = true := fun hsome =>
    ⟨.store false, rfl, hsome⟩
  have hasks : (sqlStep cfg s .ok).isSome = true →
      ∃ l, l.thread = true ∧ (step cfg s l).isSome = true := fun hsome =>
    ⟨.sql .ok, rfl, hsome⟩
  cases hs : s.store with
  | loop | drainCheck => exact hmoves (by simp only [storeStep, hs, Option.isSome_some])
  | pop asleep =>
    obtain ⟨⟨c, code, out⟩, hpop⟩ :=
      Channel.exists_pop_of_shutdown hasked.queue 500 (resume asleep false)
    refine hmoves ?_
    simp only [storeStep, hs, hpop]
    split <;> rfl
  | drainPop asleep =>
    obtain ⟨⟨c, code, out⟩, hpop⟩ :=
      Channel.exists_pop_of_shutdown hasked.queue 100 (resume asleep false)
    refine hmoves ?_
    simp only [storeStep, hs, hpop]
    split <;> rfl
  | insert item drain => exact hasks (by simp only [sqlStep, hs, Option.isSome_some])
  | trim pc final =>
    cases pc with
    | done ret => exact hmoves (by simp only [storeStep, hs, Option.isSome_some])
    | count1 | delete1 | count2 | delete2 =>
      exact hasks (by simp only [sqlStep, hs, Option.isSome_some])
  | returned => exact absurd hs hpc

/-- `main()` waits for a thread that can move, or goes on. -/
theorem join_enabled (htold : Told s) (hasked : Asked s) (hpc : s.main ≠ .joined) :
    ∃ l, l.thread = true ∧ (step cfg s l).isSome = true := by
  have hstage := htold.queue.1 hasked.queue
  cases hs : s.main with
  | running | setProc | setStore | shutRaw | shutStore =>
    rw [hs] at hstage
    exact absurd hstage (by decide)
  | joinCollect =>
    by_cases hret : s.collect = .returned
    · exact ⟨.main, rfl, by simp only [step, mainStep, hs, hret, if_true, Option.isSome_some]⟩
    · exact collect_enabled hasked hret
  | joinProc =>
    by_cases hret : s.proc = .returned
    · exact ⟨.main, rfl, by simp only [step, mainStep, hs, hret, if_true, Option.isSome_some]⟩
    · exact proc_enabled hasked hret
  | joinStore =>
    by_cases hret : s.store = .returned
    · exact ⟨.main, rfl, by simp only [step, mainStep, hs, hret, if_true, Option.isSome_some]⟩
    · exact store_enabled hasked hret
  | joined => exact absurd hs hpc

/-! ## Runs -/

/-- The invariants of a run, and what a step keeps of them. -/
theorem told_exec (h₀ : init w db₀ = some s₀) (h : Run.exec (step cfg) s₀ ls = some s) :
    Sound s ∧ Told s :=
  Run.exec_invariant (I := fun s => Sound s ∧ Told s)
    (fun _ _ _ hI ht => ⟨hI.1.step ht, hI.2.step hI.1 ht⟩) ⟨sound_init h₀, told_init h₀⟩ h

/-- A queue that is shut down stays so. -/
theorem shut_step (hok : Sound s) (hshut : s.storeQueue.queue.shutdown = true)
    (h : step cfg s l = some s') : s'.storeQueue.queue.shutdown = true := by
  cases moves_of_step hok h with
  | shutStore => rfl
  | procAccepted b item asleep c old kept hpc hc =>
    exact absurd (hc.wasOpen.symm.trans hshut) Bool.false_ne_true
  | storePop b item drain c hdrained hheld hc => exact hc.shutdown.trans hshut
  | signal | main | setProc | setStore | shutRaw | collect | acquire | collectRefused
    | collectAccepted | proc | procPop | procHandle | procRefused | store | insert | insertFailed
    | trim | markUploaded | incRetry => exact hshut

/-- What the joins rest on. -/
structure Joining (s : State w) : Prop where
  sound : Sound s
  told : Told s
  shut : s.storeQueue.queue.shutdown = true

theorem Joining.step (h : Joining s) (hstep : step cfg s l = some s') : Joining s' :=
  ⟨h.sound.step hstep, h.told.step h.sound hstep, shut_step h.sound h.shut hstep⟩

theorem Joining.asked (h : Joining s) : Asked s := h.told.asked h.shut

theorem Joining.measure (h : Joining s) (hstep : Pipeline.step cfg s l = some s') :
    joinMeasure s' + (if l.thread then 1 else 0) ≤ joinMeasure s :=
  measure_step h.told h.asked h.sound hstep

theorem Joining.enabled (h : Joining s) (hpc : s.main ≠ .joined) :
    ∃ l, l.thread = true ∧ (Pipeline.step cfg s l).isSome = true :=
  join_enabled h.told h.asked hpc

/-- **The joins end**: once both queues are shut down, `main()` and its
three threads take at most 16 steps for each sample in `store_queue` and 25
beside, in whatever order they run, whatever SQLite answers and whatever
the uploader does; and until all three are joined one of them can take a
step. -/
theorem joins_end (h₀ : init w db₀ = some s₀) (h : Run.exec (step cfg) s₀ ls = some s)
    (hshut : s.storeQueue.queue.shutdown = true) (h' : Run.exec (step cfg) s ls' = some s') :
    ls'.countP Label.thread ≤ 16 * s.storeQueue.items.length + 25 ∧
      (s'.main ≠ .joined → ∃ l, l.thread = true ∧ (step cfg s' l).isSome = true) := by
  obtain ⟨hok, htold⟩ := told_exec h₀ h
  have hjoining : Joining s := ⟨hok, htold, hshut⟩
  refine ⟨?_, fun hpc => ?_⟩
  · have hcount := Run.countP_le_measure (I := Joining) (C := fun _ _ => True) (μ := joinMeasure)
      (p := Label.thread) (fun _ _ _ hI _ ht => ⟨hI.step ht, hI.measure ht⟩) hjoining
      (Run.along_of_all (fun _ _ => trivial) _ _) h'
    have hbound := joinMeasure_le hjoining.asked htold
    omega
  · exact (Run.exec_invariant (I := Joining) (fun _ _ _ hI ht => hI.step ht) hjoining h').enabled
      hpc

/-- Up to the joins, with one sample in `store_queue`. -/
def toJoins : List Label :=
  collectOne 1 ++ processOne ++ setFlags ++ [.collect false, .proc false] ++ shutQueues

/-- The store thread inserts it, trims and returns, and all are joined. -/
def joinsDone : List Label :=
  [.store false, .store false, .store false, .sql .ok] ++
    [.store false, .sql .ok, .store false] ++ joinAll

/-- That takes ten steps. -/
theorem joins_end_one :
    ∃ s₀ s s' : State 32, init 32 AutoTable.empty = some s₀ ∧
      Run.exec (step exampleConfig) s₀ toJoins = some s ∧
      Run.exec (step exampleConfig) s joinsDone = some s' ∧ s'.main = .joined ∧
      s.storeQueue.items.length = 1 ∧ joinsDone.countP Label.thread = 10 ∧
      joinsDone.countP Label.thread ≤ 16 * s.storeQueue.items.length + 25 := by
  obtain ⟨s₀, s, h₀, h, hp⟩ := exists_of_runsTo toJoins
    (fun _ s => decide (s.storeQueue.queue.shutdown = true ∧ s.storeQueue.items.length = 1 ∧
      (Run.exec (step exampleConfig) s joinsDone).any
        (fun s' => decide (s'.main = .joined)) = true))
    (by decide +kernel)
  obtain ⟨hshut, hone, hrest⟩ := of_decide_eq_true hp
  obtain ⟨s', h', hjoined⟩ := Run.exists_of_exec _ s joinsDone _ hrest
  exact ⟨s₀, s, s', h₀, h, h', hjoined, hone, by decide, (joins_end h₀ h hshut h').1⟩

end Pipeline

end WaterGateway
