import WaterGateway.Pipeline.Model

/-!
# What a step of the pipeline does

`Moves` lists the steps by their effect, with the queue calls already
resolved into what they do to the items, and `moves_of_step` is the one
place where the step function is taken apart. The invariants of the
pipeline are proved by cases on `Moves`.
-/

namespace WaterGateway

namespace Pipeline

variable {w : ℕ} {cfg : Config} {s s' : State w} {l : Label}

/-- The sample a collect thread has in hand. -/
def CollectPc.held : CollectPc → List Item
  | .push item _ => [item]
  | _ => []

/-- The sample the processor has in hand, as it will push it. -/
def ProcPc.held (th : Threshold) : ProcPc → List Item
  | .handle item => [processItem th item]
  | .push item _ => [item]
  | _ => []

/-- The sample the store thread has in hand. -/
def StorePc.held : StorePc → List Item
  | .insert item _ => [item]
  | _ => []

@[simp] theorem CollectPc.held_push (item : Item) (asleep : Bool) :
    (CollectPc.push item asleep).held = [item] := rfl

@[simp] theorem CollectPc.held_sleep : CollectPc.sleep.held = [] := rfl

@[simp] theorem ProcPc.held_loop (th : Threshold) : ProcPc.loop.held th = [] := rfl

@[simp] theorem ProcPc.held_handle (th : Threshold) (item : Item) :
    (ProcPc.handle item).held th = [processItem th item] := rfl

@[simp] theorem ProcPc.held_push (th : Threshold) (item : Item) (asleep : Bool) :
    (ProcPc.push item asleep).held th = [item] := rfl

@[simp] theorem StorePc.held_insert (item : Item) (drain : Bool) :
    (StorePc.insert item drain).held = [item] := rfl

/-- The store thread has left its drain loop. -/
def StorePc.drained : StorePc → Bool
  | .trim _ final => final
  | .returned => true
  | _ => false

/-- **What every reachable state keeps**: both rings are in order, and the
pop of the drain loop is made on a queue that is not empty, since no other
thread takes from `store_queue`. -/
structure Sound (s : State w) : Prop where
  raw : Queue.WellFormed s.rawQueue.queue
  store : Queue.WellFormed s.storeQueue.queue
  drainPop : ∀ asleep, s.store = .drainPop asleep → asleep = false ∧ s.storeQueue.items ≠ []

/-- A push of one more sample was accepted. -/
structure Accepts (c c' : Channel Item w) (item : Item) (old kept : List Item) : Prop where
  wasOpen : c.queue.shutdown = false
  isOpen : c'.queue.shutdown = false
  ring : Queue.WellFormed c'.queue
  accepted : c'.accepted = c.accepted ++ [item]
  before : c.items = old ++ kept
  after : c'.items = kept ++ [item]
  overwritten : c'.overwritten = c.overwritten ++ old

/-- A pop took a sample. -/
structure Takes (c c' : Channel Item w) (item : Item) : Prop where
  before : c.items = item :: c'.items
  ring : Queue.WellFormed c'.queue
  shutdown : c'.queue.shutdown = c.queue.shutdown
  accepted : c'.accepted = c.accepted
  overwritten : c'.overwritten = c.overwritten

/-- **The steps by their effect.** -/
inductive Moves (cfg : Config) (s : State w) : Label → State w → Prop
  | signal : Moves cfg s .signal { s with gShutdown := true }
  | main (pc : MainPc) (hjoined : pc = .joined → s.store = .returned) :
      Moves cfg s .main { s with main := pc }
  | setProc (pc : MainPc) (hpc : pc ≠ .joined) :
      Moves cfg s .main { s with procShutdown := true, main := pc }
  | setStore (pc : MainPc) (hpc : pc ≠ .joined) :
      Moves cfg s .main { s with storeShutdown := true, main := pc }
  | shutRaw (pc : MainPc) (hpc : pc ≠ .joined) :
      Moves cfg s .main { s with rawQueue := s.rawQueue.shutdown, main := pc }
  | shutStore (pc : MainPc) (hpc : pc ≠ .joined) :
      Moves cfg s .main { s with storeQueue := s.storeQueue.shutdown, main := pc }
  | collect (b : Bool) (pc : CollectPc) (hheld : pc.held = s.collect.held) :
      Moves cfg s (.collect b) { s with collect := pc }
  | acquire (sample : WaterSample) (hpc : s.collect = .acquire) :
      Moves cfg s (.acquire sample) { s with
        collect := .push (s.hist.produced.length, sample) false
        hist := { s.hist with
          produced := s.hist.produced ++ [(s.hist.produced.length, sample)] } }
  | collectRefused (b : Bool) (item : Item) (asleep : Bool) (hpc : s.collect = .push item asleep)
      (hshut : s.rawQueue.queue.shutdown = true) :
      Moves cfg s (.collect b) { s with collect := .sleep }
  | collectAccepted (b : Bool) (item : Item) (asleep : Bool) (c : Channel Item w)
      (old kept : List Item) (hpc : s.collect = .push item asleep)
      (hawake : ¬ (s.rawQueue.queue.count ≥ s.rawQueue.queue.capacity ∧
        resume asleep b ≠ .timedOut))
      (hc : Accepts s.rawQueue c item old kept) :
      Moves cfg s (.collect b) { s with rawQueue := c, collect := .sleep }
  | proc (b : Bool) (pc : ProcPc) (hheld : pc.held cfg.thresholds = s.proc.held cfg.thresholds)
      (hpc : s.proc ≠ .returned)
      (hreturned : pc = .returned → s.proc = .loop ∧ s.procShutdown = true) :
      Moves cfg s (.proc b) { s with proc := pc }
  | procPop (b : Bool) (item : Item) (asleep : Bool) (c : Channel Item w)
      (hpc : s.proc = .pop asleep) (hc : Takes s.rawQueue c item) :
      Moves cfg s (.proc b) { s with rawQueue := c, proc := .handle item }
  | procHandle (b : Bool) (item : Item) (d : Processor.Debounce) (alarms : List Bool)
      (hpc : s.proc = .handle item) :
      Moves cfg s (.proc b) { s with
        procCounter := s.procCounter + 1
        debounce := d
        hist := { s.hist with alarmSet := alarms }
        proc := .push (processItem cfg.thresholds item) false }
  | procRefused (b : Bool) (item : Item) (asleep : Bool) (hpc : s.proc = .push item asleep)
      (hshut : s.storeQueue.queue.shutdown = true) :
      Moves cfg s (.proc b) { s with proc := .loop }
  | procAccepted (b : Bool) (item : Item) (asleep : Bool) (c : Channel Item w)
      (old kept : List Item) (hpc : s.proc = .push item asleep)
      (hc : Accepts s.storeQueue c item old kept) :
      Moves cfg s (.proc b) { s with storeQueue := c, proc := .loop }
  | store (b : Bool) (pc : StorePc) (hheld : pc.held = s.store.held) (hpc : s.store ≠ .returned)
      (hdrained : s.store.drained = true → pc.drained = true)
      (hempty : pc.drained = true → s.store.drained = true ∨ s.storeQueue.items = [])
      (hdrain : ∀ asleep, pc = .drainPop asleep → asleep = false ∧ s.storeQueue.items ≠ []) :
      Moves cfg s (.store b) { s with store := pc }
  | storePop (b : Bool) (item : Item) (drain : Bool) (c : Channel Item w)
      (hdrained : s.store.drained = false) (hheld : s.store.held = [])
      (hc : Takes s.storeQueue c item) :
      Moves cfg s (.store b) { s with storeQueue := c, store := .insert item drain }
  | insert (a : SqlAnswer) (item : Item) (drain : Bool) (pc : StorePc)
      (hpc : s.store = .insert item drain)
      (hafter : pc = afterInsert cfg (s.storeCounter + 1) drain)
      (hdb : Store.sqliteStoreInsert s.db cfg.deviceId item.2 a =
        (s.db.insert (Store.recordOf cfg.deviceId item.2), 0)) :
      Moves cfg s (.sql a) { s with
        storeCounter := s.storeCounter + 1
        db := s.db.insert (Store.recordOf cfg.deviceId item.2)
        writeCount := s.writeCount + 1
        hist := { s.hist with
          passed := s.hist.passed ++ [item]
          written := s.hist.written ++ [(s.db.seq + 1, Store.recordOf cfg.deviceId item.2)] }
        store := pc }
  | insertFailed (a : SqlAnswer) (item : Item) (drain : Bool) (pc : StorePc)
      (hpc : s.store = .insert item drain)
      (hafter : pc = afterInsert cfg (s.storeCounter + 1) drain) :
      Moves cfg s (.sql a) { s with
        storeCounter := s.storeCounter + 1
        writeFailCount := s.writeFailCount + 1
        hist := { s.hist with passed := s.hist.passed ++ [item] }
        store := pc }
  | trim (a : SqlAnswer) (pc pc' : Store.TrimPc) (final : Bool) (db : Samples)
      (hpc : s.store = .trim pc final) (hrows : db.rows.Sublist s.db.rows)
      (hseq : db.seq = s.db.seq) :
      Moves cfg s (.sql a) { s with db := db, store := .trim pc' final }
  | markUploaded (sampleId : ℤ) (a : SqlAnswer) :
      Moves cfg s (.markUploaded sampleId a)
        { s with db := (Store.sqliteStoreMarkUploaded s.db sampleId a).1 }
  | incRetry (sampleId : ℤ) (a : SqlAnswer) :
      Moves cfg s (.incRetry sampleId a)
        { s with db := (Store.sqliteStoreIncRetry s.db sampleId a).1 }

/-! ## The queue calls, resolved -/

theorem accepts_or_refuses {c c' : Channel Item w} (h : Queue.WellFormed c.queue) {item : Item}
    {timeoutMs : ℤ} {r : Resume} {code : ℤ}
    (hpush : c.push item timeoutMs r = some (c', code)) :
    (c.queue.shutdown = true ∧ c' = c) ∨ ∃ old kept, Accepts c c' item old kept := by
  obtain hrefused | ⟨hopen, hopen', hw, hacc, old, kept, hbefore, hafter, hover⟩ :=
    Channel.push_cases h hpush
  · exact Or.inl hrefused
  · exact Or.inr ⟨old, kept, hopen, hopen', hw, hacc, hbefore, hafter, hover⟩

theorem takes_or_fails {c c' : Channel Item w} (h : Queue.WellFormed c.queue)
    {timeoutMs : ℤ} {r : Resume} {code : ℤ} {out : Option Item}
    (hpop : c.pop timeoutMs r = some (c', code, out)) :
    (popped code out = none ∧ c' = c ∧ (r = .timedOut ∨ c.items = [])) ∨
      ∃ item, popped code out = some item ∧ Takes c c' item := by
  obtain ⟨rfl, hc, hwhy⟩ | ⟨a, rfl, rfl, hitems, hw, hshut, hacc, hover⟩ :=
    Channel.pop_cases h hpop
  · exact Or.inl ⟨rfl, hc, hwhy⟩
  · exact Or.inr ⟨a, rfl, hitems, hw, hshut, hacc, hover⟩

/-- A push that returns was not left asleep. -/
theorem awake_of_push {c c' : Channel Item w} {item : Item} {timeoutMs : ℤ} (ht : 0 < timeoutMs)
    {r : Resume} {code : ℤ} (hopen : c.queue.shutdown = false)
    (hpush : c.push item timeoutMs r = some (c', code)) :
    ¬ (c.queue.count ≥ c.queue.capacity ∧ r ≠ .timedOut) := by
  rintro ⟨hfull, hr⟩
  rw [Channel.push, Queue.sampleQueuePush, if_pos ⟨hfull, hopen, ht, hr⟩] at hpush
  cases hpush

theorem held_afterInsert (cfg : Config) (counter : UInt) (drain : Bool) :
    (afterInsert cfg counter drain).held = [] := by
  unfold afterInsert
  split
  · rfl
  · split <;> rfl

theorem drained_afterInsert (cfg : Config) (counter : UInt) (drain : Bool) :
    (afterInsert cfg counter drain).drained = false := by
  unfold afterInsert
  split
  · rfl
  · split <;> rfl

theorem afterInsert_ne_drainPop (cfg : Config) (counter : UInt) (drain asleep : Bool) :
    afterInsert cfg counter drain ≠ .drainPop asleep := by
  unfold afterInsert
  split
  · exact fun h => by cases h
  · split <;> exact fun h => by cases h

/-! ## One lemma for each thread -/

theorem moves_collect (hok : Sound s) {b : Bool} (h : collectStep s b = some s') :
    Moves cfg s (.collect b) s' := by
  unfold collectStep at h
  split at h
  · next hpc =>
    cases h
    refine Moves.collect b _ ?_
    rw [hpc]
    split <;> rfl
  · cases h
  · next item asleep hpc =>
    split at h
    · cases h
      exact Moves.collect b _ (by rw [hpc]; rfl)
    · next c code hpush =>
      cases h
      obtain ⟨hshut, rfl⟩ | ⟨old, kept, hc⟩ := accepts_or_refuses hok.raw hpush
      · exact Moves.collectRefused b item asleep hpc hshut
      · exact Moves.collectAccepted b item asleep c old kept hpc
          (awake_of_push (by decide) hc.wasOpen hpush) hc
  · next hpc =>
    cases h
    exact Moves.collect b _ (by rw [hpc]; rfl)
  · cases h

theorem moves_acquire {sample : WaterSample} (h : acquireStep s sample = some s') :
    Moves cfg s (.acquire sample) s' := by
  unfold acquireStep at h
  split at h
  · next hpc =>
    cases h
    exact Moves.acquire sample hpc
  · cases h

theorem moves_proc (hok : Sound s) {b : Bool} (h : procStep cfg s b = some s') :
    Moves cfg s (.proc b) s' := by
  unfold procStep at h
  split at h
  · next hpc =>
    cases h
    refine Moves.proc b _ ?_ (by simp [hpc]) ?_
    · rw [hpc]
      split <;> rfl
    · intro hret
      split at hret
      · next hshut => exact ⟨hpc, hshut⟩
      · cases hret
  · next asleep hpc =>
    split at h
    · cases h
      exact Moves.proc b _ (by rw [hpc]; rfl) (by simp [hpc]) (fun hret => by cases hret)
    · next c code out hpop =>
      obtain ⟨hnone, rfl, -⟩ | ⟨item, hsome, hc⟩ := takes_or_fails hok.raw hpop
      · simp only [hnone] at h
        cases h
        exact Moves.proc b _ (by rw [hpc]; rfl) (by simp [hpc]) (fun hret => by cases hret)
      · simp only [hsome] at h
        cases h
        exact Moves.procPop b item asleep c hpc hc
  · next item hpc =>
    cases h
    exact Moves.procHandle b item _ _ hpc
  · next item asleep hpc =>
    split at h
    · cases h
      exact Moves.proc b _ (by rw [hpc]; rfl) (by simp [hpc]) (fun hret => by cases hret)
    · next c code hpush =>
      cases h
      obtain ⟨hshut, rfl⟩ | ⟨old, kept, hc⟩ := accepts_or_refuses hok.store hpush
      · exact Moves.procRefused b item asleep hpc hshut
      · exact Moves.procAccepted b item asleep c old kept hpc hc
  · cases h

theorem items_ne_nil_iff {c : Channel Item w} : c.items ≠ [] ↔ c.queue.count ≠ 0 := by
  rw [← Channel.length_items, Ne, Ne, List.length_eq_zero_iff]

theorem moves_store (hok : Sound s) {b : Bool} (h : storeStep cfg s b = some s') :
    Moves cfg s (.store b) s' := by
  unfold storeStep at h
  split at h
  · next hpc =>
    cases h
    refine Moves.store b _ ?_ (by simp [hpc]) (by simp [hpc, StorePc.drained]) ?_ ?_
    · rw [hpc]
      split <;> rfl
    · intro hd
      split at hd <;> cases hd
    · intro asleep hd
      split at hd <;> cases hd
  · next asleep hpc =>
    split at h
    · cases h
      exact Moves.store b _ (by rw [hpc]; rfl) (by simp [hpc]) (by simp [hpc, StorePc.drained])
        (fun hd => by cases hd) (fun asleep hd => by cases hd)
    · next c code out hpop =>
      obtain ⟨hnone, rfl, -⟩ | ⟨item, hsome, hc⟩ := takes_or_fails hok.store hpop
      · simp only [hnone] at h
        cases h
        exact Moves.store b _ (by rw [hpc]; rfl) (by simp [hpc]) (by simp [hpc, StorePc.drained])
          (fun hd => by cases hd) (fun asleep hd => by cases hd)
      · simp only [hsome] at h
        cases h
        exact Moves.storePop b item false c (by rw [hpc]; rfl) (by rw [hpc]; rfl) hc
  · next hpc =>
    cases h
    refine Moves.store b _ ?_ (by simp [hpc]) (by simp [hpc, StorePc.drained]) ?_ ?_
    · rw [hpc]
      split <;> rfl
    · intro hd
      split at hd
      · cases hd
      · next hcount =>
        have hzero : s.storeQueue.queue.count = 0 := Nat.eq_zero_of_not_pos hcount
        rw [← Channel.length_items, List.length_eq_zero_iff] at hzero
        exact Or.inr hzero
    · intro asleep hd
      split at hd
      · next hcount =>
        cases hd
        exact ⟨rfl, items_ne_nil_iff.2 (Nat.ne_of_gt hcount)⟩
      · cases hd
  · next asleep hpc =>
    obtain ⟨rfl, hne⟩ := hok.drainPop asleep hpc
    split at h
    · next hpop =>
      -- a call that starts on a queue with samples in it does not sleep
      rw [Channel.pop, show resume false b = .enter from rfl,
        Queue.pop_enter (items_ne_nil_iff.1 hne)] at hpop
      cases hpop
    · next c code out hpop =>
      obtain ⟨-, -, hwhy⟩ | ⟨item, hsome, hc⟩ := takes_or_fails hok.store hpop
      · exact absurd hwhy (by simp [resume, hne])
      · simp only [hsome] at h
        cases h
        exact Moves.storePop b item true c (by rw [hpc]; rfl) (by rw [hpc]; rfl) hc
  · next final hpc =>
    cases h
    refine Moves.store b _ ?_ (by simp [hpc]) ?_ ?_ ?_
    · rw [hpc]
      split <;> rfl
    · intro hd
      rw [hpc] at hd
      rw [if_pos (show final = true from hd)]
      rfl
    · intro hd
      refine Or.inl ?_
      rw [hpc]
      split at hd
      · next hfinal => exact hfinal
      · cases hd
    · intro asleep hd
      split at hd <;> cases hd
  · cases h
  · cases h
  · cases h

theorem moves_sql {a : SqlAnswer} (h : sqlStep cfg s a = some s') :
    Moves cfg s (.sql a) s' := by
  unfold sqlStep at h
  split at h
  · next item drain hpc =>
    cases h
    obtain hins | hins := Store.insert_cases s.db cfg.deviceId item.2 a
    · simp only [hins, ↓reduceIte]
      exact Moves.insert a item drain _ hpc rfl hins
    · simp only [hins]
      exact Moves.insertFailed a item drain _ hpc rfl
  · cases h
  · next pc final _ hpc =>
    cases h
    obtain ⟨hrows, hseq⟩ := Store.trimStep_sublist cfg.maxCacheCount s.db pc a
    exact Moves.trim a pc _ final _ hpc hrows hseq
  · cases h

theorem moves_main (h : mainStep s = some s') : Moves cfg s .main s' := by
  unfold mainStep at h
  split at h
  · cases h
    refine Moves.main _ fun hj => ?_
    split at hj <;> cases hj
  · cases h
    exact Moves.setProc _ (by decide)
  · cases h
    exact Moves.setStore _ (by decide)
  · cases h
    exact Moves.shutRaw _ (by decide)
  · cases h
    exact Moves.shutStore _ (by decide)
  · split at h
    · cases h
      exact Moves.main _ fun hj => by cases hj
    · cases h
  · split at h
    · cases h
      exact Moves.main _ fun hj => by cases hj
    · cases h
  · split at h
    · next hret =>
      cases h
      exact Moves.main _ fun _ => hret
    · cases h
  · cases h

/-- **Every step is one of the list.** -/
theorem moves_of_step (hok : Sound s) (h : step cfg s l = some s') : Moves cfg s l s' := by
  cases l with
  | signal => cases h; exact Moves.signal
  | main => exact moves_main h
  | collect b => exact moves_collect hok h
  | acquire sample => exact moves_acquire h
  | proc b => exact moves_proc hok h
  | store b => exact moves_store hok h
  | sql a => exact moves_sql h
  | markUploaded sampleId a => cases h; exact Moves.markUploaded sampleId a
  | incRetry sampleId a => cases h; exact Moves.incRetry sampleId a

/-! ## The rings stay in order -/

/-- The start of a run: two new rings, both empty. -/
theorem init_cases {db : Samples} (h : init w db = some s) :
    ∃ raw store : SampleQueue Item w,
      Queue.sampleQueueCreate defaultQueueCapacity = some raw ∧ Queue.items raw = [] ∧
      Queue.sampleQueueCreate defaultQueueCapacity = some store ∧ Queue.items store = [] ∧
      s = start db raw store := by
  obtain ⟨raw, hraw, h⟩ := Option.bind_eq_some_iff.1 h
  obtain ⟨store, hstore, rfl⟩ := Option.map_eq_some_iff.1 h
  exact ⟨raw, store, hraw, congrArg Fifo.items (Queue.wellFormed_create hraw).2.1, hstore,
    congrArg Fifo.items (Queue.wellFormed_create hstore).2.1, rfl⟩

theorem sound_init {db : Samples} (h : init w db = some s) : Sound s := by
  obtain ⟨raw, store, hraw, -, hstore, -, rfl⟩ := init_cases h
  exact ⟨(Queue.wellFormed_create hraw).1, (Queue.wellFormed_create hstore).1,
    fun asleep hpc => by cases hpc⟩

theorem Sound.step (hok : Sound s) (h : step cfg s l = some s') : Sound s' := by
  cases moves_of_step hok h with
  | signal | main | setProc | setStore | collect | acquire | collectRefused | proc | procHandle
    | procRefused | markUploaded | incRetry => exact ⟨hok.raw, hok.store, hok.drainPop⟩
  | shutRaw => exact ⟨Queue.wellFormed_shutdown hok.raw, hok.store, hok.drainPop⟩
  | shutStore => exact ⟨hok.raw, Queue.wellFormed_shutdown hok.store, hok.drainPop⟩
  | collectAccepted b item asleep c old kept hpc hawake hc =>
    exact ⟨hc.ring, hok.store, hok.drainPop⟩
  | procPop b item asleep c hpc hc => exact ⟨hc.ring, hok.store, hok.drainPop⟩
  | procAccepted b item asleep c old kept hpc hc =>
    refine ⟨hok.raw, hc.ring, fun asleep' hd => ⟨(hok.drainPop asleep' hd).1, ?_⟩⟩
    rw [hc.after]
    exact List.append_ne_nil_of_right_ne_nil _ (List.cons_ne_nil _ _)
  | store b pc hheld hpc hdrained hempty hdrain => exact ⟨hok.raw, hok.store, hdrain⟩
  | storePop b item drain c hdrained hheld hc =>
    exact ⟨hok.raw, hc.ring, fun asleep hd => by cases hd⟩
  | insert a item drain pc hpc hafter hdb =>
    exact ⟨hok.raw, hok.store, fun asleep hd =>
      absurd (hafter.symm.trans hd) (afterInsert_ne_drainPop cfg _ drain asleep)⟩
  | insertFailed a item drain pc hpc hafter =>
    exact ⟨hok.raw, hok.store, fun asleep hd =>
      absurd (hafter.symm.trans hd) (afterInsert_ne_drainPop cfg _ drain asleep)⟩
  | trim a pc pc' final db hpc hrows hseq =>
    exact ⟨hok.raw, hok.store, fun asleep hd => by cases hd⟩

end Pipeline

end WaterGateway
