import WaterGateway.Pipeline.Order

/-!
# The shutdown of the pipeline

`main()` sets the flags of the processor and of the store thread before it
shuts the queues down, and the three threads run on in between. The
processor leaves its loop on the flag, whatever is still in `raw_queue`;
the store thread empties `store_queue` after the flag, but the processor
may push once more after that. `keepsRaw` and `keepsStore` are the steps
that do not do either, and runs of such steps lose nothing.
-/

namespace WaterGateway

namespace Pipeline

variable {w : ℕ} {cfg : Config} {s s' : State w} {l : Label} {ls : List Label} {db₀ : Samples}

/-! ## Where an accepted sample is -/

/-- After a push each sample accepted is written over, in the queue, or
where it was. -/
theorem Accepts.located {c c' : Channel Item w} {item : Item} {old kept : List Item}
    (hc : Accepts c c' item old kept) {P : Item → Prop}
    (h : ∀ x ∈ c.accepted, x ∈ c.overwritten ∨ x ∈ c.items ∨ P x) :
    ∀ x ∈ c'.accepted, x ∈ c'.overwritten ∨ x ∈ c'.items ∨ P x := by
  intro x hx
  rw [hc.accepted, List.mem_append, List.mem_singleton] at hx
  rw [hc.overwritten, hc.after, List.mem_append, List.mem_append, List.mem_singleton]
  rcases hx with hx | rfl
  · rcases h x hx with hgone | hin | hpast
    · exact Or.inl (Or.inl hgone)
    · rw [hc.before, List.mem_append] at hin
      rcases hin with hold | hkept
      · exact Or.inl (Or.inr hold)
      · exact Or.inr (Or.inl (Or.inl hkept))
    · exact Or.inr (Or.inr hpast)
  · exact Or.inr (Or.inl (Or.inr rfl))

/-- After a pop the sample taken is where the thread puts it. -/
theorem Takes.located {c c' : Channel Item w} {item : Item} (hc : Takes c c' item)
    {P Q : Item → Prop} (h : ∀ x ∈ c.accepted, x ∈ c.overwritten ∨ x ∈ c.items ∨ P x)
    (hitem : Q item) (hPQ : ∀ x, P x → Q x) :
    ∀ x ∈ c'.accepted, x ∈ c'.overwritten ∨ x ∈ c'.items ∨ Q x := by
  intro x hx
  rw [hc.accepted] at hx
  rw [hc.overwritten]
  rcases h x hx with hgone | hin | hpast
  · exact Or.inl hgone
  · rw [hc.before] at hin
    rcases List.mem_cons.1 hin with rfl | hin
    · exact Or.inr (Or.inr hitem)
    · exact Or.inr (Or.inl hin)
  · exact Or.inr (Or.inr (hPQ x hpast))

/-! ## From the raw queue to the store queue -/

/-- **No sample is lost before the store queue at this step.** The flag
test that ends the processor's loop finds `raw_queue` empty, a push of the
processor finds `store_queue` open, and a push of the collect thread that
finds the processor gone is not accepted: `raw_queue` is shut down, or
full and the push goes to sleep. -/
def keepsRaw (s : State w) : Label → Bool
  | .proc _ =>
    match s.proc with
    | .loop => !s.procShutdown || s.rawQueue.items.isEmpty
    | .push _ _ => !s.storeQueue.queue.shutdown
    | _ => true
  | .collect timedOut =>
    match s.collect with
    | .push _ asleep =>
      s.proc ≠ .returned || s.rawQueue.queue.shutdown ||
        (decide (s.rawQueue.queue.capacity ≤ s.rawQueue.queue.count) &&
          decide (resume asleep timedOut ≠ .timedOut))
    | _ => true
  | _ => true

/-- Where a sample is that the raw queue has accepted, and what the
processor leaves behind. -/
structure RawKept (cfg : Config) (s : State w) : Prop where
  located : ∀ item ∈ s.rawQueue.accepted,
    item ∈ s.rawQueue.overwritten ∨ item ∈ s.rawQueue.items ∨
      processItem cfg.thresholds item ∈ s.proc.held cfg.thresholds ∨
      processItem cfg.thresholds item ∈ s.storeQueue.accepted
  returned : s.proc = .returned → s.rawQueue.items = []

theorem rawKept_init (h : init w db₀ = some s) : RawKept cfg s := by
  obtain ⟨raw, store, -, -, -, -, rfl⟩ := init_cases h
  refine ⟨?_, fun hpc => ?_⟩
  · intro item hitem
    cases hitem
  · cases hpc

theorem RawKept.step (hkept : RawKept cfg s) (hok : Sound s) (hl : keepsRaw s l = true)
    (h : step cfg s l = some s') : RawKept cfg s' := by
  obtain ⟨hloc, hret⟩ := hkept
  cases moves_of_step hok h with
  | signal | main | setProc | setStore | shutRaw | shutStore | collect | acquire | collectRefused
    | store | insert | insertFailed | trim | markUploaded | incRetry => exact ⟨hloc, hret⟩
  | collectAccepted b item asleep c old kept hpc hawake hc =>
    refine ⟨hc.located hloc, fun hgone => ?_⟩
    -- with the processor gone, an accepted push is what `keepsRaw` excludes
    have hproc : s.proc = .returned := hgone
    simp only [keepsRaw, hpc, hproc, hc.wasOpen] at hl
    exact absurd (by simpa using hl) hawake
  | proc b pc hheld hpc hreturned =>
    refine ⟨fun item hitem => ?_, fun hgone => ?_⟩
    · rw [hheld]
      exact hloc item hitem
    · obtain ⟨hloop, hflag⟩ := hreturned hgone
      simpa [keepsRaw, hloop, hflag] using hl
  | procPop b item asleep c hpc hc =>
    refine ⟨hc.located hloc (Or.inl (List.mem_singleton.2 rfl)) ?_, fun hgone => by cases hgone⟩
    rintro item' (hheld | hstored)
    · rw [hpc] at hheld
      cases hheld
    · exact Or.inr hstored
  | procHandle b item d alarms hpc =>
    refine ⟨fun item' hitem' => ?_, fun hgone => by cases hgone⟩
    have := hloc item' hitem'
    rwa [hpc] at this
  | procRefused b item asleep hpc hshut =>
    simp [keepsRaw, hpc, hshut] at hl
  | procAccepted b item asleep c old kept hpc hc =>
    refine ⟨?_, fun hgone => by cases hgone⟩
    intro item' hitem'
    rw [hc.accepted, List.mem_append]
    rcases hloc item' hitem' with hgone | hin | hheld | hstored
    · exact Or.inl hgone
    · exact Or.inr (Or.inl hin)
    · rw [hpc] at hheld
      exact Or.inr (Or.inr (Or.inr (Or.inr hheld)))
    · exact Or.inr (Or.inr (Or.inr (Or.inl hstored)))
  | storePop b item drain c hdrained hheld hc =>
    refine ⟨fun item' hitem' => ?_, hret⟩
    rw [hc.accepted]
    exact hloc item' hitem'

/-- **In a run whose steps all pass `keepsRaw`, no sample is lost between
the queues**: when the processor thread has returned, what `raw_queue` has
accepted and not overwritten, `store_queue` has accepted. -/
theorem storeQueue_accepted_of_keepsRaw {s₀ : State w} (h₀ : init w db₀ = some s₀)
    (hkeeps : Run.Along (step cfg) (fun s l => keepsRaw s l = true) s₀ ls)
    (h : Run.exec (step cfg) s₀ ls = some s) (hreturned : s.proc = .returned) :
    ∀ item ∈ s.rawQueue.accepted, item ∉ s.rawQueue.overwritten →
      processItem cfg.thresholds item ∈ s.storeQueue.accepted := by
  have hinv : Sound s ∧ RawKept cfg s := by
    refine Run.exec_invariant_along (I := fun s => Sound s ∧ RawKept cfg s)
      (fun s l t hI hl ht => ⟨hI.1.step ht, hI.2.step hI.1 hl ht⟩)
      ⟨sound_init h₀, rawKept_init h₀⟩ hkeeps h
  intro item hitem hover
  rcases hinv.2.located item hitem with hgone | hin | hheld | hstored
  · exact absurd hgone hover
  · rw [hinv.2.returned hreturned] at hin
    cases hin
  · rw [hreturned] at hheld
    cases hheld
  · exact hstored

/-! ## From the store queue to the table -/

/-- **The store queue is not left with a sample at this step**: a push of
the processor that finds the store thread past its drain loop finds
`store_queue` shut down. -/
def keepsStore (s : State w) : Label → Bool
  | .proc _ =>
    match s.proc with
    | .push _ _ => !s.store.drained || s.storeQueue.queue.shutdown
    | _ => true
  | _ => true

/-- Where a sample is that the store queue has accepted, and what the
store thread leaves behind. -/
structure StoreKept (s : State w) : Prop where
  located : ∀ item ∈ s.storeQueue.accepted,
    item ∈ s.storeQueue.overwritten ∨ item ∈ s.storeQueue.items ∨ item ∈ s.store.held ∨
      item ∈ s.hist.passed
  drained : s.store.drained = true → s.storeQueue.items = []
  joined : s.main = .joined → s.store = .returned

theorem storeKept_init (h : init w db₀ = some s) : StoreKept s := by
  obtain ⟨raw, store, -, -, -, -, rfl⟩ := init_cases h
  refine ⟨?_, fun hpc => ?_, fun hpc => ?_⟩
  · intro item hitem
    cases hitem
  · cases hpc
  · cases hpc

/-- A sample the store thread holds is one it has passed on after the
insert, which it does not return from. -/
theorem StoreKept.pass (hkept : StoreKept s) {held : Item} {drain : Bool} {n : ℕ}
    (hpc : s.store = .insert held drain) (hafter : s'.store = afterInsert cfg n drain)
    (hqueue : s'.storeQueue = s.storeQueue) (hmain : s'.main = s.main)
    (hpassed : s'.hist.passed = s.hist.passed ++ [held]) : StoreKept s' where
  located := by
    intro item hitem
    rw [hqueue] at hitem ⊢
    rw [hpassed]
    rcases hkept.located item hitem with hgone | hin | hheld | hout
    · exact Or.inl hgone
    · exact Or.inr (Or.inl hin)
    · rw [hpc] at hheld
      exact Or.inr (Or.inr (Or.inr (List.mem_append_right _ hheld)))
    · exact Or.inr (Or.inr (Or.inr (List.mem_append_left _ hout)))
  drained := by
    intro hpast
    rw [hafter, drained_afterInsert] at hpast
    cases hpast
  joined := by
    intro hj
    rw [hkept.joined (hmain.symm.trans hj)] at hpc
    cases hpc

theorem StoreKept.step (hkept : StoreKept s) (hok : Sound s) (hl : keepsStore s l = true)
    (h : step cfg s l = some s') : StoreKept s' := by
  obtain ⟨hloc, hdrained, hjoined⟩ := hkept
  cases moves_of_step hok h with
  | signal | collect | acquire | collectRefused | collectAccepted | proc | procPop | procHandle
    | procRefused | markUploaded | incRetry => exact ⟨hloc, hdrained, hjoined⟩
  | main pc hpc => exact ⟨hloc, hdrained, hpc⟩
  | setProc pc hpc | setStore pc hpc | shutRaw pc hpc | shutStore pc hpc =>
    exact ⟨hloc, hdrained, fun hj => absurd hj hpc⟩
  | procAccepted b item asleep c old kept hpc hc =>
    refine ⟨hc.located hloc, fun hpast => ?_, hjoined⟩
    -- past the drain loop, an accepted push is what `keepsStore` excludes
    have hstore : s.store.drained = true := hpast
    simp [keepsStore, hpc, hstore, hc.wasOpen] at hl
  | store b pc hheld hpc hkeep hempty hdrain =>
    refine ⟨fun item' hitem' => ?_, fun hpast => ?_, fun hj => absurd (hjoined hj) hpc⟩
    · rw [hheld]
      exact hloc item' hitem'
    · rcases hempty hpast with hbefore | hnil
      · exact hdrained hbefore
      · exact hnil
  | storePop b item drain c hnot hnone hc =>
    refine ⟨hc.located hloc (Or.inl (List.mem_singleton.2 rfl)) ?_, fun hpast => ?_, fun hj => ?_⟩
    · rintro item' (hheld | hpassed)
      · rw [hnone] at hheld
        cases hheld
      · exact Or.inr hpassed
    · cases hpast
    · rw [hjoined hj] at hnot
      cases hnot
  | insert a item drain pc hpc hafter hdb =>
    exact StoreKept.pass ⟨hloc, hdrained, hjoined⟩ hpc hafter rfl rfl rfl
  | insertFailed a item drain pc hpc hafter =>
    exact StoreKept.pass ⟨hloc, hdrained, hjoined⟩ hpc hafter rfl rfl rfl
  | trim a pc pc' final db hpc hrows hseq =>
    refine ⟨fun item' hitem' => ?_, fun hpast => hdrained ?_, fun hj => ?_⟩
    · have := hloc item' hitem'
      rwa [hpc] at this
    · rw [hpc]
      exact hpast
    · rw [hjoined hj] at hpc
      cases hpc

/-- **What the store thread owes once it is joined**: the queue is empty,
every sample it accepted and did not overwrite was passed to
`sqlite_store_insert` exactly once, and the two counters together count
the samples passed. -/
structure Drained (s : State w) : Prop where
  empty : s.storeQueue.items = []
  passed : ∀ item ∈ s.storeQueue.accepted, item ∉ s.storeQueue.overwritten →
    s.hist.passed.count item = 1
  counted : (s.writeCount + s.writeFailCount).toNat = s.hist.passed.length % 2 ^ w

/-- **In a run whose steps all pass `keepsStore`, the store queue is
drained** when `main()` has joined the threads. -/
theorem drained_of_keepsStore {s₀ : State w} (h₀ : init w db₀ = some s₀)
    (hkeeps : Run.Along (step cfg) (fun s l => keepsStore s l = true) s₀ ls)
    (h : Run.exec (step cfg) s₀ ls = some s) (hjoined : s.main = .joined) : Drained s := by
  obtain ⟨-, hord, hrec⟩ := reachable h₀ h
  have hinv : Sound s ∧ StoreKept s := by
    refine Run.exec_invariant_along (I := fun s => Sound s ∧ StoreKept s)
      (fun s l t hI hl ht => ⟨hI.1.step ht, hI.2.step hI.1 hl ht⟩)
      ⟨sound_init h₀, storeKept_init h₀⟩ hkeeps h
  have hstore := hinv.2.joined hjoined
  have hempty : s.storeQueue.items = [] := hinv.2.drained (hstore ▸ rfl)
  refine ⟨hempty, fun item hitem hover => ?_, ?_⟩
  · have hpassed : item ∈ s.hist.passed := by
      rcases hinv.2.located item hitem with hgone | hin | hheld | hpassed
      · exact absurd hgone hover
      · rw [hempty] at hin
        cases hin
      · rw [hstore] at hheld
        cases hheld
      · exact hpassed
    have hnodup : s.hist.passed.Nodup := hord.nodup_line.sublist (List.sublist_append_left _ _)
    exact List.count_eq_one_of_mem hnodup hpassed
  · rw [hrec.total, BitVec.toNat_ofNat]

/-! ## Runs to the end -/

/-- `main()` sets its flags after a signal. -/
def setFlags : List Label := [.signal, .main, .main, .main]

/-- `main()` shuts the queues down. -/
def shutQueues : List Label := [.main, .main]

/-- The store thread finds the queue empty, trims and returns. -/
def storeReturns : List Label := [.store false, .store false, .sql .ok, .store false]

/-- `main()` joins the three threads. -/
def joinAll : List Label := [.main, .main, .main]

/-- A shutdown with one sample in `store_queue`: the store thread inserts
it in its drain loop. -/
def drainedRun : List Label :=
  collectOne 1 ++ processOne ++ setFlags ++ [.collect false, .proc false] ++ shutQueues ++
    [.store false, .store false, .store false, .sql .ok] ++
    [.store false, .sql .ok, .store false] ++ joinAll

/-- It passes `keepsRaw`: the processor pushed the sample while
`store_queue` was open, and found `raw_queue` empty when it returned. -/
theorem storeQueue_accepted_of_keepsRaw_drained :
    ∃ s₀ s : State 32, init 32 AutoTable.empty = some s₀ ∧
      Run.exec (step exampleConfig) s₀ drainedRun = some s ∧ s.proc = .returned ∧
      s.rawQueue.accepted = [(0, exampleSample 1)] ∧
      ∀ item ∈ s.rawQueue.accepted, item ∉ s.rawQueue.overwritten →
        processItem exampleConfig.thresholds item ∈ s.storeQueue.accepted := by
  obtain ⟨s₀, s, h₀, h, hp⟩ := exists_of_runsTo drainedRun
    (fun s₀ s => decide
      (Run.Along (step exampleConfig) (fun s l => keepsRaw s l = true) s₀ drainedRun ∧
        s.proc = .returned ∧ s.rawQueue.accepted = [(0, exampleSample 1)])) (by decide +kernel)
  obtain ⟨hkeeps, hreturned, haccepted⟩ := of_decide_eq_true hp
  exact ⟨s₀, s, h₀, h, hreturned, haccepted,
    storeQueue_accepted_of_keepsRaw h₀ hkeeps h hreturned⟩

/-- It passes `keepsStore`: nothing was pushed behind the drain loop. -/
theorem drained_of_keepsStore_drained :
    ∃ s₀ s : State 32, init 32 AutoTable.empty = some s₀ ∧
      Run.exec (step exampleConfig) s₀ drainedRun = some s ∧ s.main = .joined ∧
      s.storeQueue.accepted.length = 1 ∧ Drained s := by
  obtain ⟨s₀, s, h₀, h, hp⟩ := exists_of_runsTo drainedRun
    (fun s₀ s => decide
      (Run.Along (step exampleConfig) (fun s l => keepsStore s l = true) s₀ drainedRun ∧
        s.main = .joined ∧ s.storeQueue.accepted.length = 1)) (by decide +kernel)
  obtain ⟨hkeeps, hjoined, haccepted⟩ := of_decide_eq_true hp
  exact ⟨s₀, s, h₀, h, hjoined, haccepted, drained_of_keepsStore h₀ hkeeps h hjoined⟩

/-- A shutdown with one sample in `raw_queue`: the processor sees its flag
first. -/
def rawRun : List Label :=
  collectOne 1 ++ setFlags ++ [.proc false, .collect false] ++ shutQueues ++ storeReturns ++ joinAll

/-- **The sample in `raw_queue` is lost**: all threads are joined, the
queue accepted it, nothing was overwritten, and `store_queue` never got
it. -/
theorem rawRun_loses_sample :
    ∃ s₀ s : State 32, init 32 AutoTable.empty = some s₀ ∧
      Run.exec (step exampleConfig) s₀ rawRun = some s ∧
      s.main = .joined ∧ s.proc = .returned ∧
      (0, exampleSample 1) ∈ s.rawQueue.accepted ∧ s.rawQueue.overwritten = [] ∧
      s.storeQueue.accepted = [] ∧ s.db.rows = [] := by
  obtain ⟨s₀, s, h₀, h, hp⟩ := exists_of_runsTo rawRun
    (fun _ s => decide (s.main = .joined ∧ s.proc = .returned ∧
      (0, exampleSample 1) ∈ s.rawQueue.accepted ∧ s.rawQueue.overwritten = [] ∧
      s.storeQueue.accepted = [] ∧ s.db.rows = [])) (by decide +kernel)
  exact ⟨s₀, s, h₀, h, of_decide_eq_true hp⟩

/-- A shutdown with one sample in the hands of the processor, which pushes
it when the store thread has left its drain loop and `store_queue` is not
yet shut down. -/
def lateRun : List Label :=
  collectOne 1 ++ [.proc false, .proc false] ++ setFlags ++ storeReturns ++
    [.proc false, .proc false, .proc false, .collect false] ++ shutQueues ++ joinAll

/-- **The sample pushed late stays in `store_queue`**, with all threads
joined: accepted, not overwritten, and never passed to the insert. -/
theorem lateRun_leaves_sample :
    ∃ s₀ s : State 32, init 32 AutoTable.empty = some s₀ ∧
      Run.exec (step exampleConfig) s₀ lateRun = some s ∧ s.main = .joined ∧
      s.storeQueue.items = s.storeQueue.accepted ∧ s.storeQueue.accepted.length = 1 ∧
      s.storeQueue.overwritten = [] ∧ s.hist.passed = [] ∧
      s.writeCount = 0 ∧ s.writeFailCount = 0 := by
  obtain ⟨s₀, s, h₀, h, hp⟩ := exists_of_runsTo lateRun
    (fun _ s => decide (s.main = .joined ∧ s.storeQueue.items = s.storeQueue.accepted ∧
      s.storeQueue.accepted.length = 1 ∧ s.storeQueue.overwritten = [] ∧ s.hist.passed = [] ∧
      s.writeCount = 0 ∧ s.writeFailCount = 0)) (by decide +kernel)
  exact ⟨s₀, s, h₀, h, of_decide_eq_true hp⟩

end Pipeline

end WaterGateway
