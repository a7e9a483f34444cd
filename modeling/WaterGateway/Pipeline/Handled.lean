import WaterGateway.Pipeline.Order
import WaterGateway.Processor.Debounce

/-!
# The samples the processor has handled

The processor handles samples one by one, and what it makes of them goes
two ways: to the LED and to the table. Both ways see the same sequence of
samples: the LED is called as the debounce of that sequence says, and the
rows are made of samples of that sequence. The sequence is read off what
was produced.
-/

namespace WaterGateway

namespace Pipeline

open Processor (commands processed)

variable {w : ℕ} {cfg : Config} {s s' : State w} {l : Label} {ls : List Label} {db₀ : Samples}
variable {handled : List WaterSample}

/-- The sample the processor has popped and not handled. -/
def ProcPc.popped : ProcPc → List Item
  | .handle item => [item]
  | _ => []

/-- The sample it has handled and not pushed. -/
def ProcPc.pushing : ProcPc → List Item
  | .push item _ => [item]
  | _ => []

/-- What has gone past the processor, oldest first. -/
def behind (s : State w) : List Item :=
  s.hist.passed ++ (s.store.held ++ (s.storeQueue.items ++ s.proc.pushing))

/-- What is still to come to it. -/
def ahead (s : State w) : List Item :=
  s.proc.popped ++ (s.rawQueue.items ++ s.collect.held)

/-- **What the processor owes for the samples it has handled.** -/
structure Handles (cfg : Config) (handled : List WaterSample) (s : State w) : Prop where
  locals : s.debounce = (processed cfg.thresholds handled).1
  calls : s.hist.alarmSet = commands cfg.thresholds handled
  counter : s.procCounter = BitVec.ofNat 32 handled.length
  behind : ((behind s).map Prod.snd).Sublist (handled.map (Processor.process cfg.thresholds))
  ahead : (handled ++ (ahead s).map Prod.snd).Sublist (s.hist.produced.map Prod.snd)

theorem handles_init (h : init w db₀ = some s) : Handles cfg [] s := by
  obtain ⟨raw, store, -, hraw, -, hstore, rfl⟩ := init_cases h
  refine ⟨rfl, rfl, rfl, ?_, ?_⟩
  · simp [Pipeline.behind, start, Channel.fresh, Channel.items, hstore, StorePc.held,
      ProcPc.pushing]
  · simp [Pipeline.ahead, start, Channel.fresh, Channel.items, hraw, CollectPc.held,
      ProcPc.popped]

/-- A step that handles nothing. -/
theorem Handles.of_sublist (h : Handles cfg handled s) (hlocals : s'.debounce = s.debounce)
    (hcalls : s'.hist.alarmSet = s.hist.alarmSet) (hcounter : s'.procCounter = s.procCounter)
    {new : List Item} (hproduced : s'.hist.produced = s.hist.produced ++ new)
    (hbehind : (Pipeline.behind s').Sublist (Pipeline.behind s))
    (hahead : (Pipeline.ahead s').Sublist (Pipeline.ahead s ++ new)) : Handles cfg handled s' where
  locals := hlocals.trans h.locals
  calls := hcalls.trans h.calls
  counter := hcounter.trans h.counter
  behind := (hbehind.map _).trans h.behind
  ahead := by
    rw [hproduced, List.map_append]
    refine ((List.Sublist.refl handled).append (hahead.map Prod.snd)).trans ?_
    rw [List.map_append, ← List.append_assoc]
    exact h.ahead.append (List.Sublist.refl _)

/-- **A sample is handled.** -/
theorem Handles.handle (h : Handles cfg handled s) {item : Item} (hpc : s.proc = .handle item) :
    ∃ s', procStep cfg s false = some s' ∧ procStep cfg s true = some s' ∧
      Handles cfg (handled ++ [item.2]) s' := by
  have hcommands : commands cfg.thresholds (handled ++ [item.2]) =
      commands cfg.thresholds handled ++
        (Processor.debounceSample cfg.thresholds (processed cfg.thresholds handled).1
          item.2).2.toList := by
    rw [commands, Processor.processed_concat, List.filterMap_append, ← commands]
    cases (Processor.debounceSample cfg.thresholds (processed cfg.thresholds handled).1
      item.2).2 <;> rfl
  obtain ⟨hlocals, hcalls, hcounter, hbehind, hahead⟩ := h
  refine ⟨_, by rw [procStep, hpc], by rw [procStep, hpc], ?_, ?_, ?_, ?_, ?_⟩
  · rw [Processor.processed_concat, ← hlocals]
    rfl
  · rw [hcommands, ← hlocals, ← hcalls]
    rfl
  · rw [List.length_append, BitVec.ofNat_add, ← hcounter]
    rfl
  · simp only [Pipeline.behind, hpc, ProcPc.pushing, List.append_nil] at hbehind ⊢
    have hsplit : s.hist.passed ++ (s.store.held ++ (s.storeQueue.items ++
        [processItem cfg.thresholds item])) = s.hist.passed ++ (s.store.held ++
        s.storeQueue.items) ++ [processItem cfg.thresholds item] := by
      simp only [List.append_assoc]
    have happend := hbehind.append (List.Sublist.refl [Processor.process cfg.thresholds item.2])
    rw [hsplit]
    simpa only [List.map_append, List.map_cons, List.map_nil, processItem] using happend
  · simp only [Pipeline.ahead, hpc, ProcPc.popped, List.singleton_append, List.nil_append,
      List.map_cons] at hahead ⊢
    rw [List.append_assoc, List.singleton_append]
    exact hahead

/-- A step of the processor. -/
theorem Handles.proc (h : Handles cfg handled s) (hok : Sound s) {b : Bool}
    (hstep : procStep cfg s b = some s') :
    ∃ new : List WaterSample, Handles cfg (handled ++ new) s' := by
  have hquiet : Handles cfg handled s' → ∃ new : List WaterSample,
      Handles cfg (handled ++ new) s' := fun hs => ⟨[], (List.append_nil handled).symm ▸ hs⟩
  cases hpc : s.proc with
  | handle item =>
    obtain ⟨t, hfalse, htrue, ht⟩ := h.handle hpc
    refine ⟨[item.2], ?_⟩
    cases b
    · exact Option.some.inj (hfalse.symm.trans hstep) ▸ ht
    · exact Option.some.inj (htrue.symm.trans hstep) ▸ ht
  | loop =>
    simp only [procStep, hpc] at hstep
    cases hstep
    refine hquiet (h.of_sublist rfl rfl rfl (List.append_nil _).symm ?_ ?_)
    · simp only [Pipeline.behind, hpc]
      split <;> exact List.Sublist.refl _
    · simp only [Pipeline.ahead, hpc, List.append_nil]
      split <;> exact List.Sublist.refl _
  | pop asleep =>
    simp only [procStep, hpc] at hstep
    split at hstep
    · cases hstep
      refine hquiet (h.of_sublist rfl rfl rfl (List.append_nil _).symm ?_ ?_)
      · simp only [Pipeline.behind, hpc]
        exact List.Sublist.refl _
      · simp only [Pipeline.ahead, hpc, List.append_nil]
        exact List.Sublist.refl _
    · next c code out hpop =>
      obtain ⟨hnone, rfl, -⟩ | ⟨item, hsome, hc⟩ := takes_or_fails hok.raw hpop
      · simp only [hnone] at hstep
        cases hstep
        refine hquiet (h.of_sublist rfl rfl rfl (List.append_nil _).symm ?_ ?_)
        · simp only [Pipeline.behind, hpc]
          exact List.Sublist.refl _
        · simp only [Pipeline.ahead, hpc, List.append_nil]
          exact List.Sublist.refl _
      · simp only [hsome] at hstep
        cases hstep
        refine hquiet (h.of_sublist rfl rfl rfl (List.append_nil _).symm ?_ ?_)
        · simp only [Pipeline.behind, hpc]
          exact List.Sublist.refl _
        · simp [Pipeline.ahead, hpc, ProcPc.popped, hc.before]
  | push item asleep =>
    simp only [procStep, hpc] at hstep
    split at hstep
    · cases hstep
      refine hquiet (h.of_sublist rfl rfl rfl (List.append_nil _).symm ?_ ?_)
      · simp only [Pipeline.behind, hpc]
        exact List.Sublist.refl _
      · simp only [Pipeline.ahead, hpc, List.append_nil]
        exact List.Sublist.refl _
    · next c code hpush =>
      cases hstep
      have hahead : (Pipeline.ahead { s with storeQueue := c, proc := .loop }).Sublist
          (Pipeline.ahead s ++ []) := by
        simp only [Pipeline.ahead, hpc, List.append_nil]
        exact List.Sublist.refl _
      obtain ⟨hshut, rfl⟩ | ⟨old, kept, hc⟩ := accepts_or_refuses hok.store hpush
      · refine hquiet (h.of_sublist rfl rfl rfl (List.append_nil _).symm ?_ hahead)
        simp [Pipeline.behind, hpc, ProcPc.pushing]
      · refine hquiet (h.of_sublist rfl rfl rfl (List.append_nil _).symm ?_ hahead)
        simp [Pipeline.behind, hpc, ProcPc.pushing, hc.before, hc.after]
  | returned =>
    simp only [procStep, hpc] at hstep
    cases hstep

/-- **Every step keeps the account**, with the samples it handles. -/
theorem Handles.step (h : Handles cfg handled s) (hok : Sound s) (hstep : step cfg s l = some s') :
    ∃ new : List WaterSample, Handles cfg (handled ++ new) s' := by
  have hquiet : Handles cfg handled s' → ∃ new : List WaterSample,
      Handles cfg (handled ++ new) s' := fun hs => ⟨[], (List.append_nil handled).symm ▸ hs⟩
  have hsame : s'.debounce = s.debounce → s'.hist.alarmSet = s.hist.alarmSet →
      s'.procCounter = s.procCounter → s'.hist.produced = s.hist.produced →
      (Pipeline.behind s').Sublist (Pipeline.behind s) →
      (Pipeline.ahead s').Sublist (Pipeline.ahead s) → ∃ new : List WaterSample,
      Handles cfg (handled ++ new) s' := by
    intro hlocals hcalls hcounter hproduced hbehind hahead
    have hnew : s'.hist.produced = s.hist.produced ++ [] := by rw [hproduced, List.append_nil]
    exact hquiet (h.of_sublist hlocals hcalls hcounter hnew hbehind
      (by rwa [List.append_nil]))
  have hboth : List.Sublist (Pipeline.behind s) (Pipeline.behind s) ∧
      List.Sublist (Pipeline.ahead s) (Pipeline.ahead s) :=
    ⟨List.Sublist.refl _, List.Sublist.refl _⟩
  cases hm : moves_of_step hok hstep with
  | proc | procPop | procHandle | procRefused | procAccepted => exact h.proc hok hstep
  | signal | main | setProc | setStore | shutRaw | shutStore | markUploaded | incRetry =>
    exact hsame rfl rfl rfl rfl hboth.1 hboth.2
  | collect b pc hheld =>
    refine hsame rfl rfl rfl rfl hboth.1 ?_
    simp only [Pipeline.ahead, hheld]
    exact List.Sublist.refl _
  | acquire sample hpc =>
    refine hquiet (h.of_sublist rfl rfl rfl rfl hboth.1 ?_)
    simp [Pipeline.ahead, hpc, CollectPc.held]
  | collectRefused b item asleep hpc hshut =>
    refine hsame rfl rfl rfl rfl hboth.1 ?_
    simp [Pipeline.ahead, hpc]
  | collectAccepted b item asleep c old kept hpc hawake hc =>
    refine hsame rfl rfl rfl rfl hboth.1 ?_
    simp [Pipeline.ahead, hpc, hc.before, hc.after]
  | store b pc hheld hpc hdrained hempty hdrain =>
    refine hsame rfl rfl rfl rfl ?_ hboth.2
    simp only [Pipeline.behind, hheld]
    exact List.Sublist.refl _
  | storePop b item drain c hdrained hheld hc =>
    refine hsame rfl rfl rfl rfl ?_ hboth.2
    simp [Pipeline.behind, hc.before]
  | insert a item drain pc hpc hafter hdb =>
    refine hsame rfl rfl rfl rfl ?_ hboth.2
    have hheld : pc.held = [] := hafter ▸ held_afterInsert cfg _ drain
    simp [Pipeline.behind, hpc, hheld]
  | insertFailed a item drain pc hpc hafter =>
    refine hsame rfl rfl rfl rfl ?_ hboth.2
    have hheld : pc.held = [] := hafter ▸ held_afterInsert cfg _ drain
    simp [Pipeline.behind, hpc, hheld]
  | trim a pc pc' final db hpc hrows hseq =>
    refine hsame rfl rfl rfl rfl ?_ hboth.2
    simp only [Pipeline.behind, hpc, StorePc.held]
    exact List.Sublist.refl _

/-! ## Runs -/

/-- **LED and table see one sequence of samples**: of the samples produced
the processor has handled these, in order; the LED was called as the
debounce of them says, `led_on` is its latch, and the rows that were
inserted are made of them. -/
structure OneSequence (cfg : Config) (produced handled : List WaterSample) (s : State w) :
    Prop where
  readOff : handled.Sublist produced
  calls : s.hist.alarmSet = commands cfg.thresholds handled
  led : s.debounce.ledOn = true ↔
    Processor.Alarmed (handled.map (Processor.alarming cfg.thresholds))
  counter : s.procCounter.toNat = handled.length % 2 ^ 32
  rows : (s.hist.written.map Prod.snd).Sublist (handled.map (rowOf cfg))

theorem handles_exec {s₀ : State w} (h₀ : init w db₀ = some s₀)
    (h : Run.exec (step cfg) s₀ ls = some s) : ∃ handled, Handles cfg handled s := by
  obtain ⟨-, hhandles⟩ := Run.exec_invariant
    (I := fun s => Sound s ∧ ∃ handled, Handles cfg handled s)
    (fun s l t hI ht => ⟨hI.1.step ht, hI.2.elim fun handled hs =>
      (hs.step hI.1 ht).imp' (fun new => handled ++ new) fun new hnew => hnew⟩)
    ⟨sound_init h₀, [], handles_init h₀⟩ h
  exact hhandles

theorem oneSequence_exec {s₀ : State w} (h₀ : init w db₀ = some s₀)
    (h : Run.exec (step cfg) s₀ ls = some s) :
    ∃ handled, OneSequence cfg (s.hist.produced.map Prod.snd) handled s := by
  obtain ⟨handled, hs⟩ := handles_exec h₀ h
  obtain ⟨-, -, hrec⟩ := reachable h₀ h
  refine ⟨handled, (List.sublist_append_left _ _).trans hs.ahead, hs.calls, ?_, ?_, ?_⟩
  · rw [hs.locals]
    exact (Processor.tracks_processed cfg.thresholds handled).led
  · rw [hs.counter, BitVec.toNat_ofNat]
  · have hpassed : (s.hist.passed.map Prod.snd).Sublist
        (handled.map (Processor.process cfg.thresholds)) := by
      refine List.Sublist.trans ?_ hs.behind
      exact (List.sublist_append_left _ _).map _
    have hsame : Store.recordOf cfg.deviceId ∘ Processor.process cfg.thresholds = rowOf cfg := by
      funext sample
      simp only [Function.comp_apply, rowOf, Processor.process_eq]
    have hrows := hpassed.map (Store.recordOf cfg.deviceId)
    rw [List.map_map, List.map_map, hsame] at hrows
    exact hrec.rows.trans hrows

/-- The samples produced are those of the labels. -/
theorem produced_of_init {s₀ : State w} (h₀ : init w db₀ = some s₀)
    (h : Run.exec (step cfg) s₀ ls = some s) :
    s.hist.produced.map Prod.snd = ls.flatMap Label.acquired := by
  have hnone : s₀.hist.produced = [] := by
    obtain ⟨raw, store, -, -, -, -, rfl⟩ := init_cases h₀
    rfl
  rw [produced_exec (sound_init h₀) h, hnone]
  rfl

/-- **What the LED shows is what the table gets**, in every run of the
pipeline, over every interleaving. -/
theorem one_sequence {s₀ : State w} (h₀ : init w db₀ = some s₀)
    (h : Run.exec (step cfg) s₀ ls = some s) :
    ∃ handled, OneSequence cfg (ls.flatMap Label.acquired) handled s := by
  rw [← produced_of_init h₀ h]
  exact oneSequence_exec h₀ h

/-- Three samples with a pH that is too low are handled, and one is
inserted. -/
def threeLow : List Label :=
  collectOne 1 ++ processOne ++ collectOne 2 ++ processOne ++ collectOne 3 ++ processOne ++
    insertOne

/-- They light the LED. -/
theorem one_sequence_three :
    ∃ (s₀ s : State 32) (handled : List WaterSample), init 32 AutoTable.empty = some s₀ ∧
      Run.exec (step exampleConfig) s₀ threeLow = some s ∧
      s.hist.alarmSet = [true] ∧ s.hist.written.map Prod.fst = [1] ∧
      OneSequence exampleConfig [exampleSample 1, exampleSample 2, exampleSample 3] handled s := by
  obtain ⟨s₀, s, h₀, h, hp⟩ := exists_of_runsTo threeLow
    (fun _ s => decide (s.hist.alarmSet = [true] ∧ s.hist.written.map Prod.fst = [1]))
    (by decide +kernel)
  obtain ⟨hcalls, hrows⟩ := of_decide_eq_true hp
  obtain ⟨handled, hone⟩ := one_sequence h₀ h
  exact ⟨s₀, s, handled, h₀, h, hcalls, hrows, hone⟩

end Pipeline

end WaterGateway
