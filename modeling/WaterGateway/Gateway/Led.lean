import WaterGateway.Gateway.Collect
import WaterGateway.Pipeline.Handled

/-!
# From the registers to the LED

The collect thread's samples, through the pipeline: the LED and the alarm
column of the table tell the registers of the sensor. They do not tell the
same of them. The LED is called by the gateway's own alarm bits alone; the
column has those that the sensor reports beside them.
-/

namespace WaterGateway

namespace Gateway

open Config (GatewayConfig)
open Modbus
open Pipeline (OneSequence rowOf)
open Processor
open Sample
open Serial

variable {cfg : GatewayConfig} {fused : Bool} {serialFd : ℤ} {slaveAddr : UChar} {w : ℕ}
variable {c c' : Collector} {r : Round} {rounds : List Round} {out : List Acquired}
variable {db₀ : Samples} {s₀ s : Pipeline.State w} {ls : List Pipeline.Label}

/-! ## One round -/

/-- The registers that the poll of a round has read: none, where it gave
no seven of them. -/
def roundRegs (serialFd : ℤ) (slaveAddr : UChar) (r : Round) : Option (ℕ → UShort) :=
  (if 0 ≤ serialFd then collectRead serialFd slaveAddr r.values r.writes r.rx else none).bind
    fun read => if read.1 = 7 then some fun i => read.2.getD i 0 else none

/-- The alarm bits of the registers. A mock sample has none. -/
def roundAlarm (serialFd : ℤ) (slaveAddr : UChar) (r : Round) : UInt :=
  (roundRegs serialFd slaveAddr r).elim 0 regAlarm

/-- The bits that the sensor reports itself, in its sixth register. -/
def roundReported (serialFd : ℤ) (slaveAddr : UChar) (r : Round) : UInt :=
  (roundRegs serialFd slaveAddr r).elim 0 fun reg => (reg 5).setWidth 32

/-- What the LED and the table take from a sample. -/
def signs (sample : WaterSample) : LongLong × UInt × UInt :=
  (sample.timestampMs, sample.alarmStatus, processorComputeAlarm sample processorThresholdDefault)

/-- The same, read off a round. -/
def roundSigns (serialFd : ℤ) (slaveAddr : UChar) (r : Round) : LongLong × UInt × UInt :=
  (r.now, roundReported serialFd slaveAddr r, roundAlarm serialFd slaveAddr r)

/-- A sample that is made of registers is made of seven. -/
theorem polled_of_sample {now : LongLong} {regs : List UShort} {sample polled : WaterSample}
    (h : sampleFromModbusRegs now sample regs 7 = some polled) :
    Polled now (fun i => regs.getD i 0) polled := by
  have hseven : 7 ≤ regs.length := by
    by_contra hshort
    have hnone : load regs 6 = none := List.getElem?_eq_none (by omega)
    rw [sampleFromModbusRegs, if_neg (by decide), hnone] at h
    simp at h
  obtain ⟨polled', hpolled, hp⟩ := exists_polled hseven now sample
  cases hpolled.symm.trans h
  exact hp

/-- **A round's sample has the signs of its registers.** -/
theorem signs_of_round (h : collectRound fused serialFd slaveAddr c r = some (c', out)) :
    ∃ a, out = [a] ∧ signs a.sample = roundSigns serialFd slaveAddr r := by
  obtain ⟨⟨count, values⟩, hread, h⟩ := Option.bind_eq_some_iff.1 h
  split at h
  · next hseven =>
    -- the poll has answered, so the port is open
    have hfd : 0 ≤ serialFd := by
      by_contra hneg
      rw [if_neg hneg] at hread
      cases hread
      cases hseven
    obtain ⟨sample, hsample, hout⟩ := Option.map_eq_some_iff.1 h
    cases hout
    have hpolled := polled_of_sample hsample
    have hregs : roundRegs serialFd slaveAddr r = some fun i => values.getD i 0 := by
      rw [if_pos hfd] at hread
      rw [roundRegs, if_pos hfd, hread, Option.bind_some, if_pos hseven]
    have halarm : processorComputeAlarm sample processorThresholdDefault =
        regAlarm fun i => values.getD i 0 :=
      processorComputeAlarm_of_regs hpolled.ph hpolled.temperature hpolled.turbidity
        hpolled.conductivity
    refine ⟨_, rfl, ?_⟩
    rw [roundSigns, roundReported, roundAlarm, hregs, Option.elim_some, Option.elim_some, signs,
      hpolled.timestampMs, hpolled.alarmStatus, halarm]
  · next hseven =>
    cases h
    have hregs : roundRegs serialFd slaveAddr r = none := by
      rw [roundRegs]
      split_ifs at hread ⊢
      · rw [hread, Option.bind_some, if_neg hseven]
      · rfl
    have hmock : processorComputeAlarm (sampleGenerateMock fused r.now c.gMockSequence).1
        processorThresholdDefault = 0 := IsMock.alarm_eq_zero ⟨r.now, c.gMockSequence, rfl⟩
    refine ⟨_, rfl, ?_⟩
    rw [roundSigns, roundReported, roundAlarm, hregs, signs, hmock]
    rfl

/-- The signs of all rounds of a run. -/
theorem signs_of_run (h : Transducer.run (collectRound fused serialFd slaveAddr) Collector.init
    rounds = some (c, out)) :
    out.map (signs ∘ Acquired.sample) = rounds.map (roundSigns serialFd slaveAddr) := by
  refine Transducer.run_induction (P := fun rounds _ out =>
    out.map (signs ∘ Acquired.sample) = rounds.map (roundSigns serialFd slaveAddr)) rfl ?_ h
  intro rounds c out r c' out' ih hround
  obtain ⟨a, rfl, ha⟩ := signs_of_round hround
  rw [List.map_append, List.map_append, ih]
  exact congrArg _ (congrArg (fun x => [x]) ha)

/-! ## Runs -/

/-- The time and the alarm bits that a round leaves in the table. -/
def roundRow (serialFd : ℤ) (slaveAddr : UChar) (r : Round) : ℤ × ℤ :=
  (r.now.toInt, (roundReported serialFd slaveAddr r ||| roundAlarm serialFd slaveAddr r).toInt)

/-- **What the LED and the table tell of the rounds**: `led_on` is the
latch of the alarm bits of the rounds handled, the LED is called in turns,
the first time to light it, and each row has the time and the bits of a
round handled. -/
structure TellsRounds (serialFd : ℤ) (slaveAddr : UChar) (rounds handled stored : List Round)
    (s : Pipeline.State w) : Prop where
  read : handled.Sublist rounds
  kept : stored.Sublist handled
  led : s.debounce.ledOn = true ↔
    Alarmed (handled.map fun r => roundAlarm serialFd slaveAddr r != 0)
  last : s.debounce.ledOn = decide (s.hist.alarmSet.length % 2 = 1)
  calls : CountsUp (fun i => decide (i % 2 = 0)) s.hist.alarmSet
  rows : s.hist.written.map (fun row => (row.2.timestampMs, row.2.alarmStatus)) =
    stored.map (roundRow serialFd slaveAddr)

/-- Samples that are handled, and the rounds they were produced in. -/
theorem exists_rounds {samples handled : List WaterSample}
    (hsigns : samples.map signs = rounds.map (roundSigns serialFd slaveAddr))
    (h : handled.Sublist samples) :
    ∃ rs : List Round, rs.Sublist rounds ∧
      handled.map signs = rs.map (roundSigns serialFd slaveAddr) := by
  have hsub : (handled.map signs).Sublist (rounds.map (roundSigns serialFd slaveAddr)) :=
    hsigns ▸ h.map signs
  exact List.sublist_map_iff.1 hsub

/-- **From the registers to the LED**: in every run of the pipeline on the
samples of a run of the collect thread, over every interleaving and
whatever the port answers, the LED and the table tell the rounds. -/
theorem led_reads_rounds
    (h : Transducer.run (collectRound fused serialFd slaveAddr) Collector.init rounds =
      some (c, out)) (h₀ : Pipeline.init w db₀ = some s₀)
    (hrun : Run.exec (Pipeline.step (pipelineConfig cfg)) s₀ ls = some s)
    (hsame : ls.flatMap Pipeline.Label.acquired = out.map Acquired.sample) :
    ∃ handled stored, TellsRounds serialFd slaveAddr rounds handled stored s := by
  obtain ⟨samples, hone⟩ := Pipeline.oneSequence_exec h₀ hrun
  have hproduced := Pipeline.produced_of_init h₀ hrun
  have hsigns : (s.hist.produced.map Prod.snd).map signs =
      rounds.map (roundSigns serialFd slaveAddr) := by
    rw [hproduced, hsame, List.map_map, signs_of_run h]
  obtain ⟨handled, hhandled, hmap⟩ := exists_rounds hsigns hone.readOff
  -- what a row tells, told by the signs
  have hrows : (s.hist.written.map fun row => (row.2.timestampMs, row.2.alarmStatus)).Sublist
      (handled.map (roundRow serialFd slaveAddr)) := by
    have htold := (hone.rows.map fun b => (b.timestampMs, b.alarmStatus))
    have hread : (handled.map (roundRow serialFd slaveAddr)) =
        (samples.map signs).map fun t => (t.1.toInt, (t.2.1 ||| t.2.2).toInt) := by
      rw [hmap, List.map_map]
      rfl
    rw [hread, List.map_map]
    rw [List.map_map, List.map_map] at htold
    exact htold
  obtain ⟨stored, hstored, hwritten⟩ := List.sublist_map_iff.1 hrows
  obtain ⟨hlast, hturns⟩ := commands_alternate processorThresholdDefault samples
  have hled : s.debounce.ledOn = (processed processorThresholdDefault samples).1.ledOn :=
    Bool.eq_iff_iff.2 (hone.led.trans (tracks_processed processorThresholdDefault samples).led.symm)
  refine ⟨handled, stored, hhandled, hstored, ?_, ?_, ?_, hwritten⟩
  · have halarms : samples.map (alarming processorThresholdDefault) =
        handled.map fun r => roundAlarm serialFd slaveAddr r != 0 := by
      have hread := congrArg (List.map fun t : LongLong × UInt × UInt => t.2.2 != 0) hmap
      rw [List.map_map, List.map_map] at hread
      exact hread
    rw [hone.led]
    exact halarms ▸ Iff.rfl
  · rw [hone.calls]
    exact hled.trans hlast
  · rw [hone.calls]
    exact hturns

/-- Three polls of a pH that is too low. The sensor reports an alarm of
its own beside it. -/
def lowRounds : List Round :=
  let low : Round :=
    ⟨5, [.wrote 8], ⟨fun _ => .ready, .data (responseFrame 1 [649, 2534, 320, 820, 0, 4, 7])⟩,
      List.replicate 7 0, default⟩
  [low, low, low]

/-- Each sample is produced and handled, and the first one inserted. -/
def lowRun (out : List Acquired) : List Pipeline.Label :=
  out.flatMap (fun a => [.collect false, .acquire a.sample, .collect false, .collect false] ++
    Pipeline.processOne) ++ Pipeline.insertOne

/-- The LED is lit, and the row has both alarms. -/
theorem led_reads_rounds_low :
    ∃ (c : Collector) (out : List Acquired) (s₀ s : Pipeline.State 32),
      Transducer.run (collectRound false 3 1) Collector.init lowRounds = some (c, out) ∧
      Pipeline.init 32 AutoTable.empty = some s₀ ∧
      Run.exec (Pipeline.step (pipelineConfig Config.configSetDefault)) s₀ (lowRun out) = some s ∧
      s.hist.alarmSet = [true] ∧ s.hist.written.map (fun row => row.2.alarmStatus) = [5] ∧
      ∃ handled stored, TellsRounds 3 1 lowRounds handled stored s := by
  have hrun : (Transducer.run (collectRound false 3 1) Collector.init lowRounds).any (fun p =>
      (Pipeline.init 32 AutoTable.empty).any fun s₀ =>
        (Run.exec (Pipeline.step (pipelineConfig Config.configSetDefault)) s₀ (lowRun p.2)).any
          fun s => decide (s.hist.alarmSet = [true] ∧
            s.hist.written.map (fun row => row.2.alarmStatus) = [5] ∧
            (lowRun p.2).flatMap Pipeline.Label.acquired = p.2.map Acquired.sample)) = true := by
    decide +kernel
  obtain ⟨⟨c, out⟩, h, hrest⟩ := (Option.any_eq_true _ _).1 hrun
  obtain ⟨s₀, h₀, hrest⟩ := (Option.any_eq_true _ _).1 hrest
  obtain ⟨s, hs, hp⟩ := (Option.any_eq_true _ _).1 hrest
  obtain ⟨hcalls, hrows, hsame⟩ := of_decide_eq_true hp
  exact ⟨c, out, s₀, s, h, h₀, hs, hcalls, hrows, led_reads_rounds h h₀ hs hsame⟩

end Gateway

end WaterGateway
