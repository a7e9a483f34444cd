import WaterGateway.Common.Transducer
import WaterGateway.Gateway.Registers
import WaterGateway.Modbus.Read

/-!
# What the collect thread produces

`collect_thread` of `main.c`, round by round: it polls the sensor, or takes
a mock sample where the poll gave no seven registers, and logs when it
changes over. A message does not tell which of the two its sample is; its
numbers are those of a well-formed frame, or those of a mock sample.
-/

namespace WaterGateway

namespace Gateway

open Config (GatewayConfig)
open Modbus
open Processor
open Receiver (CleanDevice hundredths)
open Sample
open Serial

/-- What the collect thread logs. -/
inductive Notice
  | established
  | lost
  deriving DecidableEq

/-- What outlives a round: `modbus_ok`, and `g_mock_sequence`. -/
structure Collector where
  modbusOk : Bool
  gMockSequence : UInt
  deriving DecidableEq

/-- What a round meets: the time, the answers of the port, and what its
locals `values` and `sample` hold by chance. -/
structure Round where
  now : LongLong
  writes : List WriteResult
  rx : Serial.Receiver
  values : List UShort
  sample : WaterSample

/-- What a round produces. `polled` is written beside the program. -/
structure Acquired where
  sample : WaterSample
  polled : Bool
  notice : Option Notice
  deriving DecidableEq

/-- The two locals of `collect_thread` at its start. -/
def Collector.init : Collector := ⟨false, 0⟩

/-- **A round of `collect_thread`**, up to its push. -/
def collectRound (fused : Bool) (serialFd : ℤ) (slaveAddr : UChar) (c : Collector) (r : Round) :
    Option (Collector × List Acquired) :=
  (if 0 ≤ serialFd then collectRead serialFd slaveAddr r.values r.writes r.rx
    else some (-1, r.values)).bind fun read =>
  if read.1 = 7 then
    (sampleFromModbusRegs r.now r.sample read.2 7).map fun sample =>
      ({ c with modbusOk := true },
        [⟨sample, true, if c.modbusOk then none else some .established⟩])
  else
    let mock := sampleGenerateMock fused r.now c.gMockSequence
    some (⟨false, mock.2⟩, [⟨mock.1, false, if c.modbusOk then some .lost else none⟩])

variable {cfg : GatewayConfig} {fused : Bool} {serialFd : ℤ} {slaveAddr : UChar}
variable {c c' : Collector} {r : Round} {rounds : List Round} {out : List Acquired}

/-! ## One round -/

/-- **Where the sample of a round comes from**: the first seven registers
of a frame that was read, or the mock counter. -/
inductive Comes (fused : Bool) (serialFd : ℤ) (c : Collector) (r : Round) :
    Collector → Acquired → Prop
  | polled (buf : List UChar) (sample : WaterSample)
      (hread : serialRead serialFd responseSize 500 r.rx = ((buf.length : ℤ), buf))
      (hframe : WellFormed buf) (hbytes : 14 ≤ byteCount buf)
      (hsample : Polled r.now (frameReg buf) sample) :
      Comes fused serialFd c r { c with modbusOk := true }
        ⟨sample, true, if c.modbusOk then none else some .established⟩
  | mock : Comes fused serialFd c r ⟨false, c.gMockSequence + 1⟩
      ⟨(sampleGenerateMock fused r.now c.gMockSequence).1, false,
        if c.modbusOk then some .lost else none⟩

/-- The count of an answer is that of the registers it holds: seven are the
first of a frame that was read. -/
theorem exists_frame_of_collectRead {values vs : List UShort} {writes : List WriteResult}
    {rx : Serial.Receiver} (hvalues : values.length = 7)
    (h : collectRead serialFd slaveAddr values writes rx = some (7, vs)) :
    ∃ buf, serialRead serialFd responseSize 500 rx = ((buf.length : ℤ), buf) ∧ WellFormed buf ∧
      14 ≤ byteCount buf ∧ vs = (List.range 7).map (frameReg buf) := by
  obtain ⟨buf, hbuf, hparse⟩ := exists_parse_of_modbusReadRegisters h (by decide)
  obtain ⟨hframe, hcount, hvs⟩ := wellFormed_of_parse (by decide) (by omega) hparse (by decide)
  have hcut : regCount buf 7 = 7 := by omega
  refine ⟨buf, hbuf, hframe, ?_, ?_⟩
  · rw [regCount] at hcut
    omega
  · rw [hvs, hcut, List.drop_of_length_le (by omega), List.append_nil]

/-- Seven registers are only read from a port that is open. -/
theorem serialFd_of_seven {values vs : List UShort} {read : Option (ℤ × List UShort)}
    (h : (if 0 ≤ serialFd then read else some (-1, values)) = some (7, vs)) :
    read = some (7, vs) := by
  by_cases hfd : 0 ≤ serialFd
  · rwa [if_pos hfd] at h
  · rw [if_neg hfd] at h
    cases h

/-- **Every round is one of the two.** -/
theorem comes_of_round (hvalues : r.values.length = 7)
    (h : collectRound fused serialFd slaveAddr c r = some (c', out)) :
    ∃ a, out = [a] ∧ Comes fused serialFd c r c' a := by
  obtain ⟨⟨count, vs⟩, hread, h⟩ := Option.bind_eq_some_iff.1 h
  split at h
  · next hseven =>
    obtain rfl : count = 7 := hseven
    obtain ⟨buf, hbuf, hframe, hbytes, rfl⟩ :=
      exists_frame_of_collectRead hvalues (serialFd_of_seven hread)
    have hlen : 7 ≤ ((List.range 7).map (frameReg buf)).length := by
      rw [List.length_map, List.length_range]
    obtain ⟨sample, hsample, hpolled⟩ := exists_polled hlen r.now r.sample
    rw [hsample] at h
    cases h
    exact ⟨_, rfl, Comes.polled buf sample hbuf hframe hbytes
      ⟨hpolled.timestampMs, hpolled.ph, hpolled.temperature, hpolled.turbidity,
        hpolled.conductivity, hpolled.sensorStatus, hpolled.alarmStatus, hpolled.sequence⟩⟩
  · cases h
    exact ⟨_, rfl, Comes.mock⟩

/-- The answers to the eight bytes of a request bring `serial_write` to its
end: one of them ends its loop, or they take all of it. -/
def Round.Answered (r : Round) : Prop :=
  (∃ a ∈ r.writes, a.goesOn = false) ∨ 8 ≤ writeTaken r.writes

instance (r : Round) : Decidable r.Answered := inferInstanceAs (Decidable (_ ∨ _))

/-- The poll of a round comes to its end. -/
theorem collectRead_isSome (hvalues : r.values.length = 7) (hwrites : r.Answered) :
    (collectRead serialFd slaveAddr r.values r.writes r.rx).isSome := by
  refine modbusReadRegisters_isSome (by decide) (by omega) fun request hrequest hnone => ?_
  obtain ⟨request', hrequest', hlength⟩ : ∃ request,
      modbusBuildReadRequest slaveAddr 0x0000 7 8 = some request ∧ request.length = 8 :=
    exists_request (by decide) (by decide)
  obtain rfl : request = request' := Option.some.inj (hrequest.symm.trans hrequest')
  obtain ⟨-, hgoes, hlt⟩ := serialWrite_eq_none.1 hnone
  obtain ⟨a, ha, hend⟩ | htaken := hwrites
  · exact absurd ((hgoes a ha).symm.trans hend) (by decide)
  · omega

/-- **A round comes to its end** where its `serial_write` does. -/
theorem exists_collectRound (hvalues : r.values.length = 7) (hwrites : 0 ≤ serialFd → r.Answered)
    (c : Collector) : ∃ p, collectRound fused serialFd slaveAddr c r = some p := by
  obtain ⟨⟨count, vs⟩, hread⟩ : ∃ read, (if 0 ≤ serialFd then
      collectRead serialFd slaveAddr r.values r.writes r.rx else some (-1, r.values)) =
        some read := by
    by_cases hfd : 0 ≤ serialFd
    · rw [if_pos hfd]
      exact Option.isSome_iff_exists.1 (collectRead_isSome hvalues (hwrites hfd))
    · exact ⟨_, if_neg hfd⟩
  rw [collectRound, hread, Option.bind_some]
  split
  · next hseven =>
    obtain rfl : count = 7 := hseven
    obtain ⟨buf, -, -, -, rfl⟩ := exists_frame_of_collectRead hvalues (serialFd_of_seven hread)
    obtain ⟨sample, hsample, -⟩ := exists_polled
      (show 7 ≤ ((List.range 7).map (frameReg buf)).length by
        rw [List.length_map, List.length_range]) r.now r.sample
    exact ⟨_, by rw [hsample]; rfl⟩
  · exact ⟨_, rfl⟩

/-! ## Mock samples -/

/-- **What a mock sample tells.** -/
def mockNumbers (now : LongLong) (seq : UInt) : List ℚ :=
  [now.toInt, (700 + seq.toNat % 20 : ℕ) / 100, (2500 + seq.toNat % 50 : ℕ) / 100,
    (300 + seq.toNat % 30 : ℕ) / 100, (800 + seq.toNat % 40 : ℕ), 0, 0, seq.toNat]

/-- The readings of a mock sample, as they are printed. -/
theorem fixed2_drift (fused : Bool) :
    (∀ k < 20, Uploader.fixed2 (Store.real (drift fused ⟨0x40E00000⟩ k)) =
      hundredths (700 + k : ℕ)) ∧
    (∀ k < 50, Uploader.fixed2 (Store.real (drift fused ⟨0x41C80000⟩ k)) =
      hundredths (2500 + k : ℕ)) ∧
    (∀ k < 30, Uploader.fixed2 (Store.real (drift fused ⟨0x40400000⟩ k)) =
      hundredths (300 + k : ℕ)) ∧
    ∀ k < 40, Uploader.toInt (Store.real (Single.add ⟨0x44480000⟩ (Single.ofInt (k : ℕ)))) =
      (800 + k : ℕ) := by
  cases fused <;> decide +kernel

/-- They are finite, and in the bands of the default thresholds. -/
theorem inBands_drift (fused : Bool) :
    (∀ k < 20, (drift fused ⟨0x40E00000⟩ k).finite = true ∧
      (drift fused ⟨0x40E00000⟩ k).lt processorThresholdDefault.phMin = false ∧
      processorThresholdDefault.phMax.lt (drift fused ⟨0x40E00000⟩ k) = false) ∧
    (∀ k < 50, (drift fused ⟨0x41C80000⟩ k).finite = true ∧
      processorThresholdDefault.tempMax.lt (drift fused ⟨0x41C80000⟩ k) = false) ∧
    (∀ k < 30, (drift fused ⟨0x40400000⟩ k).finite = true ∧
      processorThresholdDefault.turbMax.lt (drift fused ⟨0x40400000⟩ k) = false) ∧
    ∀ k < 40, (Single.add ⟨0x44480000⟩ (Single.ofInt (k : ℕ))).finite = true ∧
      processorThresholdDefault.condMax.lt (Single.add ⟨0x44480000⟩ (Single.ofInt (k : ℕ))) =
        false := by
  cases fused <;> decide +kernel

/-- A sample made by the mock counter. -/
def IsMock (fused : Bool) (sample : WaterSample) : Prop :=
  ∃ now gMockSequence, sample = (sampleGenerateMock fused now gMockSequence).1

theorem IsMock.finiteReadings {sample : WaterSample} (h : IsMock fused sample) :
    sample.FiniteReadings := by
  obtain ⟨now, seq, rfl⟩ := h
  obtain ⟨hph, htemp, hturb, hcond⟩ := inBands_drift fused
  exact ⟨(hph _ (Nat.mod_lt _ (by decide))).1, (htemp _ (Nat.mod_lt _ (by decide))).1,
    (hturb _ (Nat.mod_lt _ (by decide))).1, (hcond _ (Nat.mod_lt _ (by decide))).1⟩

/-- **A mock sample raises no alarm.** -/
theorem IsMock.alarm_eq_zero {sample : WaterSample} (h : IsMock fused sample) :
    processorComputeAlarm sample processorThresholdDefault = 0 := by
  obtain ⟨now, seq, rfl⟩ := h
  obtain ⟨hph, htemp, hturb, hcond⟩ := inBands_drift fused
  obtain ⟨-, hlow, hhigh⟩ := hph ((seq + 1).toNat % 20) (Nat.mod_lt _ (by decide))
  simp only [processorComputeAlarm, sampleGenerateMock, hlow, hhigh,
    (htemp ((seq + 1).toNat % 50) (Nat.mod_lt _ (by decide))).2,
    (hturb ((seq + 1).toNat % 30) (Nat.mod_lt _ (by decide))).2,
    (hcond ((seq + 1).toNat % 40) (Nat.mod_lt _ (by decide))).2]
  rfl

/-- **The numbers of a mock sample**, stored and sent. -/
theorem numbers_mock (cps : List ℕ) (now : LongLong) (seq : UInt) :
    numbers (Uploader.lineMembers cps (stored cfg (sampleGenerateMock fused now seq).1)) =
      (mockNumbers now (seq + 1)).map some := by
  have hmask : processorComputeAlarm (sampleGenerateMock fused now seq).1
      (pipelineConfig cfg).thresholds = 0 := IsMock.alarm_eq_zero ⟨now, seq, rfl⟩
  obtain ⟨hph, htemp, hturb, hcond⟩ := fixed2_drift fused
  have hzero : (0 : UInt) ||| 0 = 0 := rfl
  rw [numbers_lineMembers]
  simp only [Uploader.fields, stored, Uploader.sampleOf, Pipeline.rowOf, Store.recordOf,
    List.map_cons, List.map_nil, mockNumbers, numeralValue_word, hmask, BitVec.ofInt_toInt,
    Receiver.numeralValue_signedDecimal]
  simp only [sampleGenerateMock, hph ((seq + 1).toNat % 20) (Nat.mod_lt _ (by decide)),
    htemp ((seq + 1).toNat % 50) (Nat.mod_lt _ (by decide)),
    hturb ((seq + 1).toNat % 30) (Nat.mod_lt _ (by decide)),
    hcond ((seq + 1).toNat % 40) (Nat.mod_lt _ (by decide)), Receiver.numeralValue_hundredths,
    hzero, Int.cast_natCast]
  rfl

/-! ## Runs -/

/-- Where a sample comes from, as the server could tell. -/
inductive Source (fused : Bool) (serialFd : ℤ) (r : Round) (a : Acquired) : Prop
  | polled (buf : List UChar)
      (hread : serialRead serialFd responseSize 500 r.rx = ((buf.length : ℤ), buf))
      (hframe : WellFormed buf) (hbytes : 14 ≤ byteCount buf)
      (hsample : Polled r.now (frameReg buf) a.sample)
  | mock (gMockSequence : UInt)
      (hsample : a.sample = (sampleGenerateMock fused r.now gMockSequence).1)

theorem Comes.source {a : Acquired} (h : Comes fused serialFd c r c' a) :
    Source fused serialFd r a := by
  cases h with
  | polled buf sample hread hframe hbytes hsample => exact .polled buf hread hframe hbytes hsample
  | mock => exact .mock c.gMockSequence rfl

/-- A message is logged where `modbus_ok` changes. -/
theorem Comes.notice {a : Acquired} (h : Comes fused serialFd c r c' a) :
    a.notice = if c'.modbusOk = c.modbusOk then none
      else some (if c'.modbusOk then .established else .lost) := by
  cases h with
  | polled => cases hok : c.modbusOk <;> rfl
  | mock => cases hok : c.modbusOk <;> rfl

/-- The messages of a run. -/
def notices (out : List Acquired) : List Notice := out.filterMap Acquired.notice

/-- The sequence numbers of the mock samples. -/
def mockSequences (out : List Acquired) : List UInt :=
  (out.filter fun a => !a.polled).map fun a => a.sample.sequence

theorem notices_append (out out' : List Acquired) :
    notices (out ++ out') = notices out ++ notices out' := List.filterMap_append

theorem mockSequences_append (out out' : List Acquired) :
    mockSequences (out ++ out') = mockSequences out ++ mockSequences out' := by
  rw [mockSequences, List.filter_append, List.map_append]
  rfl

/-- A mock sample is numbered by the counter. -/
theorem Comes.counter {a : Acquired} (h : Comes fused serialFd c r c' a) :
    (mockSequences [a] = [] ∧ c'.gMockSequence = c.gMockSequence) ∨
      (mockSequences [a] = [c.gMockSequence + 1] ∧ c'.gMockSequence = c.gMockSequence + 1) := by
  cases h with
  | polled => exact Or.inl ⟨rfl, rfl⟩
  | mock => exact Or.inr ⟨rfl, rfl⟩

/-- A list read off a counter. -/
def CountsUp {α : Type*} (f : ℕ → α) (l : List α) : Prop := l = (List.range l.length).map f

/-- It goes on as the counter does. -/
theorem CountsUp.concat {α : Type*} {f : ℕ → α} {l : List α} (h : CountsUp f l) {x : α}
    (hx : x = f l.length) : CountsUp f (l ++ [x]) := by
  rw [CountsUp, List.length_append, List.length_singleton, List.range_succ, List.map_append, ← h,
    hx]
  rfl

/-- The messages take turns. -/
def turn (i : ℕ) : Notice := if i % 2 = 0 then .established else .lost

/-- **What a run of the collect thread owes**: a sample for each round; its
messages take turns, the first says that the sensor answers; and the mock
samples are numbered from 1. -/
structure Collects (fused : Bool) (serialFd : ℤ) (rounds : List Round) (c : Collector)
    (out : List Acquired) : Prop where
  sources : List.Forall₂ (Source fused serialFd) rounds out
  ok : c.modbusOk = decide ((notices out).length % 2 = 1)
  turns : CountsUp turn (notices out)
  counter : c.gMockSequence = BitVec.ofNat 32 (mockSequences out).length
  numbered : CountsUp (fun i => BitVec.ofNat 32 (i + 1)) (mockSequences out)

theorem collects_init : Collects fused serialFd [] Collector.init [] :=
  ⟨.nil, rfl, rfl, rfl, rfl⟩

/-- **A round keeps the account.** -/
theorem Collects.step {a : Acquired} (h : Collects fused serialFd rounds c out)
    (hround : Comes fused serialFd c r c' a) :
    Collects fused serialFd (rounds ++ [r]) c' (out ++ [a]) := by
  have hok := h.ok
  have hturns : c'.modbusOk = decide ((notices (out ++ [a])).length % 2 = 1) ∧
      CountsUp turn (notices (out ++ [a])) := by
    have hnotice := hround.notice
    rw [notices_append]
    by_cases hsame : c'.modbusOk = c.modbusOk
    · rw [if_pos hsame] at hnotice
      have hnone : notices [a] = [] := List.filterMap_cons_none hnotice
      rw [hnone, List.append_nil, hsame]
      exact ⟨hok, h.turns⟩
    · -- the message says what `modbus_ok` has become
      rw [if_neg hsame] at hnotice
      have hone : notices [a] = [if c'.modbusOk then .established else .lost] :=
        List.filterMap_cons_some hnotice
      have hflip : c'.modbusOk = decide ((notices out).length % 2 = 0) := by
        rw [Bool.eq_not_iff.2 hsame, hok, ← decide_not, decide_eq_decide]
        omega
      rw [hone]
      refine ⟨?_, h.turns.concat ?_⟩
      · rw [hflip, List.length_append, List.length_singleton, decide_eq_decide]
        omega
      · rw [hflip, turn]
        simp only [decide_eq_true_eq]
  have hnumbered : c'.gMockSequence = BitVec.ofNat 32 (mockSequences (out ++ [a])).length ∧
      CountsUp (fun i => BitVec.ofNat 32 (i + 1)) (mockSequences (out ++ [a])) := by
    rw [mockSequences_append]
    have hnext : c.gMockSequence + 1 = BitVec.ofNat 32 ((mockSequences out).length + 1) := by
      rw [h.counter, BitVec.ofNat_add]
      rfl
    obtain ⟨hnone, hsame⟩ | ⟨hone, hsucc⟩ := hround.counter
    · rw [hnone, List.append_nil, hsame]
      exact ⟨h.counter, h.numbered⟩
    · rw [hone, hsucc, List.length_append]
      exact ⟨hnext, h.numbered.concat hnext⟩
  exact ⟨List.rel_append h.sources (.cons hround.source .nil), hturns.1, hturns.2, hnumbered.1,
    hnumbered.2⟩

/-- **Every run of the collect thread keeps the account.** -/
theorem collects_of_run (hvalues : ∀ r ∈ rounds, r.values.length = 7)
    (h : Transducer.run (collectRound fused serialFd slaveAddr) Collector.init rounds =
      some (c, out)) : Collects fused serialFd rounds c out := by
  refine Transducer.run_induction (P := fun rounds c out =>
    (∀ r ∈ rounds, r.values.length = 7) → Collects fused serialFd rounds c out)
    (fun _ => collects_init) ?_ h hvalues
  intro rounds c out r c' out' ih hround hvalues
  obtain ⟨a, rfl, hcomes⟩ := comes_of_round (hvalues r (by simp)) hround
  exact (ih fun r' hr' => hvalues r' (List.mem_append_left _ hr')).step hcomes

/-- **What the server reads of a round**: the numbers of a well-formed
frame that was read in it, or those of a mock sample. -/
def Tells (serialFd : ℤ) (r : Round) (ms : Receiver.Members) : Prop :=
  (∃ buf, serialRead serialFd responseSize 500 r.rx = ((buf.length : ℤ), buf) ∧ WellFormed buf ∧
    14 ≤ byteCount buf ∧ numbers ms = (pollNumbers r.now (frameReg buf)).map some) ∨
  ∃ seq, numbers ms = (mockNumbers r.now seq).map some

theorem Source.finiteReadings {a : Acquired} (h : Source fused serialFd r a) :
    a.sample.FiniteReadings := by
  cases h with
  | polled buf hread hframe hbytes hsample => exact hsample.finiteReadings
  | mock seq hsample => exact (show IsMock fused a.sample from ⟨r.now, seq, hsample⟩).finiteReadings

theorem Source.tells {a : Acquired} (h : Source fused serialFd r a) (cps : List ℕ) :
    Tells serialFd r (Uploader.lineMembers cps (stored cfg a.sample)) := by
  cases h with
  | polled buf hread hframe hbytes hsample =>
    exact Or.inl ⟨buf, hread, hframe, hbytes, numbers_stored cps hsample⟩
  | mock seq hsample =>
    rw [hsample]
    exact Or.inr ⟨seq + 1, numbers_mock cps r.now seq⟩

/-- **Every run comes to its end** whose rounds do. -/
theorem exists_collects (hvalues : ∀ r ∈ rounds, r.values.length = 7)
    (hwrites : 0 ≤ serialFd → ∀ r ∈ rounds, r.Answered) :
    ∃ c out, Transducer.run (collectRound fused serialFd slaveAddr) Collector.init rounds =
      some (c, out) :=
  Transducer.exists_run (fun c r hr =>
    exists_collectRound (hvalues r hr) (fun hfd => hwrites hfd r hr) c) Collector.init

/-- **From the port to the server**: where the port brings each write of a
request to its end, whatever else it and the clock answer, the collect
thread comes through all its rounds; each gives one sample, whose line is a
message that tells the registers of a well-formed frame read in that round,
exactly, or those of a mock sample; the messages about the sensor take
turns; and the mock samples are numbered from 1. -/
theorem server_reads_collected {cps : List ℕ} (lax : Bool) (hdevice : CleanDevice cfg.deviceId cps)
    (hvalues : ∀ r ∈ rounds, r.values.length = 7)
    (hwrites : 0 ≤ serialFd → ∀ r ∈ rounds, r.Answered) :
    ∃ c out, Transducer.run (collectRound fused serialFd slaveAddr) Collector.init rounds =
        some (c, out) ∧
      List.Forall₂ (fun r a => ∃ ms, Receiver.messageOf lax (wire cfg a.sample).dropLast =
        some ms ∧ Tells serialFd r ms) rounds out ∧
      CountsUp turn (notices out) ∧
      CountsUp (fun i => BitVec.ofNat 32 (i + 1)) (mockSequences out) := by
  obtain ⟨c, out, hrun⟩ := exists_collects hvalues hwrites
  have hcollects := collects_of_run hvalues hrun
  refine ⟨c, out, hrun, hcollects.sources.imp fun r a hsource => ?_, hcollects.turns,
    hcollects.numbered⟩
  refine ⟨Uploader.lineMembers cps (stored cfg a.sample), ?_, hsource.tells cps⟩
  rw [dropLast_wire]
  exact Receiver.messageOf_lineBody hdevice (finiteReadings_stored hsource.finiteReadings)

/-- A sensor that does not answer, answers once, and is gone. -/
def silentRounds : List Round :=
  let silent : Round := ⟨1, [.wrote 8], ⟨fun _ => .timeout, .data []⟩, List.replicate 7 0, default⟩
  let answered : Round :=
    ⟨2, [.wrote 8], ⟨fun _ => .ready, .data (responseFrame 1 normalRegs)⟩, List.replicate 7 0,
      default⟩
  [silent, answered, silent]

/-- Both messages are logged, and two mock samples are numbered. -/
theorem server_reads_collected_silent :
    (Transducer.run (collectRound false 3 1) Collector.init silentRounds).map
        (fun p => p.2.map Acquired.polled) = some [false, true, false] ∧
      ∃ c out, Transducer.run (collectRound false 3 1) Collector.init silentRounds =
          some (c, out) ∧
        List.Forall₂ (fun r a => ∃ ms, Receiver.messageOf false
            (wire Config.configSetDefault a.sample).dropLast = some ms ∧ Tells 3 r ms)
          silentRounds out ∧
        CountsUp turn (notices out) ∧
        CountsUp (fun i => BitVec.ofNat 32 (i + 1)) (mockSequences out) := by
  refine ⟨by decide +kernel, ?_⟩
  exact server_reads_collected false cleanDevice_default (by decide) (by decide)

end Gateway

end WaterGateway
