import WaterGateway.Gateway.Server
import WaterGateway.Processor.Bands
import WaterGateway.Receiver.Values
import WaterGateway.Sample.Registers

/-!
# From the registers to the server

The registers of the sensor go through single-precision products, the
columns of the table, the text of a line and the reader of the server. None
of that is seen at the other end: the server reads the registers as they
are, the hundredths as hundredths, and the alarm bits are those of the
registers themselves.
-/

namespace WaterGateway

namespace Gateway

open Config (GatewayConfig)
open Json Utf8
open Processor
open Receiver (CleanDevice Members hundredths messageOf number numeralValue)
open Sample
open Single (ofInt)
open Uploader (fields fixed2 lineBody lineMembers magnitude2 toInt)

variable {cfg : GatewayConfig} {x : ℤ} {r : UShort}

/-! ## The text of a reading -/

theorem fixed2_centi (h : x.natAbs < 2 ^ 16) : fixed2 (centi x) = hundredths x := by
  have hfinite : (centi x).isNaN = false ∧ (centi x).isInf = false := by
    simpa [Single.finite] using finite_centi (x := x) (by omega)
  have hround : Rounding.nearest ((centi x).mag * 100) (2 ^ 149) = x.natAbs := hundredths_centi h
  have hmag : magnitude2 (centi x) = Uploader.decimal (x.natAbs / 100) ++ bytes "." ++
      Uploader.decimal (x.natAbs % 100 / 10) ++ Uploader.decimal (x.natAbs % 10) := by
    rw [magnitude2, hfinite.1, hfinite.2, if_neg Bool.false_ne_true, if_neg Bool.false_ne_true,
      hround]
  rw [fixed2, hmag, neg_centi, hundredths]
  by_cases hneg : x < 0
  · rw [if_pos (decide_eq_true hneg), if_pos hneg]
  · rw [if_neg (by simpa using hneg), if_neg hneg, List.nil_append]

/-- A column keeps a reading, as it is no negative zero. -/
theorem real_centi (h : x.natAbs < 2 ^ 16) : Store.real (centi x) = centi x := by
  unfold Store.real
  split
  · next hzero =>
    have hround := hundredths_centi h
    rw [hzero, Nat.zero_mul, Rounding.nearest_zero] at hround
    obtain rfl : x = 0 := by omega
    decide +kernel
  · rfl

theorem real_ofInt (h : x.natAbs < 2 ^ 24) : Store.real (ofInt x) = ofInt x := by
  unfold Store.real
  split
  · next hzero =>
    rw [Single.mag_ofInt h] at hzero
    obtain rfl : x = 0 := by omega
    decide +kernel
  · rfl

theorem toInt_ofInt (h : x.natAbs < 2 ^ 24) : toInt (ofInt x) = x := by
  have hnan : (ofInt x).isNaN = false := Single.isNaN_of_finite (Single.finite_ofInt h)
  have hdiv : (ofInt x).mag / 2 ^ 149 = x.natAbs := by
    rw [Single.mag_ofInt h, Nat.mul_div_cancel _ (Nat.two_pow_pos _)]
  rw [toInt, hnan, if_neg Bool.false_ne_true, hdiv, Single.neg_ofInt]
  by_cases hneg : x < 0
  · rw [if_pos (decide_eq_true hneg)]
    omega
  · rw [if_neg (by simpa using hneg)]
    omega

/-! ## The alarm bits of the registers -/

/-- **The alarm bits, told by the registers**: pH outside 6.50 to 8.50,
more than 45.00 degrees, 5.00 NTU or 2000 microsiemens. -/
def regAlarm (reg : ℕ → UShort) : UInt :=
  (if (reg 0).toNat < 650 then alarmPhLow else if 850 < (reg 0).toNat then alarmPhHigh else 0) |||
    (if 4500 < (reg 1).toInt then alarmTempHigh else 0) |||
    (if 500 < (reg 2).toNat then alarmTurbHigh else 0) |||
    (if 2000 < (reg 3).toNat then alarmCondHigh else 0)

theorem ph_low_iff (r : UShort) :
    (centi r.toNat).lt processorThresholdDefault.phMin = true ↔ r.toNat < 650 := by
  have hiff := centi_lt_iff (k := 649) (b := processorThresholdDefault.phMin)
    (x := (r.toNat : ℤ)) (by decide) (by decide) (by decide) (by decide +kernel) (by decide +kernel)
    (by omega) (by omega)
  rw [hiff]
  omega

theorem ph_high_iff (r : UShort) :
    processorThresholdDefault.phMax.lt (centi r.toNat) = true ↔ 850 < r.toNat := by
  have hiff := lt_centi_iff (k := 850) (b := processorThresholdDefault.phMax)
    (x := (r.toNat : ℤ)) (by decide) (by decide) (by decide) (by decide +kernel) (by decide +kernel)
    (by omega)
  rw [hiff]
  omega

theorem natAbs_toInt_lt (r : UShort) : r.toInt.natAbs < 2 ^ 16 := by
  have hlo := BitVec.le_toInt r
  have hhi := BitVec.toInt_lt (x := r)
  omega

theorem temp_high_iff (r : UShort) :
    processorThresholdDefault.tempMax.lt (centi r.toInt) = true ↔ 4500 < r.toInt := by
  have habs := natAbs_toInt_lt r
  exact lt_centi_iff (k := 4500) (b := processorThresholdDefault.tempMax)
    (by decide) (by decide) (by decide) (by decide +kernel) (by decide +kernel) (by omega)

theorem turb_high_iff (r : UShort) :
    processorThresholdDefault.turbMax.lt (centi r.toNat) = true ↔ 500 < r.toNat := by
  have hiff := lt_centi_iff (k := 500) (b := processorThresholdDefault.turbMax)
    (x := (r.toNat : ℤ)) (by decide) (by decide) (by decide) (by decide +kernel) (by decide +kernel)
    (by omega)
  rw [hiff]
  omega

theorem cond_high_iff (r : UShort) :
    processorThresholdDefault.condMax.lt (ofInt r.toNat) = true ↔ 2000 < r.toNat := by
  have hmax : processorThresholdDefault.condMax = ofInt 2000 := by decide +kernel
  rw [hmax, Single.lt_of_finite (Single.finite_ofInt (by decide))
    (Single.finite_ofInt (by omega)), decide_eq_true_iff, Single.units_ofInt (by decide),
    Single.units_ofInt (by omega)]
  omega

/-- **No alarm is raised or missed by rounding.** -/
theorem processorComputeAlarm_of_regs {sample : WaterSample} {reg : ℕ → UShort}
    (hph : sample.ph = centi (reg 0).toNat) (htemp : sample.temperature = centi (reg 1).toInt)
    (hturb : sample.turbidity = centi (reg 2).toNat)
    (hcond : sample.conductivity = ofInt (reg 3).toNat) :
    processorComputeAlarm sample processorThresholdDefault = regAlarm reg := by
  have hzero : ∀ mask : UInt, mask ||| 0 = mask := fun mask => BitVec.or_zero
  unfold processorComputeAlarm regAlarm
  simp only [hph, htemp, hturb, hcond, ph_low_iff, ph_high_iff, temp_high_iff, turb_high_iff,
    cond_high_iff]
  split <;> split <;> split <;> simp only [hzero]

/-! ## The members of a polled sample -/

/-- A polled sample: its readings are those of the registers. -/
structure Polled (now : LongLong) (reg : ℕ → UShort) (sample : WaterSample) : Prop where
  timestampMs : sample.timestampMs = now
  ph : sample.ph = centi (reg 0).toNat
  temperature : sample.temperature = centi (reg 1).toInt
  turbidity : sample.turbidity = centi (reg 2).toNat
  conductivity : sample.conductivity = ofInt (reg 3).toNat
  sensorStatus : sample.sensorStatus = (reg 4).setWidth 32
  alarmStatus : sample.alarmStatus = (reg 5).setWidth 32
  sequence : sample.sequence = (reg 6).setWidth 32

/-- **Seven registers make a polled sample.** -/
theorem exists_polled {regs : List UShort} (h : 7 ≤ regs.length) (now : LongLong)
    (sample : WaterSample) : ∃ polled, sampleFromModbusRegs now sample regs 7 = some polled ∧
      Polled now (fun i => regs.getD i 0) polled := by
  have hload : ∀ i < 7, load regs i = some (regs.getD i 0) := fun i hi =>
    load_eq_some (by omega) 0
  rw [sampleFromModbusRegs, if_neg (by decide), hload 0 (by decide), hload 1 (by decide),
    hload 2 (by decide), hload 3 (by decide), hload 4 (by decide), hload 5 (by decide),
    hload 6 (by decide)]
  exact ⟨_, rfl, rfl, rfl, rfl, rfl, rfl, rfl, rfl, rfl⟩

theorem Polled.finiteReadings {now : LongLong} {reg : ℕ → UShort} {sample : WaterSample}
    (h : Polled now reg sample) : sample.FiniteReadings := by
  have habs := natAbs_toInt_lt (reg 1)
  refine ⟨?_, ?_, ?_, ?_⟩
  · rw [h.ph]
    exact finite_centi (by omega)
  · rw [h.temperature]
    exact finite_centi (by omega)
  · rw [h.turbidity]
    exact finite_centi (by omega)
  · rw [h.conductivity]
    exact Single.finite_ofInt (by omega)

/-- The numbers of a message, in the order of its members. -/
def numbers (ms : Members) : List (Option ℚ) := Receiver.uploaderFields.tail.map (number ms)

theorem numbers_lineMembers (cps : List ℕ) (sample : WaterSample) :
    numbers (lineMembers cps sample) =
      (fields sample).map fun f => some (numeralValue f.2) := by
  simp only [numbers, Receiver.uploaderFields, List.tail_cons, List.map_cons, List.map_nil, fields]
  rfl

theorem numeralValue_fixed2_real (h : x.natAbs < 2 ^ 16) :
    numeralValue (codes (fixed2 (Store.real (centi x)))) = x / 100 := by
  rw [real_centi h, fixed2_centi h, Receiver.numeralValue_hundredths]

/-- A status word or a sequence number, through its column and the text. -/
theorem numeralValue_word (word : UInt) : numeralValue (codes (Uploader.decimal
    (BitVec.ofInt 32 (Store.columnInt word.toInt)).toNat)) = word.toNat := by
  rw [Uploader.ofInt_columnInt, Receiver.numeralValue_decimal]

/-- **What a poll tells**: the time, the readings in hundredths, the
conductivity, the status words and the sequence number. -/
def pollNumbers (now : LongLong) (reg : ℕ → UShort) : List ℚ :=
  [now.toInt, (reg 0).toNat / 100, (reg 1).toInt / 100, (reg 2).toNat / 100, (reg 3).toNat,
    (reg 4).toNat, ((reg 5).setWidth 32 ||| regAlarm reg : UInt).toNat, (reg 6).toNat]

/-- **The numbers of a polled sample**, stored and sent. -/
theorem numbers_stored {now : LongLong} {reg : ℕ → UShort} {sample : WaterSample} (cps : List ℕ)
    (h : Polled now reg sample) :
    numbers (lineMembers cps (stored cfg sample)) = (pollNumbers now reg).map some := by
  have habs := natAbs_toInt_lt (reg 1)
  have hmask : processorComputeAlarm sample (pipelineConfig cfg).thresholds = regAlarm reg :=
    processorComputeAlarm_of_regs h.ph h.temperature h.turbidity h.conductivity
  have hwide : ∀ r : UShort, (r.setWidth 32 : UInt).toNat = r.toNat := fun r => by
    rw [BitVec.toNat_setWidth, Nat.mod_eq_of_lt (by omega)]
  rw [numbers_lineMembers]
  simp only [fields, stored, Uploader.sampleOf, Pipeline.rowOf, Store.recordOf, List.map_cons,
    List.map_nil, pollNumbers, numeralValue_word, hmask, h.timestampMs, h.ph, h.temperature,
    h.turbidity, h.conductivity, h.sensorStatus, h.alarmStatus, h.sequence, BitVec.ofInt_toInt,
    Receiver.numeralValue_signedDecimal, hwide]
  rw [numeralValue_fixed2_real (by omega), numeralValue_fixed2_real (by omega),
    numeralValue_fixed2_real (by omega), real_ofInt (by omega), toInt_ofInt (by omega)]
  simp only [Int.cast_natCast]

/-- **The server reads the registers**: whatever the seven registers and
the time are, the line that is made of them, stored, read back, sent and
decoded, is a message with the registers' own numbers, and the alarm bits
that the registers give. -/
theorem server_reads_registers {cps : List ℕ} {regs : List UShort} (lax : Bool)
    (hdevice : CleanDevice cfg.deviceId cps) (now : LongLong) (sample : WaterSample)
    (h : 7 ≤ regs.length) :
    ∃ polled ms, sampleFromModbusRegs now sample regs 7 = some polled ∧
      messageOf lax (wire cfg polled).dropLast = some ms ∧
      numbers ms = (pollNumbers now fun i => regs.getD i 0).map some := by
  obtain ⟨polled, hsample, hpolled⟩ := exists_polled h now sample
  refine ⟨polled, lineMembers cps (stored cfg polled), hsample, ?_, numbers_stored cps hpolled⟩
  rw [dropLast_wire]
  exact Receiver.messageOf_lineBody hdevice (finiteReadings_stored hpolled.finiteReadings)

/-- pH 6.49, -1.5 degrees, 5.00 NTU and 2001 microsiemens. -/
theorem server_reads_registers_alarms :
    ∃ polled ms, sampleFromModbusRegs 5 default [649, -150, 500, 2001, 0, 0, 7] 7 = some polled ∧
      messageOf false (wire Config.configSetDefault polled).dropLast = some ms ∧
      numbers ms = [some 5, some (649 / 100), some (-150 / 100), some (500 / 100), some 2001,
        some 0, some 9, some 7] := by
  have hseven : 7 ≤ ([649, -150, 500, 2001, 0, 0, 7] : List UShort).length := by decide
  obtain ⟨polled, ms, hpolled, hms, hnumbers⟩ :=
    server_reads_registers false cleanDevice_default 5 default hseven
  refine ⟨polled, ms, hpolled, hms, hnumbers.trans ?_⟩
  decide +kernel

end Gateway

end WaterGateway
