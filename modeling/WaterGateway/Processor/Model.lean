import WaterGateway.Sample.Model

/-!
# The processor

`processor.c`, less the loop of its thread: the alarm bits of a sample,
the debounced LED, and the sample that goes on to the store queue. The
counters of the debounce are C `int`s.
-/

namespace WaterGateway

/-- `processor_threshold_t`. -/
structure Threshold where
  phMin : Single
  phMax : Single
  tempMin : Single
  tempMax : Single
  turbMax : Single
  condMax : Single
  deriving DecidableEq

namespace Processor

/-- `ALARM_PH_LOW`. -/
def alarmPhLow : UInt := 1 <<< 0

/-- `ALARM_PH_HIGH`. -/
def alarmPhHigh : UInt := 1 <<< 1

/-- `ALARM_TURB_HIGH`. -/
def alarmTurbHigh : UInt := 1 <<< 2

/-- `ALARM_COND_HIGH`. -/
def alarmCondHigh : UInt := 1 <<< 3

/-- `ALARM_TEMP_HIGH`. -/
def alarmTempHigh : UInt := 1 <<< 4

/-- `DEBOUNCE_ON_COUNT`. -/
def debounceOnCount : UInt := 3

/-- `DEBOUNCE_OFF_COUNT`. -/
def debounceOffCount : UInt := 2

/-- `processor_threshold_default`: 6.5, 8.5, 0, 45, 5 and 2000. -/
def processorThresholdDefault : Threshold where
  phMin := ⟨0x40D00000⟩
  phMax := ⟨0x41080000⟩
  tempMin := ⟨0⟩
  tempMax := ⟨0x42340000⟩
  turbMax := ⟨0x40A00000⟩
  condMax := ⟨0x44FA0000⟩

/-- `processor_compute_alarm`. -/
def processorComputeAlarm (sample : WaterSample) (th : Threshold) : UInt :=
  let alarm : UInt :=
    if sample.ph.lt th.phMin then alarmPhLow
    else if th.phMax.lt sample.ph then alarmPhHigh
    else 0
  let alarm := if th.tempMax.lt sample.temperature then alarm ||| alarmTempHigh else alarm
  let alarm := if th.turbMax.lt sample.turbidity then alarm ||| alarmTurbHigh else alarm
  if th.condMax.lt sample.conductivity then alarm ||| alarmCondHigh else alarm

/-- The locals of `processor_thread` that outlive a sample. -/
structure Debounce where
  ledOn : Bool
  alarmCnt : UInt
  clearCnt : UInt
  deriving DecidableEq

/-- Their initial values. -/
def Debounce.init : Debounce := ⟨false, 0, 0⟩

/-- What a sample with these alarm bits does to them, and the value of the
call of `alarm_client_set` it makes, if it makes one. -/
def debounce (d : Debounce) (alarm : UInt) : Debounce × Option Bool :=
  if alarm ≠ 0 then
    let d' := { d with alarmCnt := d.alarmCnt + 1, clearCnt := 0 }
    if !d'.ledOn && debounceOnCount.sle d'.alarmCnt then ({ d' with ledOn := true }, some true)
    else (d', none)
  else
    let d' := { d with clearCnt := d.clearCnt + 1, alarmCnt := 0 }
    if d'.ledOn && debounceOffCount.sle d'.clearCnt then ({ d' with ledOn := false }, some false)
    else (d', none)

/-- The sample `processor_thread` pushes on. -/
def process (th : Threshold) (sample : WaterSample) : WaterSample :=
  let alarm := processorComputeAlarm sample th
  if alarm ≠ 0 then { sample with alarmStatus := sample.alarmStatus ||| alarm } else sample

/-- It is the sample with the alarm bits added, whatever they are. -/
theorem process_eq (th : Threshold) (sample : WaterSample) :
    process th sample =
      { sample with alarmStatus := sample.alarmStatus ||| processorComputeAlarm sample th } := by
  simp only [process]
  split
  · rfl
  · next h =>
    have hzero : sample.alarmStatus ||| (0 : UInt) = sample.alarmStatus := BitVec.or_zero
    rw [not_not.1 h, hzero]

end Processor

end WaterGateway
