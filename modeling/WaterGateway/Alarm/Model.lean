import WaterGateway.Common.Word

/-!
# The alarm LED

`alarm_client.c` and the character device `newchrled.c` behind it. The LED
hangs on bit 3 of the data register of GPIO1 and is lit while that bit is
clear. A write to the device is accepted, and then switches the LED, or
refused.
-/

namespace WaterGateway

namespace Alarm

/-- `LEDOFF`. -/
def ledOff : UChar := 0

/-- `LEDON`. -/
def ledOn : UChar := 1

/-- `led_switch`, on the register `GPIO1_DR`. -/
def ledSwitch (gpio1Dr : UInt) (sta : UChar) : UInt :=
  if sta = ledOn then gpio1Dr &&& ~~~((1 : UInt) <<< 3)
  else if sta = ledOff then gpio1Dr ||| ((1 : UInt) <<< 3)
  else gpio1Dr

/-- `led_write`: its result and the register it leaves. `databuf` is the
byte copied from the caller, or nothing if the copy fails. -/
def ledWrite (gpio1Dr : UInt) (databuf : Option UChar) : ℤ × UInt :=
  match databuf with
  -- `-EFAULT`
  | none => (-14, gpio1Dr)
  | some ledstat => (0, ledSwitch gpio1Dr ledstat)

/-- `alarm_client_set`. The device accepts the write or refuses it, and
nothing is returned of that. -/
def alarmClientSet (fd : ℤ) (on accepts : Bool) (gpio1Dr : UInt) : UInt :=
  if fd < 0 then gpio1Dr
  else
    let cmd := if on then ledOn else ledOff
    (ledWrite gpio1Dr (if accepts then some cmd else none)).2

/-- The LED is lit. -/
def Lit (gpio1Dr : UInt) : Prop := gpio1Dr.getLsbD 3 = false

instance (gpio1Dr : UInt) : Decidable (Lit gpio1Dr) := inferInstanceAs (Decidable (_ = _))

variable {gpio1Dr : UInt} {fd : ℤ}

/-- Switched on or off, the LED is. -/
theorem lit_ledSwitch (on : Bool) :
    Lit (ledSwitch gpio1Dr (if on then ledOn else ledOff)) ↔ on = true := by
  have hoff : ¬ ledOff = ledOn := by decide
  cases on
  · rw [if_neg Bool.false_ne_true, ledSwitch, if_neg hoff, if_pos rfl, Lit, BitVec.getLsbD_or]
    simp
  · rw [if_pos rfl, ledSwitch, if_pos rfl, Lit, BitVec.getLsbD_and]
    simp

/-- **A call on an open device**: an accepted write leaves the LED as
told, a refused one as it was. -/
theorem lit_alarmClientSet (hfd : 0 ≤ fd) (on accepts : Bool) :
    Lit (alarmClientSet fd on accepts gpio1Dr) ↔
      if accepts then on = true else Lit gpio1Dr := by
  rw [alarmClientSet, if_neg (by omega)]
  cases accepts
  · exact Iff.rfl
  · exact lit_ledSwitch on

end Alarm

end WaterGateway
