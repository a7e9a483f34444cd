import WaterGateway.Common.Word
import Mathlib.Algebra.Order.Ring.Int

/-!
# Samples

`water_sample_t`, with its readings as IEEE singles given by their bits.
A single that is not a NaN is an integer number of units of `2 ^ -149`, the
least positive single, and is compared as that integer; the infinities
come out above every finite value.
-/

namespace WaterGateway

/-- An IEEE single, by its bits. -/
structure Single where
  bits : BitVec 32
  deriving DecidableEq, Inhabited

namespace Single

/-- The sign bit. -/
def neg (x : Single) : Bool := x.bits.msb

/-- The exponent field. -/
def expField (x : Single) : ℕ := x.bits.toNat / 2 ^ 23 % 256

/-- The fraction field. -/
def fracField (x : Single) : ℕ := x.bits.toNat % 2 ^ 23

def isNaN (x : Single) : Bool := x.expField = 255 ∧ x.fracField ≠ 0

def isInf (x : Single) : Bool := x.expField = 255 ∧ x.fracField = 0

/-- Neither a NaN nor an infinity. -/
def finite (x : Single) : Bool := !x.isNaN && !x.isInf

/-- The magnitude, in units of `2 ^ -149`. -/
def mag (x : Single) : ℕ :=
  if x.expField = 0 then x.fracField else (2 ^ 23 + x.fracField) * 2 ^ (x.expField - 1)

/-- The signed value, in units of `2 ^ -149`. -/
def units (x : Single) : ℤ := if x.neg then -(x.mag : ℤ) else x.mag

/-- `a < b` on floats, false where either is a NaN. -/
def lt (a b : Single) : Bool := !a.isNaN && !b.isNaN && decide (a.units < b.units)

end Single

/-- `water_sample_t`. -/
structure WaterSample where
  timestampMs : LongLong
  ph : Single
  temperature : Single
  turbidity : Single
  conductivity : Single
  sensorStatus : UInt
  alarmStatus : UInt
  sequence : UInt
  deriving DecidableEq, Inhabited

/-- The readings are neither NaNs nor infinities. -/
structure WaterSample.FiniteReadings (sample : WaterSample) : Prop where
  ph : sample.ph.finite = true
  temperature : sample.temperature.finite = true
  turbidity : sample.turbidity.finite = true
  conductivity : sample.conductivity.finite = true

/-- 7.0 lies between the default pH bounds 6.5 and 8.5. -/
example : Single.lt ⟨0x40D00000⟩ ⟨0x40E00000⟩ ∧ Single.lt ⟨0x40E00000⟩ ⟨0x41080000⟩ := by decide

end WaterGateway
