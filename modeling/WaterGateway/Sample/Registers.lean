import WaterGateway.Sample.Float

/-!
# Where samples come from

`sample.c`, less the clock and the text of a sample: a sample made of the
seven registers of the sensor, and the mock sample in its place. The
sensor counts pH, temperature and turbidity in hundredths.

The readings of a register are off by a part in `2 ^ 24` and less than the
constant `0.01f` is, so they are the register in hundredths when they are
printed (`hundredths_centi`), and lie on the side of a bound on which the
register lies (`lt_centi_iff`).
-/

namespace WaterGateway

namespace Sample

open Single (ofInt)

/-- `0.01f`. -/
def hundredth : Single := ⟨0x3C23D70A⟩

/-- `(float)x * 0.01f`. -/
def centi (x : ℤ) : Single := (ofInt x).mul hundredth

/-- `sample_from_modbus_regs`, at the time `now`. -/
def sampleFromModbusRegs (now : LongLong) (sample : WaterSample) (regs : List UShort)
    (regCount : ℤ) : Option WaterSample :=
  if regCount < 7 then some sample
  else do
    let r0 ← load regs 0
    let r1 ← load regs 1
    let r2 ← load regs 2
    let r3 ← load regs 3
    let r4 ← load regs 4
    let r5 ← load regs 5
    let r6 ← load regs 6
    some {
      timestampMs := now
      ph := centi r0.toNat
      temperature := centi r1.toInt
      turbidity := centi r2.toNat
      conductivity := ofInt r3.toNat
      sensorStatus := r4.setWidth 32
      alarmStatus := r5.setWidth 32
      sequence := r6.setWidth 32 }

/-- `base + (float)k * 0.01f`, contracted by the compiler or not. -/
def drift (fused : Bool) (base : Single) (k : ℕ) : Single :=
  if fused then base.fma (ofInt k) hundredth else base.add (centi k)

/-- `sample_generate_mock`, at the time `now`: the sample, and
`g_mock_sequence`. -/
def sampleGenerateMock (fused : Bool) (now : LongLong) (gMockSequence : UInt) :
    WaterSample × UInt :=
  let seq := gMockSequence + 1
  ({ timestampMs := now
     -- 7, 25, 3 and 800
     ph := drift fused ⟨0x40E00000⟩ (seq.toNat % 20)
     temperature := drift fused ⟨0x41C80000⟩ (seq.toNat % 50)
     turbidity := drift fused ⟨0x40400000⟩ (seq.toNat % 30)
     conductivity := Single.add ⟨0x44480000⟩ (ofInt (seq.toNat % 40 : ℕ))
     sensorStatus := 0
     alarmStatus := 0
     sequence := seq }, seq)

/-! ## The readings of a register -/

variable {x y : ℤ}

/-- The magnitude of `0.01f`. -/
theorem mag_hundredth : hundredth.mag = 10737418 * 2 ^ 119 := by decide +kernel

theorem neg_centi (x : ℤ) : (centi x).neg = decide (x < 0) := by
  have hpos : hundredth.neg = false := by decide
  rw [centi, Single.mul, Single.neg_ofRatio, Single.neg_ofInt, hpos, Bool.xor_false]

/-- The product before it is rounded. -/
theorem product_le (h : x.natAbs < 2 ^ 24) :
    (ofInt x).mag * hundredth.mag ≤ 2 ^ 250 * 2 ^ 149 := by
  rw [Single.mag_ofInt h, mag_hundredth]
  omega

theorem mag_centi (h : x.natAbs < 2 ^ 24) : (centi x).mag =
    Rounding.value 23 (Rounding.code 23 (x.natAbs * 2 ^ 149 * hundredth.mag) (2 ^ 149)) := by
  rw [centi, Single.mul, Single.mag_ofRatio (Nat.two_pow_pos _) (product_le h),
    Single.mag_ofInt h]

theorem finite_centi (h : x.natAbs < 2 ^ 24) : (centi x).finite = true :=
  Single.finite_ofRatio (Nat.two_pow_pos _) (product_le h)

/-- **A reading is ordered as its register is.** -/
theorem mag_centi_mono (hy : y.natAbs < 2 ^ 24) (h : x.natAbs ≤ y.natAbs) :
    (centi x).mag ≤ (centi y).mag := by
  rw [mag_centi hy, mag_centi (by omega)]
  exact Rounding.value_mono (Rounding.code_mono (Nat.two_pow_pos _)
    (Nat.mul_le_mul_right _ (Nat.mul_le_mul_right _ h)))

/-- **A reading is its register in hundredths**, as far as two decimals
tell. -/
theorem hundredths_centi (h : x.natAbs < 2 ^ 16) :
    Rounding.nearest ((centi x).mag * 100) (2 ^ 149) = x.natAbs := by
  obtain ⟨hlo, hhi⟩ := Rounding.code_error (d := 2 ^ 149) (Nat.two_pow_pos _) 23
    (x.natAbs * 2 ^ 149 * hundredth.mag)
  rw [← mag_centi (by omega), mag_hundredth] at hlo hhi
  exact Rounding.nearest_eq (by omega) (by omega)

/-- A reading that is not negative lies below a bound exactly where its
register does, if the readings on both sides of the bound do. -/
theorem centi_lt_iff {k : ℕ} {b : Single} (hb : b.finite = true) (hpos : b.neg = false)
    (hk : k + 1 < 2 ^ 24) (hbelow : (centi k).mag < b.mag) (habove : b.mag ≤ (centi (k + 1)).mag)
    (hx : x.natAbs < 2 ^ 24) (hnonneg : 0 ≤ x) : (centi x).lt b = true ↔ x ≤ k := by
  rw [Single.lt_of_finite (finite_centi hx) hb, decide_eq_true_iff, Single.units, Single.units,
    neg_centi, hpos, decide_eq_false (by omega), if_neg Bool.false_ne_true,
    if_neg Bool.false_ne_true]
  constructor
  · intro hlt
    by_contra hgt
    have hmono := mag_centi_mono (x := (k : ℤ) + 1) hx (by omega)
    omega
  · intro hle
    have hmono := mag_centi_mono (x := x) (y := (k : ℤ)) (by omega) (by omega)
    omega

/-- A reading lies above a bound exactly where its register does. -/
theorem lt_centi_iff {k : ℕ} {b : Single} (hb : b.finite = true) (hpos : b.neg = false)
    (hk : k + 1 < 2 ^ 24) (hbelow : (centi k).mag ≤ b.mag) (habove : b.mag < (centi (k + 1)).mag)
    (hx : x.natAbs < 2 ^ 24) : b.lt (centi x) = true ↔ (k : ℤ) < x := by
  rw [Single.lt_of_finite hb (finite_centi hx), decide_eq_true_iff, Single.units, Single.units,
    neg_centi, hpos, if_neg Bool.false_ne_true]
  by_cases hneg : x < 0
  · rw [if_pos (decide_eq_true hneg)]
    omega
  · rw [if_neg (by simpa using hneg)]
    constructor
    · intro hlt
      by_contra hle
      have hmono := mag_centi_mono (x := x) (y := (k : ℤ)) (by omega) (by omega)
      omega
    · intro hlt
      have hmono := mag_centi_mono (x := (k : ℤ) + 1) hx (by omega)
      omega

end Sample

end WaterGateway
