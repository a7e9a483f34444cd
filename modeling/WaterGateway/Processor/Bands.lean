import WaterGateway.Processor.Debounce

/-!
# Readings out of their bands

A threshold set gives every reading a band: the pH and the temperature
between two bounds, turbidity and conductivity below one. The alarm bits
of a sample are to be zero exactly if all four readings are in their bands.
`processor_compute_alarm` compares with five of the six bounds: `temp_min`
is set and never read, so a sample that is too cold and otherwise in its
bands passes for normal (`bandsSeen_iff`). A bound that is a NaN is never
exceeded either.
-/

namespace WaterGateway

/-- `a <= b` on floats, false where either is a NaN. -/
def Single.le (a b : Single) : Bool := !a.isNaN && !b.isNaN && decide (a.units ≤ b.units)

/-- Away from the NaNs the comparisons are those of a linear order. -/
theorem Single.le_iff_not_lt {a b : Single} (ha : a.isNaN = false) (hb : b.isNaN = false) :
    a.le b = true ↔ ¬ b.lt a = true := by
  simp [Single.le, Single.lt, ha, hb]

theorem Single.isNaN_of_finite {a : Single} (h : a.finite = true) : a.isNaN = false := by
  simp only [Single.finite, Bool.and_eq_true, Bool.not_eq_true'] at h
  exact h.1

theorem Single.not_isNaN_of_le {a b : Single} (h : a.le b = true) :
    a.isNaN = false ∧ b.isNaN = false := by
  simp only [Single.le, Bool.and_eq_true, Bool.not_eq_true'] at h
  exact h.1

/-- No threshold is a NaN, so each compares with every reading. -/
structure Threshold.Ordered (th : Threshold) : Prop where
  phMin : th.phMin.isNaN = false
  phMax : th.phMax.isNaN = false
  tempMin : th.tempMin.isNaN = false
  tempMax : th.tempMax.isNaN = false
  turbMax : th.turbMax.isNaN = false
  condMax : th.condMax.isNaN = false

namespace Processor

/-- **All four readings in their bands.** -/
structure InBands (th : Threshold) (sample : WaterSample) : Prop where
  ph_min : th.phMin.le sample.ph = true
  ph_max : sample.ph.le th.phMax = true
  temp_min : th.tempMin.le sample.temperature = true
  temp_max : sample.temperature.le th.tempMax = true
  turb_max : sample.turbidity.le th.turbMax = true
  cond_max : sample.conductivity.le th.condMax = true

/-- A comparison of `processor_compute_alarm` holds. -/
def Exceeds (th : Threshold) (sample : WaterSample) : Prop :=
  sample.ph.lt th.phMin ∨ th.phMax.lt sample.ph ∨ th.tempMax.lt sample.temperature ∨
    th.turbMax.lt sample.turbidity ∨ th.condMax.lt sample.conductivity

/-- **What is stored of a sample.** The local mask goes into its alarm bits
and changes nothing else; the mask is zero if and only if all readings are
in their bands; so a reading out of its band is stored with an alarm bit,
and counts for the debounce. -/
structure BandsSeen (th : Threshold) (sample : WaterSample) : Prop where
  row : process th sample =
    { sample with alarmStatus := sample.alarmStatus ||| processorComputeAlarm sample th }
  mask : processorComputeAlarm sample th = 0 ↔ InBands th sample
  stored : ¬ InBands th sample → (process th sample).alarmStatus ≠ 0
  counted : ¬ InBands th sample → alarming th sample = true

variable {th : Threshold} {sample : WaterSample}

/-- **The mask is zero** if and only if none of the five comparisons
holds. -/
theorem processorComputeAlarm_eq_zero_iff :
    processorComputeAlarm sample th = 0 ↔ ¬ Exceeds th sample := by
  unfold processorComputeAlarm Exceeds
  cases sample.ph.lt th.phMin <;> cases th.phMax.lt sample.ph <;>
    cases th.tempMax.lt sample.temperature <;> cases th.turbMax.lt sample.turbidity <;>
    cases th.condMax.lt sample.conductivity <;> decide

/-- In its bands is what has bounds, exceeds none and is not too cold. -/
theorem inBands_iff (hs : sample.FiniteReadings) :
    InBands th sample ↔
      th.Ordered ∧ ¬ Exceeds th sample ∧ th.tempMin.le sample.temperature = true := by
  have hordered : InBands th sample → th.Ordered := fun h =>
    ⟨(Single.not_isNaN_of_le h.ph_min).1, (Single.not_isNaN_of_le h.ph_max).2,
      (Single.not_isNaN_of_le h.temp_min).1, (Single.not_isNaN_of_le h.temp_max).2,
      (Single.not_isNaN_of_le h.turb_max).2, (Single.not_isNaN_of_le h.cond_max).2⟩
  rw [← and_iff_right_of_imp hordered]
  refine and_congr_right fun hth => ?_
  rw [Exceeds, not_or, not_or, not_or, not_or,
    ← Single.le_iff_not_lt hth.phMin (Single.isNaN_of_finite hs.ph),
    ← Single.le_iff_not_lt (Single.isNaN_of_finite hs.ph) hth.phMax,
    ← Single.le_iff_not_lt (Single.isNaN_of_finite hs.temperature) hth.tempMax,
    ← Single.le_iff_not_lt (Single.isNaN_of_finite hs.turbidity) hth.turbMax,
    ← Single.le_iff_not_lt (Single.isNaN_of_finite hs.conductivity) hth.condMax]
  constructor
  · intro h
    exact ⟨⟨h.ph_min, h.ph_max, h.temp_max, h.turb_max, h.cond_max⟩, h.temp_min⟩
  · rintro ⟨⟨hphMin, hphMax, htempMax, hturb, hcond⟩, htempMin⟩
    exact ⟨hphMin, hphMax, htempMin, htempMax, hturb, hcond⟩

/-- A mask with a bit leaves a bit. -/
theorem or_ne_zero {a mask : UInt} (h : mask ≠ 0) : a ||| mask ≠ 0 := fun hzero =>
  h (BitVec.or_eq_zero_iff.1 hzero).2

/-- **No reading out of its band is stored as normal**, if and only if the
sample is caught by one of the five comparisons, or is not too cold where
every bound is a number. -/
theorem bandsSeen_iff (hs : sample.FiniteReadings) :
    BandsSeen th sample ↔
      Exceeds th sample ∨ (th.Ordered ∧ th.tempMin.le sample.temperature = true) := by
  constructor
  · intro h
    by_cases hex : Exceeds th sample
    · exact Or.inl hex
    · have hin : InBands th sample := h.mask.1 (processorComputeAlarm_eq_zero_iff.2 hex)
      obtain ⟨hth, -, htempMin⟩ := (inBands_iff hs).1 hin
      exact Or.inr ⟨hth, htempMin⟩
  · intro h
    have hmask : processorComputeAlarm sample th = 0 ↔ InBands th sample := by
      rw [processorComputeAlarm_eq_zero_iff, inBands_iff hs]
      constructor
      · intro hex
        obtain ⟨hth, htempMin⟩ := h.resolve_left hex
        exact ⟨hth, hex, htempMin⟩
      · intro hin
        exact hin.2.1
    refine ⟨process_eq th sample, hmask, fun hout => ?_, fun hout => ?_⟩
    · rw [process_eq]
      exact or_ne_zero fun hzero => hout (hmask.1 hzero)
    · exact bne_iff_ne.2 fun hzero => hout (hmask.1 hzero)

/-- pH 7, −5 °C, 1 NTU and 500 µS/cm. -/
def coldSample : WaterSample :=
  ⟨0, ⟨0x40E00000⟩, ⟨0xC0A00000⟩, ⟨0x3F800000⟩, ⟨0x43FA0000⟩, 0, 0, 1⟩

/-- With the defaults it is below `temp_min`, and stored as normal. -/
theorem bandsSeen_cold :
    Single.lt coldSample.temperature processorThresholdDefault.tempMin = true ∧
      (process processorThresholdDefault coldSample).alarmStatus = 0 ∧
      alarming processorThresholdDefault coldSample = false ∧
      ¬ BandsSeen processorThresholdDefault coldSample := by
  have hmin : processorThresholdDefault.tempMin.le coldSample.temperature = false := by decide
  refine ⟨by decide, by decide, by decide, fun h => ?_⟩
  have hout : ¬ InBands processorThresholdDefault coldSample := fun hin => by
    have := hmin.symm.trans hin.temp_min
    exact Bool.false_ne_true this
  exact h.stored hout (by decide)

theorem bandsSeen_iff_cold :
    coldSample.FiniteReadings ∧
      (BandsSeen processorThresholdDefault coldSample ↔
        Exceeds processorThresholdDefault coldSample ∨
          (processorThresholdDefault.Ordered ∧
            processorThresholdDefault.tempMin.le coldSample.temperature = true)) := by
  have hs : coldSample.FiniteReadings := ⟨by decide, by decide, by decide, by decide⟩
  exact ⟨hs, bandsSeen_iff hs⟩

end Processor

end WaterGateway
