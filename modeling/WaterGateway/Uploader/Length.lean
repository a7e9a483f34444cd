import Mathlib.Data.Nat.Digits.Defs
import WaterGateway.Uploader.Json

/-!
# The length of a line

Each number of a line is printed in so many bytes: the longest are the
readings, whose integral part is below `2 ^ 128`. So a line is longer than
its device by 318 bytes at most, and fits its buffer.
-/

namespace WaterGateway

namespace Uploader

variable {deviceId : List UChar} {n e : ℕ} {x : Single}

theorem length_decimal_le (he : 0 < e) (h : n < 10 ^ e) : (decimal n).length ≤ e := by
  rw [decimal, List.length_map]
  exact Nat.toDigits_length 10 n e he h

theorem length_signedDecimal_le {x : ℤ} (he : 0 < e) (h : x.natAbs < 10 ^ e) :
    (signedDecimal x).length ≤ e + 1 := by
  have hle := length_decimal_le he h
  have hminus : (bytes "-").length = 1 := by decide
  unfold signedDecimal
  split
  · rw [List.length_append]
    omega
  · omega

/-- A finite magnitude is below `2 ^ 128`, in units of `2 ^ -149`. -/
theorem mag_lt (hinf : x.isInf = false) (hnan : x.isNaN = false) : x.mag < 2 ^ 24 * 2 ^ 253 := by
  have hfrac : x.fracField < 2 ^ 23 := Nat.mod_lt _ (by decide)
  have hexp : x.expField ≤ 254 := by
    have hlt : x.expField < 256 := Nat.mod_lt _ (by decide)
    have hne : x.expField ≠ 255 := by
      intro heq
      simp [Single.isInf, heq] at hinf
      simp [Single.isNaN, heq, hinf] at hnan
    omega
  unfold Single.mag
  split
  · omega
  · calc (2 ^ 23 + x.fracField) * 2 ^ (x.expField - 1)
        < 2 ^ 24 * 2 ^ (x.expField - 1) :=
          Nat.mul_lt_mul_of_pos_right (by omega) (Nat.two_pow_pos _)
      _ ≤ 2 ^ 24 * 2 ^ 253 :=
          Nat.mul_le_mul_left _ (Nat.pow_le_pow_right (by decide) (by omega))

theorem length_magnitude2_le (x : Single) : (magnitude2 x).length ≤ 42 := by
  unfold magnitude2
  split
  · decide
  split
  · decide
  · next hnan hinf =>
    have hmag := mag_lt (Bool.eq_false_iff.2 hinf) (Bool.eq_false_iff.2 hnan)
    have hpoint : (bytes ".").length = 1 := by decide
    have hround : Rounding.nearest (x.mag * 100) (2 ^ 149) / 100 < 10 ^ 39 := by
      have hle := Rounding.nearest_le_succ (x.mag * 100) (2 ^ 149)
      have hdiv : x.mag * 100 / 2 ^ 149 < 2 ^ 128 * 100 := by
        refine Nat.div_lt_of_lt_mul ?_
        omega
      have hbig : 2 ^ 128 < 10 ^ 39 := by decide
      omega
    have hint := length_decimal_le (by decide) hround
    have htens := length_decimal_le (n := Rounding.nearest (x.mag * 100) (2 ^ 149) % 100 / 10) (e := 1)
      (by decide) (by omega)
    have hones := length_decimal_le (n := Rounding.nearest (x.mag * 100) (2 ^ 149) % 10) (e := 1)
      (by decide) (by omega)
    simp only [List.length_append]
    omega

theorem length_fixed2_le (x : Single) : (fixed2 x).length ≤ 43 := by
  have hle := length_magnitude2_le x
  have hminus : (bytes "-").length = 1 := by decide
  unfold fixed2
  split
  · rw [List.length_append]
    omega
  · omega

theorem natAbs_toInt_lt (x : Single) : (toInt x).natAbs < 10 ^ 10 := by
  unfold toInt
  split
  · decide
  · dsimp only
    split <;> omega

/-- **The members of a line**, with any sample. -/
theorem length_members_le (sample : WaterSample) : (members sample).length ≤ 303 := by
  have htexts : (bytes "\",\"timestamp_ms\":").length = 17 ∧ (bytes ",\"ph\":").length = 6 ∧
      (bytes ",\"temperature\":").length = 15 ∧ (bytes ",\"turbidity\":").length = 13 ∧
      (bytes ",\"conductivity\":").length = 16 ∧ (bytes ",\"sensor_status\":").length = 17 ∧
      (bytes ",\"alarm_status\":").length = 16 ∧ (bytes ",\"sequence\":").length = 12 ∧
      (bytes "\x7d").length = 1 := by decide +kernel
  have htime : (signedDecimal sample.timestampMs.toInt).length ≤ 20 := by
    refine length_signedDecimal_le (e := 19) (by decide) ?_
    have hlow := BitVec.le_toInt sample.timestampMs
    have hhigh := BitVec.toInt_lt (x := sample.timestampMs)
    omega
  have hword : ∀ word : UInt, (decimal word.toNat).length ≤ 10 := fun word =>
    length_decimal_le (by decide) (Nat.lt_trans word.isLt (by decide))
  have hph := length_fixed2_le sample.ph
  have htemperature := length_fixed2_le sample.temperature
  have hturbidity := length_fixed2_le sample.turbidity
  have hconductivity := length_signedDecimal_le (by decide) (natAbs_toInt_lt sample.conductivity)
  have hsensor := hword sample.sensorStatus
  have halarm := hword sample.alarmStatus
  have hsequence := hword sample.sequence
  simp only [members, List.length_append]
  omega

/-- **The length of a line**, with any sample. -/
theorem length_uploaderBuildJson_le (deviceId : List UChar) (sample : WaterSample) :
    (uploaderBuildJson deviceId sample).length ≤ deviceId.length + 318 := by
  have hopen : (bytes "\x7b\"device_id\":\"").length = 14 := by decide +kernel
  have hmembers := length_members_le sample
  simp only [uploaderBuildJson, List.length_append, List.length_singleton]
  omega

/-- **The line of a device of 63 bytes fits its buffer.** -/
theorem length_lt_jsonSize (h : deviceId.length ≤ 63) (sample : WaterSample) :
    (uploaderBuildJson deviceId sample).length < jsonSize := by
  have hle := length_uploaderBuildJson_le deviceId sample
  have hsize : jsonSize = 512 := rfl
  omega

end Uploader

end WaterGateway
