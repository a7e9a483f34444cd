import WaterGateway.Common.Crc
import WaterGateway.Modbus.Detect

/-!
# The checksum is the reference one

`modbus_crc16` is the remainder of a polynomial division
(`modbusCrc16_reference`): its register holds the remainder of the message
times `x ^ 16`, plus the initial ones in front of it, by
`x ^ 16 + x ^ 15 + x ^ 2 + 1`, with the highest power in the lowest bit. So
the two bytes of the checksum are the only ones that bring it to zero.
-/

namespace WaterGateway

namespace Modbus

open Lfsr Polynomial

variable {buf : List UChar}

theorem toPoly_crcPoly : toPoly crcPoly = (X ^ 15 + X ^ 2 + 1 : (ZMod 2)[X]) := by
  have hbits : ∀ n < 16, bit (crcPoly.getLsbD (16 - 1 - n)) =
      (if n = 15 then 1 else 0) + (if n = 2 then 1 else 0) + if n = 0 then 1 else 0 := by
    decide
  ext n
  rw [coeff_toPoly]
  simp only [coeff_add, coeff_X_pow, coeff_one]
  by_cases hn : n < 16
  · rw [if_pos hn, hbits n hn]
  · rw [if_neg hn, if_neg (by omega), if_neg (by omega), if_neg (by omega)]
    rfl

/-- The generator 0x8005, which is 0xA001 reflected. -/
theorem gen_crcPoly : gen crcPoly = (X ^ 16 + X ^ 15 + X ^ 2 + 1 : (ZMod 2)[X]) := by
  rw [gen, toPoly_crcPoly]
  ring

/-- The register starts with ones. -/
theorem toPoly_ones : toPoly (0xFFFF : UShort) = ∑ i ∈ Finset.range 16, (X ^ i : (ZMod 2)[X]) := by
  have hbits : ∀ i < 16, (0xFFFF : UShort).getLsbD (16 - 1 - i) = true := by decide
  rw [toPoly]
  refine Finset.sum_congr rfl fun i hi => ?_
  rw [hbits i (Finset.mem_range.1 hi), ← monomial_one_right_eq_X_pow]
  rfl

theorem modbusCrc16_eq_feed (h : buf ≠ []) :
    modbusCrc16 buf = feed crcPoly 0xFFFF (frameBits buf) := by
  rw [modbusCrc16, if_neg fun h0 => h (List.length_eq_zero_iff.1 h0), foldl_crcByte]

/-- **Two bytes more** bring the register to zero if and only if they are
what it holds. -/
theorem modbusCrc16_append_eq_zero_iff (h : buf ≠ []) (a b : UChar) :
    modbusCrc16 (buf ++ [a, b]) = 0 ↔
      a = lowByte (modbusCrc16 buf) ∧ b = highByte (modbusCrc16 buf) := by
  have hlen : (frameBits [a, b]).length = 16 := length_frameBits _
  have happend : frameBits (buf ++ [a, b]) = frameBits buf ++ frameBits [a, b] :=
    List.flatMap_append
  have hzero : modbusCrc16 (buf ++ [a, b]) = 0 ↔ modbusCrc16 buf = joinBytes b a := by
    rw [modbusCrc16_eq_feed (by simp), happend, feed_append, ← modbusCrc16_eq_feed h,
      feed_eq_iterate hlen.le, word_frameBits_two]
    exact (iterate_shift_eq_zero_iff msb_crcPoly _).trans BitVec.xor_eq_zero_iff
  rw [hzero]
  constructor
  · intro heq
    rw [heq, lowByte_joinBytes, highByte_joinBytes]
    exact ⟨rfl, rfl⟩
  · rintro ⟨rfl, rfl⟩
    exact (joinBytes_highByte_lowByte _).symm

/-- **The reference checksum**: for every message that is not empty the
register, read from its low end down, holds the remainder of the division;
and the low and then the high byte of it are the two bytes that lead to
zero. -/
theorem modbusCrc16_reference (h : buf ≠ []) :
    toPoly (modbusCrc16 buf) =
        (messagePoly (frameBits buf) * X ^ 16 +
          (∑ i ∈ Finset.range 16, X ^ i) * X ^ (8 * buf.length)) %ₘ
            (X ^ 16 + X ^ 15 + X ^ 2 + 1) ∧
      (messagePoly (frameBits buf)).degree < (8 * buf.length : ℕ) ∧
      ∀ a b, modbusCrc16 (buf ++ [a, b]) = 0 ↔
        a = lowByte (modbusCrc16 buf) ∧ b = highByte (modbusCrc16 buf) := by
  have hlen : (frameBits buf).length = 8 * buf.length := by
    rw [length_frameBits, Nat.mul_comm]
  refine ⟨?_, hlen ▸ degree_messagePoly_lt _, modbusCrc16_append_eq_zero_iff h⟩
  rw [modbusCrc16_eq_feed h, toPoly_feed (by omega), gen_crcPoly, toPoly_ones, hlen, add_comm]

/-- The check value of the nine digits. -/
theorem modbusCrc16_reference_digits :
    bytes "123456789" ≠ [] ∧ modbusCrc16 (bytes "123456789") = 0x4B37 ∧
      toPoly (0x4B37 : UShort) =
        (messagePoly (frameBits (bytes "123456789")) * X ^ 16 +
          (∑ i ∈ Finset.range 16, X ^ i) * X ^ (8 * (bytes "123456789").length)) %ₘ
            (X ^ 16 + X ^ 15 + X ^ 2 + 1) := by
  have hne : bytes "123456789" ≠ [] := by decide
  have hcrc : modbusCrc16 (bytes "123456789") = 0x4B37 := by decide +kernel
  obtain ⟨hpoly, -, -⟩ := modbusCrc16_reference hne
  rw [hcrc] at hpoly
  exact ⟨hne, hcrc, hpoly⟩

/-- **A read request leaves the register at zero.** -/
theorem modbusCrc16_request {slaveAddr : UChar} {startAddr quantity : UShort} {bufSize : ℤ}
    {frame : List UChar}
    (h : modbusBuildReadRequest slaveAddr startAddr quantity bufSize = some frame) :
    modbusCrc16 frame = 0 := by
  unfold modbusBuildReadRequest at h
  split_ifs at h
  obtain rfl := Option.some.inj h
  exact (modbusCrc16_append_eq_zero_iff (by simp) _ _).2 ⟨rfl, rfl⟩

end Modbus

end WaterGateway
