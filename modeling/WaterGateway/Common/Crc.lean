import Mathlib.Algebra.CharP.Two
import Mathlib.Algebra.Polynomial.Div
import WaterGateway.Common.Lfsr

/-!
# The shift register divides

A cyclic redundancy check is a division of polynomials over GF(2). The
register is read with its low end at the highest power (`toPoly`), the
message with its first bit there (`messagePoly`), and `poly` stands for the
generator less its leading term (`gen`). Then a shift is a multiplication by
`X` and a bit taken in an addition at the top, both modulo the generator
(`gen_dvd_feed`); as the register stays below the degree of the generator,
what a message leaves in it is the remainder (`toPoly_feed`).
-/

namespace WaterGateway

namespace Lfsr

open Polynomial

variable {w : ℕ} {poly a b c : BitVec w} {bs : List Bool} {n : ℕ}

/-- A register as a polynomial, the low bit at the highest power. -/
noncomputable def toPoly (c : BitVec w) : (ZMod 2)[X] :=
  ∑ i ∈ Finset.range w, monomial i (bit (c.getLsbD (w - 1 - i)))

/-- The generator a feedback stands for. -/
noncomputable def gen (poly : BitVec w) : (ZMod 2)[X] := X ^ w + toPoly poly

/-- A message as a polynomial, the first bit at the highest power. -/
noncomputable def messagePoly : List Bool → (ZMod 2)[X]
  | [] => 0
  | b :: bs => C (bit b) * X ^ bs.length + messagePoly bs

theorem coeff_toPoly (c : BitVec w) (n : ℕ) :
    (toPoly c).coeff n = if n < w then bit (c.getLsbD (w - 1 - n)) else 0 := by
  rw [toPoly, finsetSum_coeff]
  simp only [coeff_monomial, Finset.sum_ite_eq', Finset.mem_range]

theorem degree_toPoly_lt (c : BitVec w) : (toPoly c).degree < w := by
  rw [degree_lt_iff_coeff_zero]
  intro n hn
  rw [coeff_toPoly, if_neg (by omega)]

theorem toPoly_xor (a b : BitVec w) : toPoly (a ^^^ b) = toPoly a + toPoly b := by
  ext n
  simp only [coeff_add, coeff_toPoly, BitVec.getLsbD_xor, bit_xor]
  split_ifs <;> simp

theorem toPoly_unit (hw : 0 < w) (b : Bool) : toPoly (unit w b) = C (bit b) * X ^ (w - 1) := by
  ext n
  rw [coeff_toPoly, coeff_C_mul, coeff_X_pow, getLsbD_unit]
  by_cases hn : n = w - 1
  · subst hn
    simp [hw]
  · by_cases hlt : n < w
    · have hne : w - 1 - n ≠ 0 := by omega
      simp [hn, hne, bit]
    · simp [hn, hlt]

theorem monic_gen (poly : BitVec w) : (gen poly).Monic := monic_X_pow_add (degree_toPoly_lt poly)

theorem degree_gen (poly : BitVec w) : (gen poly).degree = w := by
  rw [gen, add_comm, degree_add_eq_right_of_degree_lt, degree_X_pow]
  rw [degree_X_pow]
  exact degree_toPoly_lt poly

theorem degree_messagePoly_lt (bs : List Bool) : (messagePoly bs).degree < bs.length := by
  induction bs with
  | nil => simp [messagePoly]
  | cons b bs ih =>
    rw [messagePoly, List.length_cons]
    have hlt : ((bs.length : ℕ) : WithBot ℕ) < ((bs.length + 1 : ℕ) : WithBot ℕ) := by
      exact_mod_cast Nat.lt_succ_self _
    refine lt_of_le_of_lt (degree_add_le _ _) (max_lt ?_ (ih.trans hlt))
    exact lt_of_le_of_lt (degree_C_mul_X_pow_le _ _) hlt

/-! ## One shift -/

/-- Shifted down, the register is multiplied by `X`, less the bit that has
fallen out. -/
theorem X_mul_toPoly (hw : 0 < w) (c : BitVec w) :
    X * toPoly c = C (bit (c.getLsbD 0)) * X ^ w + toPoly (c >>> 1) := by
  ext n
  rw [coeff_add, coeff_C_mul, coeff_X_pow, coeff_toPoly]
  cases n with
  | zero =>
    rw [coeff_X_mul_zero, if_neg (by omega), if_pos hw, BitVec.getLsbD_ushiftRight,
      BitVec.getLsbD_of_ge _ (1 + (w - 1 - 0)) (by omega)]
    simp [bit]
  | succ n =>
    rw [coeff_X_mul, coeff_toPoly, BitVec.getLsbD_ushiftRight]
    by_cases hn : n + 1 = w
    · subst hn
      simp
    · by_cases hlt : n < w
      · rw [if_pos hlt, if_neg hn, if_pos (by omega),
          show 1 + (w - 1 - (n + 1)) = w - 1 - n by omega]
        ring
      · rw [if_neg hlt, if_neg hn, if_neg (by omega)]
        ring

/-- **A shift is a multiplication by `X`**, less the generator where a one
falls out. -/
theorem toPoly_shift (hw : 0 < w) (poly c : BitVec w) :
    toPoly (shift poly c) = X * toPoly c + C (bit (c.getLsbD 0)) * gen poly := by
  rw [X_mul_toPoly hw, gen, mul_add, add_right_comm, ← add_assoc, CharTwo.add_self_eq_zero,
    zero_add, shift]
  cases c.getLsbD 0
  · simp [bit]
  · rw [if_pos rfl, toPoly_xor, add_comm]
    simp [bit]

/-! ## A message -/

/-- **The invariant of the division**: what is in the register and what the
message has been differ by a multiple of the generator. -/
theorem gen_dvd_feed (hw : 0 < w) (poly c : BitVec w) (bs : List Bool) :
    gen poly ∣ toPoly (feed poly c bs) - (toPoly c * X ^ bs.length + messagePoly bs * X ^ w) := by
  induction bs generalizing c with
  | nil => simp [messagePoly]
  | cons b bs ih =>
    obtain ⟨q, hq⟩ := ih (shift poly (c ^^^ unit w b))
    have hpow : (X : (ZMod 2)[X]) * X ^ (w - 1) = X ^ w := by
      rw [← pow_succ', Nat.sub_add_cancel hw]
    -- the first bit is shifted out of the top with the register
    have hshift : toPoly (shift poly (c ^^^ unit w b)) = X * toPoly c + C (bit b) * X ^ w +
        C (bit ((c ^^^ unit w b).getLsbD 0)) * gen poly := by
      rw [toPoly_shift hw, toPoly_xor, toPoly_unit hw, mul_add, mul_left_comm, hpow]
    refine ⟨q + C (bit ((c ^^^ unit w b).getLsbD 0)) * X ^ bs.length, ?_⟩
    rw [feed_cons, sub_eq_iff_eq_add.1 hq, hshift, messagePoly, List.length_cons, pow_succ]
    ring

/-- **What a message leaves is the remainder.** -/
theorem toPoly_feed (hw : 0 < w) (poly c : BitVec w) (bs : List Bool) :
    toPoly (feed poly c bs) =
      (toPoly c * X ^ bs.length + messagePoly bs * X ^ w) %ₘ gen poly := by
  have hself : toPoly (feed poly c bs) %ₘ gen poly = toPoly (feed poly c bs) := by
    rw [modByMonic_eq_self_iff (monic_gen poly), degree_gen]
    exact degree_toPoly_lt _
  rw [← hself]
  exact modByMonic_eq_of_dvd_sub (monic_gen poly) (gen_dvd_feed hw poly c bs)

end Lfsr

end WaterGateway
