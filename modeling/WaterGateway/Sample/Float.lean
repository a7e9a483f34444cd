import WaterGateway.Common.Rounding
import WaterGateway.Sample.Model

/-!
# Arithmetic on singles

The conversions, products and sums of `sample.c`, on finite singles, each
rounded once to the nearest single. A compiler may contract a product and
the sum it goes into, and round once for both; it is `fma` then.

The bits of a single, less the sign, are its code.
-/

namespace WaterGateway

namespace Single

/-- The first code that is not finite. -/
def infCode : ℕ := 255 * 2 ^ 23

/-- The single with a sign and a code; what is too large is an infinity. -/
def ofCode (neg : Bool) (c : ℕ) : Single :=
  ⟨BitVec.ofNat 32 ((if neg then 2 ^ 31 else 0) + min c infCode)⟩

/-- **The single nearest to `n / d`** units, with a sign. -/
def ofRatio (neg : Bool) (n d : ℕ) : Single := ofCode neg (Rounding.code 23 n d)

/-- The cast `(float)x` of an integer. -/
def ofInt (x : ℤ) : Single := ofRatio (decide (x < 0)) (x.natAbs * 2 ^ 149) 1

/-- `a * b`. -/
def mul (a b : Single) : Single := ofRatio (a.neg ^^ b.neg) (a.mag * b.mag) (2 ^ 149)

/-- A sum, given exactly; where it is zero, `-0` only comes of two. -/
def ofSum (u : ℤ) (neg : Bool) (d : ℕ) : Single :=
  ofRatio (if u = 0 then neg else decide (u < 0)) u.natAbs d

/-- `a + b`. -/
def add (a b : Single) : Single := ofSum (a.units + b.units) (a.neg && b.neg) 1

/-- `a + b * c`, rounded once. -/
def fma (a b c : Single) : Single :=
  ofSum (a.units * 2 ^ 149 + b.units * c.units) (a.neg && (b.neg ^^ c.neg)) (2 ^ 149)

variable {neg : Bool} {c n d : ℕ} {x : ℤ}

/-! ## The bits -/

theorem toNat_ofCode (neg : Bool) (c : ℕ) :
    (ofCode neg c).bits.toNat = (if neg then 2 ^ 31 else 0) + min c infCode := by
  have hmin : min c infCode < 2 ^ 31 := Nat.lt_of_le_of_lt (Nat.min_le_right _ _) (by decide)
  rw [ofCode, BitVec.toNat_ofNat, Nat.mod_eq_of_lt]
  split <;> omega

theorem fields_ofCode (h : c < infCode) (neg : Bool) :
    (ofCode neg c).expField = c / 2 ^ 23 ∧ (ofCode neg c).fracField = c % 2 ^ 23 := by
  have hbits := toNat_ofCode neg c
  rw [Nat.min_eq_left h.le] at hbits
  rw [infCode] at h
  rw [expField, fracField, hbits]
  split <;> omega

theorem neg_ofCode (neg : Bool) (c : ℕ) : (ofCode neg c).neg = neg := by
  have hmin : min c infCode < 2 ^ 31 := Nat.lt_of_le_of_lt (Nat.min_le_right _ _) (by decide)
  rw [Single.neg, BitVec.msb_eq_decide, toNat_ofCode]
  cases neg
  · rw [if_neg Bool.false_ne_true]
    exact decide_eq_false (by omega)
  · rw [if_pos rfl]
    exact decide_eq_true (by omega)

/-- **The code of a single is the code of its magnitude.** -/
theorem mag_ofCode (h : c < infCode) (neg : Bool) :
    (ofCode neg c).mag = Rounding.value 23 c := by
  rw [mag, (fields_ofCode h neg).1, (fields_ofCode h neg).2, Rounding.value]

theorem finite_ofCode (h : c < infCode) (neg : Bool) : (ofCode neg c).finite = true := by
  have hexp : (ofCode neg c).expField ≠ 255 := by
    rw [(fields_ofCode h neg).1]
    rw [infCode] at h
    omega
  simp [finite, isNaN, isInf, hexp]

/-! ## Conversions -/

/-- A ratio that is not too large is rounded to a finite single. -/
theorem code_lt_infCode (hd : 0 < d) (h : n ≤ 2 ^ 250 * d) :
    Rounding.code 23 n d < infCode := by
  have hshift : Rounding.shift 23 (2 ^ 250) = 227 := by
    rw [Rounding.shift, Nat.log2_two_pow]
  have hsplit : 2 ^ 250 * d = 2 ^ 23 * (d * 2 ^ 227) := by
    rw [Nat.mul_left_comm, ← Nat.pow_add, Nat.mul_comm]
  have htop : Rounding.code 23 (2 ^ 250 * d) d = 228 * 2 ^ 23 := by
    rw [Rounding.code, Nat.mul_div_cancel _ hd, hshift, hsplit,
      Rounding.nearest_mul _ (Nat.mul_pos hd (Nat.two_pow_pos _))]
    omega
  have hle := Rounding.code_mono (p := 23) hd h
  rw [htop] at hle
  exact Nat.lt_of_le_of_lt hle (by decide)

theorem mag_ofRatio (hd : 0 < d) (h : n ≤ 2 ^ 250 * d) :
    (ofRatio neg n d).mag = Rounding.value 23 (Rounding.code 23 n d) :=
  mag_ofCode (code_lt_infCode hd h) neg

@[simp] theorem neg_ofRatio (neg : Bool) (n d : ℕ) : (ofRatio neg n d).neg = neg :=
  neg_ofCode neg _

theorem finite_ofRatio (hd : 0 < d) (h : n ≤ 2 ^ 250 * d) : (ofRatio neg n d).finite = true :=
  finite_ofCode (code_lt_infCode hd h) neg

/-- **An integer of 24 bits is converted exactly.** -/
theorem mag_ofInt (h : x.natAbs < 2 ^ 24) : (ofInt x).mag = x.natAbs * 2 ^ 149 := by
  have hfits := Rounding.value_code_of_fits (d := 1) Nat.one_pos h 149
  rw [Nat.mul_one] at hfits
  rw [ofInt, mag_ofRatio Nat.one_pos (by omega), hfits]

theorem finite_ofInt (h : x.natAbs < 2 ^ 24) : (ofInt x).finite = true :=
  finite_ofRatio Nat.one_pos (by omega)

@[simp] theorem neg_ofInt (x : ℤ) : (ofInt x).neg = decide (x < 0) := neg_ofRatio _ _ _

theorem units_ofInt (h : x.natAbs < 2 ^ 24) : (ofInt x).units = x * 2 ^ 149 := by
  rw [units, neg_ofInt, mag_ofInt h]
  by_cases hx : x < 0
  · rw [if_pos (decide_eq_true hx)]
    omega
  · rw [if_neg (by simpa using hx)]
    omega

/-- **The order of two finite singles of one sign is that of their
magnitudes.** -/
theorem lt_of_finite {a b : Single} (ha : a.finite = true) (hb : b.finite = true) :
    a.lt b = decide (a.units < b.units) := by
  simp only [finite, Bool.and_eq_true, Bool.not_eq_true'] at ha hb
  simp [lt, ha.1, hb.1]

end Single

end WaterGateway
