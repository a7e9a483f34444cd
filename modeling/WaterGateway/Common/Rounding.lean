import Mathlib.Algebra.Order.Ring.Nat

/-!
# Rounding to nearest

A ratio of two naturals is rounded to the nearest integer, ties to even,
and, on top of that, to the nearest number with `p + 1` significant bits.
Such numbers are counted by **codes**: the code of a number is its place
among them, so the codes are ordered as the numbers are, and a number and
its code determine each other. An IEEE format stores the code.
-/

namespace WaterGateway

namespace Rounding

/-! ## To an integer -/

/-- `n / d`, rounded to the nearest integer, ties to even. -/
def nearest (n d : ℕ) : ℕ :=
  let q := n / d
  let r := n % d
  if d < 2 * r ∨ (2 * r = d ∧ q % 2 = 1) then q + 1 else q

variable {n m d k p q e c : ℕ}

/-- **The error is half a unit at most.** -/
theorem nearest_error (hd : 0 < d) :
    2 * n ≤ 2 * (nearest n d * d) + d ∧ 2 * (nearest n d * d) ≤ 2 * n + d := by
  have hn : d * (n / d) + n % d = n := Nat.div_add_mod n d
  have hr : n % d < d := Nat.mod_lt n hd
  rw [nearest]
  split
  · rw [Nat.add_mul, Nat.mul_comm (n / d) d]
    omega
  · rw [Nat.mul_comm (n / d) d]
    omega

theorem div_le_nearest (n d : ℕ) : n / d ≤ nearest n d := by
  rw [nearest]
  split <;> omega

theorem nearest_le_succ (n d : ℕ) : nearest n d ≤ n / d + 1 := by
  rw [nearest]
  split <;> omega

/-- **What is nearer than half a unit is nearest.** -/
theorem nearest_eq (hlo : 2 * (k * d) < 2 * n + d) (hhi : 2 * n < 2 * (k * d) + d) :
    nearest n d = k := by
  have hd : 0 < d := by omega
  obtain ⟨hle, hge⟩ := nearest_error (n := n) hd
  refine Nat.le_antisymm ?_ ?_
  · refine Nat.le_of_lt_succ (Nat.lt_of_mul_lt_mul_right (a := d) ?_)
    rw [Nat.succ_mul]
    omega
  · refine Nat.le_of_lt_succ (Nat.lt_of_mul_lt_mul_right (a := d) ?_)
    rw [Nat.succ_mul]
    omega

@[simp] theorem nearest_mul (k : ℕ) (hd : 0 < d) : nearest (k * d) d = k :=
  nearest_eq (by omega) (by omega)

@[simp] theorem nearest_zero (d : ℕ) : nearest 0 d = 0 := by simp [nearest]

theorem nearest_mono (h : n ≤ m) (d : ℕ) : nearest n d ≤ nearest m d := by
  have hq : n / d ≤ m / d := Nat.div_le_div_right h
  obtain hlt | heq := Nat.lt_or_eq_of_le hq
  · exact (nearest_le_succ n d).trans (Nat.le_trans hlt (div_le_nearest m d))
  · have hr : n % d ≤ m % d := by
      have hn := Nat.div_add_mod n d
      have hm := Nat.div_add_mod m d
      rw [heq] at hn
      omega
    rw [nearest, nearest, heq]
    split <;> split <;> omega

theorem le_nearest (hd : 0 < d) (h : k * d ≤ n) : k ≤ nearest n d :=
  (nearest_mul k hd).symm.le.trans (nearest_mono h d)

theorem nearest_le (hd : 0 < d) (h : n ≤ k * d) : nearest n d ≤ k :=
  (nearest_mono h d).trans (nearest_mul k hd).le

/-! ## The codes -/

/-- How many bits of an integral part do not fit. -/
def shift (p q : ℕ) : ℕ := q.log2 - p

/-- **The code of the number nearest to `n / d`**, with `p + 1` significant
bits. -/
def code (p n d : ℕ) : ℕ :=
  shift p (n / d) * 2 ^ p + nearest n (d * 2 ^ shift p (n / d))

/-- The number with a code. -/
def value (p c : ℕ) : ℕ :=
  if c / 2 ^ p = 0 then c % 2 ^ p else (2 ^ p + c % 2 ^ p) * 2 ^ (c / 2 ^ p - 1)

theorem lt_of_shift (p q : ℕ) : q < 2 ^ (p + 1 + shift p q) :=
  Nat.lt_of_lt_of_le Nat.lt_log2_self (Nat.pow_le_pow_right Nat.two_pos (by rw [shift]; omega))

theorem le_of_shift (h : shift p q ≠ 0) : 2 ^ (p + shift p q) ≤ q := by
  have hq : q ≠ 0 := by
    rintro rfl
    simp [shift] at h
  have hle : p + shift p q = q.log2 := by
    rw [shift] at h ⊢
    omega
  rw [hle]
  exact Nat.log2_self_le hq

theorem shift_mono (h : n ≤ m) : shift p n ≤ shift p m := by
  by_cases hn : shift p n = 0
  · omega
  · have hpow : 2 ^ (p + shift p n) < 2 ^ (p + 1 + shift p m) :=
      Nat.lt_of_le_of_lt ((le_of_shift hn).trans h) (lt_of_shift p m)
    have := (Nat.pow_lt_pow_iff_right Nat.one_lt_two).1 hpow
    omega

/-- The significand has `p + 1` bits, or is the next power of two. -/
theorem significand_le (hd : 0 < d) (p n : ℕ) :
    nearest n (d * 2 ^ shift p (n / d)) ≤ 2 ^ (p + 1) := by
  refine nearest_le (Nat.mul_pos hd (Nat.two_pow_pos _)) ?_
  rw [Nat.mul_left_comm, ← Nat.pow_add, Nat.mul_comm]
  exact ((Nat.div_lt_iff_lt_mul hd).1 (lt_of_shift p (n / d))).le

theorem le_significand (hd : 0 < d) (h : shift p (n / d) ≠ 0) :
    2 ^ p ≤ nearest n (d * 2 ^ shift p (n / d)) := by
  refine le_nearest (Nat.mul_pos hd (Nat.two_pow_pos _)) ?_
  rw [Nat.mul_left_comm, ← Nat.pow_add, Nat.mul_comm]
  exact (Nat.le_div_iff_mul_le hd).1 (le_of_shift h)

/-- The number with a given shift and significand. -/
theorem value_add (he : e = 0 ∨ 2 ^ p ≤ m) (hm : m ≤ 2 ^ (p + 1)) :
    value p (e * 2 ^ p + m) = m * 2 ^ e := by
  have hpos : 0 < 2 ^ p := Nat.two_pow_pos p
  rw [Nat.pow_succ] at hm
  have hdiv : (e * 2 ^ p + m) / 2 ^ p = e + m / 2 ^ p := by
    rw [Nat.add_comm, Nat.add_mul_div_right _ _ hpos, Nat.add_comm]
  have hmod : (e * 2 ^ p + m) % 2 ^ p = m % 2 ^ p := by
    rw [Nat.add_comm, Nat.add_mul_mod_self_right]
  rw [value, hdiv, hmod]
  obtain hlt | hge := Nat.lt_or_ge m (2 ^ p)
  · -- below `2 ^ p` the code is the number
    obtain rfl : e = 0 := he.resolve_right (by omega)
    rw [Nat.div_eq_of_lt hlt, if_pos rfl, Nat.mod_eq_of_lt hlt, Nat.pow_zero, Nat.mul_one]
  · obtain hlt | heq := Nat.lt_or_eq_of_le hm
    · have hone : m / 2 ^ p = 1 := Nat.div_eq_of_lt_le (by omega) (by omega)
      have hrest : 2 ^ p + m % 2 ^ p = m := by
        have := Nat.div_add_mod m (2 ^ p)
        rw [hone] at this
        omega
      rw [hone, if_neg (by omega), hrest, Nat.add_sub_cancel]
    · have htwo : m / 2 ^ p = 2 := by
        rw [heq, Nat.mul_div_cancel_left _ hpos]
      have hzero : m % 2 ^ p = 0 := by rw [heq, Nat.mul_mod_right]
      rw [htwo, if_neg (by omega), hzero, Nat.add_zero, heq, Nat.add_sub_assoc (by omega),
        Nat.pow_add, Nat.pow_one, Nat.mul_assoc, Nat.mul_comm (2 ^ e)]

/-- **The number with the code of a ratio.** -/
theorem value_code (hd : 0 < d) (p n : ℕ) : value p (code p n d) =
    nearest n (d * 2 ^ shift p (n / d)) * 2 ^ shift p (n / d) := by
  refine value_add ?_ (significand_le hd p n)
  by_cases h : shift p (n / d) = 0
  · exact Or.inl h
  · exact Or.inr (le_significand hd h)

/-- **Codes are ordered as the ratios are.** -/
theorem code_mono (hd : 0 < d) (h : n ≤ m) : code p n d ≤ code p m d := by
  have hshift : shift p (n / d) ≤ shift p (m / d) := shift_mono (Nat.div_le_div_right h)
  rw [code, code]
  obtain hlt | heq := Nat.lt_or_eq_of_le hshift
  · -- the significand of the larger one is at least `2 ^ p`
    have hn := significand_le hd p n
    have hm := le_significand (p := p) (n := m) hd (by omega)
    have hstep : (shift p (n / d) + 1) * 2 ^ p ≤ shift p (m / d) * 2 ^ p :=
      Nat.mul_le_mul_right _ hlt
    rw [Nat.add_mul] at hstep
    rw [Nat.pow_succ] at hn
    omega
  · rw [heq]
    exact Nat.add_le_add_left (nearest_mono h _) _

theorem value_mono (h : c ≤ k) : value p c ≤ value p k := by
  have hpos : 0 < 2 ^ p := Nat.two_pow_pos p
  have hc := Nat.mod_lt c hpos
  have hdiv : c / 2 ^ p ≤ k / 2 ^ p := Nat.div_le_div_right h
  have hmod : c / 2 ^ p = k / 2 ^ p → c % 2 ^ p ≤ k % 2 ^ p := by
    intro heq
    have h₁ := Nat.div_add_mod c (2 ^ p)
    have h₂ := Nat.div_add_mod k (2 ^ p)
    rw [heq] at h₁
    omega
  rw [value, value]
  generalize c / 2 ^ p = a at hdiv hmod ⊢
  generalize k / 2 ^ p = b at hdiv hmod ⊢
  obtain hlt | heq := Nat.lt_or_eq_of_le hdiv
  · rw [if_neg (by omega : ¬ b = 0)]
    refine Nat.le_trans ?_ (Nat.mul_le_mul_right _ (Nat.le_add_right (2 ^ p) (k % 2 ^ p)))
    split
    · exact hc.le.trans (Nat.le_mul_of_pos_right _ (Nat.two_pow_pos _))
    · have htop : (2 ^ p + c % 2 ^ p) * 2 ^ (a - 1) ≤ 2 ^ p * (2 * 2 ^ (a - 1)) := by
        rw [← Nat.mul_assoc, Nat.mul_comm _ 2]
        exact Nat.mul_le_mul_right _ (by omega)
      refine htop.trans (Nat.mul_le_mul_left _ ?_)
      rw [← Nat.pow_succ']
      exact Nat.pow_le_pow_right Nat.two_pos (by omega)
  · rw [heq]
    split
    · exact hmod heq
    · exact Nat.mul_le_mul_right _ (Nat.add_le_add_left (hmod heq) _)

/-- **The relative error** is `2 ^ -(p + 1)` at most, down to half a unit. -/
theorem code_error (hd : 0 < d) (p n : ℕ) :
    2 ^ (p + 1) * n ≤ 2 ^ (p + 1) * (value p (code p n d) * d) + (n + 2 ^ p * d) ∧
      2 ^ (p + 1) * (value p (code p n d) * d) ≤ 2 ^ (p + 1) * n + (n + 2 ^ p * d) := by
  have hpow : 0 < 2 ^ shift p (n / d) := Nat.two_pow_pos _
  obtain ⟨hle, hge⟩ := nearest_error (n := n) (Nat.mul_pos hd hpow)
  have hunit : 2 ^ p * (d * 2 ^ shift p (n / d)) ≤ n + 2 ^ p * d := by
    by_cases h : shift p (n / d) = 0
    · rw [h, Nat.pow_zero, Nat.mul_one]
      omega
    · have hq := (Nat.le_div_iff_mul_le hd).1 (le_of_shift h)
      rw [Nat.pow_add, Nat.mul_assoc, Nat.mul_comm _ d] at hq
      omega
  have hvalue : value p (code p n d) * d =
      nearest n (d * 2 ^ shift p (n / d)) * (d * 2 ^ shift p (n / d)) := by
    rw [value_code hd, Nat.mul_assoc, Nat.mul_comm (2 ^ _) d]
  rw [← hvalue] at hle hge
  have hle' := Nat.mul_le_mul_left (2 ^ p) hle
  have hge' := Nat.mul_le_mul_left (2 ^ p) hge
  rw [Nat.mul_add, Nat.mul_left_comm, Nat.mul_left_comm _ 2] at hle'
  rw [Nat.mul_add, Nat.mul_left_comm, Nat.mul_left_comm _ 2] at hge'
  rw [Nat.pow_succ, Nat.mul_comm _ 2, Nat.mul_assoc, Nat.mul_assoc]
  omega

/-- **What fits is rounded to itself.** -/
theorem value_code_of_fits (hd : 0 < d) (hm : m < 2 ^ (p + 1)) (k : ℕ) :
    value p (code p (m * 2 ^ k * d) d) = m * 2 ^ k := by
  have hshift : shift p (m * 2 ^ k) ≤ k := by
    by_cases h : shift p (m * 2 ^ k) = 0
    · omega
    · have hlt : 2 ^ (p + shift p (m * 2 ^ k)) < 2 ^ (p + 1 + k) := by
        refine Nat.lt_of_le_of_lt (le_of_shift h) ?_
        rw [Nat.pow_add]
        exact Nat.mul_lt_mul_of_pos_right hm (Nat.two_pow_pos _)
      have := (Nat.pow_lt_pow_iff_right Nat.one_lt_two).1 hlt
      omega
  have hsplit : m * 2 ^ k = m * 2 ^ (k - shift p (m * 2 ^ k)) * 2 ^ shift p (m * 2 ^ k) := by
    rw [Nat.mul_assoc, ← Nat.pow_add, Nat.sub_add_cancel hshift]
  rw [value_code hd, Nat.mul_div_cancel _ hd]
  have hnum : m * 2 ^ k * d =
      m * 2 ^ (k - shift p (m * 2 ^ k)) * (d * 2 ^ shift p (m * 2 ^ k)) := by
    rw [Nat.mul_comm d, ← Nat.mul_assoc, ← hsplit]
  rw [hnum, nearest_mul _ (Nat.mul_pos hd (Nat.two_pow_pos _)), ← hsplit]

end Rounding

end WaterGateway
