import Mathlib.Data.Rat.Defs
import Mathlib.Algebra.Field.Rat
import WaterGateway.Receiver.Gateway

/-!
# What the numbers of a message mean

A numeral of JSON stands for a rational number. The integers the uploader
prints stand for themselves, and what `%.2f` prints for its hundredths.
-/

namespace WaterGateway

namespace Receiver

open Json Utf8 Uploader

/-- **The number a numeral stands for.** -/
def numeralValue (w : List ℕ) : ℚ :=
  (if w.head? = some 45 then -1 else 1) * digitsValue (significand w) *
    10 ^ (exponent w - fractionLength w)

/-- The number a member of a message stands for. -/
def number (ms : Members) (name : String) : Option ℚ :=
  match lookup (text name) ms with
  | some (.scalar (.num w)) => some (numeralValue w)
  | _ => none

variable {w : List ℕ} {n d : ℕ}

/-! ## Digits -/

theorem digitsValue_concat_digit (w : List ℕ) (hd : d < 10) :
    digitsValue (w ++ [48 + d]) = digitsValue w * 10 + d := by
  have hdigit : isDigit (48 + d) = true := by simp [isDigit]; omega
  simp [digitsValue, List.filter_append, List.foldl_append, hdigit]

theorem digitsValue_concat_other (w : List ℕ) {c : ℕ} (hc : isDigit c = false) :
    digitsValue (w ++ [c]) = digitsValue w := by
  simp [digitsValue, List.filter_append, hc]

theorem digitsValue_cons_other (w : List ℕ) {c : ℕ} (hc : isDigit c = false) :
    digitsValue (c :: w) = digitsValue w := by
  simp [digitsValue, hc]

/-- **A numeral has the value it was printed for.** -/
theorem digitsValue_decimal (n : ℕ) : digitsValue (codes (decimal n)) = n := by
  induction n using Nat.strongRecOn with
  | ind n ih =>
    obtain hlt | hge := Nat.lt_or_ge n 10
    · rw [decimal_of_lt hlt, ← List.nil_append [48 + n], digitsValue_concat_digit _ hlt]
      exact Nat.zero_add n
    · have hmod : n % 10 < 10 := Nat.mod_lt n (by decide)
      rw [decimal_of_le hge, decimal_of_lt hmod, digitsValue_concat_digit _ hmod,
        ih (n / 10) (by omega)]
      omega

theorem isExpMark_decimal {c : ℕ} (h : c ∈ codes (decimal n)) : isExpMark c = false := by
  have hdigit := isDigit_decimal h
  simp only [isDigit, Bool.and_eq_true, decide_eq_true_eq] at hdigit
  simp only [isExpMark, decide_eq_false_iff_not]
  omega

/-- Without an exponent all of a numeral is its significand. -/
theorem parts_of_plain (h : ∀ c ∈ w, isExpMark c = false) :
    significand w = w ∧ exponent w = 0 := by
  have htake : significand w = w :=
    List.takeWhile_eq_self_iff.2 fun c hc => by rw [h c hc]; rfl
  have hdrop : w.dropWhile (fun c => !isExpMark c) = [] :=
    List.dropWhile_eq_nil_iff.2 fun c hc => by rw [h c hc]; rfl
  refine ⟨htake, ?_⟩
  simp [exponent, hdrop, digitsValue]

/-! ## Integers -/

theorem numeralValue_int (h : ∀ c ∈ w, isExpMark c = false) (hpoint : ∀ c ∈ w, c ≠ 46) :
    numeralValue w = (if w.head? = some 45 then -1 else 1) * digitsValue w := by
  obtain ⟨hsig, hexp⟩ := parts_of_plain h
  have hdrop : w.dropWhile (· ≠ 46) = [] :=
    List.dropWhile_eq_nil_iff.2 fun c hc => decide_eq_true (hpoint c hc)
  have hfraction : fractionLength w = 0 := by
    rw [fractionLength, hsig, hdrop]
    rfl
  simp [numeralValue, hsig, hexp, hfraction]

theorem point_notMem_decimal {c : ℕ} (h : c ∈ codes (decimal n)) : c ≠ 46 := by
  have hdigit := isDigit_decimal h
  simp only [isDigit, Bool.and_eq_true, decide_eq_true_eq] at hdigit
  omega

theorem head_decimal_ne_minus (n : ℕ) (rest : List ℕ) (hrest : rest.head? ≠ some 45) :
    (codes (decimal n) ++ rest).head? ≠ some 45 := by
  cases h : codes (decimal n) with
  | nil => exact hrest
  | cons c cs =>
    intro hhead
    have hdigit := isDigit_decimal (n := n) (c := c) (h ▸ List.mem_cons_self)
    obtain rfl : c = 45 := Option.some.inj hhead
    cases hdigit

/-- **`%u`**, read back. -/
theorem numeralValue_decimal (n : ℕ) : numeralValue (codes (decimal n)) = n := by
  have hhead := head_decimal_ne_minus n [] nofun
  rw [List.append_nil] at hhead
  rw [numeralValue_int (fun c hc => isExpMark_decimal hc) fun c hc => point_notMem_decimal hc,
    if_neg hhead, one_mul, digitsValue_decimal]

/-- **`%d` and `%lld`**, read back. -/
theorem numeralValue_signedDecimal (x : ℤ) : numeralValue (codes (signedDecimal x)) = x := by
  have hminus : codes (bytes "-") = [45] := by decide +kernel
  unfold signedDecimal
  split
  · next hneg =>
    rw [codes_append, hminus, List.singleton_append, numeralValue_int]
    · rw [List.head?_cons, if_pos rfl, digitsValue_cons_other _ (by decide), digitsValue_decimal]
      have hcast : ((x.natAbs : ℕ) : ℚ) = -x := by
        rw [Nat.cast_natAbs, abs_of_neg hneg, Int.cast_neg]
      rw [hcast, neg_one_mul, neg_neg]
    · intro c hc
      rcases List.mem_cons.1 hc with rfl | hc
      · rfl
      · exact isExpMark_decimal hc
    · intro c hc
      rcases List.mem_cons.1 hc with rfl | hc
      · decide
      · exact point_notMem_decimal hc
  · next hpos =>
    rw [numeralValue_decimal, Nat.cast_natAbs, abs_of_nonneg (not_lt.1 hpos)]

/-! ## Hundredths -/

/-- `x / 100` with two decimals. -/
def hundredths (x : ℤ) : List UChar :=
  (if x < 0 then bytes "-" else []) ++ (decimal (x.natAbs / 100) ++ bytes "." ++
    decimal (x.natAbs % 100 / 10) ++ decimal (x.natAbs % 10))

/-- The digits, and where the point stands. -/
theorem codes_hundredths (x : ℤ) : codes (hundredths x) =
    (if x < 0 then [45] else []) ++ (codes (decimal (x.natAbs / 100)) ++
      [46, 48 + x.natAbs % 100 / 10, 48 + x.natAbs % 10]) := by
  have hpoint : codes (bytes ".") = [46] := by decide +kernel
  have hminus : codes (bytes "-") = [45] := by decide +kernel
  simp only [hundredths, codes_append, hpoint, decimal_of_lt (n := x.natAbs % 100 / 10) (by omega),
    decimal_of_lt (n := x.natAbs % 10) (by omega), List.append_assoc, List.cons_append,
    List.nil_append]
  split
  · rw [hminus]
  · rfl

theorem mem_hundredths {x : ℤ} {c : ℕ} (h : c ∈ codes (hundredths x)) :
    c = 45 ∨ c = 46 ∨ isDigit c = true := by
  rw [codes_hundredths, List.mem_append, List.mem_append] at h
  obtain h | h | h := h
  · split at h
    · exact Or.inl (List.mem_singleton.1 h)
    · cases h
  · exact Or.inr (Or.inr (isDigit_decimal h))
  · simp only [List.mem_cons, List.not_mem_nil, or_false] at h
    obtain rfl | rfl | rfl := h
    · exact Or.inr (Or.inl rfl)
    · exact Or.inr (Or.inr (by simp [isDigit]; omega))
    · exact Or.inr (Or.inr (by simp [isDigit]; omega))

theorem parts_hundredths (x : ℤ) :
    significand (codes (hundredths x)) = codes (hundredths x) ∧
      exponent (codes (hundredths x)) = 0 := by
  refine parts_of_plain fun c hc => ?_
  obtain rfl | rfl | hdigit := mem_hundredths hc
  · rfl
  · rfl
  · simp only [isDigit, Bool.and_eq_true, decide_eq_true_eq] at hdigit
    simp only [isExpMark, decide_eq_false_iff_not]
    omega

theorem fractionLength_hundredths (x : ℤ) : fractionLength (codes (hundredths x)) = 2 := by
  rw [fractionLength, (parts_hundredths x).1, codes_hundredths, ← List.append_assoc,
    List.dropWhile_append_of_pos]
  · rfl
  · intro c hc
    rcases List.mem_append.1 hc with hc | hc
    · split at hc
      · rw [List.mem_singleton.1 hc]
        rfl
      · cases hc
    · exact decide_eq_true (point_notMem_decimal hc)

theorem digitsValue_hundredths (x : ℤ) : digitsValue (codes (hundredths x)) = x.natAbs := by
  have hplain : digitsValue (codes (decimal (x.natAbs / 100)) ++
      [46, 48 + x.natAbs % 100 / 10, 48 + x.natAbs % 10]) = x.natAbs := by
    have hsplit : codes (decimal (x.natAbs / 100)) ++
        [46, 48 + x.natAbs % 100 / 10, 48 + x.natAbs % 10] =
        codes (decimal (x.natAbs / 100)) ++ [46] ++ [48 + x.natAbs % 100 / 10] ++
          [48 + x.natAbs % 10] := by simp
    rw [hsplit, digitsValue_concat_digit _ (by omega), digitsValue_concat_digit _ (by omega),
      digitsValue_concat_other _ (by decide), digitsValue_decimal]
    omega
  rw [codes_hundredths]
  split
  · rw [List.singleton_append, digitsValue_cons_other _ (by decide), hplain]
  · rw [List.nil_append, hplain]

/-- **Two decimals**, read back. -/
theorem numeralValue_hundredths (x : ℤ) : numeralValue (codes (hundredths x)) = x / 100 := by
  have hsign : (if (codes (hundredths x)).head? = some 45 then -1 else 1) * (x.natAbs : ℚ) = x := by
    rw [codes_hundredths]
    by_cases hneg : x < 0
    · rw [if_pos hneg, List.singleton_append, List.head?_cons, if_pos rfl, Nat.cast_natAbs,
        abs_of_neg hneg, Int.cast_neg, neg_one_mul, neg_neg]
    · rw [if_neg hneg, List.nil_append, if_neg (head_decimal_ne_minus _ _ (by simp)), one_mul,
        Nat.cast_natAbs, abs_of_nonneg (not_lt.1 hneg)]
  rw [numeralValue, (parts_hundredths x).1, (parts_hundredths x).2, fractionLength_hundredths,
    digitsValue_hundredths, hsign, div_eq_mul_inv]
  norm_num

end Receiver

end WaterGateway
