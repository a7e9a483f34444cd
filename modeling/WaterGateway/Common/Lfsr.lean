import Mathlib.Algebra.BigOperators.Group.Finset.Basic
import Mathlib.Algebra.Field.ZMod
import Mathlib.Logic.Function.Iterate

/-!
# A shift register with feedback

The register of a cyclic redundancy check: `shift poly` moves it down one
place and, where a one falls out, feeds `poly` back in; `feed` takes a
message in, a bit at a time. Both are linear over exclusive or, so two
messages of one length leave registers that differ by what their bitwise
difference leaves in a register started at zero (`feed_xor`). The error
patterns that leave something there: any within the width of the register
(`feed_ne_zero_of_burst`), any of odd weight if `poly` has odd weight
(`feed_ne_zero_of_odd`), and two bits at any distance at which a single
one does not return (`feed_ne_zero_of_two`).
-/

namespace WaterGateway

namespace Lfsr

variable {w : ℕ} {poly a b c : BitVec w} {bs cs : List Bool} {n : ℕ}

/-- One shift of the register. -/
def shift (poly c : BitVec w) : BitVec w :=
  if c.getLsbD 0 then (c >>> 1) ^^^ poly else c >>> 1

/-- A register that holds one bit, at its low end. -/
def unit (w : ℕ) (b : Bool) : BitVec w := if b then 1#w else 0#w

/-- A message taken in, a bit at a time. -/
def feed (poly : BitVec w) (c : BitVec w) (bs : List Bool) : BitVec w :=
  bs.foldl (fun c b => shift poly (c ^^^ unit w b)) c

/-- The bitwise difference of two messages. -/
def diff (bs cs : List Bool) : List Bool := List.zipWith Bool.xor bs cs

@[simp] theorem feed_nil (poly c : BitVec w) : feed poly c [] = c := rfl

theorem feed_cons (poly c : BitVec w) (b : Bool) (bs : List Bool) :
    feed poly c (b :: bs) = feed poly (shift poly (c ^^^ unit w b)) bs := rfl

theorem feed_append (poly c : BitVec w) (bs cs : List Bool) :
    feed poly c (bs ++ cs) = feed poly (feed poly c bs) cs := List.foldl_append

/-! ## Linearity -/

/-- **A shift is linear.** -/
theorem shift_xor (poly a b : BitVec w) :
    shift poly (a ^^^ b) = shift poly a ^^^ shift poly b := by
  unfold shift
  rw [BitVec.getLsbD_xor, BitVec.ushiftRight_xor_distrib]
  cases a.getLsbD 0 <;> cases b.getLsbD 0 <;> simp only [Bool.xor_false, Bool.xor_true,
    Bool.not_true, Bool.not_false, if_true, Bool.false_eq_true, if_false]
  · ac_rfl
  · ac_rfl
  · -- the feedback of both cancels
    have hcancel : a >>> 1 ^^^ poly ^^^ (b >>> 1 ^^^ poly) =
        a >>> 1 ^^^ b >>> 1 ^^^ (poly ^^^ poly) := by ac_rfl
    rw [hcancel, BitVec.xor_self, BitVec.xor_zero]

@[simp] theorem shift_zero (poly : BitVec w) : shift poly 0#w = 0#w := by
  rw [shift, if_neg (by simp)]
  exact BitVec.zero_ushiftRight

theorem iterate_shift_zero (poly : BitVec w) (n : ℕ) : (shift poly)^[n] 0#w = 0#w :=
  Function.iterate_fixed (shift_zero poly) n

theorem unit_xor (w : ℕ) (b c : Bool) : unit w (b ^^ c) = unit w b ^^^ unit w c := by
  cases b <;> cases c <;> simp [unit]

/-- **Two registers over two messages** differ by what the difference of
the messages leaves. -/
theorem feed_xor (h : bs.length = cs.length) :
    feed poly a bs ^^^ feed poly b cs = feed poly (a ^^^ b) (diff bs cs) := by
  induction bs generalizing a b cs with
  | nil =>
    obtain rfl := List.length_eq_zero_iff.1 h.symm
    rfl
  | cons x bs ih =>
    obtain ⟨y, cs, rfl⟩ := List.exists_cons_of_length_eq_add_one h.symm
    have hlen : bs.length = cs.length := by simpa using h
    have hstep : shift poly (a ^^^ unit w x) ^^^ shift poly (b ^^^ unit w y) =
        shift poly (a ^^^ b ^^^ unit w (x ^^ y)) := by
      rw [← shift_xor, unit_xor]
      congr 1
      ac_rfl
    rw [feed_cons, feed_cons, ih hlen, hstep]
    rfl

/-! ## No information is lost -/

section Injective

variable (hpoly : poly.msb = true)

include hpoly

/-- Where the highest bit of `poly` is set, only zero shifts to zero. -/
theorem shift_eq_zero_iff : shift poly c = 0#w ↔ c = 0#w := by
  refine ⟨fun h => ?_, fun h => h ▸ shift_zero poly⟩
  unfold shift at h
  split_ifs at h with hlow
  · -- the fed back bit shows at the top
    have htop := congrArg BitVec.msb h
    rw [BitVec.msb_xor, hpoly, BitVec.msb_ushiftRight] at htop
    simp at htop
  · refine BitVec.eq_of_getLsbD_eq fun i _ => ?_
    rw [BitVec.getLsbD_zero]
    cases i with
    | zero => simpa using hlow
    | succ i =>
      have hbit := congrArg (fun x => BitVec.getLsbD x i) h
      simpa [Nat.add_comm 1 i] using hbit

theorem iterate_shift_eq_zero_iff (n : ℕ) : (shift poly)^[n] c = 0#w ↔ c = 0#w := by
  induction n with
  | zero => rfl
  | succ n ih => rw [Function.iterate_succ_apply', shift_eq_zero_iff hpoly, ih]

end Injective

/-! ## Messages that fit the register -/

/-- The bits of a message as a word, the first at the low end. -/
def word (w : ℕ) : List Bool → BitVec w
  | [] => 0#w
  | b :: bs => (word w bs <<< 1) ^^^ unit w b

theorem getLsbD_unit (w : ℕ) (b : Bool) (i : ℕ) :
    (unit w b).getLsbD i = (decide (i < w) && decide (i = 0) && b) := by
  cases b
  · simp [unit]
  · cases i <;> simp [unit]

theorem getLsbD_word (w : ℕ) (bs : List Bool) (i : ℕ) :
    (word w bs).getLsbD i = (decide (i < w) && bs.getD i false) := by
  induction bs generalizing i with
  | nil => simp [word]
  | cons b bs ih =>
    rw [word, BitVec.getLsbD_xor, BitVec.getLsbD_shiftLeft, getLsbD_unit]
    cases i with
    | zero => simp
    | succ i =>
      rw [Nat.add_sub_cancel, ih]
      have hlt : i + 1 < w → i < w := fun h => by omega
      by_cases h : i + 1 < w
      · simp [h, hlt h]
      · simp [h]

/-- A word moved up by one place, where the top bit was free, moves back
down. -/
theorem shift_shiftLeft_one (h : c.msb = false) : shift poly (c <<< 1) = c := by
  rw [shift, if_neg (by simp)]
  refine BitVec.eq_of_getLsbD_eq fun i hi => ?_
  rw [BitVec.getLsbD_ushiftRight, BitVec.getLsbD_shiftLeft, Nat.add_sub_cancel_left]
  by_cases hlast : 1 + i < w
  · simp [hlast]
  · have htop : c.getLsbD i = false := by
      rw [BitVec.msb_eq_getLsbD_last, show w - 1 = i by omega] at h
      exact h
    simp [hlast, htop]

/-- **A message no longer than the register** is taken in as one word. -/
theorem feed_eq_iterate (h : bs.length ≤ w) :
    feed poly c bs = (shift poly)^[bs.length] (c ^^^ word w bs) := by
  induction bs generalizing c with
  | nil => rw [word, BitVec.xor_zero]; rfl
  | cons b bs ih =>
    rw [List.length_cons] at h
    have hmsb : (word w bs).msb = false := by
      rw [BitVec.msb_eq_getLsbD_last, getLsbD_word, List.getD_eq_getElem?_getD,
        List.getElem?_eq_none (by omega), Option.getD_none, Bool.and_false]
    have hsplit : c ^^^ word w (b :: bs) = c ^^^ unit w b ^^^ word w bs <<< 1 := by
      rw [word]
      ac_rfl
    rw [feed_cons, ih (by omega), List.length_cons, Function.iterate_succ_apply, hsplit,
      shift_xor poly (c ^^^ unit w b), shift_shiftLeft_one hmsb]

/-- Zeros only shift. -/
theorem feed_of_forall_false (h : ∀ b ∈ bs, b = false) :
    feed poly c bs = (shift poly)^[bs.length] c := by
  induction bs generalizing c with
  | nil => rfl
  | cons b bs ih =>
    obtain rfl := h b List.mem_cons_self
    have hunit : unit w false = 0#w := rfl
    rw [feed_cons, ih fun b' hb' => h b' (List.mem_cons_of_mem _ hb'), hunit, BitVec.xor_zero,
      List.length_cons, Function.iterate_succ_apply]

/-! ## What leaves something in the register -/

/-- **A burst within the width of the register** is seen. -/
theorem feed_ne_zero_of_burst (hpoly : poly.msb = true) (hne : true ∈ bs) {k : ℕ}
    (hburst : ∀ i, bs[i]? = some true → k ≤ i ∧ i < k + w) : feed poly 0#w bs ≠ 0#w := by
  have hfalse : ∀ l : List Bool, (∀ i : ℕ, l[i]? ≠ some true) → ∀ b ∈ l, b = false := by
    intro l hl b hb
    obtain ⟨i, hi⟩ := List.mem_iff_getElem?.1 hb
    exact Bool.eq_false_iff.2 fun htrue => hl i (htrue ▸ hi)
  -- the burst stands between zeros
  set burst := (bs.drop k).take w with hb
  have hsplit : bs = bs.take k ++ (burst ++ (bs.drop k).drop w) := by
    rw [hb, List.take_append_drop, List.take_append_drop]
  have hbefore : ∀ b ∈ bs.take k, b = false := by
    refine hfalse _ fun i hi => ?_
    obtain ⟨hlt, -⟩ := List.getElem?_eq_some_iff.1 hi
    rw [List.length_take] at hlt
    rw [List.getElem?_take_of_lt (by omega)] at hi
    have := hburst i hi
    omega
  have hafter : ∀ b ∈ (bs.drop k).drop w, b = false := by
    refine hfalse _ fun i hi => ?_
    rw [List.getElem?_drop, List.getElem?_drop] at hi
    have := hburst _ hi
    omega
  have hfit : burst.length ≤ w := by
    rw [hb, List.length_take]
    omega
  have hword : word w burst ≠ 0#w := by
    obtain ⟨i, hi⟩ := List.mem_iff_getElem?.1 hne
    obtain ⟨hk, hkw⟩ := hburst i hi
    intro hzero
    have hbit := getLsbD_word w burst (i - k)
    rw [hzero, BitVec.getLsbD_zero, List.getD_eq_getElem?_getD, hb,
      List.getElem?_take_of_lt (by omega), List.getElem?_drop, show k + (i - k) = i by omega, hi,
      decide_eq_true (by omega)] at hbit
    exact Bool.false_ne_true hbit
  rw [hsplit, feed_append, feed_append, feed_of_forall_false hbefore, iterate_shift_zero,
    feed_eq_iterate hfit, feed_of_forall_false hafter, Ne, iterate_shift_eq_zero_iff hpoly,
    iterate_shift_eq_zero_iff hpoly, BitVec.zero_xor]
  exact hword

section Parity

/-- A bit as a number modulo 2. -/
def bit (b : Bool) : ZMod 2 := if b then 1 else 0

/-- The parity of the weight of a word. -/
def parity (c : BitVec w) : ZMod 2 := ∑ i ∈ Finset.range w, bit (c.getLsbD i)

theorem bit_xor (b c : Bool) : bit (b ^^ c) = bit b + bit c := by
  cases b <;> cases c <;> rfl

theorem parity_xor (a b : BitVec w) : parity (a ^^^ b) = parity a + parity b := by
  simp only [parity, BitVec.getLsbD_xor, bit_xor, Finset.sum_add_distrib]

theorem parity_unit (hw : 0 < w) (b : Bool) : parity (unit w b) = bit b := by
  rw [parity, Finset.sum_eq_single_of_mem 0 (Finset.mem_range.2 hw)]
  · rw [getLsbD_unit]
    simp [hw]
  · intro i _ hi
    rw [getLsbD_unit]
    simp [hi, bit]

/-- **Feedback of odd weight keeps the parity.** -/
theorem parity_shift (hpoly : parity poly = 1) (c : BitVec w) :
    parity (shift poly c) = parity c := by
  -- the bit that falls out is the one that is fed back
  have hdown : parity (c >>> 1) + bit (c.getLsbD 0) = parity c := by
    have hsucc := Finset.sum_range_succ' (fun i => bit (c.getLsbD i)) w
    have hlast := Finset.sum_range_succ (fun i => bit (c.getLsbD i)) w
    have htop : bit (c.getLsbD w) = 0 := by
      rw [BitVec.getLsbD_of_ge _ _ le_rfl]
      rfl
    rw [htop, add_zero] at hlast
    rw [parity, parity, ← hlast, hsucc]
    congr 1
    refine Finset.sum_congr rfl fun i _ => ?_
    rw [BitVec.getLsbD_ushiftRight, Nat.add_comm 1 i]
  rw [← hdown, shift]
  cases c.getLsbD 0
  · exact (add_zero _).symm
  · rw [if_pos rfl, parity_xor, hpoly]
    rfl

theorem parity_feed (hw : 0 < w) (hpoly : parity poly = 1) (c : BitVec w) (bs : List Bool) :
    parity (feed poly c bs) = parity c + (bs.count true : ZMod 2) := by
  induction bs generalizing c with
  | nil => rw [feed_nil, List.count_nil, Nat.cast_zero, add_zero]
  | cons b bs ih =>
    rw [feed_cons, ih, parity_shift hpoly, parity_xor, parity_unit hw, List.count_cons,
      Nat.cast_add, add_assoc, add_comm (bit b)]
    cases b <;> rfl

/-- **An odd number of bits** is seen, if the feedback has odd weight. -/
theorem feed_ne_zero_of_odd (hw : 0 < w) (hpoly : parity poly = 1) (hodd : Odd (bs.count true)) :
    feed poly 0#w bs ≠ 0#w := by
  intro hzero
  have hpar := parity_feed hw hpoly 0#w bs
  rw [hzero, left_eq_add, (ZMod.natCast_eq_one_iff_odd).2 hodd] at hpar
  exact one_ne_zero hpar

end Parity

/-- A message with a one in it, at its first one. -/
theorem exists_first_true (h : bs.count true = n + 1) :
    ∃ k rest, bs = List.replicate k false ++ true :: rest ∧ rest.count true = n := by
  induction bs with
  | nil => rw [List.count_nil] at h; omega
  | cons b bs ih =>
    cases b with
    | true => exact ⟨0, bs, rfl, by rw [List.count_cons_self] at h; omega⟩
    | false =>
      obtain ⟨k, rest, rfl, hrest⟩ := ih (by rwa [List.count_cons_of_ne (by decide)] at h)
      exact ⟨k + 1, rest, rfl, hrest⟩

/-- **Two bits** are seen, if a single one does not return at their
distance. -/
theorem feed_ne_zero_of_two (hpoly : poly.msb = true) (htwo : bs.count true = 2)
    (hreturn : ∀ d, 0 < d → d < bs.length → (shift poly)^[d] 1#w ≠ 1#w) :
    feed poly 0#w bs ≠ 0#w := by
  obtain ⟨k, rest, rfl, hrest⟩ := exists_first_true htwo
  obtain ⟨d, last, rfl, hlast⟩ := exists_first_true hrest
  have hzeros : ∀ b ∈ last, b = false := fun b hb =>
    Bool.eq_false_iff.2 fun htrue => List.count_eq_zero.1 hlast (htrue ▸ hb)
  have hrep : ∀ (j : ℕ) (c : BitVec w),
      feed poly c (List.replicate j false) = (shift poly)^[j] c := fun j c => by
    rw [feed_of_forall_false fun b hb => List.eq_of_mem_replicate hb, List.length_replicate]
  have hunit : unit w true = 1#w := rfl
  rw [feed_append, hrep, iterate_shift_zero, feed_cons, BitVec.zero_xor, feed_append, hrep,
    feed_cons, feed_of_forall_false hzeros, Ne, iterate_shift_eq_zero_iff hpoly,
    shift_eq_zero_iff hpoly, hunit, ← Function.iterate_succ_apply, BitVec.xor_eq_zero_iff]
  refine hreturn (d + 1) (by omega) ?_
  simp only [List.length_append, List.length_replicate, List.length_cons]
  omega

/-- The first `n` shifts of `c` do not come to `a`. -/
def avoids (poly a : BitVec w) : ℕ → BitVec w → Bool
  | 0, _ => true
  | n + 1, c => shift poly c != a && avoids poly a n (shift poly c)

theorem iterate_ne_of_avoids (h : avoids poly a n c = true) {d : ℕ} (hpos : 0 < d) (hd : d ≤ n) :
    (shift poly)^[d] c ≠ a := by
  induction n generalizing c d with
  | zero => omega
  | succ n ih =>
    rw [avoids, Bool.and_eq_true, bne_iff_ne] at h
    obtain ⟨hfirst, hrest⟩ := h
    obtain ⟨d, rfl⟩ := Nat.exists_eq_succ_of_ne_zero hpos.ne'
    rw [Function.iterate_succ_apply]
    cases d with
    | zero => exact hfirst
    | succ d => exact ih hrest (Nat.succ_pos d) (by omega)

end Lfsr

end WaterGateway
