import WaterGateway.Common.Lfsr
import WaterGateway.Modbus.Grammar

/-!
# Which errors the frame check sees

`modbus_crc16` is the shift register of `Lfsr` with the feedback 0xA001,
and its bytes are taken in with the least significant bit first. A
well-formed frame, checksum and all, leaves the register at zero
(`residue_eq_zero`), so an altered frame of the same length that leaves
something in a register started at zero is refused.
-/

namespace WaterGateway

namespace Modbus

open Lfsr

/-- The generator, as `modbus_crc16` feeds it back. -/
def crcPoly : UShort := 0xA001

/-- The bits of a byte in the order of transmission. -/
def byteBits (b : UChar) : List Bool := (List.range 8).map b.getLsbD

/-- The bits of a frame in the order of transmission. -/
def frameBits (frame : List UChar) : List Bool := frame.flatMap byteBits

/-- **The errors the check sees**, as the bits in which two frames differ:
a burst within 16 consecutive bits, an odd number of bits, or two bits. -/
inductive Detectable (e : List Bool) : Prop
  | burst (hne : true ∈ e) (k : ℕ) (h : ∀ i, e[i]? = some true → k ≤ i ∧ i < k + 16)
  | odd (h : Odd (e.count true))
  | two (h : e.count true = 2)

variable {frame frame' : List UChar} {crc : UShort}

@[simp] theorem length_byteBits (b : UChar) : (byteBits b).length = 8 := by simp [byteBits]

theorem byteBits_getD (b : UChar) (i : ℕ) : (byteBits b).getD i false = b.getLsbD i := by
  rw [byteBits, List.getD_eq_getElem?_getD, List.getElem?_map]
  by_cases h : i < 8
  · rw [List.getElem?_range h]
    rfl
  · rw [List.getElem?_eq_none (by simp; omega), BitVec.getLsbD_of_ge _ _ (by omega)]
    rfl

theorem length_frameBits (frame : List UChar) : (frameBits frame).length = frame.length * 8 := by
  induction frame with
  | nil => rfl
  | cons b frame ih =>
    rw [frameBits, List.flatMap_cons, List.length_append, ← frameBits, ih, length_byteBits,
      List.length_cons]
    omega

/-! ## The checksum is the register -/

theorem crcBit_eq_shift (crc : UShort) : crcBit crc = shift crcPoly crc := by
  have hlow : (crc &&& 0x0001 ≠ 0) ↔ crc.getLsbD 0 = true := by
    have hone : crc &&& 0x0001 = BitVec.setWidth 16 (BitVec.ofBool (crc.getLsbD 0)) :=
      BitVec.and_one_eq_setWidth_ofBool_getLsbD
    rw [hone]
    cases crc.getLsbD 0 <;> decide
  unfold crcBit shift
  by_cases h : crc.getLsbD 0 = true
  · rw [if_pos (hlow.2 h), if_pos h]
    rfl
  · rw [if_neg (mt hlow.1 h), if_neg h]

theorem repeat_crcBit (n : ℕ) (crc : UShort) :
    Nat.repeat crcBit n crc = (shift crcPoly)^[n] crc := by
  induction n with
  | zero => rfl
  | succ n ih => rw [Nat.repeat, ih, crcBit_eq_shift, Function.iterate_succ_apply']

/-- **A byte is its eight bits.** -/
theorem crcByte_eq_feed (crc : UShort) (b : UChar) :
    crcByte crc b = feed crcPoly crc (byteBits b) := by
  have hword : word 16 (byteBits b) = b.setWidth 16 := by
    refine BitVec.eq_of_getLsbD_eq fun i hi => ?_
    rw [getLsbD_word, byteBits_getD, BitVec.getLsbD_setWidth]
  rw [crcByte, repeat_crcBit, feed_eq_iterate (by simp), length_byteBits, hword]

theorem foldl_crcByte (crc : UShort) (buf : List UChar) :
    buf.foldl crcByte crc = feed crcPoly crc (frameBits buf) := by
  induction buf generalizing crc with
  | nil => rfl
  | cons b buf ih =>
    have hcons : frameBits (b :: buf) = byteBits b ++ frameBits buf := List.flatMap_cons
    rw [List.foldl_cons, ih, crcByte_eq_feed, hcons, feed_append]

/-- Two bytes fill the register, the first at the low end. -/
theorem word_frameBits_two (a b : UChar) : word 16 (frameBits [a, b]) = joinBytes b a := by
  have hbits : frameBits [a, b] = byteBits a ++ byteBits b := by
    rw [frameBits, List.flatMap_cons, List.flatMap_cons, List.flatMap_nil, List.append_nil]
  refine BitVec.eq_of_getLsbD_eq fun i hi => ?_
  rw [getLsbD_word, decide_eq_true hi, Bool.true_and, hbits, joinBytes, BitVec.getLsbD_or,
    BitVec.getLsbD_shiftLeft, BitVec.getLsbD_setWidth, BitVec.getLsbD_setWidth, decide_eq_true hi]
  by_cases h : i < 8
  · rw [List.getD_append _ _ _ _ (by rw [length_byteBits]; exact h), byteBits_getD]
    simp [h]
  · rw [List.getD_append_right _ _ _ _ (by rw [length_byteBits]; omega), byteBits_getD,
      length_byteBits, BitVec.getLsbD_of_ge a i (by omega)]
    simp [h, show i - 8 < 16 by omega]

/-- **A register that takes in its own value**, low byte first, is zero. -/
theorem feed_self (crc : UShort) :
    feed crcPoly crc (frameBits [lowByte crc, highByte crc]) = 0#16 := by
  have hlen : (frameBits [lowByte crc, highByte crc]).length = 16 := length_frameBits _
  rw [feed_eq_iterate hlen.le, word_frameBits_two, joinBytes_highByte_lowByte, BitVec.xor_self,
    iterate_shift_zero]

/-- **A well-formed frame leaves the register at zero.** -/
theorem residue_eq_zero (h : WellFormed frame) : feed crcPoly 0xFFFF (frameBits frame) = 0#16 := by
  obtain ⟨addr, data, -, rfl⟩ := exists_dataFrame h
  have hcrc : ∀ body : List UChar, body ≠ [] →
      modbusCrc16 body = feed crcPoly 0xFFFF (frameBits body) := fun body hne => by
    rw [modbusCrc16, if_neg fun h0 => hne (List.length_eq_zero_iff.1 h0), foldl_crcByte]
  rw [dataFrame, frameBits, List.flatMap_append, feed_append, ← frameBits, ← frameBits,
    ← hcrc _ (by simp)]
  exact feed_self _

/-! ## Detection -/

/-- The feedback reaches the top of the register. -/
theorem msb_crcPoly : crcPoly.msb = true := by decide

/-- The feedback has odd weight: `x + 1` divides the generator. -/
theorem parity_crcPoly : parity crcPoly = 1 := by decide

/-- A single bit does not return within 2080 shifts. -/
theorem avoids_crcPoly : avoids crcPoly 1#16 2079 1#16 = true := by decide +kernel

/-- What the check sees leaves something in the register. -/
theorem feed_ne_zero_of_detectable {e : List Bool} (hlen : e.length ≤ 2080) (h : Detectable e) :
    feed crcPoly 0#16 e ≠ 0#16 := by
  cases h with
  | burst hne k hburst => exact feed_ne_zero_of_burst msb_crcPoly hne hburst
  | odd hodd => exact feed_ne_zero_of_odd (by omega) parity_crcPoly hodd
  | two htwo =>
    exact feed_ne_zero_of_two msb_crcPoly htwo fun d hpos hd =>
      iterate_ne_of_avoids avoids_crcPoly hpos (by omega)

/-- **An error the check sees makes a frame ill-formed.** -/
theorem not_wellFormed_of_detectable (hw : WellFormed frame) (hlen : frame'.length = frame.length)
    (herr : Detectable (diff (frameBits frame) (frameBits frame'))) : ¬ WellFormed frame' := by
  intro hw'
  have hbits : (frameBits frame).length = (frameBits frame').length := by
    rw [length_frameBits, length_frameBits, hlen]
  have hbound : (diff (frameBits frame) (frameBits frame')).length ≤ 2080 := by
    have h₁ := hw.length_eq
    have h₂ : byteCount frame < 256 := (frame.getD 2 0).isLt
    rw [diff, List.length_zipWith, length_frameBits, length_frameBits]
    omega
  have hxor : feed crcPoly 0xFFFF (frameBits frame) ^^^ feed crcPoly 0xFFFF (frameBits frame') =
      feed crcPoly (0xFFFF ^^^ 0xFFFF) (diff (frameBits frame) (frameBits frame')) :=
    feed_xor hbits
  rw [residue_eq_zero hw, residue_eq_zero hw', BitVec.xor_self, BitVec.xor_self] at hxor
  exact feed_ne_zero_of_detectable hbound herr hxor.symm

/-- **Error detection**: no frame that differs from an accepted one of its
length in a burst within 16 bits, in an odd number of bits or in two bits
is accepted, whatever array it is parsed into. -/
theorem parse_detects {values : List UShort} {maxValues : ℤ} (hmax : 1 ≤ maxValues)
    (hval : maxValues ≤ values.length) (hacc : Accepts frame frame.length values maxValues)
    (hlen : frame'.length = frame.length)
    (herr : Detectable (diff (frameBits frame) (frameBits frame'))) :
    ∀ (values' : List UShort) (maxValues' : ℤ), 1 ≤ maxValues' → maxValues' ≤ values'.length →
      modbusParseResponse frame' frame'.length values' maxValues' = some (-1, values') := by
  intro values' maxValues' hmax' hval'
  have htake : ∀ l : List UChar, l.take (l.length : ℤ).toNat = l := fun l => by
    rw [Int.toNat_natCast, List.take_length]
  have hw : WellFormed frame := htake frame ▸ (accepts_iff_wellFormed le_rfl hmax hval).1 hacc
  rw [modbusParseResponse_eq hmax' hval', if_neg (not_wellFormed_of_detectable hw hlen herr)]

/-- The first test vector with three bits of its checksum turned. -/
theorem parse_detects_one :
    let frame := responseFrame 1 [712, 2534, 320, 820, 0, 0, 1280]
    let frame' := frame.set 18 (frame.getD 18 0 ^^^ 0x07)
    Detectable (diff (frameBits frame) (frameBits frame')) ∧
      ∀ (values' : List UShort) (maxValues' : ℤ), 1 ≤ maxValues' → maxValues' ≤ values'.length →
        modbusParseResponse frame' frame'.length values' maxValues' = some (-1, values') := by
  intro frame frame'
  have herr : Detectable (diff (frameBits frame) (frameBits frame')) :=
    .odd (by decide +kernel)
  have hacc : Accepts frame frame.length (List.replicate 16 0) 16 :=
    ⟨7, [712, 2534, 320, 820, 0, 0, 1280] ++ List.replicate 9 0, by decide +kernel, by decide⟩
  exact ⟨herr, parse_detects (by decide) (by decide) hacc (by decide +kernel) herr⟩

end Modbus

end WaterGateway
