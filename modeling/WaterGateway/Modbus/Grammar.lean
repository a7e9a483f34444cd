import WaterGateway.Modbus.Frame

/-!
# The language of the response parser

The frames the parser takes, written out: address, function, byte count,
registers high byte first, at most one byte more, and the checksum. The
byte more is there because the parser halves the byte count and never asks
whether it was even; for the same reason it takes a frame of no registers.
`parse_accepts_exactly` says that these frames and no others are taken,
`parse_buildTestResponse` that decoding undoes encoding.
-/

namespace WaterGateway

namespace Modbus

variable {buf frame : List UChar} {len : ℤ} {values : List UShort} {maxValues : ℤ}

/-- The parser's success: a count that is not negative. -/
def Accepts (buf : List UChar) (len : ℤ) (values : List UShort) (maxValues : ℤ) : Prop :=
  ∃ r vs, modbusParseResponse buf len values maxValues = some (r, vs) ∧ 0 ≤ r

/-! ## Only the first `len` bytes count -/

/-- The unpack loop reads nothing behind the bytes it unpacks. -/
theorem unpackRegs_take {m : ℕ} : ∀ (n i : ℕ) (values : List UShort), 3 + (i + n) * 2 ≤ m →
    unpackRegs (buf.take m) n i values = unpackRegs buf n i values := by
  intro n
  induction n with
  | zero => intro i values _; rfl
  | succ n ih =>
    intro i values hm
    have hhi : load (buf.take m) (3 + i * 2) = load buf (3 + i * 2) :=
      List.getElem?_take_of_lt (by omega)
    have hlo : load (buf.take m) (4 + i * 2) = load buf (4 + i * 2) :=
      List.getElem?_take_of_lt (by omega)
    rw [unpackRegs, unpackRegs, hhi, hlo]
    refine congrArg _ (funext fun hi => congrArg _ (funext fun lo => ?_))
    exact congrArg _ (funext fun vs => ih (i + 1) vs (by omega))

/-- **The parser reads the first `len` bytes of its buffer**, however long
the buffer is. -/
theorem modbusParseResponse_take (hlen : len ≤ buf.length) :
    modbusParseResponse buf len values maxValues =
      modbusParseResponse (buf.take len.toNat) (buf.take len.toNat).length values maxValues := by
  have hcut : (buf.take len.toNat).length = len.toNat := by rw [List.length_take]; omega
  rw [modbusParseResponse, modbusParseResponse, hcut]
  by_cases hmax : maxValues ≤ 0
  · rw [if_pos hmax, if_pos hmax]
  rw [if_neg hmax, if_neg hmax]
  by_cases hmin : len < responseMin
  · rw [if_pos hmin, if_pos (by simp only [responseMin] at hmin ⊢; omega)]
  simp only [responseMin] at hmin
  have hnat : (len.toNat : ℤ) = len := by omega
  have hload : ∀ j, j < len.toNat → load (buf.take len.toNat) j = load buf j := fun j hj =>
    List.getElem?_take_of_lt hj
  have htake : (buf.take len.toNat).take (len - 2).toNat = buf.take (len - 2).toNat := by
    rw [List.take_take]
    congr 1
    omega
  rw [hnat, hload 1 (by omega), hload 2 (by omega), hload _ (by omega), hload _ (by omega), htake]
  -- the unpack loop is reached with a byte count that fits `len` only
  refine congrArg _ (congrArg _ (funext fun func => congrArg _ (congrArg _ (congrArg _
    (funext fun count => ?_)))))
  by_cases hcount : len ≠ (count.toNat : ℤ) + 5
  · simp only [if_pos hcount]
  simp only [if_neg hcount]
  refine congrArg _ (funext fun hi => congrArg _ (funext fun lo => congrArg _ (congrArg _ ?_)))
  refine (unpackRegs_take _ _ _ ?_).symm
  split <;> omega

/-! ## Frames written out -/

/-- The data of a frame the parser takes: registers, and a byte more if
the byte count is odd. -/
def oddBytes (regs : List UShort) (extra : Option UChar) : List UChar :=
  regBytes regs ++ extra.toList

variable {addr : UChar} {regs : List UShort} {extra : Option UChar}

@[simp] theorem lowByte_joinBytes (hi lo : UChar) : lowByte (joinBytes hi lo) = lo := by
  ext i _
  simp [lowByte, joinBytes]

@[simp] theorem highByte_joinBytes (hi lo : UChar) : highByte (joinBytes hi lo) = hi := by
  ext i h
  have h8 : 8 + i < 16 := by omega
  have h16 : i < 16 := by omega
  simp [highByte, joinBytes, h, h8, h16]

/-- The last two bytes of a frame are the checksum it carries. -/
theorem drop_eq_frameCrc (h : 2 ≤ frame.length) :
    frame.drop (frame.length - 2) = [lowByte (frameCrc frame), highByte (frameCrc frame)] := by
  rw [frameCrc, lowByte_joinBytes, highByte_joinBytes, List.getD_eq_getElem _ _ (by omega),
    List.getD_eq_getElem _ _ (by omega)]
  refine List.ext_getElem (by simp; omega) fun i h₁ h₂ => ?_
  simp only [List.length_cons, List.length_nil] at h₂
  obtain rfl | rfl : i = 0 ∨ i = 1 := by omega
  · rw [List.getElem_drop]
    rfl
  · have hidx : frame.length - 2 + 1 = frame.length - 1 := by omega
    simp only [List.getElem_drop, hidx, List.getElem_cons_succ, List.getElem_cons_zero]

/-- **A well-formed frame is written out**: it is the frame around its own
data. -/
theorem exists_dataFrame (h : WellFormed frame) :
    ∃ addr data, data.length ≤ 255 ∧ frame = dataFrame addr data := by
  have hmin := h.min_le
  have hlen := h.length_eq
  obtain ⟨a, f, c, rest, rfl⟩ : ∃ a f c rest, frame = a :: f :: c :: rest := by
    match frame, hmin with
    | a :: f :: c :: rest, _ => exact ⟨a, f, c, rest, rfl⟩
  have hcount : (byteCount (a :: f :: c :: rest) : ℕ) = c.toNat := rfl
  have hfunc : f = funcReadHolding := h.func
  simp only [List.length_cons] at hlen hmin
  have hdata : (rest.take (rest.length - 2)).length = c.toNat := by
    rw [List.length_take]
    omega
  have hc : c = BitVec.ofNat 8 (rest.take (rest.length - 2)).length := by
    rw [hdata, BitVec.ofNat_toNat, BitVec.setWidth_eq]
  refine ⟨a, rest.take (rest.length - 2), ?_, ?_⟩
  · have := c.isLt
    omega
  have hbody : (a :: f :: c :: rest).take ((a :: f :: c :: rest).length - 2) =
      a :: f :: c :: rest.take (rest.length - 2) := by
    rw [List.length_cons, List.length_cons, List.length_cons,
      show rest.length + 1 + 1 + 1 - 2 = rest.length - 2 + 1 + 1 + 1 by omega]
    rfl
  have hcrc := h.crc
  rw [hbody] at hcrc
  calc a :: f :: c :: rest
      = (a :: f :: c :: rest).take ((a :: f :: c :: rest).length - 2) ++
          (a :: f :: c :: rest).drop ((a :: f :: c :: rest).length - 2) :=
        (List.take_append_drop _ _).symm
    _ = a :: f :: c :: rest.take (rest.length - 2) ++
          [lowByte (modbusCrc16 (a :: f :: c :: rest.take (rest.length - 2))),
            highByte (modbusCrc16 (a :: f :: c :: rest.take (rest.length - 2)))] := by
        rw [hbody, drop_eq_frameCrc (by simp), hcrc]
    _ = dataFrame a (rest.take (rest.length - 2)) := by rw [dataFrame, ← hc, hfunc]

/-- Bytes pair up into registers, but for at most one. -/
theorem exists_oddBytes : ∀ data : List UChar, ∃ regs extra, data = oddBytes regs extra
  | [] => ⟨[], none, rfl⟩
  | [b] => ⟨[], some b, rfl⟩
  | hi :: lo :: rest => by
    obtain ⟨regs, extra, hrest⟩ := exists_oddBytes rest
    refine ⟨joinBytes hi lo :: regs, extra, ?_⟩
    have hcons : regBytes (joinBytes hi lo :: regs) = hi :: lo :: regBytes regs := by
      rw [regBytes, List.flatMap_cons, highByte_joinBytes, lowByte_joinBytes]
      rfl
    rw [hrest, oddBytes, oddBytes, hcons]
    rfl

theorem length_oddBytes (regs : List UShort) (extra : Option UChar) :
    (oddBytes regs extra).length = regs.length * 2 + extra.toList.length := by
  rw [oddBytes, List.length_append, length_regBytes]

/-! ## The frames that are taken -/

/-- Success is a well-formed frame in the first `len` bytes. -/
theorem accepts_iff_wellFormed (hlen : len ≤ buf.length) (hmax : 0 < maxValues)
    (hval : maxValues ≤ values.length) :
    Accepts buf len values maxValues ↔ WellFormed (buf.take len.toNat) := by
  rw [Accepts, modbusParseResponse_take hlen, modbusParseResponse_eq hmax hval]
  by_cases hw : WellFormed (buf.take len.toNat)
  · rw [if_pos hw]
    exact ⟨fun _ => hw, fun _ => ⟨_, _, rfl, Int.natCast_nonneg _⟩⟩
  · rw [if_neg hw]
    refine ⟨?_, fun h => absurd h hw⟩
    rintro ⟨r, vs, hres, hr⟩
    cases hres
    omega

/-- **What is decoded from a frame**: its registers, as many as the array
takes. A byte behind the last register is passed over. -/
theorem parse_dataFrame (addr : UChar) (hmax : 0 < maxValues) (hval : maxValues ≤ values.length)
    (hfit : (oddBytes regs extra).length ≤ 255) (rest : List UChar) :
    modbusParseResponse (dataFrame addr (oddBytes regs extra) ++ rest)
        (dataFrame addr (oddBytes regs extra)).length values maxValues =
      some (min (regs.length : ℤ) maxValues,
        regs.take maxValues.toNat ++ values.drop (min regs.length maxValues.toNat)) := by
  have hone : extra.toList.length ≤ 1 := by cases extra <;> simp
  have hlen := length_oddBytes regs extra
  have hcount : regCount (dataFrame addr (oddBytes regs extra)) maxValues =
      min regs.length maxValues.toNat := by
    rw [regCount, byteCount_dataFrame hfit]
    omega
  have htake : regs.take (min regs.length maxValues.toNat) = regs.take maxValues.toNat := by
    rw [Nat.min_comm, ← List.take_take, List.take_length]
  rw [modbusParseResponse_take (by rw [List.length_append]; omega), Int.toNat_natCast,
    List.take_left, modbusParseResponse_eq hmax hval, if_pos (wellFormed_dataFrame hfit), hcount,
    oddBytes, map_frameReg_dataFrame (Nat.min_le_left _ _), htake]
  congr 2
  omega

/-- **What the parser owes for a buffer**: it succeeds on the frames
written out above and on no other, with their registers, and leaves the
array alone otherwise. -/
structure ParsesFrames (buf : List UChar) (len : ℤ) (values : List UShort) (maxValues : ℤ) :
    Prop where
  accepts_iff : Accepts buf len values maxValues ↔
    ∃ addr regs extra, (oddBytes regs extra).length ≤ 255 ∧
      buf.take len.toNat = dataFrame addr (oddBytes regs extra)
  decoded : ∀ addr regs extra, (oddBytes regs extra).length ≤ 255 →
    buf.take len.toNat = dataFrame addr (oddBytes regs extra) →
    modbusParseResponse buf len values maxValues =
      some (min (regs.length : ℤ) maxValues,
        regs.take maxValues.toNat ++ values.drop (min regs.length maxValues.toNat))
  refused : ¬ Accepts buf len values maxValues →
    modbusParseResponse buf len values maxValues = some (-1, values)
  refuses_func : buf.getD 1 0 ≠ funcReadHolding → ¬ Accepts buf len values maxValues
  refuses_length : len ≠ byteCount buf + 5 → ¬ Accepts buf len values maxValues
  refuses_crc : frameCrc (buf.take len.toNat) ≠ modbusCrc16 (buf.take (len - 2).toNat) →
    ¬ Accepts buf len values maxValues

/-- **The parser takes its frames and no others**, for every buffer, every
length in it and every array. -/
theorem parse_accepts_exactly (hlen : len ≤ buf.length) (hmax : 1 ≤ maxValues)
    (hval : maxValues ≤ values.length) : ParsesFrames buf len values maxValues := by
  have hiff := accepts_iff_wellFormed hlen hmax hval
  have hcut : (buf.take len.toNat).length = len.toNat := by rw [List.length_take]; omega
  -- the bytes in front of the data are read in the first `len` of the buffer
  have hget : WellFormed (buf.take len.toNat) → ∀ i, i < 3 →
      (buf.take len.toNat).getD i 0 = buf.getD i 0 := fun hw i hi => by
    have := hw.min_le
    rw [List.getD_eq_getElem?_getD, List.getElem?_take_of_lt (by omega),
      ← List.getD_eq_getElem?_getD]
  refine ⟨?_, ?_, ?_, ?_, ?_, ?_⟩
  · rw [hiff]
    constructor
    · intro hw
      obtain ⟨addr, data, hfit, hframe⟩ := exists_dataFrame hw
      obtain ⟨regs, extra, rfl⟩ := exists_oddBytes data
      exact ⟨addr, regs, extra, hfit, hframe⟩
    · rintro ⟨addr, regs, extra, hfit, hframe⟩
      rw [hframe]
      exact wellFormed_dataFrame hfit
  · intro addr regs extra hfit hframe
    rw [modbusParseResponse_take hlen, hframe]
    have h := parse_dataFrame addr hmax hval hfit []
    rwa [List.append_nil] at h
  · intro hno
    rw [modbusParseResponse_take hlen, modbusParseResponse_eq hmax hval,
      if_neg fun hw => hno (hiff.2 hw)]
  · intro hfunc hacc
    have hw := hiff.1 hacc
    exact hfunc ((hget hw 1 (by omega)).symm.trans hw.func)
  · intro hne hacc
    have hw := hiff.1 hacc
    have hmin := hw.min_le
    have heq := hw.length_eq
    rw [byteCount, hget hw 2 (by omega), ← byteCount] at heq
    omega
  · intro hne hacc
    have hw := hiff.1 hacc
    refine hne (hw.crc.trans (congrArg modbusCrc16 ?_))
    rw [hcut, List.take_take]
    congr 1
    omega

/-- A buffer of 256 bytes with a frame of one register in it. -/
theorem parse_accepts_exactly_one :
    ParsesFrames (responseFrame 1 [1280] ++ List.replicate 249 0) 7 (List.replicate 16 0) 16 :=
  parse_accepts_exactly
    (by rw [List.length_append, length_responseFrame, List.length_replicate]; decide)
    (by decide) (by decide)

/-- **An odd byte count is taken**, and so is a byte count of 0: neither
frame is that of a list of registers that is not empty. -/
theorem parse_accepts_odd_and_empty :
    modbusParseResponse (dataFrame 1 [2, 200, 9]) 8 [0] 1 = some (1, [712]) ∧
      (¬ ∃ addr regs, regs ≠ [] ∧ dataFrame 1 [2, 200, 9] = responseFrame addr regs) ∧
      modbusParseResponse (dataFrame 1 []) 5 [0] 1 = some (0, [0]) ∧
      ¬ ∃ addr regs, regs ≠ [] ∧ dataFrame 1 [] = responseFrame addr regs := by
  refine ⟨by decide +kernel, ?_, by decide +kernel, ?_⟩
  · rintro ⟨addr, regs, -, h⟩
    have := congrArg List.length h
    rw [length_dataFrame, length_responseFrame] at this
    simp only [List.length_cons, List.length_nil] at this
    omega
  · rintro ⟨addr, regs, hne, h⟩
    have := congrArg List.length h
    rw [length_dataFrame, length_responseFrame] at this
    have := List.length_pos_iff.2 hne
    simp only [List.length_nil] at *
    omega

/-! ## Decoding undoes encoding -/

/-- A frame answered from another address, its checksum made anew. -/
def readdress (addr : UChar) (frame : List UChar) : List UChar :=
  let body := addr :: (frame.take (frame.length - 2)).tail
  body ++ [lowByte (modbusCrc16 body), highByte (modbusCrc16 body)]

theorem readdress_responseFrame (addr' : UChar) :
    readdress addr' (responseFrame addr regs) = responseFrame addr' regs := by
  rw [responseFrame_eq_dataFrame, responseFrame_eq_dataFrame, readdress, take_dataFrame,
    List.tail_cons]
  rfl

/-- What the parser owes for a frame of these registers at the head of its
buffer: the first of them, as many as the array takes, and the rest of the
array as it was. -/
def Decodes (frame : List UChar) (regs : List UShort) : Prop :=
  ∀ (rest : List UChar) (values : List UShort) (maxValues : ℤ), 1 ≤ maxValues →
    maxValues ≤ values.length →
    modbusParseResponse (frame ++ rest) frame.length values maxValues =
      some (min (regs.length : ℤ) maxValues,
        regs.take maxValues.toNat ++ values.drop (min regs.length maxValues.toNat))

theorem decodes_responseFrame (h125 : regs.length ≤ 125) (addr : UChar) :
    Decodes (responseFrame addr regs) regs := by
  intro rest values maxValues hmax hval
  have hodd : regBytes regs = oddBytes regs none := (List.append_nil _).symm
  have hfit : (oddBytes regs none).length ≤ 255 := by rw [← hodd, length_regBytes]; omega
  rw [responseFrame_eq_dataFrame, hodd]
  exact parse_dataFrame addr hmax hval hfit rest

/-- **Decoding undoes encoding**: a built response fits the receive buffer
and is parsed back, and so it is from any slave address. -/
theorem parse_buildTestResponse (hone : 1 ≤ regs.length) (h125 : regs.length ≤ 125) :
    (buildTestResponse regs).length ≤ 255 ∧ Decodes (buildTestResponse regs) regs ∧
      ∀ addr, Decodes (readdress addr (buildTestResponse regs)) regs := by
  refine ⟨?_, decodes_responseFrame h125 _, fun addr => ?_⟩
  · rw [buildTestResponse, length_responseFrame]
    omega
  · rw [buildTestResponse, readdress_responseFrame]
    exact decodes_responseFrame h125 addr

/-- The seven registers of the water sensor. -/
theorem parse_buildTestResponse_seven :
    (buildTestResponse [712, 2534, 320, 820, 0, 0, 1280]).length ≤ 255 ∧
      Decodes (buildTestResponse [712, 2534, 320, 820, 0, 0, 1280])
        [712, 2534, 320, 820, 0, 0, 1280] ∧
      ∀ addr, Decodes (readdress addr (buildTestResponse [712, 2534, 320, 820, 0, 0, 1280]))
        [712, 2534, 320, 820, 0, 0, 1280] :=
  parse_buildTestResponse (by decide) (by decide)

end Modbus

end WaterGateway
