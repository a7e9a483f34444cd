import WaterGateway.Modbus.Model
import Mathlib.Data.List.GetD
import Mathlib.Tactic.SplitIfs
import Mathlib.Tactic.Set

/-!
# What the response parser accepts

`WellFormed` collects the checks of `modbus_parse_response` that read the
frame, and `modbusParseResponse_eq` says that the parser is exactly these
checks followed by the unpacking: on every buffer of the length it is
given it returns, without leaving the buffer or the array. A frame built
for a list of registers is well formed (`wellFormed_responseFrame`), and
no proper prefix of it is (`not_wellFormed_of_cut`).
-/

namespace WaterGateway

namespace Modbus

variable {buf : List UChar} {values : List UShort} {maxValues : ℤ}

/-- The byte count a frame announces. -/
def byteCount (buf : List UChar) : ℕ := (buf.getD 2 0).toNat

/-- The `i`-th register of a frame. -/
def frameReg (buf : List UChar) (i : ℕ) : UShort :=
  joinBytes (buf.getD (3 + i * 2) 0) (buf.getD (4 + i * 2) 0)

/-- The checksum a frame carries, its low byte first. -/
def frameCrc (buf : List UChar) : UShort :=
  joinBytes (buf.getD (buf.length - 1) 0) (buf.getD (buf.length - 2) 0)

/-- **The checks of the parser that read the frame.** -/
structure WellFormed (buf : List UChar) : Prop where
  min_le : 5 ≤ buf.length
  func : buf.getD 1 0 = funcReadHolding
  length_eq : buf.length = byteCount buf + 5
  crc : frameCrc buf = modbusCrc16 (buf.take (buf.length - 2))

instance : Decidable (WellFormed buf) :=
  decidable_of_iff
    (5 ≤ buf.length ∧ buf.getD 1 0 = funcReadHolding ∧ buf.length = byteCount buf + 5 ∧
      frameCrc buf = modbusCrc16 (buf.take (buf.length - 2)))
    ⟨fun ⟨h₁, h₂, h₃, h₄⟩ => ⟨h₁, h₂, h₃, h₄⟩, fun h => ⟨h.1, h.2, h.3, h.4⟩⟩

/-- The number of registers the parser unpacks: half the byte count, cut
to the array. -/
def regCount (buf : List UChar) (maxValues : ℤ) : ℕ := min (byteCount buf / 2) maxValues.toNat

/-- **The unpack loop**, from any index: it writes the next `n` entries and
no other, and stays inside both arrays. -/
theorem unpackRegs_eq : ∀ (n i : ℕ) (values : List UShort), 3 + (i + n) * 2 ≤ buf.length →
    i + n ≤ values.length →
    unpackRegs buf n i values =
      some (values.take i ++ (List.range' i n).map (frameReg buf) ++ values.drop (i + n)) := by
  intro n
  induction n with
  | zero => intro i values _ _; simp [unpackRegs]
  | succ n ih =>
    intro i values hbuf hval
    have hset : (values.set i (frameReg buf i)).take (i + 1) =
        values.take i ++ [frameReg buf i] := by
      rw [List.take_add_one, List.getElem?_set_self (by omega), Option.toList_some,
        List.take_set_of_le le_rfl]
    have hdrop : (values.set i (frameReg buf i)).drop (i + 1 + n) = values.drop (i + 1 + n) :=
      List.drop_set_of_lt (by omega)
    rw [unpackRegs, load_eq_some (by omega) 0, Option.bind_some, load_eq_some (by omega) 0,
      Option.bind_some, store_eq_some (by omega), Option.bind_some,
      ih (i + 1) _ (by omega) (by simp; omega)]
    rw [← frameReg, hset, hdrop, List.range'_succ, List.map_cons]
    simp [Nat.add_assoc, Nat.add_comm 1 n]

/-- **The parser is its checks and then the unpacking.** On a buffer of
exactly `len` bytes and an array of at least `maxValues` entries it always
returns: the register count and the unpacked array on a well-formed
frame, `-1` and the array as it was on any other. -/
theorem modbusParseResponse_eq (hmax : 0 < maxValues) (hval : maxValues ≤ values.length) :
    modbusParseResponse buf buf.length values maxValues =
      if WellFormed buf then
        some ((regCount buf maxValues : ℤ),
          (List.range (regCount buf maxValues)).map (frameReg buf) ++
            values.drop (regCount buf maxValues))
      else some ((-1 : ℤ), values) := by
  rw [modbusParseResponse, if_neg (by omega)]
  by_cases hmin : 5 ≤ buf.length
  swap
  · rw [if_pos (by simp only [responseMin]; omega), if_neg fun h => hmin h.min_le]
  rw [if_neg (by simp only [responseMin]; omega), load_eq_some (by omega) 0, Option.bind_some]
  by_cases hfunc : buf.getD 1 0 = funcReadHolding
  swap
  · rw [if_neg fun h : WellFormed buf => hfunc h.func, if_pos hfunc,
      load_eq_some (by omega) 0, Option.map_some, ite_self]
  rw [if_neg (by rw [hfunc]; decide), if_neg (not_not_intro hfunc), load_eq_some (by omega) 0,
    Option.bind_some]
  by_cases hlen : buf.length = byteCount buf + 5
  swap
  · rw [if_neg fun h : WellFormed buf => hlen h.length_eq]
    exact if_pos fun h => hlen (by rw [byteCount]; omega)
  have h1 : ((buf.length : ℤ) - 1).toNat = buf.length - 1 := by omega
  have h2 : ((buf.length : ℤ) - 2).toNat = buf.length - 2 := by omega
  simp only [h1, h2]
  rw [if_neg (by rw [byteCount] at hlen; omega), load_eq_some (by omega) 0, Option.bind_some,
    load_eq_some (by omega) 0, Option.bind_some, ← frameCrc]
  by_cases hcrc : frameCrc buf = modbusCrc16 (buf.take (buf.length - 2))
  swap
  · rw [if_pos hcrc, if_neg fun h : WellFormed buf => hcrc h.crc]
  have hw : WellFormed buf := ⟨hmin, hfunc, hlen, hcrc⟩
  rw [if_neg (not_not_intro hcrc), if_pos hw]
  have hcount : (if (((buf.getD 2 0).toNat : ℤ)) / 2 > maxValues then maxValues
      else ((buf.getD 2 0).toNat : ℤ) / 2) = (regCount buf maxValues : ℤ) := by
    rw [regCount, byteCount]
    split_ifs <;> omega
  have hle : regCount buf maxValues ≤ values.length := by rw [regCount]; omega
  have hfit : regCount buf maxValues * 2 ≤ byteCount buf := by rw [regCount]; omega
  rw [hcount, Int.toNat_natCast, unpackRegs_eq _ _ _ (by omega) (by omega)]
  simp [List.range_eq_range']

/-- The parser never leaves its buffer or its array. -/
theorem modbusParseResponse_isSome (hmax : 0 < maxValues) (hval : maxValues ≤ values.length) :
    (modbusParseResponse buf buf.length values maxValues).isSome := by
  rw [modbusParseResponse_eq hmax hval]
  split_ifs <;> rfl

/-- **A non-negative count comes from a well-formed frame.** -/
theorem wellFormed_of_parse {r : ℤ} {vs : List UShort} (hmax : 0 < maxValues)
    (hval : maxValues ≤ values.length)
    (h : modbusParseResponse buf buf.length values maxValues = some (r, vs)) (hr : 0 ≤ r) :
    WellFormed buf ∧ r = regCount buf maxValues ∧
      vs = (List.range (regCount buf maxValues)).map (frameReg buf) ++
        values.drop (regCount buf maxValues) := by
  rw [modbusParseResponse_eq hmax hval] at h
  split_ifs at h with hw
  · cases h
    exact ⟨hw, rfl, rfl⟩
  · cases h
    omega

/-! ## Built frames -/

/-- A frame around any data: `build_test_response` for a byte count that
need not be even. -/
def dataFrame (addr : UChar) (data : List UChar) : List UChar :=
  let body := addr :: funcReadHolding :: BitVec.ofNat 8 data.length :: data
  body ++ [lowByte (modbusCrc16 body), highByte (modbusCrc16 body)]

variable {addr : UChar} {data : List UChar} {regs : List UShort}

@[simp] theorem length_dataFrame : (dataFrame addr data).length = data.length + 5 := by
  simp [dataFrame]

/-- What stands in front of the checksum. -/
theorem take_dataFrame :
    (dataFrame addr data).take ((dataFrame addr data).length - 2) =
      addr :: funcReadHolding :: BitVec.ofNat 8 data.length :: data := by
  rw [length_dataFrame, dataFrame]
  exact List.take_left' (by simp)

/-- The checksum of a built frame is that of its body. -/
theorem frameCrc_dataFrame :
    frameCrc (dataFrame addr data) =
      modbusCrc16 (addr :: funcReadHolding :: BitVec.ofNat 8 data.length :: data) := by
  set body := addr :: funcReadHolding :: BitVec.ofNat 8 data.length :: data with hbody
  have hlen : body.length = data.length + 3 := by simp [hbody]
  have hframe : dataFrame addr data =
      body ++ [lowByte (modbusCrc16 body), highByte (modbusCrc16 body)] := rfl
  rw [frameCrc, length_dataFrame, hframe, List.getD_append_right _ _ _ _ (by omega),
    List.getD_append_right _ _ _ _ (by omega),
    show data.length + 5 - 1 - body.length = 1 by omega,
    show data.length + 5 - 2 - body.length = 0 by omega]
  simp

/-- Data of at most 255 bytes are counted by their byte. -/
theorem byteCount_dataFrame (h : data.length ≤ 255) :
    byteCount (dataFrame addr data) = data.length := by
  simp only [byteCount, dataFrame, List.cons_append, List.getD_cons_succ, List.getD_cons_zero,
    BitVec.toNat_ofNat]
  omega

/-- **A built frame is well formed**, whatever address it answers from. -/
theorem wellFormed_dataFrame (h : data.length ≤ 255) : WellFormed (dataFrame addr data) where
  min_le := by rw [length_dataFrame]; omega
  func := rfl
  length_eq := by rw [length_dataFrame, byteCount_dataFrame h]
  crc := by rw [frameCrc_dataFrame, take_dataFrame]

@[simp] theorem length_regBytes : (regBytes regs).length = regs.length * 2 := by
  induction regs with
  | nil => rfl
  | cons r regs ih =>
    rw [regBytes, List.flatMap_cons, List.length_append, ← regBytes, ih, List.length_cons]
    simp only [List.length_cons, List.length_nil]
    omega

/-- The two bytes of a register inside the register block. -/
theorem regBytes_getD : ∀ (regs : List UShort) (i : ℕ) (h : i < regs.length),
    (regBytes regs).getD (i * 2) 0 = highByte regs[i] ∧
      (regBytes regs).getD (i * 2 + 1) 0 = lowByte regs[i] := by
  intro regs
  induction regs with
  | nil => intro i h; simp at h
  | cons r regs ih =>
    intro i h
    have hcons : regBytes (r :: regs) = highByte r :: lowByte r :: regBytes regs := rfl
    cases i with
    | zero => simp [hcons]
    | succ i =>
      have hi := ih i (by simpa using h)
      simpa [hcons, Nat.succ_mul] using hi

/-- The registers at the head of the data are the registers of the frame. -/
theorem frameReg_dataFrame {i : ℕ} (hi : i < regs.length) (rest : List UChar) :
    frameReg (dataFrame addr (regBytes regs ++ rest)) i = regs[i] := by
  have hget : ∀ j, j < regs.length * 2 →
      (dataFrame addr (regBytes regs ++ rest)).getD (3 + j) 0 = (regBytes regs).getD j 0 := by
    intro j hj
    rw [dataFrame, List.getD_append _ _ _ _ (by simp; omega), Nat.add_comm 3 j]
    exact List.getD_append _ _ _ _ (by rw [length_regBytes]; exact hj)
  obtain ⟨hhi, hlo⟩ := regBytes_getD regs i hi
  rw [frameReg, hget _ (by omega), show 4 + i * 2 = 3 + (i * 2 + 1) by omega, hget _ (by omega),
    hhi, hlo, joinBytes_highByte_lowByte]

/-- The registers unpacked from a built frame. -/
theorem map_frameReg_dataFrame {n : ℕ} (hn : n ≤ regs.length) (rest : List UChar) :
    (List.range n).map (frameReg (dataFrame addr (regBytes regs ++ rest))) = regs.take n := by
  refine List.ext_getElem (by simp; omega) fun i h₁ h₂ => ?_
  simp only [List.length_map, List.length_range] at h₁
  rw [List.getElem_map, List.getElem_range, List.getElem_take, frameReg_dataFrame (by omega)]

/-- A response is the frame around its registers. -/
theorem responseFrame_eq_dataFrame : responseFrame addr regs = dataFrame addr (regBytes regs) := by
  simp only [responseFrame, dataFrame, length_regBytes]

@[simp] theorem length_responseFrame : (responseFrame addr regs).length = regs.length * 2 + 5 := by
  rw [responseFrame_eq_dataFrame, length_dataFrame, length_regBytes]

/-- The registers unpacked from a response. -/
theorem map_frameReg_responseFrame {n : ℕ} (hn : n ≤ regs.length) :
    (List.range n).map (frameReg (responseFrame addr regs)) = regs.take n := by
  have h := @map_frameReg_dataFrame addr regs n hn []
  rwa [List.append_nil, ← responseFrame_eq_dataFrame] at h

section Fits

variable (h125 : regs.length ≤ 125)

include h125

/-- With at most 125 registers the byte count fits its byte. -/
theorem byteCount_responseFrame : byteCount (responseFrame addr regs) = regs.length * 2 := by
  rw [responseFrame_eq_dataFrame, byteCount_dataFrame (by rw [length_regBytes]; omega),
    length_regBytes]

/-- A response of at most 125 registers is well formed. -/
theorem wellFormed_responseFrame : WellFormed (responseFrame addr regs) := by
  rw [responseFrame_eq_dataFrame]
  exact wellFormed_dataFrame (by rw [length_regBytes]; omega)

end Fits

/-- **No proper prefix of a well-formed frame is well formed**: it still
announces the whole length. -/
theorem not_wellFormed_of_cut {buf' : List UChar} (hw : WellFormed buf) (hp : buf' <+: buf)
    (hne : buf' ≠ buf) : ¬ WellFormed buf' := by
  intro hw'
  have hlt : buf'.length < buf.length :=
    lt_of_le_of_ne hp.length_le fun h => hne (hp.eq_of_length h)
  have hcount : byteCount buf' = byteCount buf := by
    obtain ⟨rest, rfl⟩ := hp
    have := hw'.min_le
    rw [byteCount, byteCount, List.getD_append _ _ _ _ (by omega)]
  have h₁ := hw.length_eq
  have h₂ := hw'.length_eq
  omega

end Modbus

end WaterGateway
