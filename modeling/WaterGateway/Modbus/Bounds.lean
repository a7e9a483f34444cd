import WaterGateway.Modbus.Grammar

/-!
# The parser stays inside its arrays

`modbus_crc16` and `modbus_parse_response` with every read of the buffer
written out, those of the checksum too, so that a result is one whose reads
were all inside. On a buffer of `len` bytes the parser has one
(`modbusParseResponseLoads_eq`), and what it does to the array it is given
is all or nothing, up to the count it returns (`parse_in_bounds`).
-/

namespace WaterGateway

namespace Modbus

variable {buf : List UChar} {len : ℤ} {values : List UShort} {maxValues : ℤ}

/-- The outer loop of `modbus_crc16`: `n` bytes from the `i`-th on. -/
def crcLoop (buf : List UChar) : ℕ → ℕ → UShort → Option UShort
  | 0, _, crc => some crc
  | n + 1, i, crc => (load buf i).bind fun b => crcLoop buf n (i + 1) (crcByte crc b)

/-- `modbus_crc16` over the first `len` bytes of a buffer. -/
def modbusCrc16Loads (buf : List UChar) (len : ℤ) : Option UShort :=
  if len ≤ 0 then some 0 else crcLoop buf len.toNat 0 0xFFFF

/-- `modbus_parse_response` over this checksum. -/
def modbusParseResponseLoads (buf : List UChar) (len : ℤ) (values : List UShort) (maxValues : ℤ) :
    Option (ℤ × List UShort) :=
  if maxValues ≤ 0 then some (-1, values)
  else if len < responseMin then some (-1, values)
  else (load buf 1).bind fun func =>
  if func &&& 0x80 ≠ 0 then (load buf 2).map fun _ => (-1, values)
  else if func ≠ funcReadHolding then some (-1, values)
  else (load buf 2).bind fun count =>
  let byteCount : ℤ := count.toNat
  if len ≠ byteCount + 5 then some (-1, values)
  else (modbusCrc16Loads buf (len - 2)).bind fun expectedCrc =>
  (load buf (len - 1).toNat).bind fun hi =>
  (load buf (len - 2).toNat).bind fun lo =>
  if joinBytes hi lo ≠ expectedCrc then some (-1, values)
  else
    let regCount := if byteCount / 2 > maxValues then maxValues else byteCount / 2
    (unpackRegs buf regCount.toNat 0 values).map fun values' => (regCount, values')

/-! ## The checksum -/

/-- **The loop folds the bytes it reads**, which are all in the buffer. -/
theorem crcLoop_eq : ∀ (n i : ℕ) (crc : UShort), i + n ≤ buf.length →
    crcLoop buf n i crc = some (((buf.drop i).take n).foldl crcByte crc) := by
  intro n
  induction n with
  | zero => intro i crc _; rfl
  | succ n ih =>
    intro i crc hfit
    have hi : i < buf.length := by omega
    rw [crcLoop, load_eq_some hi 0, Option.bind_some, ih (i + 1) _ (by omega),
      List.drop_eq_getElem_cons hi, List.take_succ_cons, List.foldl_cons,
      List.getD_eq_getElem _ _ hi]

theorem modbusCrc16Loads_eq (h : len ≤ buf.length) :
    modbusCrc16Loads buf len = some (modbusCrc16 (buf.take len.toNat)) := by
  unfold modbusCrc16Loads modbusCrc16
  by_cases hpos : len ≤ 0
  · rw [if_pos hpos, if_pos (by rw [List.length_take]; omega)]
  · rw [if_neg hpos, if_neg (by rw [List.length_take]; omega), crcLoop_eq _ _ _ (by omega),
      List.drop_zero]

/-! ## The parser -/

/-- **No read of the checksum leaves the buffer.** -/
theorem modbusParseResponseLoads_eq (h : len ≤ buf.length) :
    modbusParseResponseLoads buf len values maxValues =
      modbusParseResponse buf len values maxValues := by
  unfold modbusParseResponseLoads modbusParseResponse
  simp only [modbusCrc16Loads_eq (by omega : len - 2 ≤ buf.length), Option.bind_some]

/-- What the parser may do to the array of `maxValues` entries it is given:
nothing, with the result `-1`, or write as many entries as it counts. -/
inductive Writes (values : List UShort) (maxValues : ℤ) : ℤ → List UShort → Prop
  | refused : Writes values maxValues (-1) values
  | unpacked (r : ℤ) (values' : List UShort) (nonneg : 0 ≤ r) (le : r ≤ maxValues)
      (length : values'.length = values.length)
      (rest : values'.drop r.toNat = values.drop r.toNat) : Writes values maxValues r values'

/-- **The parser stays in bounds**, for every buffer of `len` bytes and every
array of `maxValues` entries: no read or write of it falls outside, and the
array is as it was but for the entries it counts. -/
theorem parse_in_bounds (hlen : len = buf.length) (hval : maxValues = values.length)
    (hmax : 1 ≤ maxValues) :
    ∃ r values', modbusParseResponseLoads buf len values maxValues = some (r, values') ∧
      Writes values maxValues r values' := by
  subst hlen
  rw [modbusParseResponseLoads_eq (Int.le_refl _), modbusParseResponse_eq hmax (by omega)]
  by_cases hw : WellFormed buf
  · have hcount : regCount buf maxValues ≤ maxValues.toNat := Nat.min_le_right _ _
    refine ⟨_, _, if_pos hw, .unpacked _ _ (by omega) (by omega) ?_ ?_⟩
    · rw [List.length_append, List.length_map, List.length_range, List.length_drop]
      omega
    · rw [Int.toNat_natCast]
      exact List.drop_left' (by rw [List.length_map, List.length_range])
  · exact ⟨_, _, if_neg hw, .refused⟩

/-- Two registers in a frame of three, for an array of two. -/
theorem parse_in_bounds_two :
    ∃ r values', modbusParseResponseLoads (responseFrame 1 [7, 8, 9]) 11 [0, 0] 2 =
      some (r, values') ∧ Writes [0, 0] 2 r values' :=
  parse_in_bounds (by rw [length_responseFrame]; rfl) rfl (by decide)

end Modbus

end WaterGateway
