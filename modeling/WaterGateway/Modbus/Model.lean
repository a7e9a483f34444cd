import WaterGateway.Common.Word

/-!
# Modbus RTU frames

The frame functions of `modbus_rtu.c`: the checksum, the read request the
master sends, the parser for what comes back, and the response frame its
own test vectors are built with.
-/

namespace WaterGateway

namespace Modbus

/-- `MODBUS_FUNC_READ_HOLDING`. -/
def funcReadHolding : UChar := 0x03

/-- `MODBUS_MAX_REGISTERS`. -/
def maxRegisters : UShort := 125

/-- `MODBUS_RESPONSE_MIN`. -/
def responseMin : ℤ := 5

/-! ## The checksum -/

/-- One pass of the inner loop of `modbus_crc16`. -/
def crcBit (crc : UShort) : UShort :=
  if crc &&& 0x0001 ≠ 0 then (crc >>> 1) ^^^ 0xA001 else crc >>> 1

/-- One pass of the outer loop: a byte folded in, then eight shifts. -/
def crcByte (crc : UShort) (b : UChar) : UShort :=
  Nat.repeat crcBit 8 (crc ^^^ b.setWidth 16)

/-- `modbus_crc16` over the bytes it is given; an empty buffer is 0. -/
def modbusCrc16 (buf : List UChar) : UShort :=
  if buf.length = 0 then 0 else buf.foldl crcByte 0xFFFF

/-- The low byte of a word, `x & 0xFF`. -/
def lowByte (x : UShort) : UChar := x.setWidth 8

/-- The high byte of a word, `x >> 8`. -/
def highByte (x : UShort) : UChar := (x >>> 8).setWidth 8

/-- A word from its bytes, `hi << 8 | lo`. -/
def joinBytes (hi lo : UChar) : UShort := (hi.setWidth 16 <<< 8) ||| lo.setWidth 16

@[simp] theorem joinBytes_highByte_lowByte (x : UShort) :
    joinBytes (highByte x) (lowByte x) = x := by
  ext i hi
  simp only [joinBytes, highByte, lowByte, BitVec.getElem_or, BitVec.getElem_shiftLeft,
    BitVec.getElem_setWidth, BitVec.getLsbD_setWidth, BitVec.getLsbD_ushiftRight]
  by_cases h : i < 8
  · simp [h, BitVec.getLsbD_eq_getElem hi]
  · have h' : 8 + (i - 8) = i := by omega
    have h'' : i - 8 < 8 := by omega
    simp [h, h', h'', BitVec.getLsbD_eq_getElem hi]

/-! ## The request -/

/-- `modbus_build_read_request`, which refuses a small buffer and a
quantity outside 1 … 125. -/
def modbusBuildReadRequest (slaveAddr : UChar) (startAddr quantity : UShort) (bufSize : ℤ) :
    Option (List UChar) :=
  if bufSize < 8 then none
  else if quantity = 0 ∨ maxRegisters < quantity then none
  else
    let body := [slaveAddr, funcReadHolding, highByte startAddr, lowByte startAddr,
      highByte quantity, lowByte quantity]
    some (body ++ [lowByte (modbusCrc16 body), highByte (modbusCrc16 body)])

/-! ## The response -/

/-- The unpack loop of `modbus_parse_response`: `n` registers from the
`i`-th on. -/
def unpackRegs (buf : List UChar) : ℕ → ℕ → List UShort → Option (List UShort)
  | 0, _, values => some values
  | n + 1, i, values =>
    (load buf (3 + i * 2)).bind fun hi =>
    (load buf (4 + i * 2)).bind fun lo =>
    (store values i (joinBytes hi lo)).bind fun values' => unpackRegs buf n (i + 1) values'

/-- `modbus_parse_response`: the count it returns, and the array it leaves
in `values`. -/
def modbusParseResponse (buf : List UChar) (len : ℤ) (values : List UShort) (maxValues : ℤ) :
    Option (ℤ × List UShort) :=
  if maxValues ≤ 0 then some (-1, values)
  else if len < responseMin then some (-1, values)
  else (load buf 1).bind fun func =>
  -- an exception answer: its code is read for the message only
  if func &&& 0x80 ≠ 0 then (load buf 2).map fun _ => (-1, values)
  else if func ≠ funcReadHolding then some (-1, values)
  else (load buf 2).bind fun count =>
  let byteCount : ℤ := count.toNat
  if len ≠ byteCount + 5 then some (-1, values)
  else (load buf (len - 1).toNat).bind fun hi =>
  (load buf (len - 2).toNat).bind fun lo =>
  if joinBytes hi lo ≠ modbusCrc16 (buf.take (len - 2).toNat) then some (-1, values)
  else
    let regCount := if byteCount / 2 > maxValues then maxValues else byteCount / 2
    (unpackRegs buf regCount.toNat 0 values).map fun values' => (regCount, values')

/-- The registers of a frame, high byte first. -/
def regBytes (regs : List UShort) : List UChar :=
  regs.flatMap fun r => [highByte r, lowByte r]

/-- A response frame: address, function, byte count, registers, and the
checksum low byte first. -/
def responseFrame (addr : UChar) (regs : List UShort) : List UChar :=
  let body := addr :: funcReadHolding :: BitVec.ofNat 8 (regs.length * 2) :: regBytes regs
  body ++ [lowByte (modbusCrc16 body), highByte (modbusCrc16 body)]

/-- `build_test_response`, which answers as slave 1. -/
def buildTestResponse (regs : List UShort) : List UChar := responseFrame 0x01 regs

/-- The first test vector of `modbus_run_sensor_tests` is parsed back. -/
example : modbusParseResponse (buildTestResponse [712, 2534, 320, 820, 0, 0, 1280]) 19
    (List.replicate 16 0) 16 =
      some (7, [712, 2534, 320, 820, 0, 0, 1280] ++ List.replicate 9 0) := by
  decide +kernel

end Modbus

end WaterGateway
