import WaterGateway.Modbus.Frame
import WaterGateway.Serial.WriteAll

/-!
# One request and its answer

`modbus_read_registers`: a request is built and written, one `serial_read`
takes what is there, and the parser judges it. What the parser judges is
the frame and not the request, so any well-formed frame is an answer
(`wellFormed_of_modbusReadRegisters`); and the one `serial_read` takes one
`read`, so the answer has to be there in full when it is made
(`modbusReadRegisters_fragments_iff`).
-/

namespace WaterGateway

namespace Modbus

open Serial

/-- `sizeof(response)`. -/
def responseSize : ℕ := 256

/-- `modbus_read_registers`: the count it returns, and the array it leaves
in `values`. `writes` and `rx` are what the system answers on the port. -/
def modbusReadRegisters (fd : ℤ) (slaveAddr : UChar) (startAddr quantity : UShort)
    (values : List UShort) (maxValues timeoutMs : ℤ) (writes : List WriteResult)
    (rx : Receiver) : Option (ℤ × List UShort) :=
  match modbusBuildReadRequest slaveAddr startAddr quantity 8 with
  | none => some (-1, values)
  | some request =>
    (serialWrite fd request writes).bind fun written =>
    if written.1 ≠ request.length then some (-1, values)
    else
      let response := serialRead fd responseSize timeoutMs rx
      if response.1 ≤ 0 then some (-1, values)
      else modbusParseResponse response.2 response.1 values maxValues

/-- The call in `collect_thread`: seven registers from address 0, into an
array of seven. -/
def collectRead (fd : ℤ) (slaveAddr : UChar) (values : List UShort) (writes : List WriteResult)
    (rx : Receiver) : Option (ℤ × List UShort) :=
  modbusReadRegisters fd slaveAddr 0x0000 7 values 7 500 writes rx

variable {fd : ℤ} {slaveAddr : UChar} {startAddr quantity : UShort} {values : List UShort}
variable {maxValues timeoutMs : ℤ} {writes : List WriteResult} {rx : Receiver}

/-- A positive result of `serial_read` is the number of bytes it put into
the buffer. -/
theorem serialRead_eq {len : ℕ} (h : 0 < (serialRead fd len timeoutMs rx).1) :
    (serialRead fd len timeoutMs rx).1 = (serialRead fd len timeoutMs rx).2.length := by
  unfold serialRead at h ⊢
  split_ifs at h ⊢ with hfd
  · simp at h
  · cases hsel : rx.select timeoutMs <;> simp only [hsel] at h ⊢ <;> try omega
    cases hrd : rx.read <;> simp only [hrd] at h ⊢ <;> omega

/-- A count of at least 0 was parsed from the bytes of the one read. -/
theorem exists_parse_of_modbusReadRegisters {r : ℤ} {vs : List UShort}
    (h : modbusReadRegisters fd slaveAddr startAddr quantity values maxValues timeoutMs writes rx
      = some (r, vs)) (hr : 0 ≤ r) :
    ∃ buf, serialRead fd responseSize timeoutMs rx = ((buf.length : ℤ), buf) ∧
      modbusParseResponse buf buf.length values maxValues = some (r, vs) := by
  unfold modbusReadRegisters at h
  split at h
  · cases h; omega
  · obtain ⟨written, -, h⟩ := Option.bind_eq_some_iff.1 h
    simp only at h
    split_ifs at h with hlen hpos
    · cases h; omega
    · cases h; omega
    · have hlength : (serialRead fd responseSize timeoutMs rx).1 =
          (serialRead fd responseSize timeoutMs rx).2.length := serialRead_eq (by omega)
      exact ⟨_, Prod.ext hlength rfl, by rwa [hlength] at h⟩

/-- **A call comes to its end** where its `serial_write` does. -/
theorem modbusReadRegisters_isSome (hmax : 0 < maxValues) (hval : maxValues ≤ values.length)
    (hwrite : ∀ request, modbusBuildReadRequest slaveAddr startAddr quantity 8 = some request →
      serialWrite fd request writes ≠ none) :
    (modbusReadRegisters fd slaveAddr startAddr quantity values maxValues timeoutMs writes
      rx).isSome := by
  unfold modbusReadRegisters
  split
  · rfl
  · next request hrequest =>
    obtain ⟨written, hwritten⟩ := Option.ne_none_iff_exists'.1 (hwrite request hrequest)
    rw [hwritten, Option.bind_some]
    split_ifs with hlen
    · rfl
    · dsimp only
      split_ifs with hpos
      · rfl
      · have hlength := serialRead_eq (Int.not_le.1 hpos)
        rw [hlength]
        exact modbusParseResponse_isSome hmax hval

/-! ## Which answers are accepted -/

/-- **An accepted answer is a well-formed frame, and this is all it is.**
The count is half of the byte count it announces, cut to the array, and
the registers are the frame's first ones; seven registers accepted by the
collect loop are the first seven of a frame with at least fourteen data
bytes. The address byte and the byte count are compared with nothing. -/
theorem wellFormed_of_modbusReadRegisters (hq : (quantity.toNat : ℤ) ≤ maxValues)
    (hval : maxValues ≤ values.length) {r : ℤ} {vs : List UShort}
    (h : modbusReadRegisters fd slaveAddr startAddr quantity values maxValues timeoutMs writes rx
      = some (r, vs)) (hr : 0 ≤ r) :
    ∃ buf, serialRead fd responseSize timeoutMs rx = ((buf.length : ℤ), buf) ∧
      WellFormed buf ∧ r = min ((byteCount buf / 2 : ℕ) : ℤ) maxValues ∧
      (maxValues = 7 → r = 7 → 14 ≤ byteCount buf) ∧
      vs = (List.range r.toNat).map (frameReg buf) ++ values.drop r.toNat := by
  have hmax : 0 < maxValues := by
    -- a request for no registers is refused before anything is read
    by_contra hmax
    have h0 : quantity = 0 := BitVec.eq_of_toNat_eq (by simp; omega)
    have hbuild : modbusBuildReadRequest slaveAddr startAddr quantity 8 = none := by
      simp [modbusBuildReadRequest, h0]
    rw [modbusReadRegisters, hbuild] at h
    cases h
    omega
  obtain ⟨buf, hread, hparse⟩ := exists_parse_of_modbusReadRegisters h hr
  obtain ⟨hw, hcount, hvs⟩ := wellFormed_of_parse hmax hval hparse hr
  have hmin : r = min ((byteCount buf / 2 : ℕ) : ℤ) maxValues := by
    rw [hcount, regCount]; omega
  refine ⟨buf, hread, hw, hmin, fun h7 hr7 => by omega, ?_⟩
  rw [hvs, hcount, Int.toNat_natCast]

/-- The collect loop's call accepts a frame of eight registers as seven. -/
theorem wellFormed_of_modbusReadRegisters_collect :
    ∃ buf, serialRead 3 responseSize 500
        ⟨fun _ => .ready, .data (responseFrame 1 (List.replicate 8 5))⟩ = ((buf.length : ℤ), buf) ∧
      WellFormed buf ∧ (7 : ℤ) = min ((byteCount buf / 2 : ℕ) : ℤ) 7 ∧
      ((7 : ℤ) = 7 → (7 : ℤ) = 7 → 14 ≤ byteCount buf) ∧
      List.replicate 7 5 = (List.range (7 : ℤ).toNat).map (frameReg buf) ++
        (List.replicate 7 0).drop (7 : ℤ).toNat :=
  wellFormed_of_modbusReadRegisters (by decide) (by decide)
    (show modbusReadRegisters 3 1 0 7 (List.replicate 7 0) 7 500 [.wrote 8]
      ⟨fun _ => .ready, .data (responseFrame 1 (List.replicate 8 5))⟩ = some (7, List.replicate 7 5)
      by decide +kernel) (by decide)

/-- **Answers to another request are accepted**: asked for seven registers
of slave 1, the collect loop's call takes the answer of slave 2, and takes
a frame of eight registers; with room for sixteen, as in
`modbus_test_serial_read`, the same request returns eight. -/
theorem modbusReadRegisters_accepts_foreign :
    (collectRead 3 1 (List.replicate 7 0) [.wrote 8]
        ⟨fun _ => .ready, .data (responseFrame 2 (List.replicate 7 5))⟩
          = some (7, List.replicate 7 5) ∧
      (responseFrame 2 (List.replicate 7 5)).getD 0 0 ≠ 1) ∧
    (collectRead 3 1 (List.replicate 7 0) [.wrote 8]
        ⟨fun _ => .ready, .data (responseFrame 1 (List.replicate 8 5))⟩
          = some (7, List.replicate 7 5) ∧
      byteCount (responseFrame 1 (List.replicate 8 5)) ≠ 2 * 7) ∧
    modbusReadRegisters 3 1 0 7 (List.replicate 16 0) 16 1000 [.wrote 8]
        ⟨fun _ => .ready, .data (responseFrame 1 (List.replicate 8 5))⟩
          = some (8, List.replicate 8 5 ++ List.replicate 8 0) := by
  decide +kernel

/-! ## An answer in pieces -/

/-- A request for 1 … 125 registers is built, and has eight bytes. -/
theorem exists_request (h₁ : 1 ≤ quantity.toNat) (h₁₂₅ : quantity.toNat ≤ 125) :
    ∃ request, modbusBuildReadRequest slaveAddr startAddr quantity 8 = some request ∧
      request.length = 8 := by
  have hzero : ¬ (quantity = 0 ∨ maxRegisters < quantity) := by
    rintro (h | h)
    · rw [h] at h₁; simp at h₁
    · have hmax : maxRegisters.toNat = 125 := rfl
      rw [BitVec.lt_def] at h
      omega
  exact ⟨_, by rw [modbusBuildReadRequest, if_neg (by omega), if_neg hzero], rfl⟩

/-- **A request whose bytes were all written is answered by what arrived
before the read**: the parser is run on it. -/
theorem modbusReadRegisters_receiverOn {line : List Arrival} {t : ℕ} (hfd : 0 ≤ fd)
    (h₁ : 1 ≤ quantity.toNat) (h₁₂₅ : quantity.toNat ≤ 125)
    (hwrite : ∀ request, modbusBuildReadRequest slaveAddr startAddr quantity 8 = some request →
      serialWrite fd request writes = some (8, request))
    (hready : ∃ a ∈ line, timeoutMs < 0 ∨ (a.time : ℤ) ≤ timeoutMs)
    (hne : arrived line t ≠ []) (hfit : (arrived line t).length ≤ responseSize) :
    modbusReadRegisters fd slaveAddr startAddr quantity values maxValues timeoutMs writes
        (receiverOn line t) =
      modbusParseResponse (arrived line t) (arrived line t).length values maxValues := by
  obtain ⟨request, hreq, hlen⟩ : ∃ request,
      modbusBuildReadRequest slaveAddr startAddr quantity 8 = some request ∧ request.length = 8 :=
    exists_request h₁ h₁₂₅
  have hread : serialRead fd responseSize timeoutMs (receiverOn line t) =
      (((arrived line t).length : ℤ), arrived line t) := by
    rw [serialRead, if_neg (by simp [responseSize]; omega)]
    simp only [receiverOn, selectOn, if_pos hready, List.take_of_length_le hfit]
  have hpos : 0 < (arrived line t).length := List.length_pos_of_ne_nil hne
  simp only [modbusReadRegisters, hreq, hwrite request hreq, Option.bind_some, hlen, hread]
  rw [if_neg (by simp), if_neg (by omega)]

/-- **Reading depends on the fragments.** For an accepted request whose
answer arrives in time, in any chunks, the call returns the registers of
the answer exactly when the last chunk has arrived by the time of its one
`read`. -/
theorem modbusReadRegisters_fragments_iff (hfd : 0 ≤ fd) (hmax : 0 < maxValues)
    (hval : maxValues ≤ values.length) {regs : List UShort} (hregs : regs.length = quantity.toNat)
    (h₁ : 1 ≤ quantity.toNat) (h₁₂₅ : quantity.toNat ≤ 125)
    (hwrite : ∀ request, modbusBuildReadRequest slaveAddr startAddr quantity 8 = some request →
      serialWrite fd request writes = some (8, request))
    {line : List Arrival} (hne : ∀ a ∈ line, a.chunk ≠ [])
    (hsorted : line.Pairwise (·.time ≤ ·.time))
    (hframe : line.flatMap Arrival.chunk = responseFrame slaveAddr regs)
    (hintime : ∀ a ∈ line, timeoutMs < 0 ∨ (a.time : ℤ) ≤ timeoutMs)
    {t : ℕ} (hfirst : ∃ a ∈ line, a.time ≤ t) :
    modbusReadRegisters fd slaveAddr startAddr quantity values maxValues timeoutMs writes
        (receiverOn line t) =
          some (min (regs.length : ℤ) maxValues,
            regs.take maxValues.toNat ++ values.drop (min regs.length maxValues.toNat)) ↔
      ∀ a ∈ line, a.time ≤ t := by
  have hw : WellFormed (responseFrame slaveAddr regs) := wellFormed_responseFrame (by omega)
  have hprefix : arrived line t <+: responseFrame slaveAddr regs :=
    hframe ▸ arrived_prefix hsorted t
  have hfit : (arrived line t).length ≤ responseSize := by
    have := hprefix.length_le
    rw [length_responseFrame] at this
    rw [responseSize]
    omega
  obtain ⟨a, ha, hat⟩ := hfirst
  rw [modbusReadRegisters_receiverOn hfd h₁ h₁₂₅ hwrite ⟨a, ha, hintime a ha⟩
    (arrived_ne_nil hne ⟨a, ha, hat⟩) hfit, modbusParseResponse_eq hmax hval,
    ← arrived_eq_iff hne, hframe]
  constructor
  · intro h
    by_contra hcut
    rw [if_neg (not_wellFormed_of_cut hw hprefix hcut)] at h
    simp only [Option.some.injEq, Prod.mk.injEq] at h
    omega
  · intro hall
    have hcount : regCount (responseFrame slaveAddr regs) maxValues =
        min regs.length maxValues.toNat := by
      rw [regCount, byteCount_responseFrame (by omega)]
      omega
    rw [hall, if_pos hw, hcount, map_frameReg_responseFrame (by omega)]
    congr 2
    · omega
    · exact congrArg (· ++ _) (List.take_eq_take_iff.2 (by omega))

/-- The registers of the first test vector of `modbus_run_sensor_tests`. -/
def normalRegs : List UShort := [712, 2534, 320, 820, 0, 0, 1280]

/-- The answer with them, cut after `n` bytes: the first part readable at
once, the rest 9 ms later. -/
def cutLine (n : ℕ) : List Arrival :=
  [⟨0, (responseFrame 1 normalRegs).take n⟩, ⟨9, (responseFrame 1 normalRegs).drop n⟩]

/-- Cut in two and read late enough, it is returned; the `read` at 9 ms
sees both parts. -/
theorem modbusReadRegisters_fragments_iff_cut :
    modbusReadRegisters 3 1 0 7 (List.replicate 7 0) 7 500 [.wrote 8] (receiverOn (cutLine 8) 9) =
        some (min (normalRegs.length : ℤ) 7,
          normalRegs.take (7 : ℤ).toNat ++
            (List.replicate 7 0).drop (min normalRegs.length (7 : ℤ).toNat)) ↔
      ∀ a ∈ cutLine 8, a.time ≤ 9 :=
  modbusReadRegisters_fragments_iff (by decide) (by decide) (by decide) (by decide) (by decide)
    (by decide)
    (fun request h => by
      rw [show modbusBuildReadRequest 1 0 7 8 = some [1, 3, 0, 0, 0, 7, 4, 8]
        by decide +kernel] at h
      cases h
      decide +kernel)
    (by decide +kernel) (by decide +kernel) (by decide +kernel) (by decide +kernel)
    (by decide +kernel)

/-- **An answer cut in two is lost**: all of it is readable within the
500 ms of the call, and in one piece it is returned, but the `read` made
when the first eight bytes are there makes the call fail. -/
theorem modbusReadRegisters_loses_cut_answer :
    (cutLine 8).flatMap Arrival.chunk = responseFrame 1 normalRegs ∧
    (∀ a ∈ cutLine 8, a.chunk ≠ [] ∧ (a.time : ℤ) ≤ 500) ∧
    modbusReadRegisters 3 1 0 7 (List.replicate 7 0) 7 500 [.wrote 8] (receiverOn (cutLine 8) 0) =
      some (-1, List.replicate 7 0) ∧
    modbusReadRegisters 3 1 0 7 (List.replicate 7 0) 7 500 [.wrote 8]
        (receiverOn [⟨0, responseFrame 1 normalRegs⟩] 0) =
      some (7, normalRegs) := by
  decide +kernel

end Modbus

end WaterGateway
