import Mathlib.Data.List.GetD
import Mathlib.Data.List.Induction
import WaterGateway.Common.Word

/-!
# The dump of a frame

`modbus_hex_dump` writes the bytes of a frame as text for as long as a byte
more and the blank before it fit. Its loop is guarded by the position, each
`snprintf` by the room left; the guard is the stronger one, so no
`snprintf` cuts its text and the last byte of the dump is whole
(`hexDump_bounded`).
-/

namespace WaterGateway

namespace Modbus

/-! ## The text -/

/-- An upper-case digit. -/
def hexDigit (d : ℕ) : UChar := BitVec.ofNat 8 (if d < 10 then 48 + d else 55 + d)

/-- `%02X` of a byte. -/
def hexByte (b : UChar) : List UChar := [hexDigit (b.toNat / 16), hexDigit (b.toNat % 16)]

/-- **What the dump is to say**: the bytes, with a blank between two. -/
def hexText : List UChar → List UChar
  | [] => []
  | b :: bs => hexByte b ++ bs.flatMap fun c => 32 :: hexByte c

/-! ## The source -/

/-- The bytes of `text` written one after another from `out[pos]` on. -/
def storeAll (out : List UChar) (pos : ℕ) : List UChar → Option (List UChar)
  | [] => some out
  | c :: text => (store out pos c).bind fun out' => storeAll out' (pos + 1) text

/-- `snprintf(out + pos, size, …)` of a formatted text, cut to `size` with
the NUL behind it. Its result is the length of the whole text. -/
def snprintf (out : List UChar) (pos size : ℕ) (text : List UChar) : Option (List UChar) :=
  if size = 0 then some out else storeAll out pos (text.take (size - 1) ++ [0])

/-- The locals of `modbus_hex_dump`, its buffer, and for each call of
`snprintf` the room it was given and the text it had to write. -/
structure Dump where
  pos : ℕ
  out : List UChar
  calls : List (ℕ × List UChar)
  deriving DecidableEq

/-- What the format `"%s%02X"` gives for `buf[i]`. -/
def dumpText (i : ℕ) (b : UChar) : List UChar := (if i = 0 then [] else [32]) ++ hexByte b

/-- The loop of `modbus_hex_dump`, with `n` bytes to go from the `i`-th on. -/
def hexDumpLoop (buf : List UChar) (outSize : ℤ) : ℕ → ℕ → Dump → Option Dump
  | 0, _, d => some d
  | n + 1, i, d =>
    if (d.pos : ℤ) < outSize - 4 then
      (load buf i).bind fun b =>
      let size := (outSize - d.pos).toNat
      (snprintf d.out d.pos size (dumpText i b)).bind fun out' =>
      hexDumpLoop buf outSize n (i + 1)
        ⟨d.pos + (dumpText i b).length, out', d.calls ++ [(size, dumpText i b)]⟩
    else some d

/-- `modbus_hex_dump`. -/
def modbusHexDump (buf : List UChar) (len : ℤ) (out : List UChar) (outSize : ℤ) : Option Dump :=
  if outSize ≤ 0 then some ⟨0, out, []⟩
  else (store out 0 0).bind fun out' => hexDumpLoop buf outSize len.toNat 0 ⟨0, out', []⟩

variable {buf out text : List UChar} {outSize len : ℤ} {i n pos size : ℕ} {d : Dump}

/-! ## Texts and writes -/

theorem hexText_concat (bs : List UChar) (b : UChar) :
    hexText (bs ++ [b]) = hexText bs ++ dumpText bs.length b := by
  cases bs with
  | nil => simp [hexText, dumpText]
  | cons c bs => simp [hexText, dumpText]

theorem length_dumpText_le (i : ℕ) (b : UChar) : (dumpText i b).length ≤ 3 := by
  unfold dumpText hexByte
  split_ifs <;> simp

theorem length_dumpText (i : ℕ) (b : UChar) :
    (dumpText i b).length = 3 * (i + 1) - 1 - (3 * i - 1) := by
  unfold dumpText hexByte
  split_ifs with h
  · subst h
    rfl
  · simp only [List.cons_append, List.nil_append, List.length_cons, List.length_nil]
    omega

/-- A dump of `n` bytes ends where the next byte would start. -/
theorem length_hexText (bs : List UChar) : (hexText bs).length = 3 * bs.length - 1 := by
  induction bs using List.reverseRecOn with
  | nil => rfl
  | append_singleton bs b ih =>
    rw [hexText_concat, List.length_append, ih, length_dumpText, List.length_append,
      List.length_singleton]
    omega

theorem hexByte_ne_zero (b : UChar) : (0 : UChar) ∉ hexByte b := by
  have hdigit : ∀ d < 16, hexDigit d ≠ 0 := by decide
  have hb := b.isLt
  simp only [hexByte, List.mem_cons, List.not_mem_nil, or_false, not_or]
  exact ⟨(hdigit _ (by omega)).symm, (hdigit _ (by omega)).symm⟩

/-- There is no NUL in a dump. -/
theorem zero_notMem_hexText (bs : List UChar) : (0 : UChar) ∉ hexText bs := by
  cases bs with
  | nil => exact List.not_mem_nil
  | cons b bs =>
    rw [hexText, List.mem_append, List.mem_flatMap]
    rintro (hb | ⟨c, -, hc⟩)
    · exact hexByte_ne_zero b hb
    · exact hexByte_ne_zero c ((List.mem_cons.1 hc).resolve_left (by decide))

/-- **Writes that stay inside** replace what stood there. -/
theorem storeAll_eq (h : pos + text.length ≤ out.length) :
    storeAll out pos text =
      some (out.take pos ++ text ++ out.drop (pos + text.length)) := by
  induction text generalizing out pos with
  | nil => rw [storeAll, List.append_nil, List.length_nil, Nat.add_zero, List.take_append_drop]
  | cons c text ih =>
    rw [List.length_cons] at h
    have hpos : pos < out.length := by omega
    rw [storeAll, store_eq_some hpos, Option.bind_some, ih (by rw [List.length_set]; omega),
      List.take_set, List.drop_set_of_lt (by omega), List.take_succ_eq_append_getElem hpos,
      List.set_append_right _ _ (by rw [List.length_take]; omega), List.length_take,
      Nat.min_eq_left (Nat.le_of_lt hpos), Nat.sub_self, List.set_cons_zero, List.length_cons,
      show pos + (text.length + 1) = pos + 1 + text.length by omega]
    simp only [List.append_assoc, List.singleton_append]

/-- An `snprintf` with room for its text and a NUL. -/
theorem snprintf_eq (hroom : text.length < size) (h : pos + size ≤ out.length) :
    snprintf out pos size text =
      some (out.take pos ++ (text ++ [0]) ++ out.drop (pos + (text.length + 1))) := by
  rw [snprintf, if_neg (by omega), List.take_of_length_le (by omega),
    storeAll_eq (by rw [List.length_append, List.length_singleton]; omega),
    List.length_append, List.length_singleton]

/-! ## The loop -/

/-- Byte `i` is started at a position the guard of the loop lets pass. -/
def Starts (outSize : ℤ) (i : ℕ) : Prop := ((3 * i - 1 : ℕ) : ℤ) < outSize - 4

/-- **The invariant**: the position is behind `i` bytes and the text there,
ended by a NUL, is theirs; the buffer is as long as it was; and no call of
`snprintf` had too little room. -/
structure Dumped (buf : List UChar) (outSize : ℤ) (i : ℕ) (d : Dump) : Prop where
  pos : d.pos = 3 * i - 1
  text : hexText (buf.take i) ++ [0] <+: d.out
  length : (d.out.length : ℤ) = outSize
  calls : ∀ c ∈ d.calls, c.2.length < c.1

/-- **One round.** -/
theorem dumped_step (hd : Dumped buf outSize i d) (hi : i < buf.length)
    (hguard : (d.pos : ℤ) < outSize - 4) :
    ∃ d', Dumped buf outSize (i + 1) d' ∧
      hexDumpLoop buf outSize (n + 1) i d = hexDumpLoop buf outSize n (i + 1) d' := by
  have hle := length_dumpText_le i (buf.getD i 0)
  have hlength := hd.length
  have hsize : (outSize - d.pos).toNat = d.out.length - d.pos := by omega
  have hroom : (dumpText i (buf.getD i 0)).length < d.out.length - d.pos := by omega
  have htake : (buf.take i).length = i := by rw [List.length_take]; omega
  have hpos : d.pos = (hexText (buf.take i)).length := by rw [length_hexText, htake, hd.pos]
  have hfront : d.out.take d.pos = hexText (buf.take i) := by
    obtain ⟨rest, hrest⟩ := hd.text
    rw [← hrest, List.append_assoc, hpos, List.take_left]
  have htext : hexText (buf.take (i + 1)) = hexText (buf.take i) ++ dumpText i (buf.getD i 0) := by
    rw [List.take_succ_eq_append_getElem hi, hexText_concat, htake, List.getD_eq_getElem _ _ hi]
  have hwrite := snprintf_eq hroom (by omega : d.pos + (d.out.length - d.pos) ≤ d.out.length)
  rw [hfront] at hwrite
  refine ⟨⟨d.pos + (dumpText i (buf.getD i 0)).length,
    hexText (buf.take i) ++ (dumpText i (buf.getD i 0) ++ [0]) ++
      d.out.drop (d.pos + ((dumpText i (buf.getD i 0)).length + 1)),
    d.calls ++ [(d.out.length - d.pos, dumpText i (buf.getD i 0))]⟩, ⟨?_, ?_, ?_, ?_⟩, ?_⟩
  · have hlen := length_dumpText i (buf.getD i 0)
    have hold := hd.pos
    simp only
    omega
  · rw [htext, List.append_assoc, ← List.append_assoc (hexText (buf.take i))]
    exact List.prefix_append _ _
  · simp only [List.length_append, List.length_drop, List.length_singleton, ← hpos]
    omega
  · intro c hc
    rcases List.mem_append.1 hc with hc | hc
    · exact hd.calls c hc
    · rw [List.mem_singleton.1 hc]
      exact hroom
  · rw [hexDumpLoop, if_pos hguard, load_eq_some hi 0, Option.bind_some]
    simp only [hsize]
    rw [hwrite, Option.bind_some]

/-- **The loop** dumps bytes as long as the guard lets it. -/
theorem dumped_loop (n : ℕ) (hd : Dumped buf outSize i d) (hfit : i + n ≤ buf.length) :
    ∃ d' k, hexDumpLoop buf outSize n i d = some d' ∧ Dumped buf outSize k d' ∧ i ≤ k ∧
      k ≤ i + n ∧ (∀ j, i ≤ j → j < k → Starts outSize j) ∧
      (k < i + n → ¬ Starts outSize k) := by
  induction n generalizing i d with
  | zero => exact ⟨d, i, rfl, hd, le_rfl, le_rfl, fun j hj hlt => by omega, fun hlt => by omega⟩
  | succ n ih =>
    by_cases hguard : (d.pos : ℤ) < outSize - 4
    · obtain ⟨d₁, hd₁, hstep⟩ := dumped_step (n := n) hd (by omega) hguard
      obtain ⟨d', k, hrun, hd', hle, hle', hstarts, hstop⟩ := ih hd₁ (by omega)
      refine ⟨d', k, hstep.trans hrun, hd', by omega, by omega, fun j hj hlt => ?_,
        fun hlt => hstop (by omega)⟩
      obtain rfl | hj := Nat.eq_or_lt_of_le hj
      · rwa [hd.pos] at hguard
      · exact hstarts j hj hlt
    · refine ⟨d, i, by rw [hexDumpLoop, if_neg hguard], hd, le_rfl, by omega,
        fun j hj hlt => by omega, fun _ => ?_⟩
      rwa [hd.pos] at hguard

/-! ## The dump -/

/-- **What `modbus_hex_dump` leaves**: no `snprintf` has cut its text; the
buffer holds a string, and it is the text of the first `k` bytes; and `k` is
the largest number of bytes up to `len` that all start in time. -/
structure WholeBytes (buf : List UChar) (len outSize : ℤ) (d : Dump) (k : ℕ) : Prop where
  uncut : ∀ c ∈ d.calls, c.2.length < c.1
  length : (d.out.length : ℤ) = outSize
  terminated : (0 : UChar) ∈ d.out
  text : d.out.takeWhile (fun c => c ≠ 0) = hexText (buf.take k)
  count_le : k ≤ len.toNat
  starts : ∀ i < k, Starts outSize i
  largest : ∀ k' ≤ len.toNat, (∀ i < k', Starts outSize i) → k' ≤ k

/-- **The dump is bounded and never cuts a byte**, for every buffer that
holds `len` bytes, and every output buffer: no write leaves it. -/
theorem hexDump_bounded (hlen : len ≤ buf.length) (hsize : 1 ≤ outSize)
    (hout : (out.length : ℤ) = outSize) :
    ∃ d k, modbusHexDump buf len out outSize = some d ∧ WholeBytes buf len outSize d k := by
  have hpos : 0 < out.length := by omega
  have hstart : Dumped buf outSize 0 ⟨0, out.set 0 0, []⟩ := by
    refine ⟨rfl, ?_, by rw [List.length_set]; exact hout, fun c hc => absurd hc List.not_mem_nil⟩
    obtain ⟨c, rest, rfl⟩ := List.exists_cons_of_length_pos hpos
    exact ⟨rest, rfl⟩
  obtain ⟨d, k, hrun, hd, -, hle, hstarts, hstop⟩ := dumped_loop len.toNat hstart (by omega)
  obtain ⟨rest, hrest⟩ := hd.text
  refine ⟨d, k, ?_, hd.calls, hd.length, ?_, ?_, by omega, fun i hi => hstarts i (by omega) hi, ?_⟩
  · rw [modbusHexDump, if_neg (by omega), store_eq_some hpos, Option.bind_some, hrun]
  · rw [← hrest]
    simp
  · rw [← hrest, List.append_assoc, List.takeWhile_append_of_pos, List.singleton_append,
      List.takeWhile_cons_of_neg (by simp), List.append_nil]
    intro c hc
    have hne : c ≠ 0 := fun h0 => zero_notMem_hexText _ (h0 ▸ hc)
    simpa using hne
  · intro k' hk' hall
    by_contra hlt
    exact hstop (by omega) (hall k (by omega))

/-- Three bytes into eight: the third would start behind the guard. -/
theorem hexDump_bounded_eight :
    ∃ d k, modbusHexDump [0x01, 0xAB, 0x03] 3 (List.replicate 8 7) 8 = some d ∧
      WholeBytes [0x01, 0xAB, 0x03] 3 8 d k :=
  hexDump_bounded (by decide) (by decide) (by decide)

example : (modbusHexDump [0x01, 0xAB, 0x03] 3 (List.replicate 8 7) 8).map Dump.out =
    some (bytes "01 AB" ++ [0, 7, 7]) := by
  decide

/-- A buffer of at least 5 bytes takes a byte of the frame for each three
of its own, so 256 bytes of text hold 85. -/
theorem WholeBytes.count_eq {k : ℕ} (h : WholeBytes buf len outSize d k) (hsize : 5 ≤ outSize) :
    k = min len.toNat ((outSize - 1) / 3).toNat := by
  have hle := h.count_le
  refine Nat.le_antisymm (Nat.le_min.2 ⟨hle, ?_⟩) (h.largest _ (Nat.min_le_left _ _) fun i hi => ?_)
  · by_contra hlt
    have hstart := h.starts ((outSize - 1) / 3).toNat (by omega)
    unfold Starts at hstart
    omega
  · unfold Starts
    omega

end Modbus

end WaterGateway
