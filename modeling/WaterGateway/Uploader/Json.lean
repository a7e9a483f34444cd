import WaterGateway.Common.Rounding
import WaterGateway.Sample.Model

/-!
# The JSON line

`uploader_build_json`: the text its `snprintf` makes. A reading is printed
with `%.2f`, rounded exactly with ties to even; the conversion of the
conductivity to `int` truncates, and saturates as the target's does.
-/

namespace WaterGateway

namespace Uploader

/-- `'\n'`. -/
def newline : UChar := 10

/-- `%u`. -/
def decimal (n : ℕ) : List UChar := (Nat.toDigits 10 n).map fun c => BitVec.ofNat 8 c.toNat

/-- `%d` and `%lld`. -/
def signedDecimal (x : ℤ) : List UChar :=
  if x < 0 then bytes "-" ++ decimal x.natAbs else decimal x.natAbs

/-- `%.2f` of a value that is not negative. -/
def magnitude2 (x : Single) : List UChar :=
  if x.isNaN then bytes "nan"
  else if x.isInf then bytes "inf"
  else
    let hundredths := Rounding.nearest (x.mag * 100) (2 ^ 149)
    decimal (hundredths / 100) ++ bytes "." ++ decimal (hundredths % 100 / 10) ++
      decimal (hundredths % 10)

/-- `%.2f`. -/
def fixed2 (x : Single) : List UChar := if x.neg then bytes "-" ++ magnitude2 x else magnitude2 x

/-- The cast `(int)x`. -/
def toInt (x : Single) : ℤ :=
  if x.isNaN then 0
  else
    let n : ℤ := (x.mag / 2 ^ 149 : ℕ)
    if x.neg then max (-n) (-2 ^ 31) else min n (2 ^ 31 - 1)

/-- The members of the object, after the device. -/
def members (sample : WaterSample) : List UChar :=
  bytes "\",\"timestamp_ms\":" ++ signedDecimal sample.timestampMs.toInt ++
  bytes ",\"ph\":" ++ fixed2 sample.ph ++
  bytes ",\"temperature\":" ++ fixed2 sample.temperature ++
  bytes ",\"turbidity\":" ++ fixed2 sample.turbidity ++
  bytes ",\"conductivity\":" ++ signedDecimal (toInt sample.conductivity) ++
  bytes ",\"sensor_status\":" ++ decimal sample.sensorStatus.toNat ++
  bytes ",\"alarm_status\":" ++ decimal sample.alarmStatus.toNat ++
  bytes ",\"sequence\":" ++ decimal sample.sequence.toNat ++ bytes "\x7d"

/-- `uploader_build_json`: the whole text, of which `snprintf` returns the
length. -/
def uploaderBuildJson (deviceId : List UChar) (sample : WaterSample) : List UChar :=
  bytes "\x7b\"device_id\":\"" ++ deviceId ++ members sample ++ [newline]

/-- `sizeof(json)`. -/
def jsonSize : ℕ := 512

variable {deviceId : List UChar} {sample : WaterSample}

/-- **A line ends with a newline.** -/
theorem getLast?_uploaderBuildJson :
    (uploaderBuildJson deviceId sample).getLast? = some newline :=
  List.getLast?_concat

theorem uploaderBuildJson_ne_nil : uploaderBuildJson deviceId sample ≠ [] :=
  List.append_ne_nil_of_right_ne_nil _ (List.cons_ne_nil _ _)

/-! ## The bytes of a number -/

/-- What `%d`, `%u`, `%lld` and `%.2f` can print. -/
def numberBytes : List UChar := bytes "-.0123456789afin"

/-- The characters of a numeral. -/
theorem toNat_of_mem_toDigits {n : ℕ} {c : Char} (h : c ∈ Nat.toDigits 10 n) :
    48 ≤ c.toNat ∧ c.toNat ≤ 57 := by
  have hdigit : c.isDigit = true := Nat.isDigit_of_mem_toDigits (by decide) (by decide) h
  simpa [Char.isDigit, UInt32.le_iff_toNat_le] using hdigit

/-- The byte of a digit. -/
theorem toNat_decimal {n : ℕ} {b : UChar} (h : b ∈ decimal n) : 48 ≤ b.toNat ∧ b.toNat ≤ 57 := by
  obtain ⟨c, hc, rfl⟩ := List.mem_map.1 h
  have hrange := toNat_of_mem_toDigits hc
  rw [BitVec.toNat_ofNat]
  omega

theorem decimal_subset (n : ℕ) : decimal n ⊆ numberBytes := by
  intro b hb
  have hall : ∀ b : UChar, 48 ≤ b.toNat → b.toNat ≤ 57 → b ∈ numberBytes := by decide +kernel
  exact hall b (toNat_decimal hb).1 (toNat_decimal hb).2

theorem signedDecimal_subset (x : ℤ) : signedDecimal x ⊆ numberBytes := by
  unfold signedDecimal
  split
  · exact List.append_subset_of_subset_of_subset (by decide +kernel) (decimal_subset _)
  · exact decimal_subset _

theorem magnitude2_subset (x : Single) : magnitude2 x ⊆ numberBytes := by
  unfold magnitude2
  split
  · decide +kernel
  split
  · decide +kernel
  · exact List.append_subset_of_subset_of_subset (List.append_subset_of_subset_of_subset
      (List.append_subset_of_subset_of_subset (decimal_subset _) (by decide +kernel))
      (decimal_subset _)) (decimal_subset _)

theorem fixed2_subset (x : Single) : fixed2 x ⊆ numberBytes := by
  unfold fixed2
  split
  · exact List.append_subset_of_subset_of_subset (by decide +kernel) (magnitude2_subset x)
  · exact magnitude2_subset x

/-- **`%u` is injective.** -/
theorem decimal_injective : Function.Injective decimal := by
  have hback : ∀ n, (decimal n).map (fun b => Char.ofNat b.toNat) = Nat.toDigits 10 n := by
    intro n
    rw [decimal, List.map_map]
    refine (List.map_congr_left fun c hc => ?_).trans (List.map_id _)
    have hfit : c.toNat % 2 ^ 8 = c.toNat := by
      have hrange := toNat_of_mem_toDigits hc
      omega
    simp only [Function.comp_apply, BitVec.toNat_ofNat, hfit, Char.ofNat_toNat, id]
  intro m n h
  have hdigits : Nat.toDigits 10 m = Nat.toDigits 10 n := by rw [← hback, ← hback, h]
  rw [← Nat.ofDigitChars_ten_toDigits (n := m), hdigits, Nat.ofDigitChars_ten_toDigits]

/-- **`%lld` is injective.** -/
theorem signedDecimal_injective : Function.Injective signedDecimal := by
  have hminus : ∀ m n, bytes "-" ++ decimal m ≠ decimal n := by
    intro m n h
    have hmem : (45 : UChar) ∈ decimal n := h ▸ List.mem_cons_self
    exact absurd (toNat_decimal hmem).1 (by decide)
  intro x y h
  unfold signedDecimal at h
  split at h
  · split at h
    · have habs := decimal_injective (List.append_cancel_left h)
      omega
    · exact absurd h (hminus _ _)
  · split at h
    · exact absurd h.symm (hminus _ _)
    · have habs := decimal_injective h
      omega

/-- The printable characters of ASCII. -/
def printable : List UChar := (List.range' 32 95).map fun c => BitVec.ofNat 8 c

theorem members_subset (sample : WaterSample) : members sample ⊆ printable := by
  have hnumber : numberBytes ⊆ printable := by decide +kernel
  have hname : ∀ l name : List UChar, l ⊆ printable →
      (name.all (fun b => printable.contains b)) = true → l ++ name ⊆ printable := by
    intro l name hl hname
    have hsub : name ⊆ printable := fun b hb =>
      List.contains_iff_mem.1 (List.all_eq_true.1 hname b hb)
    exact List.append_subset_of_subset_of_subset hl hsub
  have hfield : ∀ l u : List UChar, l ⊆ printable → u ⊆ numberBytes → l ++ u ⊆ printable :=
    fun l u hl hu => List.append_subset_of_subset_of_subset hl (List.Subset.trans hu hnumber)
  unfold members
  refine hname _ _ ?_ (by decide +kernel)
  refine hfield _ _ (hname _ _ ?_ (by decide +kernel)) (decimal_subset _)
  refine hfield _ _ (hname _ _ ?_ (by decide +kernel)) (decimal_subset _)
  refine hfield _ _ (hname _ _ ?_ (by decide +kernel)) (decimal_subset _)
  refine hfield _ _ (hname _ _ ?_ (by decide +kernel)) (signedDecimal_subset _)
  refine hfield _ _ (hname _ _ ?_ (by decide +kernel)) (fixed2_subset _)
  refine hfield _ _ (hname _ _ ?_ (by decide +kernel)) (fixed2_subset _)
  refine hfield _ _ (hname _ _ ?_ (by decide +kernel)) (fixed2_subset _)
  exact hfield _ _ (by decide +kernel) (signedDecimal_subset _)

theorem newline_notMem_members (sample : WaterSample) : newline ∉ members sample := fun h =>
  absurd (members_subset sample h) (by decide +kernel)

/-- **A line has no other newline**, where the device has none. -/
theorem newline_notMem_dropLast (h : newline ∉ deviceId) :
    newline ∉ (uploaderBuildJson deviceId sample).dropLast := by
  rw [uploaderBuildJson, List.dropLast_concat]
  exact List.not_mem_append (List.not_mem_append (by decide +kernel) h)
    (newline_notMem_members sample)

/-- The registers of the test sensor. -/
example : fixed2 ⟨0x40E3D70A⟩ = bytes "7.12" ∧
    signedDecimal (toInt ⟨0x444D0000⟩) = bytes "820" := by
  decide +kernel

end Uploader

end WaterGateway
