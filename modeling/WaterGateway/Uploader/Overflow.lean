import WaterGateway.Config.Model
import WaterGateway.Uploader.Length
import WaterGateway.Uploader.Model

/-!
# The buffer of a line never overflows

Both loops of `uploader_thread` skip a row whose line does not fit `json`,
and the drain would then read it again and again. With a device of at most
63 bytes, which is what its field holds, there is no such row: from every
state that reads a row the thread goes on to send it (`json_never_overflows`).
-/

namespace WaterGateway

namespace Uploader

variable {w : ℕ} {cfg : Config}

/-- **A row that is read is sent**, in either loop. -/
theorem step_read_of_fetch (hdevice : cfg.deviceId.length ≤ 63) {s : State w} {loop : Loop}
    {stmt : Stmt} {hasData : Bool} {k : ℕ} {b : Record} (hpc : s.pc = .read loop stmt hasData)
    (hfetch : fetch cfg s.db stmt = some (k, b)) :
    step cfg s (.sql .ok) =
      some { s with
        pc := .send loop ⟨k, stmt.limit - 1⟩ (Store.columnInt k) (lineOf cfg b) 0 } := by
  have hshort : (lineOf cfg b).length < jsonSize := length_lt_jsonSize hdevice _
  simp only [step, sqlStep, hpc, hfetch, if_true, if_pos hshort]

/-- **No line overflows its buffer**, whatever the sample: its text is
shorter than 512 bytes, so the branches that skip a row are not taken. -/
theorem json_never_overflows (hdevice : cfg.deviceId.length ≤ 63) :
    (∀ sample, (uploaderBuildJson cfg.deviceId sample).length < 512) ∧
      ∀ (s : State w) loop stmt hasData k b, s.pc = .read loop stmt hasData →
        fetch cfg s.db stmt = some (k, b) →
        step cfg s (.sql .ok) =
          some { s with
            pc := .send loop ⟨k, stmt.limit - 1⟩ (Store.columnInt k) (lineOf cfg b) 0 } :=
  ⟨length_lt_jsonSize hdevice, fun _ _ _ _ _ _ => step_read_of_fetch hdevice⟩

/-- The longest line: a device of 63 bytes, the least finite readings and
the largest words. -/
def longestSample : WaterSample where
  timestampMs := BitVec.intMin 64
  ph := ⟨0xFF7FFFFF⟩
  temperature := ⟨0xFF7FFFFF⟩
  turbidity := ⟨0xFF7FFFFF⟩
  conductivity := ⟨0xFF7FFFFF⟩
  sensorStatus := 0xFFFFFFFF
  alarmStatus := 0xFFFFFFFF
  sequence := 0xFFFFFFFF

theorem json_never_overflows_longest :
    (List.replicate 63 (97 : UChar)).length ≤ 63 ∧
      (uploaderBuildJson (List.replicate 63 97) longestSample).length = 381 ∧
      (uploaderBuildJson (List.replicate 63 97) longestSample).length < 512 := by
  have hdevice : (List.replicate 63 (97 : UChar)).length ≤ 63 := by
    rw [List.length_replicate]
  refine ⟨hdevice, by decide +kernel, ?_⟩
  exact (@json_never_overflows 32 ⟨List.replicate 63 97, 20, 3⟩ hdevice).1 _

/-- **A configuration that has been loaded** is one of these. -/
theorem json_fits_of_configLoad (atoi : List UChar → UInt) (file : Option (List UChar))
    (sample : WaterSample) :
    (uploaderBuildJson (Config.configLoad atoi file).1.deviceId sample).length < 512 :=
  length_lt_jsonSize (Config.storable_configLoad atoi file).length sample

end Uploader

end WaterGateway
