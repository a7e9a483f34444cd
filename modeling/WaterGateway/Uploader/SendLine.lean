import WaterGateway.Serial.WriteAll
import WaterGateway.Uploader.Model

/-!
# What `uploader_send_line` hands over

The loop of `uploader_send_line` is the write-all loop without a repeat: 0
and every error end it, EINTR too. `write_all_once` is what both loops
owe; `sendStep_round` says that the steps of the uploader's machine are the
rounds of this loop.
-/

namespace WaterGateway

namespace Uploader

open Serial (serialEmitted serialWrite serialWriteLoop writeTaken)
open WriteAll

/-- The loop of `uploader_send_line`, with the bytes it has handed over so
far. The results of `send` are in `rs`, none more than it was offered;
`none` while they do not bring it to an end. -/
def uploaderSendLineLoop (data : List UChar) :
    ℕ → List UChar → List ℤ → Option (ℤ × List UChar)
  | sent, out, [] => if sent < data.length then none else some (0, out)
  | sent, out, r :: rs =>
    if sent < data.length then
      if r ≤ 0 then some (-1, out)
      else
        let n := min r.toNat (data.length - sent)
        uploaderSendLineLoop data (sent + n) (out ++ (data.drop sent).take n) rs
    else some (0, out)

/-- `uploader_send_line`: its result, and the bytes handed over. -/
def uploaderSendLine (data : List UChar) (rs : List ℤ) : Option (ℤ × List UChar) :=
  uploaderSendLineLoop data 0 [] rs

/-- How `uploader_send_line` reads the result of a `send`. -/
def sendAnswer (r : ℤ) : Answer Unit := if r ≤ 0 then .stop () else .took r.toNat

variable {data : List UChar}

/-- What `uploader_send_line` returns of its loop. -/
def sendResult : Progress data × Status Unit → Option (ℤ × List UChar)
  | (_, .running) => none
  | (p, .done) => some (0, p.emitted)
  | (p, .stopped _) => some (-1, p.emitted)

/-- The bytes handed over when the results `rs` have been used up. -/
def sendEmitted (data : List UChar) (rs : List ℤ) : List UChar :=
  (run (Progress.start data) (rs.map sendAnswer)).1.emitted

/-- **The loop of `uploader_send_line` is the write-all loop.** -/
theorem uploaderSendLineLoop_eq (p : Progress data) (rs : List ℤ) :
    uploaderSendLineLoop data p.total p.emitted rs = sendResult (run p (rs.map sendAnswer)) := by
  induction rs generalizing p with
  | nil =>
    unfold uploaderSendLineLoop
    by_cases h : p.total < data.length
    · rw [if_pos h, List.map_nil, run_nil h]
      rfl
    · rw [if_neg h, run_of_le (by omega)]
      rfl
  | cons r rs ih =>
    unfold uploaderSendLineLoop
    by_cases h : p.total < data.length
    · rw [if_pos h, List.map_cons, run_cons h]
      unfold sendAnswer
      by_cases hr : r ≤ 0
      · rw [if_pos hr, if_pos hr]
        rfl
      · rw [if_neg hr, if_neg hr]
        simp only
        rw [← p.emitted_advance]
        exact ih (p.advance r.toNat)
    · rw [if_neg h, run_of_le (by omega)]
      rfl

theorem uploaderSendLine_eq (data : List UChar) (rs : List ℤ) :
    uploaderSendLine data rs = sendResult (run (Progress.start data) (rs.map sendAnswer)) :=
  uploaderSendLineLoop_eq (Progress.start data) rs

theorem sendResult_spec {res : Progress data × Status Unit} {r : ℤ} {out : List UChar}
    (h : sendResult res = some (r, out)) : out = res.1.emitted ∧ (r = 0 ↔ res.2 = .done) := by
  obtain ⟨p, status⟩ := res
  cases status with
  | running => cases h
  | done =>
    cases h
    exact ⟨rfl, fun _ => rfl, fun _ => rfl⟩
  | stopped e =>
    cases h
    exact ⟨rfl, fun hzero => by omega, fun hdone => by cases hdone⟩

/-- **A result of `uploader_send_line`** is 0 if and only if all bytes have
been handed over. -/
theorem uploaderSendLine_spec {r : ℤ} {rs : List ℤ} {out : List UChar}
    (h : uploaderSendLine data rs = some (r, out)) :
    out = sendEmitted data rs ∧ (r = 0 ↔ out = data) := by
  rw [uploaderSendLine_eq] at h
  obtain ⟨hout, hdone⟩ := sendResult_spec h
  exact ⟨hout, by rw [hdone, run_done_iff, hout]⟩

/-- How many bytes the results take, up to the first that is not positive. -/
def sendTaken : List ℤ → ℕ
  | [] => 0
  | r :: rs => if r ≤ 0 then 0 else r.toNat + sendTaken rs

theorem goesOn_sendAnswer (r : ℤ) : (sendAnswer r).goesOn = decide (0 < r) := by
  unfold sendAnswer
  by_cases hr : r ≤ 0
  · rw [if_pos hr, decide_eq_false (by omega)]
    rfl
  · rw [if_neg hr, decide_eq_true (by omega)]
    rfl

theorem taken_sendAnswer (rs : List ℤ) : taken (rs.map sendAnswer) = sendTaken rs := by
  induction rs with
  | nil => rfl
  | cons r rs ih =>
    rw [List.map_cons, sendAnswer, sendTaken]
    by_cases hr : r ≤ 0
    · rw [if_pos hr, if_pos hr, taken]
    · rw [if_neg hr, if_neg hr, taken, ih]

/-- What has been handed over is as much as the results have taken. -/
theorem sendEmitted_eq (data : List UChar) (rs : List ℤ) :
    sendEmitted data rs = data.take (sendTaken rs) := by
  rw [sendEmitted, emitted_run, taken_sendAnswer]

theorem sendResult_eq_none {res : Progress data × Status Unit} :
    sendResult res = none ↔ res.2 = .running := by
  obtain ⟨p, status⟩ := res
  cases status with
  | running => exact ⟨fun _ => rfl, fun _ => rfl⟩
  | done | stopped => exact ⟨fun h => (by cases h), fun h => (by cases h)⟩

/-- **`uploader_send_line` comes to no end** only where all results are
positive and they do not take the whole line. -/
theorem uploaderSendLine_eq_none {rs : List ℤ} :
    uploaderSendLine data rs = none ↔ (∀ r ∈ rs, 0 < r) ∧ sendTaken rs < data.length := by
  rw [uploaderSendLine_eq, sendResult_eq_none, run_running_iff, taken_sendAnswer,
    List.forall_mem_map]
  simp only [goesOn_sendAnswer, decide_eq_true_eq, Progress.start, Nat.zero_add]

/-- **It returns 0** if and only if the whole line has been handed over. -/
theorem uploaderSendLine_eq_zero {rs : List ℤ} :
    uploaderSendLine data rs = some (0, data) ↔ sendEmitted data rs = data := by
  constructor
  · intro h
    exact (uploaderSendLine_spec h).1.symm
  · intro hall
    have hdone := run_done_iff.2 (show (run (Progress.start data) (rs.map sendAnswer)).1.emitted =
      data from hall)
    rw [uploaderSendLine_eq]
    rw [sendEmitted] at hall
    generalize run (Progress.start data) (rs.map sendAnswer) = res at hall hdone
    obtain ⟨p, status⟩ := res
    obtain rfl : status = .done := hdone
    exact congrArg (fun out => some ((0 : ℤ), out)) hall

/-- **A loop that has not ended** goes on behind the bytes it has handed
over. -/
theorem uploaderSendLine_append {rs : List ℤ} (h : uploaderSendLine data rs = none)
    (rs' : List ℤ) : uploaderSendLine data (rs ++ rs') =
      uploaderSendLineLoop data (sendEmitted data rs).length (sendEmitted data rs) rs' := by
  rw [uploaderSendLine_eq, sendResult_eq_none] at h
  rw [sendEmitted, Progress.length_emitted, uploaderSendLineLoop_eq, ← run_append h,
    ← List.map_append, uploaderSendLine_eq]

/-- **Every byte once**, for every buffer and all results of the calls.

At any time what either loop has emitted is the front of its buffer, as much
of it as the calls have taken, and a loop that has not ended goes on behind
it. It has not ended only where no result has ended it and they have taken
less than the buffer. A result of `serial_write` that is not negative is the
number of bytes emitted; `uploader_send_line` returns 0 if and only if it
has emitted them all. -/
theorem write_all_once :
    (∀ fd buf rs, serialEmitted fd buf rs <+: buf ∧
      (0 ≤ fd → serialEmitted fd buf rs = buf.take (writeTaken rs)) ∧
      (∀ r out, serialWrite fd buf rs = some (r, out) →
        out = serialEmitted fd buf rs ∧ (0 ≤ r → r = out.length)) ∧
      (0 ≤ fd → buf ≠ [] →
        (serialWrite fd buf rs = some ((buf.length : ℤ), buf) ↔ serialEmitted fd buf rs = buf)) ∧
      (serialWrite fd buf rs = none ↔
        0 ≤ fd ∧ (∀ r ∈ rs, r.goesOn = true) ∧ writeTaken rs < buf.length) ∧
      (serialWrite fd buf rs = none → ∀ rs', serialWrite fd buf (rs ++ rs') =
        serialWriteLoop buf (serialEmitted fd buf rs).length (serialEmitted fd buf rs) rs')) ∧
    ∀ data rs, sendEmitted data rs <+: data ∧
      sendEmitted data rs = data.take (sendTaken rs) ∧
      (∀ r out, uploaderSendLine data rs = some (r, out) →
        out = sendEmitted data rs ∧ (r = 0 ↔ out = data)) ∧
      (uploaderSendLine data rs = some (0, data) ↔ sendEmitted data rs = data) ∧
      (uploaderSendLine data rs = none ↔ (∀ r ∈ rs, 0 < r) ∧ sendTaken rs < data.length) ∧
      (uploaderSendLine data rs = none → ∀ rs', uploaderSendLine data (rs ++ rs') =
        uploaderSendLineLoop data (sendEmitted data rs).length (sendEmitted data rs) rs') := by
  refine ⟨fun fd buf rs => ⟨Serial.serialEmitted_prefix fd buf rs, ?_, ?_, ?_, ?_, ?_⟩,
    fun data rs => ⟨Progress.emitted_prefix _, sendEmitted_eq data rs, ?_, ?_, ?_, ?_⟩⟩
  · exact fun hfd => Serial.serialEmitted_eq hfd buf rs
  · exact fun _ _ => Serial.serialWrite_spec
  · exact fun hfd hbuf => Serial.serialWrite_eq_length hfd hbuf rs
  · exact Serial.serialWrite_eq_none
  · exact Serial.serialWrite_append
  · exact fun _ _ => uploaderSendLine_spec
  · exact uploaderSendLine_eq_zero
  · exact uploaderSendLine_eq_none
  · exact uploaderSendLine_append

/-- Eight bytes: written in three pieces around an interrupt, held up after
two, sent in two pieces, and cut off after five. -/
theorem write_all_once_pieces :
    let line : List UChar := [1, 2, 3, 4, 5, 6, 7, 8]
    serialWrite 3 line [.wrote 2, .eintr, .wrote 5, .wrote 9] = some (8, line) ∧
    (serialWrite 3 line [.wrote 2, .eintr, .wrote 0] = some (2, [1, 2]) ∧ [1, 2] <+: line) ∧
    uploaderSendLine line [5, 3] = some (0, line) ∧
    (∃ r, uploaderSendLine line [5, -1] = some (r, [1, 2, 3, 4, 5]) ∧ r ≠ 0) ∧
    uploaderSendLine line [5, 2] = none := by
  intro line
  obtain ⟨hwrite, hsend⟩ := write_all_once
  have hheld : serialWrite 3 line [.wrote 2, .eintr, .wrote 0] = some (2, [1, 2]) := by decide
  have hcut : uploaderSendLine line [5, -1] = some (-1, [1, 2, 3, 4, 5]) := by decide
  refine ⟨?_, ⟨hheld, ?_⟩, ?_, ⟨-1, hcut, ?_⟩, ?_⟩
  · exact ((hwrite 3 line _).2.2.2.1 (by decide) (by decide)).2 (by decide)
  · exact ((hwrite 3 line _).2.2.1 2 [1, 2] hheld).1 ▸ (hwrite 3 line _).1
  · exact (hsend line [5, 3]).2.2.2.1.2 (by decide)
  · exact fun hzero => absurd (((hsend line [5, -1]).2.2.1 _ _ hcut).2.1 hzero) (by decide)
  · exact (hsend line [5, 2]).2.2.2.2.1.2 (by decide)

/-! ## The uploader's machine -/

variable {w : ℕ} {s t : State w} {loop : Loop} {stmt : Stmt} {sampleId r : ℤ} {line : List UChar}
  {sent : ℕ}

/-- **A step that sends is a round of the loop.** -/
theorem sendStep_round (hpc : s.pc = .send loop stmt sampleId line sent)
    (hsent : sent < line.length) (h : sendStep s r = some t) :
    (t.pc = .incRetry loop stmt sampleId ∧
      ∀ out rs, uploaderSendLineLoop line sent out (r :: rs) = some (-1, out)) ∨
    ∃ i c, link? s = some (i, c) ∧
      t.net = s.net.set i (c.append ((line.drop sent).take r.toNat)) ∧
      t.pc = (if sent + r.toNat < line.length then .send loop stmt sampleId line (sent + r.toNat)
        else .mark loop stmt sampleId) ∧
      ∀ out rs, uploaderSendLineLoop line sent out (r :: rs) =
        uploaderSendLineLoop line (sent + r.toNat) (out ++ (line.drop sent).take r.toNat) rs := by
  unfold sendStep at h
  rw [hpc] at h
  dsimp only at h
  by_cases hr : r ≤ 0
  · rw [if_pos hr] at h
    cases h
    refine Or.inl ⟨rfl, fun out rs => ?_⟩
    rw [uploaderSendLineLoop, if_pos hsent, if_pos hr]
  · rw [if_neg hr] at h
    split at h
    · cases h
    · next i c hlink =>
      by_cases hfit : c.broken = true ∨ line.length < sent + r.toNat
      · rw [if_pos hfit] at h
        cases h
      -- the step asks for what the loop takes
      have hmin : min r.toNat (line.length - sent) = r.toNat := by
        have := not_or.1 hfit
        omega
      have hround : ∀ out rs, uploaderSendLineLoop line sent out (r :: rs) =
          uploaderSendLineLoop line (sent + r.toNat) (out ++ (line.drop sent).take r.toNat) rs := by
        intro out rs
        rw [uploaderSendLineLoop, if_pos hsent, if_neg hr]
        simp only [hmin]
      rw [if_neg hfit] at h
      split_ifs at h ⊢ with hmore
      · cases h
        exact Or.inr ⟨i, c, hlink, rfl, rfl, hround⟩
      · cases h
        exact Or.inr ⟨i, c, hlink, rfl, rfl, hround⟩

end Uploader

end WaterGateway
