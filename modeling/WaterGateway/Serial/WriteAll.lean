import WaterGateway.Common.WriteAll
import WaterGateway.Serial.Model

/-!
# What `serial_write` puts on the line

The loop of `serial_write` is the write-all loop: EINTR asks it to repeat
the call, 0 and errors end it, an error with the result `-1`.
-/

namespace WaterGateway

namespace Serial

open WriteAll

/-- What ends the loop early. -/
inductive Stop
  | zero
  | error

/-- How `serial_write` reads the answer of a `write`. -/
def writeAnswer : WriteResult → Answer Stop
  | .wrote 0 => .stop .zero
  | .wrote (n + 1) => .took (n + 1)
  | .eintr => .again
  | .error => .stop .error

/-- The loop of `serial_write` goes on behind an answer, if there is
something left. -/
def WriteResult.goesOn : WriteResult → Bool
  | .wrote n => decide (n ≠ 0)
  | .eintr => true
  | .error => false

/-- **How many bytes the answers take**, up to the one that ends the loop. -/
def writeTaken : List WriteResult → ℕ
  | [] => 0
  | .wrote n :: rs => if n = 0 then 0 else n + writeTaken rs
  | .eintr :: rs => writeTaken rs
  | .error :: _ => 0

variable {buf : List UChar}

theorem goesOn_writeAnswer (r : WriteResult) : (writeAnswer r).goesOn = r.goesOn := by
  cases r with
  | wrote n => cases n <;> rfl
  | eintr | error => rfl

theorem taken_writeAnswer (rs : List WriteResult) :
    taken (rs.map writeAnswer) = writeTaken rs := by
  induction rs with
  | nil => rfl
  | cons r rs ih =>
    rw [List.map_cons]
    cases r with
    | wrote n =>
      cases n with
      | zero => rfl
      | succ n => rw [writeAnswer, taken, ih, writeTaken, if_neg (Nat.succ_ne_zero n)]
    | eintr => rw [writeAnswer, taken, ih, writeTaken]
    | error => rfl

/-- What `serial_write` returns of its loop. -/
def writeResult : Progress buf × Status Stop → Option (ℤ × List UChar)
  | (_, .running) => none
  | (p, .done) => some (p.total, p.emitted)
  | (p, .stopped .zero) => some (p.total, p.emitted)
  | (p, .stopped .error) => some (-1, p.emitted)

/-- The bytes on the line when the answers `rs` have been used up. -/
def serialEmitted (fd : ℤ) (buf : List UChar) (rs : List WriteResult) : List UChar :=
  if fd < 0 ∨ buf.length = 0 then []
  else (run (Progress.start buf) (rs.map writeAnswer)).1.emitted

/-- **The loop of `serial_write` is the write-all loop.** -/
theorem serialWriteLoop_eq (p : Progress buf) (rs : List WriteResult) :
    serialWriteLoop buf p.total p.emitted rs = writeResult (run p (rs.map writeAnswer)) := by
  induction rs generalizing p with
  | nil =>
    unfold serialWriteLoop
    by_cases h : p.total < buf.length
    · rw [if_pos h, List.map_nil, run_nil h]
      rfl
    · rw [if_neg h, run_of_le (by omega)]
      rfl
  | cons r rs ih =>
    unfold serialWriteLoop
    by_cases h : p.total < buf.length
    · rw [if_pos h, List.map_cons, run_cons h]
      cases r with
      | wrote n =>
        cases n with
        | zero =>
          simp only [Nat.zero_min, if_true]
          rfl
        | succ n =>
          have hret : min (n + 1) (buf.length - p.total) ≠ 0 := by omega
          simp only [if_neg hret]
          rw [← p.emitted_advance]
          exact ih (p.advance (n + 1))
      | eintr => exact ih p
      | error => rfl
    · rw [if_neg h, run_of_le (by omega)]
      rfl

/-- A call that is taken up is the loop. -/
theorem serialWrite_eq {fd : ℤ} (hgood : ¬ (fd < 0 ∨ buf.length = 0)) (rs : List WriteResult) :
    serialWrite fd buf rs = writeResult (run (Progress.start buf) (rs.map writeAnswer)) := by
  rw [serialWrite, if_neg hgood]
  exact serialWriteLoop_eq (Progress.start buf) rs

theorem serialEmitted_prefix (fd : ℤ) (buf : List UChar) (rs : List WriteResult) :
    serialEmitted fd buf rs <+: buf := by
  unfold serialEmitted
  split_ifs
  · exact List.nil_prefix
  · exact Progress.emitted_prefix _

theorem writeResult_spec {res : Progress buf × Status Stop} {r : ℤ} {out : List UChar}
    (h : writeResult res = some (r, out)) :
    out = res.1.emitted ∧ (0 ≤ r → r = out.length) := by
  obtain ⟨p, status⟩ := res
  cases status with
  | running => cases h
  | done =>
    cases h
    exact ⟨rfl, fun _ => by rw [p.length_emitted]⟩
  | stopped e =>
    cases e with
    | zero =>
      cases h
      exact ⟨rfl, fun _ => by rw [p.length_emitted]⟩
    | error =>
      cases h
      exact ⟨rfl, fun hneg => by omega⟩

/-- **A result of `serial_write`** that is not negative is the number of
bytes it has put on the line. -/
theorem serialWrite_spec {fd r : ℤ} {rs : List WriteResult} {out : List UChar}
    (h : serialWrite fd buf rs = some (r, out)) :
    out = serialEmitted fd buf rs ∧ (0 ≤ r → r = out.length) := by
  unfold serialEmitted
  split_ifs with hbad
  · rw [serialWrite, if_pos hbad] at h
    cases h
    exact ⟨rfl, fun hneg => by omega⟩
  · rw [serialWrite_eq hbad] at h
    exact writeResult_spec h

/-- What has been put on the line is as much as the answers have taken. -/
theorem serialEmitted_eq {fd : ℤ} (hfd : 0 ≤ fd) (buf : List UChar) (rs : List WriteResult) :
    serialEmitted fd buf rs = buf.take (writeTaken rs) := by
  unfold serialEmitted
  split_ifs with hbad
  · rw [List.eq_nil_of_length_eq_zero (hbad.resolve_left (by omega)), List.take_nil]
  · rw [emitted_run, taken_writeAnswer]

theorem writeResult_eq_none {res : Progress buf × Status Stop} :
    writeResult res = none ↔ res.2 = .running := by
  obtain ⟨p, status⟩ := res
  cases status with
  | running => exact ⟨fun _ => rfl, fun _ => rfl⟩
  | done => exact ⟨fun h => (by cases h), fun h => (by cases h)⟩
  | stopped e => cases e <;> exact ⟨fun h => (by cases h), fun h => (by cases h)⟩

/-- **`serial_write` comes to no end** only where no answer ends its loop
and they do not take the whole buffer. -/
theorem serialWrite_eq_none {fd : ℤ} {rs : List WriteResult} :
    serialWrite fd buf rs = none ↔
      0 ≤ fd ∧ (∀ r ∈ rs, r.goesOn = true) ∧ writeTaken rs < buf.length := by
  by_cases hbad : fd < 0 ∨ buf.length = 0
  · rw [serialWrite, if_pos hbad]
    exact ⟨fun h => (by cases h), fun h => (by omega)⟩
  · have hfd : 0 ≤ fd := by omega
    rw [serialWrite_eq hbad, writeResult_eq_none, run_running_iff, taken_writeAnswer,
      List.forall_mem_map]
    simp only [goesOn_writeAnswer, Progress.start, Nat.zero_add, hfd, true_and]

/-- **The result is the length of the buffer**, with every byte on the line,
if and only if the whole buffer has been put there. -/
theorem serialWrite_eq_length {fd : ℤ} (hfd : 0 ≤ fd) (hbuf : buf ≠ []) (rs : List WriteResult) :
    serialWrite fd buf rs = some ((buf.length : ℤ), buf) ↔ serialEmitted fd buf rs = buf := by
  constructor
  · intro h
    exact (serialWrite_spec h).1.symm
  · intro hall
    have hemitted : (run (Progress.start buf) (rs.map writeAnswer)).1.emitted = buf := by
      rw [emitted_run, taken_writeAnswer, ← serialEmitted_eq hfd, hall]
    have hdone := run_done_iff.2 hemitted
    have hgood : ¬ (fd < 0 ∨ buf.length = 0) :=
      not_or.2 ⟨by omega, fun hlen => hbuf (List.eq_nil_of_length_eq_zero hlen)⟩
    rw [serialWrite_eq hgood]
    generalize run (Progress.start buf) (rs.map writeAnswer) = res at hemitted hdone
    obtain ⟨p, status⟩ := res
    obtain rfl : status = .done := hdone
    change some ((p.total : ℤ), p.emitted) = _
    rw [show p.emitted = buf from hemitted, p.emitted_eq_iff.1 hemitted]

/-- **A loop of `serial_write` that has not ended** goes on behind the bytes
it has put on the line. -/
theorem serialWrite_append {fd : ℤ} {rs : List WriteResult}
    (h : serialWrite fd buf rs = none) (rs' : List WriteResult) :
    serialWrite fd buf (rs ++ rs') =
      serialWriteLoop buf (serialEmitted fd buf rs).length (serialEmitted fd buf rs) rs' := by
  obtain ⟨hfd, -, hlt⟩ := serialWrite_eq_none.1 h
  have hgood : ¬ (fd < 0 ∨ buf.length = 0) := by omega
  rw [serialWrite_eq hgood, writeResult_eq_none] at h
  rw [serialEmitted, if_neg hgood, Progress.length_emitted, serialWriteLoop_eq, ← run_append h,
    ← List.map_append, serialWrite_eq hgood]

end Serial

end WaterGateway
