import WaterGateway.Common.Word

/-!
# The serial port

`serial_write` and `serial_read` of `serial_port.c`. The operating system
answers each `write`, `select` and `read`; its answers are arguments. A
receive line is a list of arrivals: chunks of bytes, each with the time it
becomes readable, and `VMIN = VTIME = 0` makes a `read` return what has
arrived so far.
-/

namespace WaterGateway

namespace Serial

/-- What one `write` answers; it never takes more than it was offered. -/
inductive WriteResult
  | wrote (n : ℕ)
  | eintr
  | error
  deriving DecidableEq

/-- What `select` answers. -/
inductive SelectResult
  | ready
  | timeout
  | eintr
  | error
  deriving DecidableEq

/-- What `read` answers. -/
inductive ReadResult
  | data (bs : List UChar)
  | eintr
  | eagain
  | error
  deriving DecidableEq

/-- The loop of `serial_write`, with the bytes it has put on the line so
far; `none` while the answers do not bring it to an end. -/
def serialWriteLoop (buf : List UChar) : ℕ → List UChar → List WriteResult →
    Option (ℤ × List UChar)
  | total, out, [] => if total < buf.length then none else some ((total : ℤ), out)
  | total, out, r :: rs =>
    if total < buf.length then
      match r with
      | .error => some ((-1 : ℤ), out)
      | .eintr => serialWriteLoop buf total out rs
      | .wrote n =>
        let ret := min n (buf.length - total)
        if ret = 0 then some ((total : ℤ), out)
        else serialWriteLoop buf (total + ret) (out ++ (buf.drop total).take ret) rs
    else some ((total : ℤ), out)

/-- `serial_write`: its result, and the bytes put on the line. -/
def serialWrite (fd : ℤ) (buf : List UChar) (rs : List WriteResult) : Option (ℤ × List UChar) :=
  if fd < 0 ∨ buf.length = 0 then some ((-1 : ℤ), []) else serialWriteLoop buf 0 [] rs

/-- The receiving side of a port: what `select` answers for a time-out in
milliseconds, and what the `read` after it answers. -/
structure Receiver where
  select : ℤ → SelectResult
  read : ReadResult

/-- `serial_read`: its result, and the bytes put into the buffer. One
`select`, and one `read` if it says that something is readable. -/
def serialRead (fd : ℤ) (len : ℕ) (timeoutMs : ℤ) (rx : Receiver) : ℤ × List UChar :=
  if fd < 0 ∨ len = 0 then (-1, [])
  else match rx.select timeoutMs with
    | .error => (-1, [])
    | .eintr => (0, [])
    | .timeout => (0, [])
    | .ready =>
      match rx.read with
      | .error => (-1, [])
      | .eintr => (0, [])
      | .eagain => (0, [])
      | .data bs => ((bs.take len).length, bs.take len)

/-! ## Bytes that arrive over time -/

/-- Bytes that become readable together, and when, in milliseconds. -/
structure Arrival where
  time : ℕ
  chunk : List UChar
  deriving DecidableEq

/-- The wait of `select`: it ends ready if something arrives in time, and
a negative time-out waits for ever. -/
def selectOn (timeoutMs : ℤ) (line : List Arrival) : SelectResult :=
  if ∃ a ∈ line, timeoutMs < 0 ∨ (a.time : ℤ) ≤ timeoutMs then .ready else .timeout

/-- Everything that has arrived by time `t`. -/
def arrived (line : List Arrival) (t : ℕ) : List UChar :=
  (line.filter fun a => a.time ≤ t).flatMap Arrival.chunk

/-- A receive line whose `read` is made at time `t`. -/
def receiverOn (line : List Arrival) (t : ℕ) : Receiver where
  select timeoutMs := selectOn timeoutMs line
  read := .data (arrived line t)

variable {line : List Arrival} {t : ℕ}

theorem arrived_cons_of_le {a : Arrival} (h : a.time ≤ t) :
    arrived (a :: line) t = a.chunk ++ arrived line t := by
  rw [arrived, List.filter_cons_of_pos (by simpa using h), List.flatMap_cons, ← arrived]

theorem arrived_cons_of_lt {a : Arrival} (h : t < a.time) :
    arrived (a :: line) t = arrived line t := by
  rw [arrived, List.filter_cons_of_neg (by simpa using h), ← arrived]

/-- What has arrived by time `t` is a prefix of what arrives in all. -/
theorem arrived_prefix (hline : line.Pairwise (·.time ≤ ·.time)) (t : ℕ) :
    arrived line t <+: line.flatMap Arrival.chunk := by
  induction line with
  | nil => exact List.prefix_rfl
  | cons a line ih =>
    rw [List.pairwise_cons] at hline
    rcases le_or_gt a.time t with ha | ha
    · rw [arrived_cons_of_le ha, List.flatMap_cons]
      exact (List.prefix_append_right_inj _).2 (ih hline.2)
    · -- the line is in time order, so nothing after `a` has arrived either
      have hnone : (a :: line).filter (fun b => b.time ≤ t) = [] := by
        refine List.filter_eq_nil_iff.2 fun b hb => ?_
        have hab : a.time ≤ b.time := by
          rcases List.mem_cons.1 hb with rfl | hb
          · exact le_rfl
          · exact hline.1 b hb
        simp only [decide_eq_true_eq]
        omega
      rw [arrived, hnone]
      exact List.nil_prefix

theorem length_arrived_le : (arrived line t).length ≤ (line.flatMap Arrival.chunk).length := by
  induction line with
  | nil => exact le_rfl
  | cons a line ih =>
    rw [List.flatMap_cons, List.length_append]
    rcases le_or_gt a.time t with ha | ha
    · rw [arrived_cons_of_le ha, List.length_append]
      omega
    · rw [arrived_cons_of_lt ha]
      omega

/-- A chunk that is still to come is missing from what has arrived. -/
theorem length_arrived_lt (hne : ∀ a ∈ line, a.chunk ≠ []) (hlate : ∃ a ∈ line, t < a.time) :
    (arrived line t).length < (line.flatMap Arrival.chunk).length := by
  induction line with
  | nil => simp at hlate
  | cons b line ih =>
    have hb : 0 < b.chunk.length := List.length_pos_of_ne_nil (hne b List.mem_cons_self)
    obtain ⟨a, ha, hat⟩ := hlate
    rw [List.flatMap_cons, List.length_append]
    rcases le_or_gt b.time t with hbt | hbt
    · have hmem : a ∈ line := (List.mem_cons.1 ha).resolve_left fun h => by subst h; omega
      have := ih (fun c hc => hne c (List.mem_cons_of_mem _ hc)) ⟨a, hmem, hat⟩
      rw [arrived_cons_of_le hbt, List.length_append]
      omega
    · have : (arrived line t).length ≤ (line.flatMap Arrival.chunk).length := length_arrived_le
      rw [arrived_cons_of_lt hbt]
      omega

/-- **What has arrived is everything just when the last chunk has.** -/
theorem arrived_eq_iff (hne : ∀ a ∈ line, a.chunk ≠ []) :
    arrived line t = line.flatMap Arrival.chunk ↔ ∀ a ∈ line, a.time ≤ t := by
  constructor
  · intro h a ha
    by_contra hlate
    have hlt := length_arrived_lt hne ⟨a, ha, not_le.1 hlate⟩
    rw [h] at hlt
    exact lt_irrefl _ hlt
  · intro h
    rw [arrived, List.filter_eq_self.2 fun a ha => by simpa using h a ha]

/-- Something has arrived once one chunk has. -/
theorem arrived_ne_nil (hne : ∀ a ∈ line, a.chunk ≠ []) (h : ∃ a ∈ line, a.time ≤ t) :
    arrived line t ≠ [] := by
  obtain ⟨a, ha, hat⟩ := h
  intro hnil
  have := List.flatMap_eq_nil_iff.1 hnil a (List.mem_filter.2 ⟨ha, by simpa using hat⟩)
  exact hne a ha this

end Serial

end WaterGateway
