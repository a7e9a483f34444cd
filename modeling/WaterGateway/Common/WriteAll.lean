import Mathlib.Data.List.Basic
import Mathlib.Order.Defs.PartialOrder
import Mathlib.Tactic.SplitIfs

/-!
# Loops that write a buffer in pieces

A call takes a part of what it is offered, asks to be repeated, or ends the
loop; the loop offers what is left until nothing is. How far it has come is
a number of bytes, and what has been taken is the buffer up to there
(`Progress`), so nothing is skipped or repeated; how much it is, is the sum
of what the calls take (`total_run`). The loop comes to its end by itself if
and only if the whole buffer has been taken (`run_done_iff`), and to no end
only where no call has ended it and they have not taken enough
(`run_running_iff`).
-/

namespace WaterGateway

namespace WriteAll

variable {α ε : Type} {buf : List α}

/-- What a call answers, as its loop reads it. -/
inductive Answer (ε : Type)
  | took (n : ℕ)
  | again
  | stop (e : ε)

/-- The loop goes on behind an answer, if there is something left. -/
def Answer.goesOn : Answer ε → Bool
  | .stop _ => false
  | .took _ | .again => true

/-- **How much the answers take**, up to the one that ends the loop. -/
def taken : List (Answer ε) → ℕ
  | [] => 0
  | .took n :: as => n + taken as
  | .again :: as => taken as
  | .stop _ :: _ => 0

/-- Where the loop stands when the answers have been used up. -/
inductive Status (ε : Type)
  | running
  | done
  | stopped (e : ε)

/-- How much of the buffer has been taken. -/
structure Progress (buf : List α) where
  total : ℕ
  le : total ≤ buf.length

namespace Progress

/-- Nothing yet. -/
def start (buf : List α) : Progress buf := ⟨0, Nat.zero_le _⟩

/-- A call takes `n` of what is left, at most. -/
def advance (p : Progress buf) (n : ℕ) : Progress buf where
  total := p.total + min n (buf.length - p.total)
  le := by
    have := p.le
    omega

theorem total_advance (p : Progress buf) (n : ℕ) :
    (p.advance n).total = p.total + min n (buf.length - p.total) := rfl

/-- What has been taken. -/
def emitted (p : Progress buf) : List α := buf.take p.total

theorem emitted_prefix (p : Progress buf) : p.emitted <+: buf := List.take_prefix _ _

@[simp] theorem length_emitted (p : Progress buf) : p.emitted.length = p.total := by
  rw [emitted, List.length_take, Nat.min_eq_left p.le]

/-- **Nothing skipped, nothing repeated**: a call takes what comes next. -/
theorem emitted_advance (p : Progress buf) (n : ℕ) :
    (p.advance n).emitted =
      p.emitted ++ (buf.drop p.total).take (min n (buf.length - p.total)) :=
  List.take_add

theorem emitted_eq_iff (p : Progress buf) : p.emitted = buf ↔ p.total = buf.length := by
  constructor
  · intro h
    rw [← p.length_emitted, h]
  · intro h
    rw [emitted, h, List.take_length]

end Progress

/-- **The loop**, under the answers of its calls. -/
def run (p : Progress buf) : List (Answer ε) → Progress buf × Status ε
  | [] => (p, if p.total < buf.length then .running else .done)
  | a :: as =>
    if p.total < buf.length then
      match a with
      | .took n => run (p.advance n) as
      | .again => run p as
      | .stop e => (p, .stopped e)
    else (p, .done)

variable {p : Progress buf} {as : List (Answer ε)}

/-- A loop that has written everything asks for no answer. -/
theorem run_of_le (h : buf.length ≤ p.total) (as : List (Answer ε)) : run p as = (p, .done) := by
  have hnot : ¬ p.total < buf.length := by omega
  unfold run
  split <;> rw [if_neg hnot]

theorem run_nil (h : p.total < buf.length) :
    run p ([] : List (Answer ε)) = (p, .running) := by
  unfold run
  rw [if_pos h]

theorem run_cons (h : p.total < buf.length) (a : Answer ε) (as : List (Answer ε)) :
    run p (a :: as) =
      match a with
      | .took n => run (p.advance n) as
      | .again => run p as
      | .stop e => (p, .stopped e) := by
  conv_lhs => unfold run
  rw [if_pos h]

/-- **The loop is done** if and only if the whole buffer has been taken. -/
theorem run_done_iff : (run p as).2 = .done ↔ (run p as).1.emitted = buf := by
  rw [Progress.emitted_eq_iff]
  -- a loop that still has something to write is not done
  have hmore : ∀ {p : Progress buf} {status : Status ε}, p.total < buf.length → status ≠ .done →
      (status = .done ↔ p.total = buf.length) := fun h hne =>
    ⟨fun hdone => absurd hdone hne, fun heq => by omega⟩
  induction as generalizing p with
  | nil =>
    by_cases h : p.total < buf.length
    · rw [run_nil h]
      exact hmore h (fun hne => by cases hne)
    · have hall : p.total = buf.length := Nat.le_antisymm p.le (by omega)
      rw [run_of_le (Nat.le_of_eq hall.symm)]
      exact ⟨fun _ => hall, fun _ => rfl⟩
  | cons a as ih =>
    by_cases h : p.total < buf.length
    · rw [run_cons h]
      cases a with
      | took n => exact ih
      | again => exact ih
      | stop e => exact hmore h (fun hne => by cases hne)
    · have hall : p.total = buf.length := Nat.le_antisymm p.le (by omega)
      rw [run_of_le (Nat.le_of_eq hall.symm)]
      exact ⟨fun _ => hall, fun _ => rfl⟩

/-- **How far the loop has come**: by what its calls have taken. -/
theorem total_run (p : Progress buf) (as : List (Answer ε)) :
    (run p as).1.total = min (p.total + taken as) buf.length := by
  have hle := p.le
  induction as generalizing p with
  | nil =>
    have hstay : (run p ([] : List (Answer ε))).1 = p := rfl
    rw [hstay, taken]
    omega
  | cons a as ih =>
    by_cases h : p.total < buf.length
    · rw [run_cons h]
      cases a with
      | took n =>
        rw [ih (p.advance n) (p.advance n).le, Progress.total_advance, taken]
        omega
      | again => rw [ih p hle, taken]
      | stop e =>
        rw [taken]
        dsimp only
        omega
    · rw [run_of_le (by omega)]
      dsimp only
      omega

theorem emitted_run (as : List (Answer ε)) :
    (run (Progress.start buf) as).1.emitted = buf.take (taken as) := by
  rw [Progress.emitted, total_run, Progress.start, Nat.zero_add, ← List.take_eq_take_min]

/-- **The loop still runs** if and only if no call has ended it and there is
something left. -/
theorem run_running_iff : (run p as).2 = .running ↔
    (∀ a ∈ as, a.goesOn = true) ∧ p.total + taken as < buf.length := by
  induction as generalizing p with
  | nil =>
    rw [taken]
    by_cases h : p.total < buf.length
    · rw [run_nil h]
      exact ⟨fun _ => ⟨fun _ ha => absurd ha List.not_mem_nil, h⟩, fun _ => rfl⟩
    · rw [run_of_le (by omega)]
      exact ⟨fun hrun => (by cases hrun), fun hrun => absurd hrun.2 h⟩
  | cons a as ih =>
    rw [List.forall_mem_cons]
    by_cases h : p.total < buf.length
    · rw [run_cons h]
      cases a with
      | took n =>
        dsimp only
        rw [ih, Progress.total_advance, taken]
        constructor
        · rintro ⟨hall, hlt⟩
          exact ⟨⟨rfl, hall⟩, by omega⟩
        · rintro ⟨⟨-, hall⟩, hlt⟩
          exact ⟨hall, by omega⟩
      | again =>
        dsimp only
        rw [ih, taken]
        exact ⟨fun hrun => ⟨⟨rfl, hrun.1⟩, hrun.2⟩, fun hrun => ⟨hrun.1.2, hrun.2⟩⟩
      | stop e => exact ⟨fun hrun => (by cases hrun), fun hrun => (by cases hrun.1.1)⟩
    · rw [run_of_le (by omega)]
      exact ⟨fun hrun => (by cases hrun), fun hrun => absurd hrun.2 (by omega)⟩

/-- A loop that still runs goes on from where it stands. -/
theorem run_append (h : (run p as).2 = .running) (as' : List (Answer ε)) :
    run p (as ++ as') = run (run p as).1 as' := by
  induction as generalizing p with
  | nil => rfl
  | cons a as ih =>
    by_cases hmore : p.total < buf.length
    · rw [run_cons hmore] at h
      rw [List.cons_append, run_cons hmore, run_cons hmore]
      cases a with
      | took n => exact ih h
      | again => exact ih h
      | stop e => cases h
    · rw [run_of_le (by omega)] at h
      cases h

end WriteAll

end WaterGateway
