import Mathlib.Logic.Basic

/-!
# Code that may raise

A loop whose body may raise an exception, and updates a state. Where each
round succeeds under a condition on its item alone, and then updates the
state by a function, so does the loop: it succeeds exactly when all its
items meet the condition.
-/

namespace WaterGateway

namespace Exceptions

variable {ε α σ : Type*}

theorem bind_eq_ok.{u} {α β : Type u} {x : Except ε α} {f : α → Except ε β} {b : β} :
    (x >>= f) = .ok b ↔ ∃ a, x = .ok a ∧ f a = .ok b := by
  cases x with
  | error e => simp [bind, Except.bind]
  | ok a => simp [bind, Except.bind]

theorem map_eq_ok {β : Type*} {x : Except ε α} {f : α → β} {b : β} :
    x.map f = .ok b ↔ ∃ a, x = .ok a ∧ f a = b := by
  cases x with
  | error e => simp [Except.map]
  | ok a => simp [Except.map]

/-- A loop without a state. -/
theorem forM_eq_ok {f : α → Except ε Unit} {l : List α} :
    l.forM f = .ok () ↔ ∀ x ∈ l, f x = .ok () := by
  induction l with
  | nil => simp [pure, Except.pure]
  | cons x l ih =>
    rw [List.forM, bind_eq_ok, List.forall_mem_cons, ← ih]
    constructor
    · rintro ⟨u, hx, hl⟩
      exact ⟨hx, hl⟩
    · rintro ⟨hx, hl⟩
      exact ⟨(), hx, hl⟩

/-- **The loop rule.** -/
theorem foldlM_eq_ok {step : σ → α → Except ε σ} {Fine : α → Prop} {next : σ → α → σ}
    (hstep : ∀ s x t, step s x = .ok t ↔ Fine x ∧ t = next s x) {s t : σ} {l : List α} :
    l.foldlM step s = .ok t ↔ (∀ x ∈ l, Fine x) ∧ t = l.foldl next s := by
  induction l generalizing s with
  | nil => simp [pure, Except.pure, eq_comm]
  | cons x l ih =>
    rw [List.foldlM_cons, bind_eq_ok, List.forall_mem_cons, List.foldl_cons]
    constructor
    · rintro ⟨u, hx, hl⟩
      obtain ⟨hfine, rfl⟩ := (hstep s x u).1 hx
      obtain ⟨hrest, rfl⟩ := ih.1 hl
      exact ⟨⟨hfine, hrest⟩, rfl⟩
    · rintro ⟨⟨hfine, hrest⟩, rfl⟩
      exact ⟨next s x, (hstep s x _).2 ⟨hfine, rfl⟩, ih.2 ⟨hrest, rfl⟩⟩

end Exceptions

end WaterGateway
