import Mathlib.Data.List.Induction

/-!
# Machines that read and write

A transducer reads its input item by item, may refuse an item, and writes
any number of items for one it reads. `run` is its run from a state, with
all it has written. A run is cut at any point of its input by
`run_append_eq_some`, and `run_induction` carries a relation between what
has been read, the state and what has been written.
-/

namespace WaterGateway

namespace Transducer

variable {σ ι ο : Type*} {move : σ → ι → Option (σ × List ο)} {s t u : σ} {is js : List ι}
variable {o o' : List ο}

/-- What was written before comes first. -/
def emit (o : List ο) (r : Option (σ × List ο)) : Option (σ × List ο) :=
  r.map fun p => (p.1, o ++ p.2)

/-- **A run**, and what it writes. -/
def run (move : σ → ι → Option (σ × List ο)) : σ → List ι → Option (σ × List ο)
  | s, [] => some (s, [])
  | s, i :: is => (move s i).bind fun p => emit p.2 (run move p.1 is)

@[simp] theorem emit_some (p : σ × List ο) : emit o (some p) = some (p.1, o ++ p.2) := rfl

@[simp] theorem emit_none : emit o (none : Option (σ × List ο)) = none := rfl

@[simp] theorem emit_nil (r : Option (σ × List ο)) : emit [] r = r := by
  cases r <;> rfl

theorem emit_emit (r : Option (σ × List ο)) : emit o (emit o' r) = emit (o ++ o') r := by
  cases r with
  | none => rfl
  | some p => rw [emit_some, emit_some, emit_some, List.append_assoc]

theorem emit_eq_some {r : Option (σ × List ο)} :
    emit o r = some (t, o') ↔ ∃ o₁, r = some (t, o₁) ∧ o' = o ++ o₁ := by
  simp only [emit, Option.map_eq_some_iff, Prod.mk.injEq, Prod.exists]
  constructor
  · rintro ⟨t', o₁, hr, rfl, rfl⟩
    exact ⟨o₁, hr, rfl⟩
  · rintro ⟨o₁, hr, rfl⟩
    exact ⟨t, o₁, hr, rfl, rfl⟩

@[simp] theorem run_nil (s : σ) : run move s [] = some (s, []) := rfl

theorem run_cons (s : σ) (i : ι) (is : List ι) :
    run move s (i :: is) = (move s i).bind fun p => emit p.2 (run move p.1 is) := rfl

/-- A step that is taken, and the rest of the run. -/
theorem run_cons_of_move {i : ι} (h : move s i = some (t, o)) :
    run move s (i :: is) = emit o (run move t is) := by
  rw [run_cons, h, Option.bind_some]

theorem run_singleton {i : ι} : run move s [i] = move s i := by
  rw [run_cons]
  cases move s i with
  | none => rfl
  | some p => rw [Option.bind_some, run_nil, emit_some, List.append_nil]

/-- The run goes on where its first part has ended. -/
theorem run_append_of_run (h : run move s is = some (t, o)) :
    run move s (is ++ js) = emit o (run move t js) := by
  induction is generalizing s o with
  | nil =>
    cases h
    rw [List.nil_append, emit_nil]
  | cons i is ih =>
    obtain ⟨⟨s', o₁⟩, hmove, hrest⟩ := Option.bind_eq_some_iff.1 h
    obtain ⟨o₂, hrun, rfl⟩ := emit_eq_some.1 hrest
    rw [List.cons_append, run_cons_of_move hmove, ih hrun, emit_emit]

/-- **A run cut in two.** -/
theorem run_append_eq_some :
    run move s (is ++ js) = some (u, o) ↔
      ∃ t o₁ o₂, run move s is = some (t, o₁) ∧ run move t js = some (u, o₂) ∧ o = o₁ ++ o₂ := by
  constructor
  · intro h
    induction is generalizing s o with
    | nil => exact ⟨s, [], o, rfl, h, rfl⟩
    | cons i is ih =>
      obtain ⟨⟨s', o₀⟩, hmove, hrest⟩ := Option.bind_eq_some_iff.1 h
      obtain ⟨o', hrun, rfl⟩ := emit_eq_some.1 hrest
      obtain ⟨t, o₁, o₂, h₁, h₂, rfl⟩ := ih hrun
      refine ⟨t, o₀ ++ o₁, o₂, ?_, h₂, (List.append_assoc _ _ _).symm⟩
      rw [run_cons_of_move hmove, h₁, emit_some]
  · rintro ⟨t, o₁, o₂, h₁, h₂, rfl⟩
    rw [run_append_of_run h₁, h₂, emit_some]

/-- A machine that takes more steps has the runs of the other. -/
theorem run_mono {move' : σ → ι → Option (σ × List ο)}
    (hmove : ∀ s i p, move s i = some p → move' s i = some p) (h : run move s is = some (t, o)) :
    run move' s is = some (t, o) := by
  induction is generalizing s o with
  | nil => exact h
  | cons i is ih =>
    obtain ⟨⟨s', o₁⟩, hstep, hrest⟩ := Option.bind_eq_some_iff.1 h
    obtain ⟨o₂, hrun, rfl⟩ := emit_eq_some.1 hrest
    rw [run_cons_of_move (hmove s i _ hstep), ih hrun, emit_some]

/-- A machine that refuses nothing comes to the end of its input. -/
theorem exists_run (hmove : ∀ s, ∀ i ∈ is, ∃ p, move s i = some p) (s : σ) :
    ∃ t o, run move s is = some (t, o) := by
  induction is generalizing s with
  | nil => exact ⟨s, [], rfl⟩
  | cons i is ih =>
    obtain ⟨p, hp⟩ := hmove s i List.mem_cons_self
    obtain ⟨t, o, hrest⟩ := ih (fun s i hi => hmove s i (List.mem_cons_of_mem _ hi)) p.1
    exact ⟨t, p.2 ++ o, by rw [run_cons_of_move hp, hrest, emit_some]⟩

/-- **The run rule**: what holds before anything is read, and is kept by
every item that is read, holds of the whole run. -/
theorem run_induction {P : List ι → σ → List ο → Prop} (h₀ : P [] s [])
    (hstep : ∀ is t o i t' o', P is t o → move t i = some (t', o') → P (is ++ [i]) t' (o ++ o'))
    (h : run move s is = some (t, o)) : P is t o := by
  induction is using List.reverseRecOn generalizing t o with
  | nil =>
    cases h
    exact h₀
  | append_singleton is i ih =>
    -- the run is cut before its last item
    obtain ⟨t₁, o₁, o₂, h₁, h₂, rfl⟩ := run_append_eq_some.1 h
    rw [run_singleton] at h₂
    exact hstep is t₁ o₁ i t o₂ (ih h₁) h₂

end Transducer

end WaterGateway
