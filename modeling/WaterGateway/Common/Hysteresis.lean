import Mathlib.Data.List.Induction
import Mathlib.Data.List.TakeWhile
import Mathlib.Tactic.SplitIfs

/-!
# A latch set and cleared by runs

A history of readings, true or false. `RunEnds b k as e` says that the `k`
readings up to the `e`-th are all `b`. The latch `Latched m n` looks at the
whole history: it is on when `m` true readings in a row have been seen and
no `n` false readings in a row have ended later than the latest such run.
`latched_concat` is its recursion, in terms of the run the history ends
with (`trailing`), which is all a counter has to keep.
-/

namespace WaterGateway

namespace Hysteresis

/-- The `k` readings up to the `e`-th are all `b`. -/
def RunEnds (b : Bool) (k : ℕ) (as : List Bool) (e : ℕ) : Prop :=
  k ≤ e + 1 ∧ e < as.length ∧ ∀ i < k, as[e - i]? = some b

instance (b : Bool) (k : ℕ) (as : List Bool) (e : ℕ) : Decidable (RunEnds b k as e) :=
  inferInstanceAs (Decidable (_ ∧ _ ∧ _))

/-- **The latch**: there is a latest run of `m` true readings, and no run
of `n` false readings ends later. -/
def Latched (m n : ℕ) (as : List Bool) : Prop :=
  ∃ e, RunEnds true m as e ∧ (∀ e', RunEnds true m as e' → e' ≤ e) ∧
    ∀ e', RunEnds false n as e' → e' ≤ e

instance (m n : ℕ) (as : List Bool) : Decidable (Latched m n as) :=
  decidable_of_iff
    (∃ e < as.length, RunEnds true m as e ∧ (∀ e' < as.length, RunEnds true m as e' → e' ≤ e) ∧
      ∀ e' < as.length, RunEnds false n as e' → e' ≤ e)
    ⟨fun ⟨e, _, h₁, h₂, h₃⟩ => ⟨e, h₁, fun e' h => h₂ e' h.2.1 h, fun e' h => h₃ e' h.2.1 h⟩,
      fun ⟨e, h₁, h₂, h₃⟩ => ⟨e, h₁.2.1, h₁, fun e' _ => h₂ e', fun e' _ => h₃ e'⟩⟩

/-- The length of the run of `b` a history ends with. -/
def trailing (b : Bool) (as : List Bool) : ℕ := (as.reverse.takeWhile (· == b)).length

variable {b c : Bool} {as : List Bool} {k m n e : ℕ}

@[simp] theorem trailing_nil (b : Bool) : trailing b [] = 0 := rfl

/-- A reading more continues the run or ends it. -/
theorem trailing_concat (b c : Bool) (as : List Bool) :
    trailing b (as ++ [c]) = if c = b then trailing b as + 1 else 0 := by
  rw [trailing, List.reverse_append, List.reverse_singleton, List.singleton_append,
    List.takeWhile_cons]
  by_cases h : c = b
  · simp [h, trailing]
  · simp [h]

/-- The run at the end, read off the history. -/
theorem le_trailing_iff :
    k ≤ trailing b as ↔ k ≤ as.length ∧ ∀ i < k, as[as.length - 1 - i]? = some b := by
  induction as using List.reverseRecOn generalizing k with
  | nil =>
    rw [trailing_nil, List.length_nil]
    refine ⟨fun h => ⟨h, fun i hi => by omega⟩, And.left⟩
  | append_singleton as c ih =>
    rw [trailing_concat, List.length_append, List.length_singleton, Nat.add_sub_cancel]
    have hlast : (as ++ [c])[as.length]? = some c := by simp
    have hinit : ∀ i, i < as.length → (as ++ [c])[i]? = as[i]? := fun i hi =>
      List.getElem?_append_left hi
    cases k with
    | zero => exact ⟨fun _ => ⟨by omega, fun i hi => by omega⟩, fun _ => by omega⟩
    | succ k =>
      constructor
      · intro h
        split_ifs at h with hcb
        · obtain ⟨hk, hrun⟩ := ih.1 (Nat.le_of_succ_le_succ h)
          refine ⟨by omega, fun i hi => ?_⟩
          cases i with
          | zero => rw [Nat.sub_zero, hlast, hcb]
          | succ i =>
            rw [hinit _ (by omega), show as.length - (i + 1) = as.length - 1 - i by omega]
            exact hrun i (by omega)
        · omega
      · rintro ⟨hk, hrun⟩
        have hcb : c = b := Option.some.inj (hlast.symm.trans (hrun 0 (by omega)))
        rw [if_pos hcb]
        refine Nat.succ_le_succ (ih.2 ⟨by omega, fun i hi => ?_⟩)
        rw [← hinit _ (by omega), show as.length - 1 - i = as.length - (i + 1) by omega]
        exact hrun (i + 1) (by omega)

/-- A run that ends before the last reading. -/
theorem runEnds_concat_of_lt (h : e < as.length) :
    RunEnds b k (as ++ [c]) e ↔ RunEnds b k as e := by
  have hinit : ∀ i, (as ++ [c])[e - i]? = as[e - i]? := fun i =>
    List.getElem?_append_left (by omega)
  simp only [RunEnds, hinit, List.length_append, List.length_singleton]
  constructor
  · exact fun ⟨h₁, _, h₃⟩ => ⟨h₁, h, h₃⟩
  · exact fun ⟨h₁, _, h₃⟩ => ⟨h₁, by omega, h₃⟩

/-- A run that ends with the last reading. -/
theorem runEnds_concat_last :
    RunEnds b k (as ++ [c]) as.length ↔ k ≤ trailing b (as ++ [c]) := by
  rw [le_trailing_iff, RunEnds, List.length_append, List.length_singleton, Nat.add_sub_cancel]
  constructor
  · exact fun ⟨h₁, _, h₃⟩ => ⟨h₁, h₃⟩
  · exact fun ⟨h₁, h₃⟩ => ⟨h₁, by omega, h₃⟩

/-- A run of a history that is one reading longer ends before it or with
it. -/
theorem runEnds_concat :
    RunEnds b k (as ++ [c]) e ↔
      RunEnds b k as e ∨ (e = as.length ∧ k ≤ trailing b (as ++ [c])) := by
  constructor
  · intro h
    have hlt := h.2.1
    rw [List.length_append, List.length_singleton] at hlt
    obtain hlt | rfl : e < as.length ∨ e = as.length := by omega
    · exact Or.inl ((runEnds_concat_of_lt hlt).1 h)
    · exact Or.inr ⟨rfl, runEnds_concat_last.1 h⟩
  · rintro (h | ⟨rfl, h⟩)
    · exact (runEnds_concat_of_lt h.2.1).2 h
    · exact runEnds_concat_last.2 h

/-- The runs that end with the `e`-th reading, at the history up to it. -/
theorem runEnds_iff_trailing (h : e < as.length) :
    RunEnds b k as e ↔ k ≤ trailing b (as.take (e + 1)) := by
  have hlen : (as.take e).length = e := by rw [List.length_take]; omega
  have hsplit : as.take (e + 1) = as.take e ++ [as[e]] := List.take_succ_eq_append_getElem h
  have hread : ∀ i, (as.take (e + 1))[e - i]? = as[e - i]? := fun i =>
    List.getElem?_take_of_lt (by omega)
  have hcut : RunEnds b k (as.take (e + 1)) e ↔ k ≤ trailing b (as.take (e + 1)) := by
    have hlast : RunEnds b k (as.take e ++ [as[e]]) (as.take e).length ↔
        k ≤ trailing b (as.take e ++ [as[e]]) := runEnds_concat_last
    rwa [hlen, ← hsplit] at hlast
  rw [← hcut, RunEnds, RunEnds, List.length_take]
  simp only [hread]
  constructor
  · exact fun ⟨h₁, _, h₃⟩ => ⟨h₁, by omega, h₃⟩
  · exact fun ⟨h₁, _, h₃⟩ => ⟨h₁, h, h₃⟩

/-! ## The latch, reading by reading -/

theorem not_latched_nil (m n : ℕ) : ¬ Latched m n [] := by
  rintro ⟨e, h, -⟩
  exact absurd h.2.1 (Nat.not_lt_zero e)

/-- **The recursion of the latch**: on when the history ends with a run of
`m` true readings, and otherwise as it was unless the history ends with a
run of `n` false ones. -/
theorem latched_concat :
    Latched m n (as ++ [c]) ↔
      m ≤ trailing true (as ++ [c]) ∨ (Latched m n as ∧ ¬ n ≤ trailing false (as ++ [c])) := by
  constructor
  · rintro ⟨e, hrun, hlatest, hclear⟩
    obtain hold | ⟨-, hnow⟩ := runEnds_concat.1 hrun
    · right
      refine ⟨⟨e, hold, fun e' h => hlatest e' (runEnds_concat.2 (Or.inl h)),
        fun e' h => hclear e' (runEnds_concat.2 (Or.inl h))⟩, fun hpair => ?_⟩
      have := hclear as.length (runEnds_concat.2 (Or.inr ⟨rfl, hpair⟩))
      have := hold.2.1
      omega
    · exact Or.inl hnow
  · intro h
    by_cases hnow : m ≤ trailing true (as ++ [c])
    · have hall : ∀ b k e', RunEnds b k (as ++ [c]) e' → e' ≤ as.length := by
        intro b k e' h'
        have := h'.2.1
        rw [List.length_append, List.length_singleton] at this
        omega
      exact ⟨as.length, runEnds_concat.2 (Or.inr ⟨rfl, hnow⟩), hall _ _, hall _ _⟩
    · obtain ⟨⟨e, hrun, hlatest, hclear⟩, hpair⟩ := h.resolve_left hnow
      refine ⟨e, runEnds_concat.2 (Or.inl hrun), fun e' h' => ?_, fun e' h' => ?_⟩
      · obtain h' | ⟨-, h'⟩ := runEnds_concat.1 h'
        · exact hlatest e' h'
        · exact absurd h' hnow
      · obtain h' | ⟨-, h'⟩ := runEnds_concat.1 h'
        · exact hclear e' h'
        · exact absurd h' hpair

/-- A history that ends with `m` true readings has the latch on. -/
theorem latched_of_trailing (hm : 0 < m) (h : m ≤ trailing true as) : Latched m n as := by
  induction as using List.reverseRecOn with
  | nil => rw [trailing_nil] at h; omega
  | append_singleton as c _ => exact latched_concat.2 (Or.inl h)

/-- A history that ends with `n` false readings has it off. -/
theorem not_latched_of_trailing (hm : 0 < m) (hn : 0 < n) (h : n ≤ trailing false as) :
    ¬ Latched m n as := by
  induction as using List.reverseRecOn with
  | nil => exact not_latched_nil m n
  | append_singleton as c _ =>
    rw [latched_concat, trailing_concat]
    rw [trailing_concat] at h
    split_ifs at h with hc
    · subst hc
      rw [if_neg Bool.false_ne_true, trailing_concat, if_pos rfl]
      omega
    · omega

end Hysteresis

end WaterGateway
