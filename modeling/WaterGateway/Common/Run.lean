import Mathlib.Data.List.Basic
import Mathlib.Data.List.Induction
import Mathlib.Logic.Basic

/-!
# Runs of a partial step function

A system is a step function `step : σ → ℓ → Option σ`: the label says
which party moves and how the outside world answers it, and `none` says
that the label is not enabled. `exec` runs a list of labels. The rules
here are the ones every system of this development is verified by: an
invariant of one step is an invariant of a run (`exec_invariant`), also
where the steps are restricted by a condition on the state they are taken
in (`Along`, `exec_invariant_along`).
-/

namespace WaterGateway

namespace Run

variable {σ ℓ : Type*} {step : σ → ℓ → Option σ}

/-- **A run**: the labels taken one after another. -/
def exec (step : σ → ℓ → Option σ) : σ → List ℓ → Option σ
  | s, [] => some s
  | s, l :: ls => (step s l).bind fun s' => exec step s' ls

@[simp] theorem exec_nil (s : σ) : exec step s [] = some s := rfl

theorem exec_cons (s : σ) (l : ℓ) (ls : List ℓ) :
    exec step s (l :: ls) = (step s l).bind fun s' => exec step s' ls := rfl

/-- A run that takes a first step, and the rest of it. -/
theorem exec_cons_eq_some {s s' : σ} {l : ℓ} {ls : List ℓ} :
    exec step s (l :: ls) = some s' ↔ ∃ t, step s l = some t ∧ exec step t ls = some s' := by
  rw [exec_cons, Option.bind_eq_some_iff]

theorem exec_append (s : σ) (ls ls' : List ℓ) :
    exec step s (ls ++ ls') = (exec step s ls).bind fun s' => exec step s' ls' := by
  induction ls generalizing s with
  | nil => rfl
  | cons l ls ih =>
    rw [List.cons_append, exec_cons, exec_cons, Option.bind_assoc]
    exact congrArg _ (funext fun t => ih t)

/-- A run split at any point. -/
theorem exec_append_eq_some {s s' : σ} {ls ls' : List ℓ} :
    exec step s (ls ++ ls') = some s' ↔
      ∃ t, exec step s ls = some t ∧ exec step t ls' = some s' := by
  rw [exec_append, Option.bind_eq_some_iff]

/-- A run of which it can be evaluated that it ends in a state with `P`. -/
theorem exists_of_exec (step : σ → ℓ → Option σ) (s : σ) (ls : List ℓ) (P : σ → Prop)
    [DecidablePred P] (h : (exec step s ls).any (fun t => decide (P t)) = true) :
    ∃ t, exec step s ls = some t ∧ P t := by
  obtain ⟨t, ht, hP⟩ := (Option.any_eq_true _ _).1 h
  exact ⟨t, ht, of_decide_eq_true hP⟩

/-- **Every step of the run meets `C`**, read at the state the step is
taken in. -/
def Along (step : σ → ℓ → Option σ) (C : σ → ℓ → Prop) : σ → List ℓ → Prop
  | _, [] => True
  | s, l :: ls => C s l ∧ ∀ t, step s l = some t → Along step C t ls

@[simp] theorem along_nil {C : σ → ℓ → Prop} (s : σ) : Along step C s [] := trivial

/-- A condition on labels alone holds along a run whose labels meet it. -/
theorem along_of_forall {C : ℓ → Prop} {ls : List ℓ} (h : ∀ l ∈ ls, C l) (s : σ) :
    Along step (fun _ l => C l) s ls := by
  induction ls generalizing s with
  | nil => trivial
  | cons l ls ih =>
    exact ⟨h l List.mem_cons_self,
      fun t _ => ih (fun l' hl' => h l' (List.mem_cons_of_mem _ hl')) t⟩

/-- Two conditions that agree where an invariant holds, in an environment
`E`, hold along the same runs. The second may be used to preserve the
invariant. -/
theorem along_congr {I : σ → Prop} {C D E : σ → ℓ → Prop}
    (hI : ∀ s l t, I s → E s l → D s l → step s l = some t → I t)
    (h : ∀ s l, I s → E s l → (C s l ↔ D s l)) {s : σ} {ls : List ℓ} (h₀ : I s)
    (hE : Along step E s ls) : Along step C s ls ↔ Along step D s ls := by
  induction ls generalizing s with
  | nil => exact Iff.rfl
  | cons l ls ih =>
    have hhead : C s l ↔ D s l := h s l h₀ hE.1
    constructor
    · rintro ⟨hC, hrest⟩
      have hD := hhead.1 hC
      exact ⟨hD, fun t ht => (ih (hI s l t h₀ hE.1 hD ht) (hE.2 t ht)).1 (hrest t ht)⟩
    · rintro ⟨hD, hrest⟩
      exact ⟨hhead.2 hD, fun t ht => (ih (hI s l t h₀ hE.1 hD ht) (hE.2 t ht)).2 (hrest t ht)⟩

/-- What always holds holds along every run. -/
theorem along_of_all {C : σ → ℓ → Prop} (h : ∀ s l, C s l) (s : σ) (ls : List ℓ) :
    Along step C s ls := by
  induction ls generalizing s with
  | nil => trivial
  | cons l ls ih => exact ⟨h s l, fun t _ => ih t⟩

/-- What holds along a run and one step more holds of that step. -/
theorem along_last {C : σ → ℓ → Prop} {s t : σ} {ls : List ℓ} {l : ℓ}
    (hrun : exec step s ls = some t) (h : Along step C s (ls ++ [l])) : C t l := by
  induction ls generalizing s with
  | nil =>
    cases hrun
    exact h.1
  | cons k ls ih =>
    obtain ⟨u, hu, hrest⟩ := exec_cons_eq_some.1 hrun
    exact ih hrest (h.2 u hu)

theorem along_mono {C D : σ → ℓ → Prop} (h : ∀ s l, C s l → D s l) {s : σ} {ls : List ℓ}
    (hC : Along step C s ls) : Along step D s ls := by
  induction ls generalizing s with
  | nil => trivial
  | cons l ls ih => exact ⟨h s l hC.1, fun t ht => ih (hC.2 t ht)⟩

theorem along_and {C D : σ → ℓ → Prop} {s : σ} {ls : List ℓ} (hC : Along step C s ls)
    (hD : Along step D s ls) : Along step (fun s l => C s l ∧ D s l) s ls := by
  induction ls generalizing s with
  | nil => trivial
  | cons l ls ih => exact ⟨⟨hC.1, hD.1⟩, fun t ht => ih (hC.2 t ht) (hD.2 t ht)⟩

/-- What a step takes over from the state behind it holds along a run that
ends with it. -/
theorem along_of_last {P : σ → Prop} (hback : ∀ s l t, step s l = some t → P t → P s) {s s' : σ}
    {ls : List ℓ} (h : exec step s ls = some s') (hP : P s') :
    Along step (fun s _ => P s) s ls := by
  suffices P s ∧ Along step (fun s _ => P s) s ls from this.2
  induction ls generalizing s with
  | nil => cases h; exact ⟨hP, trivial⟩
  | cons l ls ih =>
    obtain ⟨t, ht, hrest⟩ := exec_cons_eq_some.1 h
    obtain ⟨hPt, halong⟩ := ih hrest
    have hPs : P s := hback s l t ht hPt
    refine ⟨hPs, hPs, fun t' ht' => ?_⟩
    obtain rfl : t = t' := Option.some.inj (ht.symm.trans ht')
    exact halong

instance decidableAlong {C : σ → ℓ → Prop} [∀ s l, Decidable (C s l)] :
    (s : σ) → (ls : List ℓ) → Decidable (Along step C s ls)
  | _, [] => .isTrue trivial
  | s, l :: ls =>
    have hrest : (o : Option σ) → Decidable (∀ t, o = some t → Along step C t ls)
      | none => .isTrue fun _ h => nomatch h
      | some t =>
        have : Decidable (Along step C t ls) := decidableAlong t ls
        decidable_of_iff (Along step C t ls)
          ⟨fun h _ ht => Option.some.inj ht ▸ h, fun h => h t rfl⟩
    have := hrest (step s l)
    inferInstanceAs (Decidable (_ ∧ _))

/-- **The invariant rule**, for runs whose steps all meet `C`: what such a
step preserves, such a run preserves. -/
theorem exec_invariant_along {I : σ → Prop} {C : σ → ℓ → Prop}
    (hstep : ∀ s l t, I s → C s l → step s l = some t → I t) {ls : List ℓ} {s s' : σ}
    (h₀ : I s) (hC : Along step C s ls) (h : exec step s ls = some s') : I s' := by
  induction ls generalizing s with
  | nil => cases h; exact h₀
  | cons l ls ih =>
    obtain ⟨t, ht, hrest⟩ := exec_cons_eq_some.1 h
    exact ih (hstep s l t h₀ hC.1 ht) (hC.2 t ht) hrest

/-- **The invariant rule**: what a step preserves, a run preserves. -/
theorem exec_invariant {I : σ → Prop} (hstep : ∀ s l t, I s → step s l = some t → I t)
    {ls : List ℓ} {s s' : σ} (h₀ : I s) (h : exec step s ls = some s') : I s' :=
  exec_invariant_along (C := fun _ _ => True) (fun s l t hI _ => hstep s l t hI) h₀
    (along_of_forall (C := fun _ => True) (fun _ _ => trivial) s) h

/-- **The relational rule**: a reflexive and transitive relation between
the two ends of a step relates the two ends of a run. -/
theorem exec_relates {R : σ → σ → Prop} (hrefl : ∀ s, R s s)
    (htrans : ∀ {a b c}, R a b → R b c → R a c) (hstep : ∀ s l t, step s l = some t → R s t)
    {ls : List ℓ} {s s' : σ} (h : exec step s ls = some s') : R s s' :=
  exec_invariant (I := R s) (fun t l t' hR ht => htrans hR (hstep t l t' ht)) (hrefl s) h

/-- **The last step that counts**: where `Q` holds at the end of a run and
not at its start, some step of the run has established it, and behind that
step only such were taken that keep it. -/
theorem exec_last {Q : σ → Prop} {W : ℓ → Prop} {E : σ → ℓ → σ → Prop}
    (hstep : ∀ s l t, step s l = some t → Q t → (Q s ∧ W l) ∨ E s l t) {s s' : σ} {ls : List ℓ}
    (h₀ : ¬ Q s) (h : exec step s ls = some s') (hQ : Q s') :
    ∃ before l after t t', ls = before ++ l :: after ∧ exec step s before = some t ∧
      step t l = some t' ∧ E t l t' ∧ ∀ l' ∈ after, W l' := by
  induction ls using List.reverseRecOn generalizing s' with
  | nil => cases h; exact absurd hQ h₀
  | append_singleton ls l ih =>
    obtain ⟨t, ht, hlast⟩ := exec_append_eq_some.1 h
    obtain ⟨t', ht', heq⟩ := exec_cons_eq_some.1 hlast
    cases heq
    obtain ⟨hQt, hW⟩ | hE := hstep t l s' ht' hQ
    · obtain ⟨before, l₀, after, u, u', rfl, hu, hu', hE, hafter⟩ := ih ht hQt
      refine ⟨before, l₀, after ++ [l], u, u', by simp, hu, hu', hE, fun l' hl' => ?_⟩
      rcases List.mem_append.1 hl' with hl' | hl'
      · exact hafter l' hl'
      · rw [List.mem_singleton.1 hl']
        exact hW
    · exact ⟨ls, l, [], t, s', rfl, ht, ht', hE, fun l' hl' => nomatch hl'⟩

/-- **The invariant rule with the run so far.** -/
theorem exec_induction {I : List ℓ → σ → Prop} {s₀ : σ} (h₀ : I [] s₀)
    (hstep : ∀ ls s l t, exec step s₀ ls = some s → I ls s → step s l = some t →
      I (ls ++ [l]) t) {ls : List ℓ} {s : σ} (h : exec step s₀ ls = some s) : I ls s := by
  induction ls using List.reverseRecOn generalizing s with
  | nil =>
    cases h
    exact h₀
  | append_singleton ls l ih =>
    obtain ⟨t, ht, hlast⟩ := exec_append_eq_some.1 h
    obtain ⟨t', ht', heq⟩ := exec_cons_eq_some.1 hlast
    cases heq
    exact hstep ls t l s ht (ih ht) ht'

/-! ## What a run adds up -/

section Gather

variable {α : Type*}

/-- What the steps of a run give, read at the states they are taken in. -/
def gather (step : σ → ℓ → Option σ) (f : σ → ℓ → List α) : σ → List ℓ → List α
  | _, [] => []
  | s, l :: ls =>
    match step s l with
    | none => []
    | some t => f s l ++ gather step f t ls

theorem gather_cons {f : σ → ℓ → List α} {s t : σ} {l : ℓ} (h : step s l = some t)
    (ls : List ℓ) : gather step f s (l :: ls) = f s l ++ gather step f t ls := by
  rw [gather, h]

/-- A run and one step more. -/
theorem gather_concat {f : σ → ℓ → List α} {s t u : σ} {ls : List ℓ} {l : ℓ}
    (h : exec step s ls = some t) (hl : step t l = some u) :
    gather step f s (ls ++ [l]) = gather step f s ls ++ f t l := by
  induction ls generalizing s with
  | nil =>
    cases h
    exact (gather_cons hl []).trans (List.append_nil _)
  | cons k ls ih =>
    obtain ⟨v, hv, hrest⟩ := exec_cons_eq_some.1 h
    rw [List.cons_append, gather_cons hv, gather_cons hv, ih hrest, List.append_assoc]

end Gather

/-! ## Sums over the steps of a run -/

section Total

variable {f : σ → ℓ → σ → ℕ}

/-- The sum of `f` over the steps of a run. -/
def total (step : σ → ℓ → Option σ) (f : σ → ℓ → σ → ℕ) : σ → List ℓ → ℕ
  | _, [] => 0
  | s, l :: ls =>
    match step s l with
    | none => 0
    | some t => f s l t + total step f t ls

@[simp] theorem total_nil (s : σ) : total step f s [] = 0 := rfl

theorem total_cons {s t : σ} {l : ℓ} (h : step s l = some t) (ls : List ℓ) :
    total step f s (l :: ls) = f s l t + total step f t ls := by
  rw [total, h]

theorem total_add (g : σ → ℓ → σ → ℕ) (s : σ) (ls : List ℓ) :
    total step (fun s l t => f s l t + g s l t) s ls = total step f s ls + total step g s ls := by
  induction ls generalizing s with
  | nil => rfl
  | cons l ls ih =>
    unfold total
    cases step s l with
    | none => rfl
    | some t =>
      dsimp only
      rw [ih]
      omega

/-- **The counting rule**: an account that a step meeting `C` moves on by
its `f` is moved on by a run by the sum. -/
theorem exec_counts {I : ℕ → σ → Prop} {C : σ → ℓ → Prop}
    (hstep : ∀ n s l t, I n s → C s l → step s l = some t → I (n + f s l t) t) {n : ℕ}
    {ls : List ℓ} {s s' : σ} (h₀ : I n s) (hC : Along step C s ls)
    (h : exec step s ls = some s') : I (n + total step f s ls) s' := by
  induction ls generalizing n s with
  | nil => cases h; exact h₀
  | cons l ls ih =>
    obtain ⟨t, ht, hrest⟩ := exec_cons_eq_some.1 h
    rw [total_cons ht, ← Nat.add_assoc]
    exact ih (hstep n s l t h₀ hC.1 ht) (hC.2 t ht) hrest

/-- The sum of what the labels alone tell. -/
theorem total_of_label (p : ℓ → Bool) {ls : List ℓ} {s s' : σ} (h : exec step s ls = some s') :
    total step (fun _ l _ => if p l then 1 else 0) s ls = ls.countP p := by
  induction ls generalizing s with
  | nil => rfl
  | cons l ls ih =>
    obtain ⟨t, ht, hrest⟩ := exec_cons_eq_some.1 h
    rw [total_cons ht, ih hrest, List.countP_cons, Nat.add_comm]

/-- **The measure rule**: where each step lowers a measure, and one in `p`
lowers it strictly, a run takes at most as many steps in `p` as the measure
allows. -/
theorem countP_le_measure {I : σ → Prop} {C : σ → ℓ → Prop} {μ : σ → ℕ} {p : ℓ → Bool}
    (hstep : ∀ s l t, I s → C s l → step s l = some t →
      I t ∧ μ t + (if p l then 1 else 0) ≤ μ s) {ls : List ℓ} {s s' : σ} (h₀ : I s)
    (hC : Along step C s ls) (h : exec step s ls = some s') : ls.countP p + μ s' ≤ μ s := by
  have hcounts := exec_counts (I := fun n t => I t ∧ n + μ t ≤ μ s) (n := 0)
    (f := fun _ l _ => if p l then 1 else 0) (fun n t l t' hI hC ht => by
      obtain ⟨hnext, hle⟩ := hstep t l t' hI.1 hC ht
      exact ⟨hnext, by omega⟩) ⟨h₀, by omega⟩ hC h
  rw [total_of_label p h] at hcounts
  omega

end Total

/-! ## Machines with outputs -/

section Machine

variable {τ ι ο : Type*} {move : σ → ι → σ × ο} {move' : τ → ι → τ × ο}

/-- The run of a machine that answers every input: its last state, and its
answers in order. -/
def runOut (move : σ → ι → σ × ο) : σ → List ι → σ × List ο
  | s, [] => (s, [])
  | s, i :: is => ((runOut move (move s i).1 is).1, (move s i).2 :: (runOut move (move s i).1 is).2)

/-- A run and one input more. -/
theorem runOut_concat (s : σ) (is : List ι) (i : ι) :
    runOut move s (is ++ [i]) =
      ((move (runOut move s is).1 i).1,
        (runOut move s is).2 ++ [(move (runOut move s is).1 i).2]) := by
  induction is generalizing s with
  | nil => rfl
  | cons j is ih => rw [List.cons_append, runOut, ih]; rfl

@[simp] theorem length_runOut_snd (s : σ) (is : List ι) :
    (runOut move s is).2.length = is.length := by
  induction is generalizing s with
  | nil => rfl
  | cons i is ih => rw [runOut, List.length_cons, ih, List.length_cons]

/-- **The answer to each input** is the one its state gives, and its state
is where the inputs before it lead. -/
theorem getElem?_runOut_snd (s : σ) (is : List ι) (k : ℕ) :
    (runOut move s is).2[k]? =
      is[k]?.map fun i => (move (runOut move s (is.take k)).1 i).2 := by
  induction is generalizing s k with
  | nil => rfl
  | cons i is ih =>
    cases k with
    | zero => rfl
    | succ k =>
      rw [runOut, List.getElem?_cons_succ, ih, List.getElem?_cons_succ, List.take_succ_cons]
      rfl

/-- What every input preserves holds at the end of a run. -/
theorem runOut_invariant {I : σ → Prop} (hI : ∀ s i, I s → I (move s i).1) {s : σ} (h₀ : I s)
    (is : List ι) : I (runOut move s is).1 := by
  induction is generalizing s with
  | nil => exact h₀
  | cons i is ih => exact ih (hI s i h₀)

/-- **The simulation rule**: where an abstraction carries each move, with
its answer, to a move of another machine, it carries the runs. -/
theorem runOut_simulates {I : σ → Prop} (abs : σ → τ) (hI : ∀ s i, I s → I (move s i).1)
    (hsim : ∀ s i, I s → move' (abs s) i = (abs (move s i).1, (move s i).2)) {s : σ} (h₀ : I s)
    (is : List ι) :
    runOut move' (abs s) is = (abs (runOut move s is).1, (runOut move s is).2) := by
  induction is generalizing s with
  | nil => rfl
  | cons i is ih => rw [runOut, hsim s i h₀, ih (hI s i h₀)]; rfl

end Machine

end Run

end WaterGateway
