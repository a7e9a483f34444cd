import Mathlib.Data.Fintype.Card
import Mathlib.Logic.Function.Basic
import Mathlib.Tactic.SplitIfs

/-!
# Threads that wait on condition variables

Finitely many threads, each outside any wait or in a wait it will go on
from with a continuation `γ`; `cond` says which condition variable a
continuation waits on. A waiting thread is asleep until it is notified,
wakes spuriously or times out. `Served cond f k n` is the promise a signal
discipline has to keep for `n` units of work at the variable `k`: nobody
sleeps there, or as many threads as there are units have been notified and
are on their way. The lemmas say how a thread's own moves and a signal
change `n`.
-/

namespace WaterGateway

/-- Where a waiting thread stands. All but the sleeper are on their way
back to the mutex. -/
inductive Wait
  | asleep
  | notified
  | spurious
  | timedOut
  deriving DecidableEq

namespace Condvar

variable {ι γ κ : Type*} [Fintype ι] [DecidableEq ι] [DecidableEq κ]

/-- The thread waits on `k`, and stands at `wt`. -/
def At (cond : γ → κ) (k : κ) (wt : Wait) (t : Option (γ × Wait)) : Prop :=
  ∃ c, t = some (c, wt) ∧ cond c = k

instance (cond : γ → κ) (k : κ) (wt : Wait) : DecidablePred (At cond k wt)
  | none => .isFalse fun ⟨_, h, _⟩ => nomatch h
  | some (c, wt') =>
    decidable_of_iff (wt' = wt ∧ cond c = k)
      ⟨fun ⟨h, hk⟩ => ⟨c, by rw [h], hk⟩, fun ⟨c', h, hk⟩ => by
        obtain ⟨rfl, rfl⟩ := Prod.mk.inj (Option.some.inj h)
        exact ⟨rfl, hk⟩⟩

/-- How many threads wait on `k` and stand at `wt`. -/
def number (cond : γ → κ) (f : ι → Option (γ × Wait)) (k : κ) (wt : Wait) : ℕ :=
  (Finset.univ.filter fun i => At cond k wt (f i)).card

/-- **The promise at `k`**: nobody sleeps there, or `n` threads have been
notified and are on their way. -/
def Served (cond : γ → κ) (f : ι → Option (γ × Wait)) (k : κ) (n : ℕ) : Prop :=
  number cond f k .asleep = 0 ∨ n ≤ number cond f k .notified

/-- A signal: it wakes a sleeper of the world's choice, and nobody only if
nobody sleeps. -/
def signal (cond : γ → κ) (k : κ) (wake : Option ι) (f : ι → Option (γ × Wait)) :
    Option (ι → Option (γ × Wait)) :=
  match wake with
  | none => if number cond f k .asleep = 0 then some f else none
  | some j =>
    match f j with
    | some (c, .asleep) =>
      if cond c = k then some (Function.update f j (some (c, .notified))) else none
    | _ => none

/-- A broadcast on every variable: all sleepers are notified. -/
def broadcast (f : ι → Option (γ × Wait)) : ι → Option (γ × Wait) := fun i =>
  (f i).map fun t => (t.1, if t.2 = .asleep then .notified else t.2)

variable {cond : γ → κ} {f f' : ι → Option (γ × Wait)} {k k' : κ} {wt : Wait} {n m : ℕ} {i j : ι}
  {c : γ} {t : Option (γ × Wait)} {wake : Option ι}

omit [Fintype ι] [DecidableEq ι] [DecidableEq κ] in
@[simp] theorem not_at_none : ¬ At cond k wt none := fun ⟨_, h, _⟩ => nomatch h

omit [Fintype ι] [DecidableEq ι] [DecidableEq κ] in
@[simp] theorem at_some {wt' : Wait} : At cond k wt (some (c, wt')) ↔ wt' = wt ∧ cond c = k := by
  constructor
  · rintro ⟨c', h, hk⟩
    obtain ⟨rfl, rfl⟩ := Prod.mk.inj (Option.some.inj h)
    exact ⟨rfl, hk⟩
  · rintro ⟨rfl, hk⟩
    exact ⟨c, rfl, hk⟩

/-- **One thread moves**: the count loses it where it stood and gains it
where it stands now. -/
theorem number_update (cond : γ → κ) (f : ι → Option (γ × Wait)) (k : κ) (wt : Wait) (i : ι)
    (t : Option (γ × Wait)) :
    number cond (Function.update f i t) k wt + (if At cond k wt (f i) then 1 else 0) =
      number cond f k wt + if At cond k wt t then 1 else 0 := by
  -- the other threads are counted alike on both sides
  have hsplit : ∀ g : ι → Option (γ × Wait), number cond g k wt =
      ((Finset.univ.erase i).filter fun j => At cond k wt (g j)).card +
        if At cond k wt (g i) then 1 else 0 := by
    intro g
    rw [number, ← Finset.insert_erase (Finset.mem_univ i), Finset.filter_insert,
      Finset.erase_insert (Finset.notMem_erase i _)]
    split_ifs with h
    · rw [Finset.card_insert_of_notMem fun hmem =>
        Finset.notMem_erase i _ (Finset.mem_of_mem_filter i hmem)]
    · rfl
  have hrest : ((Finset.univ.erase i).filter fun j => At cond k wt (Function.update f i t j)) =
      (Finset.univ.erase i).filter fun j => At cond k wt (f j) := by
    refine Finset.filter_congr fun j hj => ?_
    rw [Function.update_of_ne (Finset.ne_of_mem_erase hj)]
  rw [hsplit (Function.update f i t), hsplit f, hrest, Function.update_self]
  omega

/-- A thread that does not wait on `k` before or after its move is not
counted there. -/
theorem number_update_of_not_at (h : ¬ At cond k wt (f i)) (h' : ¬ At cond k wt t) :
    number cond (Function.update f i t) k wt = number cond f k wt := by
  have := number_update cond f k wt i t
  rw [if_neg h, if_neg h'] at this
  omega

omit [DecidableEq ι] in
theorem number_eq_zero_iff : number cond f k wt = 0 ↔ ∀ i, ¬ At cond k wt (f i) := by
  rw [number, Finset.card_eq_zero, Finset.filter_eq_empty_iff]
  exact ⟨fun h i => h (Finset.mem_univ i), fun h i _ => h i⟩

/-- A thread that ends its move awake adds no sleeper. -/
theorem asleep_update_le (ht : ¬ At cond k .asleep t) :
    number cond (Function.update f i t) k .asleep ≤ number cond f k .asleep := by
  have := number_update cond f k .asleep i t
  rw [if_neg ht] at this
  omega

/-! ## The promise -/

omit [DecidableEq ι] in
theorem served_zero : Served cond f k 0 := Or.inr (Nat.zero_le _)

omit [DecidableEq ι] in
theorem Served.mono (h : Served cond f k n) (hle : m ≤ n) : Served cond f k m :=
  h.imp_right hle.trans

omit [DecidableEq ι] in
/-- Where nobody sleeps any promise is kept. -/
theorem served_of_asleep (h : number cond f k .asleep = 0) : Served cond f k n := Or.inl h

/-- A thread that was not on its way keeps the promise, unless it falls
asleep. -/
theorem served_update (h : Served cond f k n) (hnot : ¬ At cond k .notified (f i))
    (ht : ¬ At cond k .asleep t) : Served cond (Function.update f i t) k n := by
  have hasleep := asleep_update_le (f := f) (i := i) ht
  have hnum := number_update cond f k .notified i t
  rw [if_neg hnot] at hnum
  exact h.imp (fun h₀ => by omega) fun hn => by omega

/-- A thread that was on its way takes one unit with it. -/
theorem served_update_pred (h : Served cond f k n) (ht : ¬ At cond k .asleep t) :
    Served cond (Function.update f i t) k (n - 1) := by
  have hasleep := asleep_update_le (f := f) (i := i) ht
  have hnum := number_update cond f k .notified i t
  split_ifs at hnum <;> exact h.imp (fun h₀ => by omega) fun hn => by omega

/-- A thread that waits elsewhere is no part of the promise. -/
theorem served_update_elsewhere (h : Served cond f k n) (hi : ∀ wt, ¬ At cond k wt (f i))
    (ht : ∀ wt, ¬ At cond k wt t) : Served cond (Function.update f i t) k n := by
  rw [Served, number_update_of_not_at (hi _) (ht _), number_update_of_not_at (hi _) (ht _)]
  exact h

/-! ## Signals -/

/-- **What a signal does**: one sleeper on its variable is notified, or
nobody slept there. -/
theorem signal_cases (h : signal cond k wake f = some f') :
    (number cond f k .asleep = 0 ∧ f' = f) ∨
      ∃ j c, f j = some (c, .asleep) ∧ cond c = k ∧
        f' = Function.update f j (some (c, .notified)) := by
  unfold signal at h
  split at h
  · split_ifs at h with hzero
    exact Or.inl ⟨hzero, (Option.some.inj h).symm⟩
  · next j =>
    split at h
    · next c hj =>
      split_ifs at h with hc
      exact Or.inr ⟨j, c, hj, hc, (Option.some.inj h).symm⟩
    · cases h

/-- **A signal serves one unit more.** -/
theorem served_signal (hs : Served cond f k n) (h : signal cond k wake f = some f') :
    Served cond f' k (n + 1) := by
  obtain ⟨hzero, rfl⟩ | ⟨j, c, hj, hc, rfl⟩ := signal_cases h
  · exact served_of_asleep hzero
  · have hasleep := number_update cond f k .asleep j (some (c, .notified))
    have hnotified := number_update cond f k .notified j (some (c, .notified))
    simp only [hj, at_some, hc, and_true, reduceCtorEq, if_true, if_false]
      at hasleep hnotified
    exact hs.imp (fun h₀ => by omega) fun hn => by omega

/-- A signal on another variable changes nothing here. -/
theorem served_signal_elsewhere (hs : Served cond f k n) (hne : k' ≠ k)
    (h : signal cond k' wake f = some f') : Served cond f' k n := by
  obtain ⟨-, rfl⟩ | ⟨j, c, hj, rfl, rfl⟩ := signal_cases h
  · exact hs
  · refine served_update_elsewhere hs (fun wt => ?_) fun wt => ?_
    · rw [hj, at_some]
      exact fun hat => hne hat.2
    · rw [at_some]
      exact fun hat => hne hat.2

/-- A signal puts nobody to sleep. -/
theorem asleep_signal_le (h : signal cond k' wake f = some f') :
    number cond f' k .asleep ≤ number cond f k .asleep := by
  obtain ⟨-, rfl⟩ | ⟨j, c, hj, hc, rfl⟩ := signal_cases h
  · exact le_rfl
  · exact asleep_update_le (by simp)

omit [DecidableEq ι] in
/-- After a broadcast nobody sleeps. -/
theorem asleep_broadcast : number cond (broadcast f) k .asleep = 0 := by
  rw [number_eq_zero_iff]
  rintro i ⟨c, hi, -⟩
  obtain ⟨⟨c', wt⟩, -, heq⟩ := Option.map_eq_some_iff.1 hi
  have := (Prod.mk.inj heq).2
  split_ifs at this with hwt
  exact hwt this

end Condvar

end WaterGateway
