import Mathlib.Data.List.Basic
import Mathlib.Data.List.Pairwise

/-!
# Sequences read again

`Replay n xs ys` says that `ys` is read off `xs` from left to right, some
items left out, and at most `n` times an item read once more before going
on. Nothing is invented and nothing is reordered; without a repetition it
is a sublist. It is what a receiver sees of a sender that starts again at
the item it was at.
-/

namespace WaterGateway

variable {α β : Type*} {n m : ℕ} {x : α} {xs xs' ys ys' : List α}

/-- **`ys` is read off `xs`**, with at most `n` repetitions. -/
inductive Replay : ℕ → List α → List α → Prop
  | nil (n : ℕ) (xs : List α) : Replay n xs []
  | skip {n : ℕ} {x : α} {xs ys : List α} (h : Replay n xs ys) : Replay n (x :: xs) ys
  | take {n : ℕ} {x : α} {xs ys : List α} (h : Replay n xs ys) : Replay n (x :: xs) (x :: ys)
  | again {n : ℕ} {x : α} {xs ys : List α} (h : Replay n (x :: xs) ys) :
      Replay (n + 1) (x :: xs) (x :: ys)

namespace Replay

theorem mono (h : Replay n xs ys) (hle : n ≤ m) : Replay m xs ys := by
  induction h generalizing m with
  | nil n xs => exact nil m xs
  | skip h ih => exact skip (ih hle)
  | take h ih => exact take (ih hle)
  | again h ih =>
    obtain ⟨k, rfl⟩ := Nat.exists_eq_add_of_le hle
    rw [Nat.add_right_comm]
    exact again (ih (Nat.le_add_right _ k))

theorem map (f : α → β) (h : Replay n xs ys) : Replay n (xs.map f) (ys.map f) := by
  induction h with
  | nil n xs => exact nil n _
  | skip h ih => exact skip ih
  | take h ih => exact take ih
  | again h ih => exact again ih

theorem filterMap (f : α → Option β) (h : Replay n xs ys) :
    Replay n (xs.filterMap f) (ys.filterMap f) := by
  induction h with
  | nil n xs => exact nil n _
  | @skip n x xs ys h ih =>
    cases hx : f x with
    | none => rwa [List.filterMap_cons_none hx]
    | some b =>
      rw [List.filterMap_cons_some hx]
      exact skip ih
  | @take n x xs ys h ih =>
    cases hx : f x with
    | none => rwa [List.filterMap_cons_none hx, List.filterMap_cons_none hx]
    | some b =>
      rw [List.filterMap_cons_some hx, List.filterMap_cons_some hx]
      exact take ih
  | @again n x xs ys h ih =>
    cases hx : f x with
    | none =>
      rw [List.filterMap_cons_none (l := ys) hx]
      exact ih.mono (Nat.le_succ n)
    | some b =>
      rw [List.filterMap_cons_some hx] at ih
      rw [List.filterMap_cons_some hx, List.filterMap_cons_some hx]
      exact again ih

/-- Nothing is invented. -/
theorem subset (h : Replay n xs ys) : ys ⊆ xs := by
  induction h with
  | nil => exact List.nil_subset _
  | skip h ih => exact List.subset_cons_of_subset _ ih
  | take h ih => exact List.cons_subset_cons _ ih
  | again h ih => exact List.cons_subset.2 ⟨List.mem_cons_self, ih⟩

/-- Items in front are left out. -/
theorem append_left (front : List α) (h : Replay n xs ys) : Replay n (front ++ xs) ys := by
  induction front with
  | nil => exact h
  | cons x front ih => exact skip ih

/-- **What is read off a part is read off the whole.** -/
theorem trans_sublist (h : Replay n xs ys) (hxs : xs.Sublist xs') : Replay n xs' ys := by
  induction h generalizing xs' with
  | nil n xs => exact nil n xs'
  | skip h ih => exact ih ((List.sublist_cons_self _ _).trans hxs)
  | @take n x xs ys h ih =>
    obtain ⟨front, rest, rfl, hx, hrest⟩ := List.cons_sublist_iff.1 hxs
    obtain ⟨before, after, rfl⟩ := List.append_of_mem hx
    rw [List.append_assoc, List.cons_append]
    exact append_left before (take (append_left after (ih hrest)))
  | @again n x xs ys h ih =>
    obtain ⟨front, rest, rfl, hx, hrest⟩ := List.cons_sublist_iff.1 hxs
    obtain ⟨before, after, rfl⟩ := List.append_of_mem hx
    rw [List.append_assoc, List.cons_append]
    refine append_left before (again (ih ?_))
    exact (hrest.trans (List.sublist_append_right _ _)).cons_cons x

/-- **A part of what is read is read.** -/
theorem sublist (h : Replay n xs ys) (hys : ys'.Sublist ys) : Replay n xs ys' := by
  induction h generalizing ys' with
  | nil n xs => exact List.sublist_nil.1 hys ▸ nil n xs
  | skip h ih => exact skip (ih hys)
  | take h ih =>
    cases hys with
    | cons _ hys => exact skip (ih hys)
    | cons_cons _ hys => exact take (ih hys)
  | again h ih =>
    cases hys with
    | cons _ hys => exact (ih hys).mono (Nat.le_succ _)
    | cons_cons _ hys => exact again (ih hys)

/-! ## From keys in order -/

/-- How often an entry is the same as the one before it. -/
def repeats : List ℕ → ℕ
  | a :: b :: l => (if a = b then 1 else 0) + repeats (b :: l)
  | _ => 0

theorem repeats_of_pairwise {l : List ℕ} (h : l.Pairwise (· < ·)) : repeats l = 0 := by
  induction l with
  | nil => rfl
  | cons a l ih =>
    cases l with
    | nil => rfl
    | cons b l =>
      obtain ⟨ha, hl⟩ := List.pairwise_cons.1 h
      have hne : a ≠ b := Nat.ne_of_lt (ha b List.mem_cons_self)
      rw [repeats, if_neg hne, ih hl]

theorem repeats_append_le (l l' : List ℕ) : repeats (l ++ l') ≤ repeats l + repeats l' + 1 := by
  induction l with
  | nil =>
    rw [List.nil_append]
    omega
  | cons a l ih =>
    cases l with
    | nil =>
      cases l' with
      | nil => exact Nat.zero_le _
      | cons b l' =>
        rw [List.cons_append, List.nil_append, repeats]
        split <;> omega
    | cons b l =>
      rw [List.cons_append, List.cons_append, repeats, repeats]
      rw [List.cons_append] at ih
      omega

/-- Lists without a repetition make at most one at each place they meet. -/
theorem repeats_flatten_le {ls : List (List ℕ)} (h : ∀ l ∈ ls, l.Pairwise (· < ·)) :
    repeats ls.flatten ≤ ls.length - 1 := by
  induction ls with
  | nil => exact Nat.zero_le _
  | cons l ls ih =>
    have hhead : repeats l = 0 := repeats_of_pairwise (h l List.mem_cons_self)
    have hrest := ih fun l' hl' => h l' (List.mem_cons_of_mem _ hl')
    rw [List.flatten_cons, List.length_cons]
    cases ls with
    | nil =>
      rw [List.flatten_nil, List.append_nil, hhead]
      exact Nat.zero_le _
    | cons l' ls =>
      have happend := repeats_append_le l (l' :: ls).flatten
      rw [List.length_cons] at hrest ⊢
      omega

/-- **What stands in the order of its keys is read off**: one repetition
for each key that comes twice in a row. -/
theorem of_keys {key : α → ℕ} (hxs : xs.Pairwise fun a b => key a < key b)
    (hys : ys.Pairwise fun a b => key a ≤ key b) (hmem : ys ⊆ xs) :
    Replay (repeats (ys.map key)) xs ys := by
  induction ys generalizing xs with
  | nil => exact nil _ xs
  | cons y ys ih =>
    obtain ⟨hy, htail⟩ := List.pairwise_cons.1 hys
    obtain ⟨front, rest, rfl⟩ := List.append_of_mem (hmem List.mem_cons_self)
    obtain ⟨-, hback, hcross⟩ := List.pairwise_append.1 hxs
    obtain ⟨hrest, -⟩ := List.pairwise_cons.1 hback
    -- what follows `y` stands at `y` or behind it
    have hlater : ys ⊆ y :: rest := by
      intro z hz
      rcases List.mem_append.1 (hmem (List.mem_cons_of_mem y hz)) with hfront | hin
      · have hlt := hcross z hfront y List.mem_cons_self
        have hle := hy z hz
        omega
      · exact hin
    have hread := ih hback htail hlater
    refine append_left front ?_
    cases ys with
    | nil => exact take (nil _ rest)
    | cons z ys =>
      rw [List.map_cons, List.map_cons, repeats]
      split
      · rw [Nat.add_comm]
        exact again hread
      · next hne =>
        rw [Nat.zero_add]
        refine take (ih (hback.sublist (List.sublist_cons_self _ _)) htail fun v hv => ?_)
        refine (List.mem_cons.1 (hlater hv)).resolve_left ?_
        -- `y` itself does not stand behind a later key
        rintro rfl
        have hle : key v ≤ key z := hy z List.mem_cons_self
        rcases List.mem_cons.1 hv with rfl | hin
        · exact hne rfl
        · have hge : key z ≤ key v := (List.pairwise_cons.1 htail).1 v hin
          omega

end Replay

end WaterGateway
