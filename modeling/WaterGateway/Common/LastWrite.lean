import Mathlib.Data.List.Induction

/-!
# The last write wins

A store that is written key by key. Where a write changes the value of its
key only, the value of a key behind any writes is that of the last write to
it, or the one it had.
-/

namespace WaterGateway

namespace LastWrite

variable {κ ν σ β ι : Type*} [DecidableEq κ] {k : κ} {as bs : List (κ × ν)}

/-- The value of the last write to a key. -/
def lastValue (k : κ) (as : List (κ × ν)) : Option ν :=
  ((as.filter fun a => a.1 = k).getLast?).map Prod.snd

@[simp] theorem lastValue_nil (k : κ) : lastValue k ([] : List (κ × ν)) = none := rfl

theorem lastValue_concat (k : κ) (as : List (κ × ν)) (a : κ × ν) :
    lastValue k (as ++ [a]) = if a.1 = k then some a.2 else lastValue k as := by
  unfold lastValue
  simp only [List.filter_append, List.filter_cons, List.filter_nil, decide_eq_true_eq]
  by_cases hk : a.1 = k
  · rw [if_pos hk, if_pos hk, List.getLast?_concat, Option.map_some]
  · rw [if_neg hk, if_neg hk, List.append_nil]

theorem lastValue_append (k : κ) (as bs : List (κ × ν)) :
    lastValue k (as ++ bs) = (lastValue k bs).or (lastValue k as) := by
  induction bs using List.reverseRecOn with
  | nil => rw [List.append_nil, lastValue_nil, Option.none_or]
  | append_singleton bs b ih =>
    rw [← List.append_assoc, lastValue_concat, lastValue_concat, ih]
    split <;> rfl

/-- **The last writer** of a key, and what it writes. -/
theorem lastValue_filterMap (f : ι → Option (κ × ν)) (k : κ) (is : List ι) :
    lastValue k (is.filterMap f) =
      ((is.filter fun i => (f i).any fun a => a.1 = k).getLast?).bind fun i =>
        (f i).map Prod.snd := by
  induction is using List.reverseRecOn with
  | nil => rfl
  | append_singleton is i ih =>
    simp only [List.filterMap_append, List.filter_append, List.filter_cons, List.filter_nil]
    cases hi : f i with
    | none =>
      rw [List.filterMap_cons_none hi, List.filterMap_nil, List.append_nil, ih, Option.any_none,
        if_neg Bool.false_ne_true, List.append_nil]
    | some a =>
      rw [List.filterMap_cons_some hi, List.filterMap_nil, lastValue_concat, Option.any_some]
      by_cases hk : a.1 = k
      · rw [if_pos hk, if_pos (decide_eq_true hk), List.getLast?_concat, Option.bind_some, hi,
          Option.map_some]
      · rw [if_neg hk, if_neg (by simpa using hk), List.append_nil, ih]

/-- **The last write wins**, where a write stores a value under its key and
touches no other key. -/
theorem get_foldl {set : σ → κ × ν → σ} {get : σ → κ → β} {stored : κ → ν → β}
    (hset : ∀ s a k, get (set s a) k = if a.1 = k then stored k a.2 else get s k) (s : σ) (k : κ)
    (as : List (κ × ν)) : get (as.foldl set s) k = (lastValue k as).elim (get s k) (stored k) := by
  induction as using List.reverseRecOn with
  | nil => rfl
  | append_singleton as a ih =>
    rw [List.foldl_append, List.foldl_cons, List.foldl_nil, hset, ih, lastValue_concat]
    split <;> rfl

end LastWrite

end WaterGateway
