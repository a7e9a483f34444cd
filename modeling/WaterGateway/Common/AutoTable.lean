import Mathlib.Algebra.GroupWithZero.Nat
import Mathlib.Data.List.Basic
import Mathlib.Data.List.Count
import Mathlib.Data.List.Nodup
import Mathlib.Data.List.Pairwise

/-!
# A table with increasing keys

The rows of an SQL table with an `INTEGER PRIMARY KEY AUTOINCREMENT`
column, in key order, with the largest key ever given. `insert` takes the
next key, so no key is used twice, also after a delete. `modify` is an
`UPDATE` on a condition on the key, `deleteFirst` a `DELETE` of the first
rows of a kind, and `next` a step of a cursor that selects a kind of rows
in key order.
-/

namespace WaterGateway

/-- **The table.** -/
structure AutoTable (β : Type*) where
  rows : List (ℕ × β)
  seq : ℕ
  sorted : rows.Pairwise fun r s => r.1 < s.1
  pos : ∀ r ∈ rows, 0 < r.1
  le_seq : ∀ r ∈ rows, r.1 ≤ seq
  deriving DecidableEq

namespace AutoTable

variable {β : Type*}

/-- The table before any insert. -/
def empty : AutoTable β := ⟨[], 0, List.Pairwise.nil, by simp, by simp⟩

/-- Insert a row under the next key. -/
def insert (t : AutoTable β) (b : β) : AutoTable β where
  rows := t.rows ++ [(t.seq + 1, b)]
  seq := t.seq + 1
  sorted := by
    refine List.pairwise_append.2 ⟨t.sorted, List.pairwise_singleton _ _, ?_⟩
    intro r hr s hs
    rw [List.mem_singleton.1 hs]
    exact Nat.lt_succ_of_le (t.le_seq r hr)
  pos := by
    intro r hr
    rcases List.mem_append.1 hr with hr | hr
    · exact t.pos r hr
    · rw [List.mem_singleton.1 hr]
      exact Nat.succ_pos _
  le_seq := by
    intro r hr
    rcases List.mem_append.1 hr with hr | hr
    · exact Nat.le_succ_of_le (t.le_seq r hr)
    · obtain rfl := List.mem_singleton.1 hr
      exact Nat.le_refl _

/-- Change the rows whose key is in `p`. -/
def modify (t : AutoTable β) (p : ℕ → Bool) (f : β → β) : AutoTable β where
  rows := t.rows.map fun r => (r.1, if p r.1 then f r.2 else r.2)
  seq := t.seq
  sorted := List.pairwise_map.2 t.sorted
  pos := by
    intro r hr
    obtain ⟨s, hs, rfl⟩ := List.mem_map.1 hr
    exact t.pos s hs
  le_seq := by
    intro r hr
    obtain ⟨s, hs, rfl⟩ := List.mem_map.1 hr
    exact t.le_seq s hs

/-- A list without its first `n` rows in `p`. -/
def dropFirst (p : β → Bool) : ℕ → List (ℕ × β) → List (ℕ × β)
  | 0, rows => rows
  | _ + 1, [] => []
  | n + 1, r :: rows => if p r.2 then dropFirst p n rows else r :: dropFirst p (n + 1) rows

theorem dropFirst_sublist (p : β → Bool) (n : ℕ) (rows : List (ℕ × β)) :
    (dropFirst p n rows).Sublist rows := by
  induction rows generalizing n with
  | nil => cases n <;> exact List.Sublist.refl _
  | cons r rows ih =>
    cases n with
    | zero => exact List.Sublist.refl _
    | succ n =>
      unfold dropFirst
      split
      · exact (ih n).cons _
      · exact (ih (n + 1)).cons_cons _

/-- Delete the first `n` rows in `p`, in key order. -/
def deleteFirst (t : AutoTable β) (p : β → Bool) (n : ℕ) : AutoTable β where
  rows := dropFirst p n t.rows
  seq := t.seq
  sorted := t.sorted.sublist (dropFirst_sublist p n t.rows)
  pos := fun r hr => t.pos r ((dropFirst_sublist p n t.rows).subset hr)
  le_seq := fun r hr => t.le_seq r ((dropFirst_sublist p n t.rows).subset hr)

/-- The first row in `p` past a key. -/
def next (t : AutoTable β) (p : β → Bool) (last : ℕ) : Option (ℕ × β) :=
  t.rows.find? fun r => decide (last < r.1) && p r.2

variable {t : AutoTable β} {p : β → Bool} {q : ℕ → Bool} {f : β → β} {last : ℕ}

/-- A key names one row. -/
theorem row_unique {k : ℕ} {b b' : β} (h : (k, b) ∈ t.rows) (h' : (k, b') ∈ t.rows) :
    b = b' := by
  have hkeys : t.rows.Pairwise fun r s => r.1 = s.1 → r = s :=
    t.sorted.imp fun hlt heq => absurd heq (Nat.ne_of_lt hlt)
  have hflip : t.rows.Pairwise (flip fun r s => r.1 = s.1 → r = s) :=
    hkeys.imp fun hrs hsr => (hrs hsr.symm).symm
  have heq := hkeys.forall_of_forall_of_flip (fun _ _ _ => rfl) hflip h h' rfl
  exact (Prod.mk.inj heq).2

theorem nodup_keys (t : AutoTable β) : (t.rows.map Prod.fst).Nodup :=
  List.pairwise_map.2 (t.sorted.imp fun h => Nat.ne_of_lt h)

/-- A key is that of one row, or of none. -/
theorem countP_key (t : AutoTable β) (k : ℕ) :
    t.rows.countP (fun r => r.1 = k) = if t.rows.any (fun r => r.1 = k) then 1 else 0 := by
  have hcount : t.rows.countP (fun r => r.1 = k) = (t.rows.map Prod.fst).count k := by
    rw [List.count, List.countP_map]
    exact List.countP_congr fun r _ => by simp
  rw [hcount, t.nodup_keys.count]
  refine if_congr ?_ rfl rfl
  rw [List.any_eq_true, List.mem_map]
  simp

/-- The rows at the front have no key in common with those behind them. -/
theorem notMem_drop_of_mem_take {n : ℕ} {r : ℕ × β} (h : r ∈ t.rows.take n) (b : β) :
    (r.1, b) ∉ t.rows.drop n := by
  intro hdrop
  have hsorted := t.sorted
  rw [← List.take_append_drop n t.rows] at hsorted
  exact absurd ((List.pairwise_append.1 hsorted).2.2 r h _ hdrop) (Nat.lt_irrefl _)

@[simp] theorem seq_insert (b : β) : (t.insert b).seq = t.seq + 1 := rfl

@[simp] theorem seq_modify : (t.modify q f).seq = t.seq := rfl

@[simp] theorem seq_deleteFirst (n : ℕ) : (t.deleteFirst p n).seq = t.seq := rfl

theorem mem_insert {b : β} {r : ℕ × β} :
    r ∈ (t.insert b).rows ↔ r ∈ t.rows ∨ r = (t.seq + 1, b) := by
  rw [insert, List.mem_append, List.mem_singleton]

theorem rows_modify {q : ℕ → Bool} :
    (t.modify q f).rows = t.rows.map fun r => (r.1, if q r.1 then f r.2 else r.2) := rfl

theorem mem_modify {k : ℕ} {b : β} :
    (k, b) ∈ (t.modify q f).rows ↔ ∃ b₀, (k, b₀) ∈ t.rows ∧ b = if q k then f b₀ else b₀ := by
  constructor
  · intro h
    obtain ⟨r, hr, heq⟩ := List.mem_map.1 h
    obtain ⟨rfl, rfl⟩ := Prod.mk.inj heq
    exact ⟨r.2, hr, rfl⟩
  · rintro ⟨b₀, hb₀, rfl⟩
    exact List.mem_map.2 ⟨(k, b₀), hb₀, rfl⟩

/-- Two updates agree where they differ only at rows they would leave as
they are. -/
theorem modify_eq_modify_iff {q' : ℕ → Bool} :
    t.modify q f = t.modify q' f ↔ ∀ r ∈ t.rows, q r.1 ≠ q' r.1 → f r.2 = r.2 := by
  have hrow : ∀ r : ℕ × β, ((r.1, if q r.1 then f r.2 else r.2) =
      (r.1, if q' r.1 then f r.2 else r.2)) ↔ (q r.1 ≠ q' r.1 → f r.2 = r.2) := by
    intro r
    rw [Prod.mk.injEq]
    cases q r.1 <;> cases q' r.1 <;> simp [eq_comm]
  unfold modify
  rw [mk.injEq, and_iff_left rfl, List.map_inj_left]
  exact forall₂_congr fun r _ => hrow r

@[simp] theorem modify_false : t.modify (fun _ => false) f = t := by
  obtain ⟨rows, seq, hsorted, hpos, hle⟩ := t
  simp [modify]

theorem rows_deleteFirst (n : ℕ) : (t.deleteFirst p n).rows = dropFirst p n t.rows := rfl

theorem rows_deleteFirst_sublist (n : ℕ) : (t.deleteFirst p n).rows.Sublist t.rows :=
  dropFirst_sublist p n t.rows

/-- A key below all those of some rows is none of them. -/
theorem notMem_keys {r : ℕ × β} {rows : List (ℕ × β)} (h : ∀ s ∈ rows, r.1 < s.1) :
    r.1 ∉ rows.map Prod.fst := by
  intro hmem
  obtain ⟨s, hs, heq⟩ := List.mem_map.1 hmem
  exact absurd heq.symm (Nat.ne_of_lt (h s hs))

/-- **A delete of the first `n` rows in `p`** removes the rows whose keys
are selected. -/
theorem dropFirst_eq_filter {rows : List (ℕ × β)} (h : rows.Pairwise fun r s => r.1 < s.1)
    (n : ℕ) : dropFirst p n rows =
      rows.filter fun r => r.1 ∉ ((rows.filter fun s => p s.2).take n).map Prod.fst := by
  induction rows generalizing n with
  | nil => cases n <;> rfl
  | cons r rows ih =>
    obtain ⟨hlt, hrows⟩ := List.pairwise_cons.1 h
    cases n with
    | zero => simp [dropFirst]
    | succ n =>
      by_cases hp : p r.2 = true
      · have hsel : (r :: rows).filter (fun s => p s.2) = r :: rows.filter fun s => p s.2 :=
          List.filter_cons_of_pos hp
        rw [dropFirst, if_pos hp, ih hrows, hsel, List.take_succ_cons, List.map_cons,
          List.filter_cons_of_neg (by simp)]
        refine List.filter_congr fun s hs => ?_
        have hne : s.1 ≠ r.1 := (Nat.ne_of_lt (hlt s hs)).symm
        simp [hne]
      · have hkeep : r.1 ∉ ((rows.filter fun s => p s.2).take (n + 1)).map Prod.fst :=
          notMem_keys fun s hs => hlt s (List.mem_of_mem_filter (List.mem_of_mem_take hs))
        have hsel : (r :: rows).filter (fun s => p s.2) = rows.filter fun s => p s.2 :=
          List.filter_cons_of_neg hp
        rw [dropFirst, if_neg hp, ih hrows, hsel, List.filter_cons_of_pos (by simpa using hkeep)]

/-- How many rows a delete leaves. -/
theorem length_dropFirst (p : β → Bool) (n : ℕ) (rows : List (ℕ × β)) :
    (dropFirst p n rows).length = rows.length - min n (rows.countP fun r => p r.2) := by
  induction rows generalizing n with
  | nil => cases n <;> rfl
  | cons r rows ih =>
    cases n with
    | zero => rw [dropFirst, Nat.zero_min, Nat.sub_zero]
    | succ n =>
      have hle : rows.countP (fun s => p s.2) ≤ rows.length := List.countP_le_length
      by_cases hp : p r.2 = true
      · rw [dropFirst, if_pos hp, ih, List.countP_cons_of_pos (p := fun s : ℕ × β => p s.2) hp,
          List.length_cons]
        omega
      · rw [dropFirst, if_neg hp, List.length_cons, ih,
          List.countP_cons_of_neg (p := fun s : ℕ × β => p s.2) hp, List.length_cons]
        omega

/-- A delete with a limit that is not reached leaves no row in `p`. -/
theorem dropFirst_of_countP_le {n : ℕ} {rows : List (ℕ × β)}
    (h : rows.countP (fun r => p r.2) ≤ n) : dropFirst p n rows = rows.filter fun r => !p r.2 := by
  induction rows generalizing n with
  | nil => cases n <;> rfl
  | cons r rows ih =>
    by_cases hp : p r.2 = true
    · rw [List.countP_cons_of_pos (p := fun s : ℕ × β => p s.2) hp] at h
      obtain ⟨n, rfl⟩ : ∃ m, n = m + 1 := ⟨n - 1, by omega⟩
      rw [dropFirst, if_pos hp, ih (Nat.le_of_succ_le_succ h),
        List.filter_cons_of_neg (by simp [hp])]
    · rw [List.countP_cons_of_neg (p := fun s : ℕ × β => p s.2) hp] at h
      rw [List.filter_cons_of_pos (by simpa using hp)]
      cases n with
      | zero =>
        rw [dropFirst, ← ih h]
        cases rows <;> rfl
      | succ n => rw [dropFirst, if_neg hp, ih h]

/-- A delete keeps the rows that are not in `p`. -/
theorem mem_dropFirst_of_neg {n : ℕ} {rows : List (ℕ × β)} {r : ℕ × β} (h : r ∈ rows)
    (hp : ¬ p r.2 = true) : r ∈ dropFirst p n rows := by
  induction rows generalizing n with
  | nil => cases h
  | cons s rows ih =>
    cases n with
    | zero => exact h
    | succ n =>
      unfold dropFirst
      rcases List.mem_cons.1 h with rfl | hr
      · rw [if_neg hp]
        exact List.mem_cons_self
      · split
        · exact ih hr
        · exact List.mem_cons_of_mem _ (ih hr)

/-- A delete of any rows takes them from the front. -/
theorem dropFirst_true (n : ℕ) (rows : List (ℕ × β)) :
    dropFirst (fun _ => true) n rows = rows.drop n := by
  induction rows generalizing n with
  | nil => cases n <;> rfl
  | cons r rows ih =>
    cases n with
    | zero => rfl
    | succ n => rw [dropFirst, if_pos rfl, ih, List.drop_succ_cons]

@[simp] theorem keys_modify : (t.modify q f).rows.map Prod.fst = t.rows.map Prod.fst :=
  List.map_map

/-- Tables with the same keys have the same rows, up to what stands in
them. -/
theorem exists_of_keys {t' : AutoTable β} (h : t'.rows.map Prod.fst = t.rows.map Prod.fst)
    {r : ℕ × β} (hr : r ∈ t.rows) : ∃ b, (r.1, b) ∈ t'.rows := by
  have hkey : r.1 ∈ t'.rows.map Prod.fst := h ▸ List.mem_map_of_mem hr
  obtain ⟨⟨k, b⟩, hb, rfl⟩ := List.mem_map.1 hkey
  exact ⟨b, hb⟩

/-- **An update of one row** leaves the rows before it and behind it. -/
theorem rows_modify_key {k : ℕ} {b : β} (h : (k, b) ∈ t.rows) (f : β → β) :
    ∃ front back, t.rows = front ++ (k, b) :: back ∧
      (t.modify (fun j => j = k) f).rows = front ++ (k, f b) :: back := by
  obtain ⟨front, back, hrows⟩ := List.append_of_mem h
  have hsorted := t.sorted
  rw [hrows] at hsorted
  obtain ⟨-, hback, hfront⟩ := List.pairwise_append.1 hsorted
  have hother : ∀ rows : List (ℕ × β), (∀ r ∈ rows, r.1 ≠ k) →
      (rows.map fun r => (r.1, if decide (r.1 = k) then f r.2 else r.2)) = rows := by
    intro rows hne
    refine (List.map_congr_left fun r hr => ?_).trans (List.map_id _)
    simp [hne r hr]
  refine ⟨front, back, hrows, ?_⟩
  rw [rows_modify, hrows, List.map_append, List.map_cons,
    hother front fun r hr => Nat.ne_of_lt (hfront r hr _ List.mem_cons_self),
    hother back fun r hr => (Nat.ne_of_lt ((List.pairwise_cons.1 hback).1 r hr)).symm]
  simp

/-- An update of one row, which comes to be counted by it. -/
theorem countP_modify_key {P : ℕ × β → Bool} {k : ℕ} {b : β} (h : (k, b) ∈ t.rows)
    (hbefore : P (k, b) = false) (hafter : P (k, f b) = true) :
    (t.modify (fun j => j = k) f).rows.countP P = t.rows.countP P + 1 := by
  obtain ⟨front, back, hrows, hrows'⟩ := rows_modify_key h f
  rw [hrows, hrows']
  simp [hbefore, hafter]
  omega

/-- An update of one row, whose weight falls. -/
theorem sum_modify_key_lt {g : ℕ × β → ℕ} {k : ℕ} {b : β} (h : (k, b) ∈ t.rows)
    (hlt : g (k, f b) < g (k, b)) :
    ((t.modify (fun j => j = k) f).rows.map g).sum < (t.rows.map g).sum := by
  obtain ⟨front, back, hrows, hrows'⟩ := rows_modify_key h f
  rw [hrows, hrows']
  simp only [List.map_append, List.map_cons, List.sum_append, List.sum_cons]
  omega

/-- A part of a table in which no key is missing is all of it. -/
theorem rows_eq_of_sublist {t' : AutoTable β} (hsub : t'.rows.Sublist t.rows)
    (hkeys : ∀ r ∈ t.rows, ∃ b, (r.1, b) ∈ t'.rows) : t'.rows = t.rows := by
  have hall : t.rows ⊆ t'.rows := by
    intro r hr
    obtain ⟨b, hb⟩ := hkeys r hr
    obtain rfl : b = r.2 := row_unique (hsub.subset hb) hr
    exact hb
  have hnodup : t.rows.Nodup := List.Nodup.of_map _ t.nodup_keys
  exact hsub.eq_of_length_le (List.subperm_of_subset hnodup hall).length_le

@[simp] theorem length_modify : (t.modify q f).rows.length = t.rows.length := List.length_map _

@[simp] theorem length_insert (b : β) : (t.insert b).rows.length = t.rows.length + 1 :=
  List.length_append

theorem length_deleteFirst (n : ℕ) :
    (t.deleteFirst p n).rows.length = t.rows.length - min n (t.rows.countP fun r => p r.2) :=
  length_dropFirst p n t.rows

@[simp] theorem deleteFirst_zero : t.deleteFirst p 0 = t := by
  obtain ⟨rows, seq, hsorted, hpos, hle⟩ := t
  have hrows : dropFirst p 0 rows = rows := by cases rows <;> rfl
  simp only [deleteFirst, hrows]

/-- The table with `n` equal rows. -/
def replicate (b : β) : ℕ → AutoTable β
  | 0 => empty
  | n + 1 => (replicate b n).insert b

@[simp] theorem length_replicate (b : β) (n : ℕ) : (replicate b n).rows.length = n := by
  induction n with
  | zero => rfl
  | succ n ih => rw [replicate, length_insert, ih]

/-- What a cursor steps to: the first row of its kind past `last`. -/
theorem next_eq_some {r : ℕ × β} (h : t.next p last = some r) :
    r ∈ t.rows ∧ last < r.1 ∧ p r.2 = true ∧
      ∀ s ∈ t.rows, last < s.1 → p s.2 = true → r.1 ≤ s.1 := by
  obtain ⟨hr, before, after, hrows, hbefore⟩ := List.find?_eq_some_iff_append.1 h
  obtain ⟨hlast, hp⟩ := Bool.and_eq_true_iff.1 hr
  refine ⟨List.mem_of_find?_eq_some h, of_decide_eq_true hlast, hp, fun s hs hlt hps => ?_⟩
  rw [hrows] at hs
  rcases List.mem_append.1 hs with hs | hs
  · exact absurd (hbefore s hs) (by simp [hlt, hps])
  · rcases List.mem_cons.1 hs with rfl | hs
    · exact Nat.le_refl _
    · have hsorted := t.sorted
      rw [hrows] at hsorted
      exact ((List.pairwise_cons.1 (List.pairwise_append.1 hsorted).2.1).1 s hs) |> Nat.le_of_lt

/-- A cursor at its end has no row of its kind past `last`. -/
theorem next_eq_none (h : t.next p last = none) {r : ℕ × β} (hr : r ∈ t.rows)
    (hlt : last < r.1) : p r.2 = false := by
  have := List.find?_eq_none.1 h r hr
  simpa [hlt] using this

end AutoTable

end WaterGateway
