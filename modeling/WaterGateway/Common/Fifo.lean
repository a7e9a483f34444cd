import Mathlib.Data.List.GetD
import Mathlib.Data.Nat.ModEq

/-!
# A bounded queue and its ring

`Fifo` is a first-in first-out list that gives up its oldest item when it
is full and takes nothing once it is closed. `ringItems` reads such a list
off a circular array: `count` slots from `tail` on. The lemmas say what
writing the next free slot and moving `tail` do to the list read off.
-/

namespace WaterGateway

variable {α : Type*}

/-- **The queue**: its items, oldest first, and whether it is closed. -/
structure Fifo (α : Type*) where
  items : List α
  closed : Bool
  deriving DecidableEq

namespace Fifo

/-- The items a new one is appended to: all of them, or all but the oldest
when there are `cap`. -/
def room (cap : ℕ) (xs : List α) : List α := if xs.length = cap then xs.tail else xs

/-- Take an item, unless closed. -/
def push (cap : ℕ) (f : Fifo α) (a : α) : Fifo α × Bool :=
  if f.closed then (f, false) else (⟨room cap f.items ++ [a], f.closed⟩, true)

/-- Give the oldest item. -/
def pop (f : Fifo α) : Fifo α × Option α := (⟨f.items.tail, f.closed⟩, f.items.head?)

/-- Take nothing more. -/
def close (f : Fifo α) : Fifo α := ⟨f.items, true⟩

@[simp] theorem close_items (f : Fifo α) : f.close.items = f.items := rfl

@[simp] theorem close_closed (f : Fifo α) : f.close.closed = true := rfl

end Fifo

/-! ## Reading a ring -/

variable [Inhabited α] {slots : List α} {cap : ℕ}

/-- The `count` items of a circular array of `cap` slots, from `tail` on. -/
def ringItems (slots : List α) (cap : ℕ) : ℕ → ℕ → List α
  | _, 0 => []
  | tail, count + 1 => slots.getD tail default :: ringItems slots cap ((tail + 1) % cap) count

@[simp] theorem ringItems_zero (tail : ℕ) : ringItems slots cap tail 0 = [] := rfl

theorem ringItems_succ (tail count : ℕ) :
    ringItems slots cap tail (count + 1) =
      slots.getD tail default :: ringItems slots cap ((tail + 1) % cap) count := rfl

@[simp] theorem length_ringItems (tail count : ℕ) :
    (ringItems slots cap tail count).length = count := by
  induction count generalizing tail with
  | zero => rfl
  | succ count ih => rw [ringItems_succ, List.length_cons, ih]

/-- The slot after the window, appended. -/
theorem ringItems_concat {tail : ℕ} (htail : tail < cap) (count : ℕ) :
    ringItems slots cap tail (count + 1) =
      ringItems slots cap tail count ++ [slots.getD ((tail + count) % cap) default] := by
  induction count generalizing tail with
  | zero => rw [ringItems_succ, ringItems_zero, Nat.add_zero, Nat.mod_eq_of_lt htail]; rfl
  | succ count ih =>
    have hmod : ((tail + 1) % cap + count) % cap = (tail + (count + 1)) % cap := by
      rw [Nat.mod_add_mod, Nat.add_assoc, Nat.add_comm 1 count]
    rw [ringItems_succ, ih (Nat.mod_lt _ (by omega)), hmod, ringItems_succ, List.cons_append]

/-- A write outside the window does not show. -/
theorem ringItems_set {tail : ℕ} (htail : tail < cap) {i : ℕ} (a : α) {count : ℕ}
    (hout : ∀ j, j < count → (tail + j) % cap ≠ i) :
    ringItems (slots.set i a) cap tail count = ringItems slots cap tail count := by
  induction count with
  | zero => rfl
  | succ count ih =>
    have hne := hout count (Nat.lt_succ_self _)
    rw [ringItems_concat htail, ringItems_concat htail, ih fun j hj => hout j (by omega),
      List.getD_eq_getElem?_getD, List.getElem?_set_ne (fun h => hne h.symm),
      ← List.getD_eq_getElem?_getD]

/-- Offsets below the capacity name different slots. -/
theorem ring_index_ne {tail i j : ℕ} (hij : i < j) (hj : j < cap) :
    (tail + i) % cap ≠ (tail + j) % cap := by
  intro h
  have hmod : i ≡ j [MOD cap] := Nat.ModEq.add_left_cancel' tail h
  have := Nat.ModEq.eq_of_lt_of_lt hmod (by omega) hj
  omega

/-- **Writing the next free slot appends.** -/
theorem ringItems_write {tail count : ℕ} (htail : tail < cap) (hcount : count < cap)
    (hslots : slots.length = cap) (a : α) :
    ringItems (slots.set ((tail + count) % cap) a) cap tail (count + 1) =
      ringItems slots cap tail count ++ [a] := by
  have hlt : (tail + count) % cap < slots.length := hslots ▸ Nat.mod_lt _ (by omega)
  rw [ringItems_concat htail, ringItems_set htail a fun j hj => ring_index_ne hj hcount,
    List.getD_eq_getElem?_getD, List.getElem?_set_self hlt, Option.getD_some]

end WaterGateway
