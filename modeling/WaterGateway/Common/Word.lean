import Mathlib.Data.List.Basic
import Mathlib.Data.Int.Basic

/-!
# Machine words and array accesses

The fixed-width types of the C code, as bit vectors, and the two accesses
to an array of known size. An access outside the array is `none`, so a
function that returns `some` is one that stayed inside its arrays.
-/

namespace WaterGateway

/-- `unsigned char`. -/
abbrev UChar := BitVec 8

/-- `unsigned short`. -/
abbrev UShort := BitVec 16

/-- `unsigned int`, and by its two's complement reading `int`. -/
abbrev UInt := BitVec 32

/-- `long long`, read by its two's complement. -/
abbrev LongLong := BitVec 64

variable {α : Type*}

/-- The read `buf[i]`. -/
def load (buf : List α) (i : ℕ) : Option α := buf[i]?

/-- The write `arr[i] = v`. -/
def store (arr : List α) (i : ℕ) (v : α) : Option (List α) :=
  if i < arr.length then some (arr.set i v) else none

theorem load_eq_some {buf : List α} {i : ℕ} (h : i < buf.length) (d : α) :
    load buf i = some (buf.getD i d) := by
  rw [load, List.getD_eq_getElem?_getD, List.getElem?_eq_getElem h, Option.getD_some]

theorem store_eq_some {arr : List α} {i : ℕ} (h : i < arr.length) (v : α) :
    store arr i v = some (arr.set i v) := if_pos h

/-- The bytes of a C string literal. -/
def bytes (s : String) : List UChar := s.toList.map fun c => BitVec.ofNat 8 c.toNat

end WaterGateway
