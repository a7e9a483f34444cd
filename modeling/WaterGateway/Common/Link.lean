import Mathlib.Data.List.Basic

/-!
# A connection that carries lines

`Link` is one direction of a stream connection: the bytes its sender has
put on it, how many of them the peer has received, whether it is broken,
and where its first failed send happened. The peer receives the bytes in
order; those in flight when the link breaks never arrive. `Whole` and
`Framed` say that a stream of bytes is cut into lines.
-/

namespace WaterGateway

/-- **One direction of a connection.** -/
structure Link (β : Type*) where
  written : List β
  received : ℕ
  received_le : received ≤ written.length
  broken : Bool
  failedAt : Option ℕ
  deriving DecidableEq

namespace Link

variable {β : Type*}

/-- A connection just made. -/
def fresh : Link β := ⟨[], 0, Nat.le_refl _, false, none⟩

/-- A send is accepted. -/
def append (c : Link β) (bs : List β) : Link β where
  written := c.written ++ bs
  received := c.received
  received_le := by
    rw [List.length_append]
    exact Nat.le_add_right_of_le c.received_le
  broken := c.broken
  failedAt := c.failedAt

/-- A send fails; the first failure is kept. -/
def fail (c : Link β) : Link β :=
  { c with failedAt := c.failedAt.or (some c.written.length) }

/-- Up to `n` more bytes arrive, unless the link is broken. -/
def deliver (c : Link β) (n : ℕ) : Link β :=
  if c.broken then c
  else { c with
    received := min (c.received + n) c.written.length
    received_le := Nat.min_le_right _ _ }

/-- The link breaks. -/
def reset (c : Link β) : Link β := { c with broken := true }

/-- What the peer has received. -/
def got (c : Link β) : List β := c.written.take c.received

/-- **What the peer has** of the bytes that were put on the link first: all
of them, unless it has not received that far. -/
theorem prefix_got_or_lt {c : Link β} {bs : List β} (h : bs <+: c.written) :
    bs <+: c.got ∨ c.received < bs.length := by
  obtain hlt | hge := Nat.lt_or_ge c.received bs.length
  · exact Or.inr hlt
  · obtain ⟨after, hafter⟩ := h
    refine Or.inl ?_
    rw [got, ← hafter, List.take_append, List.take_of_length_le hge]
    exact List.prefix_append _ _

@[simp] theorem written_append (c : Link β) (bs : List β) :
    (c.append bs).written = c.written ++ bs := rfl

@[simp] theorem failedAt_append (c : Link β) (bs : List β) :
    (c.append bs).failedAt = c.failedAt := rfl

@[simp] theorem written_fail (c : Link β) : c.fail.written = c.written := rfl

@[simp] theorem failedAt_fail (c : Link β) :
    c.fail.failedAt = c.failedAt.or (some c.written.length) := rfl

@[simp] theorem written_deliver (c : Link β) (n : ℕ) : (c.deliver n).written = c.written := by
  unfold deliver
  split <;> rfl

@[simp] theorem failedAt_deliver (c : Link β) (n : ℕ) :
    (c.deliver n).failedAt = c.failedAt := by
  unfold deliver
  split <;> rfl

@[simp] theorem written_reset (c : Link β) : c.reset.written = c.written := rfl

@[simp] theorem failedAt_reset (c : Link β) : c.reset.failedAt = c.failedAt := rfl

/-! ## Lines -/

variable {IsLine : List β → Prop} {bs line : List β}

/-- Complete lines and nothing else. -/
def Whole (IsLine : List β → Prop) (bs : List β) : Prop :=
  ∃ lines : List (List β), bs = lines.flatten ∧ ∀ line ∈ lines, IsLine line

/-- **Complete lines, and then at most one that is not complete.** -/
def Framed (IsLine : List β → Prop) (bs : List β) : Prop :=
  ∃ (lines : List (List β)) (tail : List β), bs = lines.flatten ++ tail ∧
    (∀ line ∈ lines, IsLine line) ∧
    (tail = [] ∨ ∃ line, IsLine line ∧ tail <+: line ∧ tail ≠ line)

theorem whole_nil : Whole IsLine [] := ⟨[], rfl, by simp⟩

theorem Whole.append (h : Whole IsLine bs) (hline : IsLine line) : Whole IsLine (bs ++ line) := by
  obtain ⟨lines, rfl, hlines⟩ := h
  refine ⟨lines ++ [line], by simp, ?_⟩
  intro line' hline'
  rcases List.mem_append.1 hline' with hline' | hline'
  · exact hlines line' hline'
  · rw [List.mem_singleton.1 hline']
    exact hline

theorem Whole.framed (h : Whole IsLine bs) : Framed IsLine bs := by
  obtain ⟨lines, rfl, hlines⟩ := h
  exact ⟨lines, [], (List.append_nil _).symm, hlines, Or.inl rfl⟩

/-- A line that is cut short ends the stream. -/
theorem Whole.framed_take (h : Whole IsLine bs) (hline : IsLine line) {k : ℕ}
    (hk : k < line.length) : Framed IsLine (bs ++ line.take k) := by
  obtain ⟨lines, rfl, hlines⟩ := h
  refine ⟨lines, line.take k, rfl, hlines, Or.inr ⟨line, hline, List.take_prefix _ _, ?_⟩⟩
  intro heq
  have := congrArg List.length heq
  rw [List.length_take] at this
  omega

end Link

end WaterGateway
