import WaterGateway.Common.Transducer
import Mathlib.Order.Basic

/-!
# UTF-8

The strict decoder, as a machine over bytes: a lead byte says how many
continuation bytes follow and what the least value is they may make, so
that no code point has two encodings. An ASCII byte stands for itself and
only between two code points.
-/

namespace WaterGateway

namespace Utf8

/-- The state between two bytes: after a lead byte, `n + 1` continuation
bytes are to come, and the value so far is to grow to `least` at least. -/
inductive State
  | idle
  | more (n value least : ℕ)
  deriving DecidableEq

/-- One byte. -/
def step : State → BitVec 8 → Option (State × List ℕ)
  | .idle, b =>
    let c := b.toNat
    if c < 0x80 then some (.idle, [c])
    else if c < 0xC0 then none
    else if c < 0xE0 then some (.more 0 (c - 0xC0) 0x80, [])
    else if c < 0xF0 then some (.more 1 (c - 0xE0) 0x800, [])
    else if c < 0xF8 then some (.more 2 (c - 0xF0) 0x10000, [])
    else none
  | .more n value least, b =>
    let value := value * 64 + b.toNat % 64
    if b.toNat / 64 = 2 then
      match n with
      | 0 => if least ≤ value ∧ value.isValidChar then some (.idle, [value]) else none
      | n + 1 => some (.more n value least, [])
    else none

/-- **The code points of a text**, if it is one. -/
def decode (bs : List (BitVec 8)) : Option (List ℕ) :=
  match Transducer.run step .idle bs with
  | some (.idle, cps) => some cps
  | _ => none

/-- The code points of ASCII bytes. -/
def codes (bs : List (BitVec 8)) : List ℕ := bs.map BitVec.toNat

/-- Every byte is an ASCII one. -/
def Ascii (bs : List (BitVec 8)) : Prop := ∀ b ∈ bs, b.toNat < 0x80

instance (bs : List (BitVec 8)) : Decidable (Ascii bs) :=
  decidable_of_iff (bs.all (fun b => decide (b.toNat < 0x80)) = true) (by simp [Ascii])

variable {bs bs' : List (BitVec 8)} {b : BitVec 8} {cps : List ℕ} {s s' : State}

theorem codes_append (bs bs' : List (BitVec 8)) : codes (bs ++ bs') = codes bs ++ codes bs' :=
  List.map_append

theorem decode_eq_some :
    decode bs = some cps ↔ Transducer.run step .idle bs = some (.idle, cps) := by
  unfold decode
  split
  · next cps' h => rw [h, Option.some.injEq, Option.some.injEq, Prod.mk.injEq, eq_self_iff_true,
      true_and]
  · next h =>
    constructor
    · intro hd
      cases hd
    · intro hrun
      exact absurd hrun (h cps)

theorem step_ascii (h : b.toNat < 0x80) : step .idle b = some (.idle, [b.toNat]) := if_pos h

/-- An ASCII byte does not continue a code point. -/
theorem eq_idle_of_ascii {o : List ℕ} (h : b.toNat < 0x80) (hstep : step s b = some (s', o)) :
    s = .idle := by
  cases s with
  | idle => rfl
  | more n value least =>
    have hcont : ¬ b.toNat / 64 = 2 := by omega
    simp [step, hcont] at hstep

theorem run_ascii (h : Ascii bs) : Transducer.run step .idle bs = some (.idle, codes bs) := by
  induction bs with
  | nil => rfl
  | cons b bs ih =>
    obtain ⟨hb, hbs⟩ := List.forall_mem_cons.1 h
    rw [Transducer.run_cons_of_move (step_ascii hb), ih hbs]
    rfl

/-- **ASCII decodes to itself.** -/
theorem decode_ascii (h : Ascii bs) : decode bs = some (codes bs) :=
  decode_eq_some.2 (run_ascii h)

/-- **ASCII in front.** -/
theorem decode_ascii_append (h : Ascii bs) :
    decode (bs ++ bs') = some cps ↔ ∃ cps', decode bs' = some cps' ∧ cps = codes bs ++ cps' := by
  rw [decode_eq_some, Transducer.run_append_of_run (run_ascii h), Transducer.emit_eq_some]
  simp only [decode_eq_some]

/-- **A text ends before an ASCII byte.** -/
theorem decode_append_ascii (h : b.toNat < 0x80) :
    decode (bs ++ b :: bs') = some cps ↔
      ∃ cps₁ cps₂, decode bs = some cps₁ ∧ decode (b :: bs') = some cps₂ ∧ cps = cps₁ ++ cps₂ := by
  simp only [decode_eq_some, Transducer.run_append_eq_some]
  constructor
  · rintro ⟨s, cps₁, cps₂, h₁, h₂, rfl⟩
    obtain ⟨p, hp, -⟩ := Option.bind_eq_some_iff.1 h₂
    obtain rfl : s = .idle := eq_idle_of_ascii h hp
    exact ⟨cps₁, cps₂, h₁, h₂, rfl⟩
  · rintro ⟨cps₁, cps₂, h₁, h₂, rfl⟩
    exact ⟨.idle, cps₁, cps₂, h₁, h₂, rfl⟩

/-- **ASCII behind.** -/
theorem decode_append_of_ascii (h : Ascii bs') (hne : bs' ≠ []) :
    decode (bs ++ bs') = some cps ↔ ∃ cps₁, decode bs = some cps₁ ∧ cps = cps₁ ++ codes bs' := by
  obtain ⟨b, rest, rfl⟩ := List.exists_cons_of_ne_nil hne
  rw [decode_append_ascii (List.forall_mem_cons.1 h).1, decode_ascii h]
  constructor
  · rintro ⟨cps₁, cps₂, h₁, h₂, rfl⟩
    cases h₂
    exact ⟨cps₁, h₁, rfl⟩
  · rintro ⟨cps₁, h₁, rfl⟩
    exact ⟨cps₁, _, h₁, rfl, rfl⟩

/-- **An ASCII byte stands for itself**, wherever it is. -/
theorem toNat_mem_of_decode (h : decode bs = some cps) (hb : b ∈ bs) (hascii : b.toNat < 0x80) :
    b.toNat ∈ cps := by
  obtain ⟨before, after, rfl⟩ := List.append_of_mem hb
  obtain ⟨cps₁, cps₂, -, h₂, rfl⟩ := (decode_append_ascii hascii).1 h
  rw [← List.singleton_append, decode_ascii_append (by simpa [Ascii] using hascii)] at h₂
  obtain ⟨cps', -, rfl⟩ := h₂
  exact List.mem_append_right _ List.mem_cons_self

/-- Two bytes make `é`; the first of them alone is no text. -/
example : decode [0xC3, 0xA9] = some [0xE9] ∧ decode [0xC3] = none := by decide

end Utf8

end WaterGateway
