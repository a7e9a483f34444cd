import WaterGateway.Common.Exceptions
import WaterGateway.Common.Json.Lexer
import WaterGateway.Common.Lines
import WaterGateway.Receiver.Model

/-!
# The receiver line by line

The receiver's loops over a connection come to one pass over its complete
lines, however `recv()` cuts them, and what follows the last of them has no
effect. So a run lasts exactly as long as its lines let it, and counts the
objects among them.
-/

namespace WaterGateway

namespace Receiver

open Exceptions Json Lines Utf8

variable {lax : Bool} {py : Python} {c c' : Counters} {line buf : List (BitVec 8)}
variable {lines : List (List (BitVec 8))} {ms : Members} {fuel : ℕ}

/-! ## The loops -/

/-- The lines one after another. -/
def receiveLines (py : Python) (c : Counters) (lines : List (List (BitVec 8))) :
    Except Exn Counters :=
  lines.foldlM (receiveLine py) c

/-- **The inner loop** takes the complete lines off the buffer. -/
theorem drain_eq (h : buf.length ≤ fuel) :
    drain py fuel c buf =
      (receiveLines py c (cut newline buf).1).map fun c => (c, (cut newline buf).2) := by
  induction buf using cut_induction generalizing fuel c with
  | htail buf hnot =>
    rw [cut_of_notMem hnot]
    cases fuel with
    | zero => rfl
    | succ fuel =>
      rw [drain, if_neg hnot]
      rfl
  | hline line rest hnot ih =>
    rw [List.length_append, List.length_cons] at h
    cases fuel with
    | zero => omega
    | succ fuel =>
      -- a round takes the first line, and what is left is shorter than the fuel
      rw [drain, if_pos (by simp), takeWhile_ended hnot, dropWhile_ended hnot, List.tail_cons,
        cut_ended_append hnot, receiveLines, List.foldlM_cons]
      cases receiveLine py c line with
      | error e => rfl
      | ok c₁ => exact ih (by omega)

/-- What is received on a connection before its end. -/
def received : List Recv → List (BitVec 8)
  | .data (b :: bs) :: rs => b :: bs ++ received rs
  | _ => []

/-- The complete lines of a connection. -/
def completeLines (rs : List Recv) : List (List (BitVec 8)) := (cut newline (received rs)).1

/-- **The loop over a connection** is a pass over its complete lines. -/
theorem recvLoop_eq (rs : List Recv) (hbuf : newline ∉ buf) :
    recvLoop py c buf rs = receiveLines py c (cut newline (buf ++ received rs)).1 := by
  have hend : .ok c = receiveLines py c (cut newline (buf ++ [])).1 := by
    rw [List.append_nil, cut_of_notMem hbuf]
    rfl
  fun_induction recvLoop py c buf rs with
  | case1 c buf => exact hend
  | case2 c buf rs => exact hend
  | case3 c buf rs => exact hend
  | case4 c buf b bs rs ih =>
    rw [drain_eq (Nat.le_refl _), received, ← List.append_assoc, cut_append newline (buf ++ _),
      receiveLines, receiveLines, List.foldlM_append]
    cases (cut newline (buf ++ b :: bs)).1.foldlM (receiveLine py) c with
    | error e => rfl
    | ok c₁ =>
      -- what the inner loop leaves in the buffer is one line without its end
      refine ih c₁ _ (notMem_cut_snd newline _) ?_
      rw [List.append_nil, cut_of_notMem (notMem_cut_snd newline _)]
      rfl

/-! ## What a line does -/

/-- The object of a line. -/
def objectOf (lax : Bool) (line : List (BitVec 8)) : Option Members :=
  match (decode line).bind (loads lax) with
  | some (.obj ms) => some ms
  | _ => none

/-- A value that the format `.2f` takes. -/
def Numeric : Value → Prop
  | .scalar (.num w) => intOverflows w = false
  | .scalar (.bool _) => True
  | _ => False

/-- The message has the members that are printed, numbers where two
decimals are, and nothing the output cannot encode. -/
def Printable (py : Python) (ms : Members) : Prop :=
  (∀ f ∈ printed, ∃ v, lookup (text f.1) ms = some v ∧ (f.2 = true → Numeric v)) ∧
    py.encodes ms = true

/-- The receiver lives through the line. -/
def Survives (py : Python) (line : List (BitVec 8)) : Prop :=
  blank line = true ∨ ∃ cps, decode line = some cps ∧ py.limits cps = none ∧
    (loads true cps = none ∨ ∃ ms, loads true cps = some (.obj ms) ∧ Printable py ms)

theorem objectOf_eq_some :
    objectOf lax line = some ms ↔
      ∃ cps, decode line = some cps ∧ loads lax cps = some (.obj ms) := by
  unfold objectOf
  rw [← Option.bind_eq_some_iff]
  split
  · next ms' h => rw [h, Option.some.injEq, Option.some.injEq, Value.obj.injEq]
  · next h =>
    constructor
    · intro hnone
      cases hnone
    · intro hobj
      exact absurd hobj (h ms)

/-- **A blank line has no object.** -/
theorem objectOf_blank (h : blank line = true) : objectOf lax line = none := by
  have hbytes : ∀ b ∈ line, b.toNat = 32 ∨ (9 ≤ b.toNat ∧ b.toNat ≤ 13) := by
    simpa [blank] using h
  have hascii : Ascii line := fun b hb => by
    have := hbytes b hb
    omega
  have hcodes : ∀ c ∈ codes line, Blank c := by
    intro c hc
    obtain ⟨b, hb, rfl⟩ := List.mem_map.1 hc
    exact hbytes b hb
  rw [objectOf, decode_ascii hascii, Option.bind_some, loads_blank hcodes]

theorem format2f_eq_ok {v : Value} : format2f v = .ok () ↔ Numeric v := by
  cases v with
  | scalar s =>
    cases s with
    | num w => cases h : intOverflows w <;> simp [format2f, Numeric, h]
    | bool b => simp [format2f, Numeric]
    | null => simp [format2f, Numeric]
    | str s => simp [format2f, Numeric]
  | arr vs => simp [format2f, Numeric]
  | obj members => simp [format2f, Numeric]

theorem printField_eq_ok {f : String × Bool} : printField ms f = .ok () ↔
    ∃ v, lookup (text f.1) ms = some v ∧ (f.2 = true → Numeric v) := by
  unfold printField
  cases lookup (text f.1) ms with
  | none => simp
  | some v => cases hf : f.2 <;> simp [format2f_eq_ok]

theorem printMessage_eq_ok : printMessage py ms = .ok () ↔ Printable py ms := by
  have hencodes : (if py.encodes ms then .ok () else .error .unicodeEncodeError :
      Except Exn Unit) = .ok () ↔ py.encodes ms = true := by
    cases py.encodes ms <;> simp
  rw [Printable, ← hencodes, printMessage, bind_eq_ok]
  simp only [← printField_eq_ok]
  rw [← forM_eq_ok]
  constructor
  · rintro ⟨u, hfields, hout⟩
    exact ⟨hfields, hout⟩
  · rintro ⟨hfields, hout⟩
    exact ⟨(), hfields, hout⟩

/-- What a line does to the counters. -/
def countLine (c : Counters) (line : List (BitVec 8)) : Counters :=
  (objectOf true line).elim c (countMessage c)

/-- **One line**: the receiver lives through it and has counted its object,
if it has one. -/
theorem receiveLine_eq_ok :
    receiveLine py c line = .ok c' ↔ Survives py line ∧ c' = countLine c line := by
  unfold receiveLine Survives countLine
  cases hblank : blank line with
  | true => simp [objectOf_blank hblank, eq_comm]
  | false =>
    rw [if_neg (by decide), objectOf]
    cases hdecode : decode line with
    | none => simp
    | some cps =>
      simp only [Option.bind_some, Bool.false_eq_true, false_or, Option.some.injEq,
        exists_eq_left']
      cases hlimits : py.limits cps with
      | some e => simp
      | none =>
        cases hloads : loads true cps with
        | none => simp [eq_comm]
        | some v =>
          -- only an object has the method `get`
          cases v with
          | obj ms =>
            constructor
            · intro h
              obtain ⟨⟨⟩, hprint, rfl⟩ := map_eq_ok.1 h
              exact ⟨⟨rfl, Or.inr ⟨ms, rfl, printMessage_eq_ok.1 hprint⟩⟩, rfl⟩
            · rintro ⟨⟨-, hnone | ⟨ms', hms, hprint⟩⟩, rfl⟩
              · cases hnone
              · cases hms
                exact map_eq_ok.2 ⟨(), printMessage_eq_ok.2 hprint, rfl⟩
          | scalar s => simp
          | arr vs => simp

/-! ## Runs -/

/-- What a connection does to the counters. -/
def countSession (c : Counters) (rs : List Recv) : Counters :=
  (completeLines rs).foldl countLine { c with sessionCount := 0, sessionAlarms := 0 }

theorem session_eq_ok {rs : List Recv} : session py c rs = .ok c' ↔
    (∀ line ∈ completeLines rs, Survives py line) ∧ c' = countSession c rs := by
  have hline : ∀ c line c', receiveLine py c line = .ok c' ↔
      Survives py line ∧ c' = countLine c line := fun _ _ _ => receiveLine_eq_ok
  rw [session, recvLoop_eq rs List.not_mem_nil, List.nil_append]
  exact foldlM_eq_ok hline

/-- **A run lasts** as long as its lines let it. -/
theorem receiver_eq_ok {conns : List (List Recv)} : receiver py c conns = .ok c' ↔
    (∀ rs ∈ conns, ∀ line ∈ completeLines rs, Survives py line) ∧
      c' = conns.foldl countSession c := by
  have hsession : ∀ c rs c', session py c rs = .ok c' ↔
      (∀ line ∈ completeLines rs, Survives py line) ∧ c' = countSession c rs :=
    fun _ _ _ => session_eq_ok
  exact foldlM_eq_ok hsession

/-- The objects of the lines of some connections, in order. -/
def objects (lax : Bool) (conns : List (List Recv)) : List Members :=
  (conns.flatMap completeLines).filterMap (objectOf lax)

theorem countLines_eq (lines : List (List (BitVec 8))) :
    lines.foldl countLine c = (lines.filterMap (objectOf true)).foldl countMessage c := by
  induction lines generalizing c with
  | nil => rfl
  | cons line lines ih =>
    rw [List.foldl_cons, ih, countLine, List.filterMap_cons]
    cases objectOf true line <;> rfl

/-- The counters after some messages. -/
theorem foldl_countMessage (mss : List Members) : mss.foldl countMessage c =
    { totalCount := c.totalCount + mss.length
      totalAlarms := c.totalAlarms + mss.countP alarmed
      sessionCount := c.sessionCount + mss.length
      sessionAlarms := c.sessionAlarms + mss.countP alarmed
      counted := c.counted ++ mss } := by
  induction mss generalizing c with
  | nil => simp
  | cons ms mss ih =>
    rw [List.foldl_cons, ih, countMessage, List.length_cons, List.countP_cons]
    cases alarmed ms <;> simp [Nat.add_assoc, Nat.add_comm 1]

end Receiver

end WaterGateway
