import WaterGateway.Common.Json.Model
import WaterGateway.Common.Utf8
import Mathlib.Algebra.Order.Ring.Int

/-!
# The receiver

The receive loop of `run_receiver.py`. What ends it from within is an
exception: around a line only `JSONDecodeError` is caught, and around a
connection only `socket.error`. A connection is given by what its calls of
`recv()` return; the loop may also end between two of them, by a signal.
-/

namespace WaterGateway

namespace Receiver

open Json Utf8

/-- The exceptions that nothing catches. -/
inductive Exn
  | unicodeDecodeError
  | unicodeEncodeError
  | recursionError
  | attributeError
  | keyError (name : String)
  | valueError
  | typeError
  | overflowError
  deriving DecidableEq

abbrev Members := List (List ℕ × Value)

/-- What the running interpreter decides: which texts are beyond the limits
of its JSON reader (the depth of nesting, the digits of an integer), and
which messages its standard output can encode. -/
structure Python where
  limits : List ℕ → Option Exn
  encodes : Members → Bool

/-- The counters, and the messages that they count. -/
structure Counters where
  totalCount : ℕ
  totalAlarms : ℕ
  sessionCount : ℕ
  sessionAlarms : ℕ
  counted : List Members

/-! ## Values -/

/-- The number that the digits of a text make. -/
def digitsValue (w : List ℕ) : ℕ := (w.filter isDigit).foldl (fun n c => n * 10 + (c - 48)) 0

def isExpMark (c : ℕ) : Bool := c = 69 ∨ c = 101

/-- What stands in front of the exponent. -/
def significand (w : List ℕ) : List ℕ := w.takeWhile fun c => !isExpMark c

def exponent (w : List ℕ) : ℤ :=
  let e := w.dropWhile fun c => !isExpMark c
  if 45 ∈ e then -(digitsValue e : ℤ) else digitsValue e

/-- How many digits stand behind the point. -/
def fractionLength (w : List ℕ) : ℕ := ((significand w).dropWhile (· ≠ 46)).tail.length

/-- A number without a point and an exponent is an `int`. -/
def isInt (w : List ℕ) : Bool := w.all fun c => c ≠ 46 ∧ !isExpMark c

/-- `== 0` for a number: a `float` is zero up to half of the least positive
one, which is `2 ^ -1074`. -/
def numberIsZero (w : List ℕ) : Bool :=
  isNumber w && decide (digitsValue (significand w) * 2 ^ 1075 ≤
    10 ^ (fractionLength w - exponent w).toNat)

/-- `== 0`. -/
def isZero : Value → Bool
  | .scalar (.num w) => numberIsZero w
  | .scalar (.bool b) => !b
  | _ => false

/-- An `int` that is no `float`, not even rounded. -/
def intOverflows (w : List ℕ) : Bool := isInt w && decide (2 ^ 1024 - 2 ^ 970 ≤ digitsValue w)

/-- The format `.2f`. -/
def format2f : Value → Except Exn Unit
  | .scalar (.num w) => if intOverflows w then .error .overflowError else .ok ()
  | .scalar (.bool _) => .ok ()
  | .scalar (.str _) => .error .valueError
  | _ => .error .typeError

/-! ## Lines -/

/-- `not line.strip()`. -/
def blank (line : List (BitVec 8)) : Bool :=
  line.all fun b => b.toNat = 32 ∨ (9 ≤ b.toNat ∧ b.toNat ≤ 13)

/-- `msg.get('alarm_status', 0) != 0`. -/
def alarmed (ms : Members) : Bool := (lookup (text "alarm_status") ms).any fun v => !isZero v

/-- The counters advance. -/
def countMessage (c : Counters) (ms : Members) : Counters where
  totalCount := c.totalCount + 1
  totalAlarms := c.totalAlarms + (alarmed ms).toNat
  sessionCount := c.sessionCount + 1
  sessionAlarms := c.sessionAlarms + (alarmed ms).toNat
  counted := c.counted ++ [ms]

/-- The members that are printed, in this order, and which of them with two
decimals. -/
def printed : List (String × Bool) :=
  [("device_id", false), ("ph", true), ("temperature", true), ("turbidity", true),
    ("conductivity", false), ("alarm_status", false), ("sequence", false)]

def printField (ms : Members) (f : String × Bool) : Except Exn Unit :=
  match lookup (text f.1) ms with
  | none => .error (.keyError f.1)
  | some v => if f.2 then format2f v else .ok ()

/-- The `print` of a message. -/
def printMessage (py : Python) (ms : Members) : Except Exn Unit := do
  printed.forM (printField ms)
  if py.encodes ms then .ok () else .error .unicodeEncodeError

/-- **One line**, its newline taken off. -/
def receiveLine (py : Python) (c : Counters) (line : List (BitVec 8)) : Except Exn Counters :=
  if blank line then .ok c
  else
    match decode line with
    | none => .error .unicodeDecodeError
    | some cps =>
      match py.limits cps with
      | some e => .error e
      | none =>
        match loads true cps with
        | none => .ok c -- `JSONDecodeError`
        -- the counters advance before the print, whose failure ends the program
        | some (.obj ms) => (printMessage py ms).map fun _ => countMessage c ms
        | some _ => .error .attributeError

/-! ## Connections -/

def newline : BitVec 8 := 10

/-- `while b'\n' in buf`, with `fuel` for its rounds. -/
def drain (py : Python) : ℕ → Counters → List (BitVec 8) → Except Exn (Counters × List (BitVec 8))
  | 0, c, buf => .ok (c, buf)
  | fuel + 1, c, buf =>
    if newline ∈ buf then do
      let c ← receiveLine py c (buf.takeWhile (· ≠ newline))
      drain py fuel c (buf.dropWhile (· ≠ newline)).tail
    else .ok (c, buf)

/-- What a call of `recv()` returns; no bytes say that the peer has closed. -/
inductive Recv
  | data (bytes : List (BitVec 8))
  | error
  deriving DecidableEq

/-- The loop over a connection, up to its end. -/
def recvLoop (py : Python) : Counters → List (BitVec 8) → List Recv → Except Exn Counters
  | c, _, [] => .ok c -- `shutdown[0]`
  | c, _, .error :: _ => .ok c -- `socket.error`
  | c, _, .data [] :: _ => .ok c
  | c, buf, .data (b :: bs) :: rs => do
    let (c, buf) ← drain py (buf ++ b :: bs).length c (buf ++ b :: bs)
    recvLoop py c buf rs

/-- One connection. -/
def session (py : Python) (c : Counters) (rs : List Recv) : Except Exn Counters :=
  recvLoop py { c with sessionCount := 0, sessionAlarms := 0 } [] rs

/-- **The receiver**: one connection after another. -/
def receiver (py : Python) (c : Counters) (conns : List (List Recv)) : Except Exn Counters :=
  conns.foldlM (session py) c

end Receiver

end WaterGateway
