import WaterGateway.Common.Link
import WaterGateway.Common.Run
import WaterGateway.Store.Model
import WaterGateway.Uploader.Json

/-!
# The uploader

`uploader_thread` of `uploader.c` as a step function: its main loop, the
drain loop behind it, one `send` and one SQL statement at a time. The two
copies of the batch loop are told apart by a `Loop`. Beside the thread the
labels move the rest of the world: the store thread's statements, the flag
`main()` sets, and the connections, which deliver bytes and break. A sleep
is no step.

A connection keeps the bytes that `send` has accepted. The results of
`send` are the world's: a positive one is at most what was asked for, and
is not given on a connection that has broken.
-/

namespace WaterGateway

namespace Uploader

/-- The fields of `uploader_ctx_t` that its thread reads. -/
structure Config where
  deviceId : List UChar
  batchMax : ℤ
  retryMax : ℤ

/-- The main loop of `uploader_thread`, and its drain loop. -/
inductive Loop
  | main
  | drain
  deriving DecidableEq

/-- A cursor: the `id` of the row it is on, and how many rows it may still
return; a negative `LIMIT` is none. -/
structure Stmt where
  last : ℕ
  limit : ℤ
  deriving DecidableEq

/-- Where `uploader_thread` stands. `inner` is the flag test of the inner
loop, `hasData` the local of that name (`drained` in the drain loop). -/
inductive Pc
  | outer
  | connect
  | query (loop : Loop)
  | inner (stmt : Stmt) (hasData : Bool)
  | read (loop : Loop) (stmt : Stmt) (hasData : Bool)
  | send (loop : Loop) (stmt : Stmt) (sampleId : ℤ) (line : List UChar) (sent : ℕ)
  | mark (loop : Loop) (stmt : Stmt) (sampleId : ℤ)
  | incRetry (loop : Loop) (stmt : Stmt) (sampleId : ℤ)
  | finalize (loop : Loop) (hasData : Bool)
  | drainTest
  | closing
  | stopped
  deriving DecidableEq

/-- A line that `uploader_send_line` has handed over: the row it was read
from, and the connection. -/
structure Handover where
  row : ℕ
  link : ℕ
  line : List UChar
  deriving DecidableEq

/-- **The uploader and its world.** `sock` is the connection the socket
stands for; `handed` records the lines handed over. -/
structure State (w : ℕ) where
  shutdown : Bool
  pc : Pc
  connected : Bool
  sock : Option ℕ
  uploadedCount : BitVec w
  failedCount : BitVec w
  db : Samples
  net : List (Link UChar)
  handed : List Handover
  deriving DecidableEq

/-- Who moves, and how the world answers. -/
inductive Label
  | shutdown
  | tau
  | connect (ok : Bool)
  | sql (a : SqlAnswer)
  | send (r : ℤ)
  | storeInsert (deviceId : List UChar) (sample : WaterSample) (a : SqlAnswer)
  | storeTrim (maxCount : ℤ) (pc : Store.TrimPc) (a : SqlAnswer)
  | deliver (link n : ℕ)
  | reset (link : ℕ)
  deriving DecidableEq

variable {w : ℕ}

/-- The start of the thread. -/
def init (w : ℕ) (db : Samples) : State w where
  shutdown := false
  pc := .outer
  connected := false
  sock := none
  uploadedCount := 0
  failedCount := 0
  db := db
  net := []
  handed := []

/-- The `WHERE` of `uploader_query_unuploaded`. -/
def eligible (cfg : Config) (b : Record) : Bool :=
  decide (b.uploaded = 0) && decide (b.uploadRetry < cfg.retryMax)

/-- The sample `uploader_read_row` makes of a row. -/
def sampleOf (b : Record) : WaterSample where
  timestampMs := BitVec.ofInt 64 b.timestampMs
  ph := b.ph
  temperature := b.temperature
  turbidity := b.turbidity
  conductivity := b.conductivity
  sensorStatus := BitVec.ofInt 32 (Store.columnInt b.sensorStatus)
  alarmStatus := BitVec.ofInt 32 (Store.columnInt b.alarmStatus)
  sequence := BitVec.ofInt 32 (Store.columnInt b.sequence)

/-- The line of a row. -/
def lineOf (cfg : Config) (b : Record) : List UChar := uploaderBuildJson cfg.deviceId (sampleOf b)

/-- A new cursor of `uploader_query_unuploaded`. -/
def query (cfg : Config) : Stmt := ⟨0, cfg.batchMax⟩

/-- A step of the cursor: the next row it selects, unless its limit is
used up. -/
def fetch (cfg : Config) (db : Samples) (stmt : Stmt) : Option (ℕ × Record) :=
  if stmt.limit = 0 then none else db.next (eligible cfg) stmt.last

/-- The next round of the inner loop. -/
def again : Loop → Stmt → Pc
  | .main, stmt => .inner stmt true
  | .drain, stmt => .read .drain stmt true

/-- A step that neither asks SQLite nor the network. -/
def tauStep (s : State w) : Option (State w) :=
  match s.pc with
  | .outer =>
    some { s with
      pc := if s.shutdown then .drainTest else if s.connected then .query .main else .connect }
  | .inner stmt hasData =>
    some { s with pc := if s.shutdown then .finalize .main hasData else .read .main stmt hasData }
  | .finalize .main _ => some { s with pc := .outer }
  | .finalize .drain drained =>
    some { s with pc := if drained then .query .drain else .closing }
  | .drainTest =>
    some { s with pc := if s.connected && s.sock.isSome then .query .drain else .closing }
  | .closing => some { s with pc := .stopped }
  | _ => none

/-- `uploader_connect`. -/
def connectStep (s : State w) (ok : Bool) : Option (State w) :=
  match s.pc with
  | .connect =>
    if ok then
      some { s with
        net := s.net ++ [Link.fresh]
        sock := some s.net.length
        connected := true
        pc := .query .main }
    else some { s with sock := none, pc := .outer }
  | _ => none

/-- An SQL statement of the thread. -/
def sqlStep (cfg : Config) (s : State w) (a : SqlAnswer) : Option (State w) :=
  match s.pc with
  | .query .main =>
    some { s with pc := if a = .ok then .inner (query cfg) false else .outer }
  | .query .drain =>
    some { s with pc := if a = .ok then .read .drain (query cfg) false else .closing }
  | .read loop stmt hasData =>
    if a = .ok then
      match fetch cfg s.db stmt with
      | none => some { s with pc := .finalize loop hasData }
      | some (k, b) =>
        let stmt' : Stmt := ⟨k, stmt.limit - 1⟩
        let line := lineOf cfg b
        -- a line that does not fit its buffer is skipped
        some { s with
          pc := if line.length < jsonSize then .send loop stmt' (Store.columnInt k) line 0
            else again loop stmt' }
    else some { s with pc := .finalize loop hasData }
  | .mark loop stmt sampleId =>
    some { s with
      db := (Store.sqliteStoreMarkUploaded s.db sampleId a).1
      uploadedCount := s.uploadedCount + 1
      pc := again loop stmt }
  | .incRetry .main _ sampleId =>
    some { s with
      db := (Store.sqliteStoreIncRetry s.db sampleId a).1
      failedCount := s.failedCount + 1
      connected := false
      sock := none
      pc := .finalize .main true }
  | .incRetry .drain _ sampleId =>
    -- the socket stays open, and the outer loop asks for the rows again
    some { s with
      db := (Store.sqliteStoreIncRetry s.db sampleId a).1
      failedCount := s.failedCount + 1
      pc := .finalize .drain true }
  | _ => none

/-- The connection the socket stands for. -/
def link? (s : State w) : Option (ℕ × Link UChar) :=
  s.sock.bind fun i => s.net[i]?.map fun c => (i, c)

/-- One `send` of `uploader_send_line`. -/
def sendStep (s : State w) (r : ℤ) : Option (State w) :=
  match s.pc with
  | .send loop stmt sampleId line sent =>
    if r ≤ 0 then
      some { s with
        net := match link? s with
          | some (i, c) => s.net.set i c.fail
          | none => s.net
        pc := .incRetry loop stmt sampleId }
    else
      match link? s with
      | none => none
      | some (i, c) =>
        let n := r.toNat
        if c.broken = true ∨ line.length < sent + n then none
        else
          let net := s.net.set i (c.append ((line.drop sent).take n))
          if sent + n < line.length then
            some { s with net := net, pc := .send loop stmt sampleId line (sent + n) }
          else
            some { s with
              net := net
              handed := s.handed ++ [⟨stmt.last, i, line⟩]
              pc := .mark loop stmt sampleId }
  | _ => none

/-- **The uploader in its world.** -/
def step (cfg : Config) (s : State w) : Label → Option (State w)
  | .shutdown => some { s with shutdown := true }
  | .tau => tauStep s
  | .connect ok => connectStep s ok
  | .sql a => sqlStep cfg s a
  | .send r => sendStep s r
  | .storeInsert deviceId sample a =>
    some { s with db := (Store.sqliteStoreInsert s.db deviceId sample a).1 }
  | .storeTrim maxCount pc a => some { s with db := (Store.trimStep maxCount s.db pc a).1 }
  | .deliver i n => some { s with net := s.net.modify i fun c => c.deliver n }
  | .reset i => some { s with net := s.net.modify i Link.reset }

end Uploader

end WaterGateway
