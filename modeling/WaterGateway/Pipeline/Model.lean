import WaterGateway.Common.Run
import WaterGateway.Processor.Model
import WaterGateway.Queue.Channel
import WaterGateway.Store.Model

/-!
# The pipeline

The collect, processor and store threads of the gateway, `main()` from the
start of its wait loop to the joins, and the uploader's updates of the
table, as one step function. A step is a test of a flag, a section of a
queue call, an SQL statement, or a write of a shutdown flag; a label says
who moves, and how the outside world answers (whether a timed wait has
timed out, how SQLite answers).

Every sample carries the number of samples produced before it. The numbers
and the `History` are written beside the program and never read by it.
-/

namespace WaterGateway

namespace Pipeline

/-- A sample, and how many were produced before it. -/
abbrev Item := ℕ × WaterSample

/-- What is fixed before the threads start. -/
structure Config where
  thresholds : Threshold
  deviceId : List UChar
  maxCacheCount : ℤ

/-- `collect_thread`. A push that has gone to sleep is `asleep`. -/
inductive CollectPc
  | loop
  | acquire
  | push (item : Item) (asleep : Bool)
  | sleep
  | returned
  deriving DecidableEq

/-- `processor_thread`. -/
inductive ProcPc
  | loop
  | pop (asleep : Bool)
  | handle (item : Item)
  | push (item : Item) (asleep : Bool)
  | returned
  deriving DecidableEq

/-- `sqlite_store_thread`: its loop, the drain loop after it (`drainCheck`
is the call of `sample_queue_count`), and the trims, the last of which is
`final`. -/
inductive StorePc
  | loop
  | pop (asleep : Bool)
  | insert (item : Item) (drain : Bool)
  | drainCheck
  | drainPop (asleep : Bool)
  | trim (pc : Store.TrimPc) (final : Bool)
  | returned
  deriving DecidableEq

/-- `main()`: its wait loop, and one point before each statement of its
shutdown sequence up to the third join. -/
inductive MainPc
  | running
  | setProc
  | setStore
  | shutRaw
  | shutStore
  | joinCollect
  | joinProc
  | joinStore
  | joined
  deriving DecidableEq

/-- What happened: the samples produced, those handed to
`sqlite_store_insert`, the rows inserted, and the calls of
`alarm_client_set`. -/
structure History where
  produced : List Item
  passed : List Item
  written : List (ℕ × Record)
  alarmSet : List Bool
  deriving DecidableEq

/-- **The state of the pipeline.** `w` is the width of `unsigned long`. -/
structure State (w : ℕ) where
  gShutdown : Bool
  procShutdown : Bool
  storeShutdown : Bool
  main : MainPc
  collect : CollectPc
  proc : ProcPc
  store : StorePc
  rawQueue : Channel Item w
  storeQueue : Channel Item w
  debounce : Processor.Debounce
  procCounter : UInt
  storeCounter : UInt
  writeCount : BitVec w
  writeFailCount : BitVec w
  db : Samples
  hist : History
  deriving DecidableEq

/-- `DEFAULT_QUEUE_CAPACITY`. -/
def defaultQueueCapacity : ℤ := 64

variable {w : ℕ}

/-- The state the threads start in, on two new queues. -/
def start (db : Samples) (raw store : SampleQueue Item w) : State w where
  gShutdown := false
  procShutdown := false
  storeShutdown := false
  main := .running
  collect := .loop
  proc := .loop
  store := .loop
  rawQueue := Channel.fresh raw
  storeQueue := Channel.fresh store
  debounce := .init
  procCounter := 0
  storeCounter := 0
  writeCount := 0
  writeFailCount := 0
  db := db
  hist := ⟨[], [], [], []⟩

/-- `main()` up to the start of the threads: nothing, if a queue could not
be made. -/
def init (w : ℕ) (db : Samples) : Option (State w) :=
  (Queue.sampleQueueCreate defaultQueueCapacity).bind fun raw =>
    (Queue.sampleQueueCreate defaultQueueCapacity).map fun store => start db raw store

/-- Who moves, and how the world answers. -/
inductive Label
  | signal
  | main
  | collect (timedOut : Bool)
  | acquire (sample : WaterSample)
  | proc (timedOut : Bool)
  | store (timedOut : Bool)
  | sql (a : SqlAnswer)
  | markUploaded (sampleId : ℤ) (a : SqlAnswer)
  | incRetry (sampleId : ℤ) (a : SqlAnswer)
  deriving DecidableEq

/-- How a call comes by the mutex. -/
def resume (asleep timedOut : Bool) : Resume :=
  if asleep then (if timedOut then .timedOut else .woken) else .enter

/-- What a caller of `sample_queue_pop` goes on with: nothing, where the
result is not zero. -/
def popped (code : ℤ) (out : Option Item) : Option Item := if code ≠ 0 then none else out

/-- A step of the collect thread, other than the production of a sample. -/
def collectStep (s : State w) (timedOut : Bool) : Option (State w) :=
  match s.collect with
  | .loop => some { s with collect := if s.gShutdown then .returned else .acquire }
  | .acquire => none
  | .push item asleep =>
    match s.rawQueue.push item 100 (resume asleep timedOut) with
    | none => some { s with collect := .push item true }
    | some (c, _) => some { s with rawQueue := c, collect := .sleep }
  | .sleep => some { s with collect := .loop }
  | .returned => none

/-- The collect thread produces a sample, by `sample_from_modbus_regs` or
`sample_generate_mock`. -/
def acquireStep (s : State w) (sample : WaterSample) : Option (State w) :=
  match s.collect with
  | .acquire =>
    some { s with
      collect := .push (s.hist.produced.length, sample) false
      hist := { s.hist with produced := s.hist.produced ++ [(s.hist.produced.length, sample)] } }
  | _ => none

/-- What the processor makes of an item. -/
def processItem (th : Threshold) (item : Item) : Item := (item.1, Processor.process th item.2)

/-- A step of the processor thread. -/
def procStep (cfg : Config) (s : State w) (timedOut : Bool) : Option (State w) :=
  match s.proc with
  | .loop => some { s with proc := if s.procShutdown then .returned else .pop false }
  | .pop asleep =>
    match s.rawQueue.pop 500 (resume asleep timedOut) with
    | none => some { s with proc := .pop true }
    | some (c, code, out) =>
      match popped code out with
      | none => some { s with rawQueue := c, proc := .loop }
      | some item => some { s with rawQueue := c, proc := .handle item }
  | .handle item =>
    let d := Processor.debounce s.debounce
      (Processor.processorComputeAlarm item.2 cfg.thresholds)
    some { s with
      procCounter := s.procCounter + 1
      debounce := d.1
      hist := { s.hist with alarmSet := s.hist.alarmSet ++ d.2.toList }
      proc := .push (processItem cfg.thresholds item) false }
  | .push item asleep =>
    match s.storeQueue.push item 100 (resume asleep timedOut) with
    | none => some { s with proc := .push item true }
    | some (c, _) => some { s with storeQueue := c, proc := .loop }
  | .returned => none

/-- A step of the store thread that is no SQL statement. -/
def storeStep (cfg : Config) (s : State w) (timedOut : Bool) : Option (State w) :=
  match s.store with
  | .loop => some { s with store := if s.storeShutdown then .drainCheck else .pop false }
  | .pop asleep =>
    match s.storeQueue.pop 500 (resume asleep timedOut) with
    | none => some { s with store := .pop true }
    | some (c, code, out) =>
      match popped code out with
      | none => some { s with storeQueue := c, store := .loop }
      | some item => some { s with storeQueue := c, store := .insert item false }
  | .drainCheck =>
    some { s with
      store := if 0 < Queue.sampleQueueCount s.storeQueue.queue then .drainPop false
        else .trim (Store.trimStart cfg.maxCacheCount) true }
  | .drainPop asleep =>
    match s.storeQueue.pop 100 (resume asleep timedOut) with
    | none => some { s with store := .drainPop true }
    | some (c, code, out) =>
      match popped code out with
      | none =>
        some { s with storeQueue := c, store := .trim (Store.trimStart cfg.maxCacheCount) true }
      | some item => some { s with storeQueue := c, store := .insert item true }
  | .trim (.done _) final => some { s with store := if final then .returned else .loop }
  | .trim _ _ => none
  | .insert _ _ => none
  | .returned => none

/-- Where the store thread goes after an insert: in its loop, to a trim
after every hundredth sample. -/
def afterInsert (cfg : Config) (counter : UInt) (drain : Bool) : StorePc :=
  if drain then .drainCheck
  else if 0 < cfg.maxCacheCount ∧ counter.srem 100 = 0 then
    .trim (Store.trimStart cfg.maxCacheCount) false
  else .loop

/-- An SQL statement of the store thread. -/
def sqlStep (cfg : Config) (s : State w) (a : SqlAnswer) : Option (State w) :=
  match s.store with
  | .insert item drain =>
    let res := Store.sqliteStoreInsert s.db cfg.deviceId item.2 a
    let counter := s.storeCounter + 1
    some { s with
      storeCounter := counter
      db := res.1
      writeCount := if res.2 = 0 then s.writeCount + 1 else s.writeCount
      writeFailCount := if res.2 = 0 then s.writeFailCount else s.writeFailCount + 1
      hist := { s.hist with
        passed := s.hist.passed ++ [item]
        written := if res.2 = 0 then
            s.hist.written ++ [(s.db.seq + 1, Store.recordOf cfg.deviceId item.2)]
          else s.hist.written }
      store := afterInsert cfg counter drain }
  | .trim (.done _) _ => none
  | .trim pc final =>
    let res := Store.trimStep cfg.maxCacheCount s.db pc a
    some { s with db := res.1, store := .trim res.2 final }
  | _ => none

/-- A step of `main()`. -/
def mainStep (s : State w) : Option (State w) :=
  match s.main with
  | .running => some { s with main := if s.gShutdown then .setProc else .running }
  | .setProc => some { s with procShutdown := true, main := .setStore }
  | .setStore => some { s with storeShutdown := true, main := .shutRaw }
  | .shutRaw => some { s with rawQueue := s.rawQueue.shutdown, main := .shutStore }
  | .shutStore => some { s with storeQueue := s.storeQueue.shutdown, main := .joinCollect }
  | .joinCollect => if s.collect = .returned then some { s with main := .joinProc } else none
  | .joinProc => if s.proc = .returned then some { s with main := .joinStore } else none
  | .joinStore => if s.store = .returned then some { s with main := .joined } else none
  | .joined => none

/-- **The pipeline.** -/
def step (cfg : Config) (s : State w) : Label → Option (State w)
  | .signal => some { s with gShutdown := true }
  | .main => mainStep s
  | .collect timedOut => collectStep s timedOut
  | .acquire sample => acquireStep s sample
  | .proc timedOut => procStep cfg s timedOut
  | .store timedOut => storeStep cfg s timedOut
  | .sql a => sqlStep cfg s a
  | .markUploaded sampleId a =>
    some { s with db := (Store.sqliteStoreMarkUploaded s.db sampleId a).1 }
  | .incRetry sampleId a => some { s with db := (Store.sqliteStoreIncRetry s.db sampleId a).1 }

end Pipeline

end WaterGateway
