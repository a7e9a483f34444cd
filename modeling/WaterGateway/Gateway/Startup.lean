import WaterGateway.Common.Ownership

/-!
# The start of the gateway, and its way out

`main()` as a program that owns handles: what it opens before the threads
start, the way out of each call that fails, the start of each thread, the
wait, the shutdown sequence and the cleanup. A handle is taken by its
`open`, and given back by its `close`; a thread is lent what its context
points to.
-/

namespace WaterGateway

namespace Gateway

namespace Startup

open Ownership

/-- What `main()` has to give back. -/
inductive Handle
  | log
  | serial
  | alarm
  | rawQueue
  | storeQueue
  | db
  deriving DecidableEq

inductive Thread
  | collect
  | processor
  | store
  | uploader
  deriving DecidableEq

/-- `g_shutdown`, the flags of the contexts, and those of the queues. -/
inductive Flag
  | gShutdown
  | procShutdown
  | storeShutdown
  | uploadShutdown
  | rawQueue
  | storeQueue
  deriving DecidableEq

abbrev Main := Program Handle Thread Flag

/-- A handle that may not be there. -/
def opened (r : Handle) (ok : Bool) : List Handle := if ok then [r] else []

/-- What the context of a thread points to, and the log file, a global that
every thread writes to. -/
def context (log serial alarm : Bool) : Thread → List Handle
  | .collect => opened .log log ++ opened .serial serial ++ [.rawQueue]
  | .processor => opened .log log ++ opened .alarm alarm ++ [.rawQueue, .storeQueue]
  | .store => opened .log log ++ [.storeQueue, .db]
  | .uploader => opened .log log ++ [.db]

/-- `serial_open`. -/
def serialOpen : Main Bool := do
  unless ← acquire .serial do return false
  -- serial_configure
  unless ← ask do
    release .serial
    return false
  -- fcntl
  unless ← ask do
    release .serial
    return false
  return true

/-- `sqlite_store_open`: a handle comes back also from an open that fails. -/
def sqliteStoreOpen : Main Bool := do
  unless ← acquire .db do return false
  unless ← ask do
    release .db
    return false
  return true

/-- `sqlite_store_create_table`: a table and two indices, the answer for the
second of which is not looked at. -/
def sqliteStoreCreateTable : Main Bool := do
  use .db
  unless ← ask do return false
  unless ← ask do return false
  return true

/-- The end of each way out: the two devices. -/
def closeDevices (serial alarm : Bool) : Main Unit := do
  if serial then release .serial
  if alarm then release .alarm

def destroyQueues : Main Unit := do
  release .rawQueue
  release .storeQueue

/-- The way out from behind `sqlite_store_open`. -/
def closeAll (serial alarm : Bool) : Main Unit := do
  release .db
  destroyQueues
  closeDevices serial alarm

/-- `main()` behind the start of the threads. -/
def serve (log serial alarm upload : Bool) : Main ℕ := do
  -- the wait loop, with its heartbeat
  await .gShutdown [.db]
  tell .procShutdown []
  tell .storeShutdown []
  tell .rawQueue [.rawQueue]
  tell .storeQueue [.storeQueue]
  join .collect
  join .processor
  join .store
  tell .uploadShutdown []
  if upload then join .uploader
  -- the counts that are logged
  use .rawQueue
  use .storeQueue
  use .db
  closeAll serial alarm
  if log then release .log
  return 0

/-- **`main()`**, behind its arguments. -/
def main (upload : Bool) : Main ℕ := do
  -- config_load
  unless ← ask do return 1
  let log ← acquire .log
  let serial ← serialOpen
  let alarm ← acquire .alarm
  let rawQueue ← acquire .rawQueue
  let storeQueue ← acquire .storeQueue
  unless rawQueue && storeQueue do
    closeDevices serial alarm
    return 1
  unless ← sqliteStoreOpen do
    destroyQueues
    closeDevices serial alarm
    return 1
  unless ← sqliteStoreCreateTable do
    closeAll serial alarm
    return 1
  unless ← create .collect (context log serial alarm .collect) do
    closeAll serial alarm
    return 1
  unless ← create .processor (context log serial alarm .processor) do
    tell .gShutdown []
    tell .rawQueue [.rawQueue]
    join .collect
    closeAll serial alarm
    return 1
  unless ← create .store (context log serial alarm .store) do
    tell .gShutdown []
    tell .procShutdown []
    tell .rawQueue [.rawQueue]
    tell .storeQueue [.storeQueue]
    join .collect
    join .processor
    closeAll serial alarm
    return 1
  if upload then
    unless ← create .uploader (context log serial alarm .uploader) do
      tell .gShutdown []
      tell .procShutdown []
      tell .storeShutdown []
      tell .rawQueue [.rawQueue]
      tell .storeQueue [.storeQueue]
      join .collect
      join .processor
      join .store
      closeAll serial alarm
      return 1
  serve log serial alarm upload

/-- **`run_test`**, whose threads write to no log file. -/
def runTest : Main ℕ := do
  unless ← acquire .rawQueue do return 1
  unless ← acquire .storeQueue do
    release .rawQueue
    return 1
  unless ← sqliteStoreOpen do
    destroyQueues
    return 1
  unless ← sqliteStoreCreateTable do
    closeAll false false
    return 1
  unless ← create .collect (context false false false .collect) do
    closeAll false false
    return 1
  unless ← create .processor (context false false false .processor) do
    tell .gShutdown []
    join .collect
    closeAll false false
    return 1
  unless ← create .store (context false false false .store) do
    tell .gShutdown []
    tell .procShutdown []
    tell .rawQueue [.rawQueue]
    tell .storeQueue [.storeQueue]
    join .collect
    join .processor
    closeAll false false
    return 1
  -- a failure is logged, and the test goes on
  let _ ← create .uploader (context false false false .uploader)
  tell .gShutdown []
  tell .procShutdown []
  tell .storeShutdown []
  tell .uploadShutdown []
  tell .rawQueue [.rawQueue]
  tell .storeQueue [.storeQueue]
  join .collect
  join .processor
  join .store
  join .uploader
  -- the counts that are logged
  use .rawQueue
  use .storeQueue
  use .db
  closeAll false false
  return 0

/-! ## `main()` -/

/-- The flag that ends the loop of a thread. -/
def Thread.flag : Thread → Flag
  | .collect => .gShutdown
  | .processor => .procShutdown
  | .store => .storeShutdown
  | .uploader => .uploadShutdown

/-- The queues a thread may be asleep in. -/
def Thread.queues : Thread → List Flag
  | .collect => [.rawQueue]
  | .processor => [.rawQueue, .storeQueue]
  | .store => [.storeQueue]
  | .uploader => []

/-- The calls that can fail. -/
def mayFail : Op Handle Thread Flag → Bool
  | .ask | .acquire _ | .create _ _ => true
  | _ => false

/-- The world of `main()`: a thread is not to be found asleep in a queue
when it is joined. -/
def world : World Handle Thread Flag where
  fails := mayFail
  signals := fun k => k = .gShutdown
  needs := fun t => t.flag :: t.queues

/-- **What `main()` may leave behind**: nothing where it returns 0; on a way
out the log file, and one queue where the other one could not be made. -/
def Left (code : ℕ) (held : List Handle) : Prop :=
  if code = 0 then held = []
  else held.filter (fun r => r ≠ .log) ∈ [[], [.rawQueue], [.storeQueue]]

instance (code : ℕ) (held : List Handle) : Decidable (Left code held) :=
  inferInstanceAs (Decidable (ite _ _ _))

theorem safe_main (upload : Bool) : (main upload).Safe world Left .empty := by
  cases upload with
  | false => decide +kernel
  | true => decide +kernel

variable {upload : Bool} {ls : List (Label Thread Flag)} {s : Ownership.State Handle Thread Flag ℕ}

/-- **`main()` gives back what it took**: whichever of its calls fail, and
however its threads and a signal come in between, it releases a handle once
and not before the threads that have it are joined; it joins the threads it
has started, each of them told to stop and kept from sleeping in a queue;
and what it leaves open is the log file at most, or the one queue that was
made of the two. -/
theorem main_releases
    (h : Run.exec (Ownership.step world) (.start (main upload)) ls = some s) :
    Sound world Left s :=
  sound_of_exec (safe_main upload) h

/-- The store thread cannot be started. -/
def storeRefused : List (Label Thread Flag) :=
  List.replicate 15 (.call true) ++ [.call false] ++ List.replicate 4 (.call true) ++
    [.ends .processor, .ends .collect] ++ List.replicate 7 (.call true)

/-- Two threads are joined, and only the log file is left. -/
theorem main_releases_refused :
    ∃ s, Run.exec (Ownership.step world) (.start (main true)) storeRefused = some s ∧
      s.program.result = some 1 ∧ s.books.held = [.log] ∧ s.books.threads = [] ∧
      Left 1 s.books.held := by
  obtain ⟨s, h, hresult, hheld⟩ := Run.exists_of_exec (Ownership.step world)
    (.start (main true)) storeRefused
    (fun s => s.program.result = some 1 ∧ s.books.held = [.log]) (by decide +kernel)
  obtain ⟨hthreads, hleft⟩ := (main_releases h).returned 1 hresult
  exact ⟨s, h, hresult, hheld, hthreads, hleft⟩

/-! ## `run_test` -/

/-- A world of `run_test`, in which the calls of `fails` can fail. No signal
is handled, and a call of a queue sleeps its time out. -/
def testWorld (fails : Op Handle Thread Flag → Bool) : World Handle Thread Flag where
  fails := fun o => mayFail o && fails o
  signals := fun _ => false
  needs := fun t => [t.flag]

/-- Nothing is left behind. -/
def LeftNone (_ : ℕ) (held : List Handle) : Prop := held = []

instance (code : ℕ) (held : List Handle) : Decidable (LeftNone code held) :=
  inferInstanceAs (Decidable (held = []))

/-- The start of the uploader. -/
def startUploader : Op Handle Thread Flag :=
  .create .uploader (context false false false .uploader)

/-- Every other call may fail. -/
theorem safe_runTest : runTest.Safe (testWorld fun o => o ≠ startUploader) LeftNone .empty := by
  decide +kernel

/-- A world in which the start of the uploader can fail. -/
theorem within_of_fails {fails : Op Handle Thread Flag → Bool}
    (hfails : fails startUploader = true) :
    (testWorld fun o => o = startUploader).Within (testWorld fails) := by
  refine ⟨fun o ho => ?_, fun k hk => hk, rfl⟩
  obtain ⟨hmay, ho⟩ := Bool.and_eq_true_iff.1 ho
  rw [of_decide_eq_true ho] at hmay ⊢
  exact Bool.and_eq_true_iff.2 ⟨hmay, hfails⟩

/-- A world in which it cannot. -/
theorem within_of_not_fails {fails : Op Handle Thread Flag → Bool}
    (hfails : fails startUploader = false) :
    (testWorld fails).Within (testWorld fun o => o ≠ startUploader) := by
  refine ⟨fun o ho => ?_, fun k hk => hk, rfl⟩
  obtain ⟨hmay, ho⟩ := Bool.and_eq_true_iff.1 ho
  refine Bool.and_eq_true_iff.2 ⟨hmay, decide_eq_true fun heq => ?_⟩
  rw [heq, hfails] at ho
  cases ho

/-- The uploader is not started, and the other three threads are joined. -/
def uploaderRefused : List (Label Thread Flag) :=
  List.replicate 10 (.call true) ++ [.call false] ++ List.replicate 6 (.call true) ++
    [.ends .collect, .ends .processor, .ends .store] ++ List.replicate 3 (.call true)

/-- `run_test` is about to join an upload thread that is not there. -/
def JoinsNone (s : Ownership.State Handle Thread Flag ℕ) : Prop :=
  s.program.nextOp = some (.join .uploader) ∧ Thread.uploader ∉ s.books.threads.map Prod.fst

instance (s : Ownership.State Handle Thread Flag ℕ) : Decidable (JoinsNone s) :=
  inferInstanceAs (Decidable (_ ∧ _))

/-- No sound program is. -/
theorem not_joinsNone {fails : Op Handle Thread Flag → Bool}
    (h : Sound (testWorld fails) LeftNone s) : ¬ JoinsNone s :=
  fun hjoins => hjoins.2 (h.allowed _ hjoins.1).1

/-- **`run_test` rests on the start of the uploader**: whichever calls can
fail, it does no harm and leaves nothing behind in any run, exactly if the
start of the uploader is not among them; where it is, and only there, some
run comes to the join of an upload thread that was not started. -/
theorem runTest_sound_iff (fails : Op Handle Thread Flag → Bool) :
    ((∀ ls s, Run.exec (Ownership.step (testWorld fails)) (.start runTest) ls = some s →
      Sound (testWorld fails) LeftNone s) ↔ fails startUploader = false) ∧
    ((∃ ls s, Run.exec (Ownership.step (testWorld fails)) (.start runTest) ls = some s ∧
      JoinsNone s) ↔ fails startUploader = true) := by
  have hsound : fails startUploader = false → ∀ ls s,
      Run.exec (Ownership.step (testWorld fails)) (.start runTest) ls = some s →
        Sound (testWorld fails) LeftNone s := fun hfails _ _ h =>
    sound_of_exec (safe_runTest.within (within_of_not_fails hfails)) h
  have hjoins : fails startUploader = true → ∃ ls s,
      Run.exec (Ownership.step (testWorld fails)) (.start runTest) ls = some s ∧ JoinsNone s := by
    intro hfails
    obtain ⟨s, h, hs⟩ := Run.exists_of_exec
      (Ownership.step (testWorld fun o => o = startUploader)) (.start runTest) uploaderRefused
      JoinsNone (by decide +kernel)
    exact ⟨_, s, exec_within (within_of_fails hfails) h, hs⟩
  refine ⟨⟨fun hall => ?_, hsound⟩, ⟨?_, hjoins⟩⟩
  · by_contra hfails
    obtain ⟨ls, s, h, hs⟩ := hjoins (eq_true_of_ne_false hfails)
    exact not_joinsNone (hall ls s h) hs
  · rintro ⟨ls, s, h, hs⟩
    by_contra hfails
    exact not_joinsNone (hsound (eq_false_of_ne_true hfails) ls s h) hs

end Startup

end Gateway

end WaterGateway
