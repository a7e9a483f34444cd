import WaterGateway.Gateway.Closing
import WaterGateway.Gateway.Startup

/-!
# The gateway as a run of `main()`

The threads of the gateway and the end of `main()` are steps of a state
that knows nothing of handles; `main()` as the owner of its handles knows
nothing of what the threads do. `owner` is what the second sees of the
first: how far `main()` is, which threads it has not joined, which flags are
set and which threads have returned. Every step of the gateway is a step
of the owner, or none.
-/

namespace WaterGateway

namespace Gateway

open Config (GatewayConfig)
open Ownership (Books Program)
open Startup

variable {w : ℕ} {cfg : GatewayConfig} {s s' : State w} {l : Label} {ls : List Label}
variable {base : Samples} {log serial alarm : Bool}

/-- Whether the uploader is started. -/
def uploads (cfg : GatewayConfig) : Bool := decide (cfg.uploadEnabled ≠ 0)

/-- How many calls of `serve` are behind `main()`, from its third join on. -/
def Tail.stage (upload : Bool) : Tail → ℕ
  | .setUpload => 0
  | .joinUpload => 1
  | .closed => if upload then 2 else 1

def State.stage (upload : Bool) (s : State w) : ℕ :=
  s.pipeline.main.stage + s.tail.stage upload

/-- The call of `serve` that joins a thread. -/
def joinStage : Thread → ℕ
  | .collect => 5
  | .processor => 6
  | .store => 7
  | .uploader => 9

/-- The threads `main()` starts, the last one first. -/
def started (upload : Bool) : List Thread :=
  if upload then [.uploader, .store, .processor, .collect] else [.store, .processor, .collect]

/-- The flags that are set. -/
def flags (s : State w) : Flag → Bool
  | .gShutdown => s.pipeline.gShutdown
  | .procShutdown => s.pipeline.procShutdown
  | .storeShutdown => s.pipeline.storeShutdown
  | .uploadShutdown => s.uploader.shutdown
  | .rawQueue => s.pipeline.rawQueue.queue.shutdown
  | .storeQueue => s.pipeline.storeQueue.queue.shutdown

/-- The threads that have returned. -/
def ended (s : State w) : Thread → Bool
  | .collect => decide (s.pipeline.collect = .returned)
  | .processor => decide (s.pipeline.proc = .returned)
  | .store => decide (s.pipeline.store = .returned)
  | .uploader => decide (s.uploader.pc = .stopped)

/-- The handles `main()` has open while its threads run. -/
def handles (log serial alarm : Bool) : List Handle :=
  [.db, .storeQueue, .rawQueue] ++ opened .alarm alarm ++ opened .serial serial ++ opened .log log

/-- The threads `main()` has not joined. -/
def unjoined (upload : Bool) (stage : ℕ) : List Thread :=
  (started upload).filter fun t => stage ≤ joinStage t

/-- **The gateway, as `main()` owns it.** -/
def owner (upload log serial alarm : Bool) (s : State w) :
    Ownership.State Handle Thread Flag ℕ where
  program := (serve log serial alarm upload).skip (s.stage upload)
  books :=
    { held := handles log serial alarm
      threads := (unjoined upload (s.stage upload)).map fun t => (t, context log serial alarm t)
      told := flags s }
  ended := ended s

variable {upload : Bool}

/-! ## A step of a thread -/

/-- **A step that is no affair of `main()`**, or brings the thread `t` to
its end. -/
structure Own (upload : Bool) (t : Thread) (s s' : State w) : Prop where
  stage : s'.stage upload = s.stage upload
  flags : flags s' = flags s
  others : ∀ j, j ≠ t → ended s' j = ended s j
  keeps : ended s t = true → ended s' t = true

/-- A thread that is not joined is one of the owner's. -/
theorem mem_threads {t : Thread} (hin : t ∈ unjoined upload (s.stage upload)) :
    t ∈ (owner upload log serial alarm s).books.threads.map Prod.fst := by
  rw [owner, List.map_map]
  exact List.mem_map.2 ⟨t, hin, rfl⟩

theorem Own.simulates {t : Thread} (h : Own upload t s s')
    (hin : ended s t = false → t ∈ unjoined upload (s.stage upload)) :
    ∃ ls, Run.exec (Ownership.step world) (owner upload log serial alarm s) ls =
      some (owner upload log serial alarm s') := by
  have hsame : ended s' t = ended s t → owner upload log serial alarm s' =
      owner upload log serial alarm s := by
    intro ht
    have hended : ended s' = ended s := funext fun j => by
      by_cases hj : j = t
      · rw [hj, ht]
      · exact h.others j hj
    rw [owner, owner, h.stage, h.flags, hended]
  cases hold : ended s t with
  | true => exact ⟨[], by rw [hsame ((h.keeps hold).trans hold.symm)]; rfl⟩
  | false =>
    cases hnew : ended s' t with
    | false => exact ⟨[], by rw [hsame (hnew.trans hold.symm)]; rfl⟩
    | true =>
      have hended : ended s' = Function.update (ended s) t true := funext fun j => by
        rw [Function.update_apply]
        split
        · next hj => rw [hj, hnew]
        · next hj => exact h.others j hj
      refine ⟨[.ends t], ?_⟩
      rw [Run.exec_cons, Ownership.step, if_pos (mem_threads (hin hold)), Option.bind_some,
        Run.exec_nil, owner, owner, h.stage, h.flags, hended]

/-- The thread that takes a step of the pipeline. -/
def mover : Pipeline.Label → Thread
  | .proc _ => .processor
  | .store _ | .sql _ => .store
  | _ => .collect

/-- A thread that has returned takes no step. -/
theorem step_returned {c : Pipeline.Config} {l : Pipeline.Label} (hown : ownPipeline l = true)
    (hsignal : l ≠ .signal) (hmain : l ≠ .main) (hended : ended s (mover l) = true) :
    Pipeline.step c s.pipeline l = none := by
  cases l with
  | signal => exact absurd rfl hsignal
  | main => exact absurd rfl hmain
  | markUploaded | incRetry => cases hown
  | collect b =>
    have hpc : s.pipeline.collect = .returned := of_decide_eq_true hended
    simp only [Pipeline.step, Pipeline.collectStep, hpc]
  | acquire sample =>
    have hpc : s.pipeline.collect = .returned := of_decide_eq_true hended
    simp only [Pipeline.step, Pipeline.acquireStep, hpc]
  | proc b =>
    have hpc : s.pipeline.proc = .returned := of_decide_eq_true hended
    simp only [Pipeline.step, Pipeline.procStep, hpc]
  | store b =>
    have hpc : s.pipeline.store = .returned := of_decide_eq_true hended
    simp only [Pipeline.step, Pipeline.storeStep, hpc]
  | sql a =>
    have hpc : s.pipeline.store = .returned := of_decide_eq_true hended
    simp only [Pipeline.step, Pipeline.sqlStep, hpc]

/-- What a thread of the pipeline leaves alone. -/
structure Frame (t : Thread) (p p' : Pipeline.State w) : Prop where
  main : p'.main = p.main
  signal : p'.gShutdown = p.gShutdown
  proc : p'.procShutdown = p.procShutdown
  store : p'.storeShutdown = p.storeShutdown
  raw : p'.rawQueue.queue.shutdown = p.rawQueue.queue.shutdown
  queue : p'.storeQueue.queue.shutdown = p.storeQueue.queue.shutdown
  collector : t ≠ .collect → p'.collect = p.collect
  processor : t ≠ .processor → p'.proc = p.proc
  storer : t ≠ .store → p'.store = p.store

theorem frame_step {c : Pipeline.Config} {p p' : Pipeline.State w} {l : Pipeline.Label}
    (hok : Pipeline.Sound p) (hown : ownPipeline l = true) (hsignal : l ≠ .signal)
    (hmain : l ≠ .main) (h : Pipeline.step c p l = some p') : Frame (mover l) p p' := by
  cases Pipeline.moves_of_step hok h with
  | signal => exact absurd rfl hsignal
  | main | setProc | setStore | shutRaw | shutStore => exact absurd rfl hmain
  | markUploaded | incRetry => cases hown
  | collect | acquire | collectRefused =>
    exact ⟨rfl, rfl, rfl, rfl, rfl, rfl, fun ht => absurd rfl ht, fun _ => rfl, fun _ => rfl⟩
  | collectAccepted b item asleep q old kept hpc hawake hq =>
    exact ⟨rfl, rfl, rfl, rfl, hq.isOpen.trans hq.wasOpen.symm, rfl, fun ht => absurd rfl ht,
      fun _ => rfl, fun _ => rfl⟩
  | proc | procHandle | procRefused =>
    exact ⟨rfl, rfl, rfl, rfl, rfl, rfl, fun _ => rfl, fun ht => absurd rfl ht, fun _ => rfl⟩
  | procPop b item asleep q hpc hq =>
    exact ⟨rfl, rfl, rfl, rfl, hq.shutdown, rfl, fun _ => rfl, fun ht => absurd rfl ht,
      fun _ => rfl⟩
  | procAccepted b item asleep q old kept hpc hq =>
    exact ⟨rfl, rfl, rfl, rfl, rfl, hq.isOpen.trans hq.wasOpen.symm, fun _ => rfl,
      fun ht => absurd rfl ht, fun _ => rfl⟩
  | store | insert | insertFailed | trim =>
    exact ⟨rfl, rfl, rfl, rfl, rfl, rfl, fun _ => rfl, fun _ => rfl, fun ht => absurd rfl ht⟩
  | storePop b item drain q hdrained hheld hq =>
    exact ⟨rfl, rfl, rfl, rfl, rfl, hq.shutdown, fun _ => rfl, fun _ => rfl,
      fun ht => absurd rfl ht⟩

/-- A step of a thread of the pipeline. -/
theorem own_pipeline {c : Pipeline.Config} {l : Pipeline.Label} {p : Pipeline.State w}
    (hok : Pipeline.Sound s.pipeline) (hown : ownPipeline l = true) (hsignal : l ≠ .signal)
    (hmain : l ≠ .main) (h : Pipeline.step c s.pipeline l = some p) :
    Own upload (mover l) s (s.withPipeline p) := by
  have hframe := frame_step hok hown hsignal hmain h
  refine ⟨?_, funext fun k => ?_, fun j hj => ?_, fun hended => ?_⟩
  · change p.main.stage + _ = s.pipeline.main.stage + _
    rw [hframe.main]
    rfl
  · cases k with
    | gShutdown => exact hframe.signal
    | procShutdown => exact hframe.proc
    | storeShutdown => exact hframe.store
    | uploadShutdown => rfl
    | rawQueue => exact hframe.raw
    | storeQueue => exact hframe.queue
  · cases j with
    | collect => exact congrArg (fun pc => decide (pc = _)) (hframe.collector hj.symm)
    | processor => exact congrArg (fun pc => decide (pc = _)) (hframe.processor hj.symm)
    | store => exact congrArg (fun pc => decide (pc = _)) (hframe.storer hj.symm)
    | uploader => rfl
  · rw [step_returned hown hsignal hmain hended] at h
    cases h

/-- A step of the uploader or of its network. -/
theorem own_uploader {c : Uploader.Config} {l : Uploader.Label} {u : Uploader.State w}
    (hown : ownUploader l = true) (h : Uploader.step c s.uploader l = some u) :
    Own upload .uploader s (s.withUploader u) := by
  refine ⟨rfl, funext fun k => ?_, fun j hj => ?_, fun hended => ?_⟩
  · cases k with
    | uploadShutdown => exact (ending_step hown h).1
    | gShutdown | procShutdown | storeShutdown | rawQueue | storeQueue => rfl
  · cases j with
    | uploader => exact absurd rfl hj
    | collect | processor | store => rfl
  · have hpc : s.uploader.pc = .stopped := of_decide_eq_true hended
    exact decide_eq_true (stopped_step hpc h)

/-! ## A step of `main()` -/

/-- A call of `main()` that succeeds. -/
theorem call_simulates {o : Ownership.Op Handle Thread Flag} {next : Bool → Main ℕ}
    (hp : (serve log serial alarm upload).skip (s.stage upload) = .call o next)
    (hready : o.ready (owner upload log serial alarm s).books (ended s) = true) :
    Ownership.step world (owner upload log serial alarm s) (.call true) =
      some ⟨(serve log serial alarm upload).skip (s.stage upload + 1),
        o.after true (owner upload log serial alarm s).books, o.revive (ended s)⟩ := by
  have hprogram : (owner upload log serial alarm s).program = .call o next := hp
  have hanswers : world.answers o true := fun h => absurd h (by decide)
  rw [Ownership.step, hprogram]
  dsimp only
  rw [if_pos ⟨hready, hanswers⟩, Program.skip_succ hp]
  rfl

/-- **What a step of `main()` is to the owner**: a call, or nothing. -/
structure Goes (upload log serial alarm : Bool) (s s' : State w) : Prop where
  threads : ended s' = ended s
  call : (s'.stage upload = s.stage upload ∧
      owner upload log serial alarm s' = owner upload log serial alarm s) ∨
    (s'.stage upload = s.stage upload + 1 ∧
      Ownership.step world (owner upload log serial alarm s) (.call true) =
        some (owner upload log serial alarm s'))

/-- `main()` writes a flag, or has seen it. -/
theorem Goes.tell {k : Flag} {rs : List Handle} {o : Ownership.Op Handle Thread Flag}
    {next : Bool → Main ℕ}
    (ho : o = .tell k rs ∨ (o = .await k rs ∧ flags s k = true))
    (hp : (serve log serial alarm upload).skip (s.stage upload) = .call o next)
    (hstage : s'.stage upload = s.stage upload + 1)
    (hthreads : unjoined upload (s.stage upload + 1) = unjoined upload (s.stage upload))
    (hflags : flags s' = Function.update (flags s) k true) (hended : ended s' = ended s) :
    Goes upload log serial alarm s s' := by
  refine ⟨hended, .inr ⟨hstage, ?_⟩⟩
  obtain rfl | ⟨rfl, hset⟩ := ho
  · rw [call_simulates hp rfl, owner, owner, hstage, hflags, hended, hthreads]
    rfl
  · rw [call_simulates hp hset, owner, owner, hstage, hflags, hended, hthreads]
    rfl

/-- `main()` has joined a thread. -/
theorem Goes.join {t : Thread} {next : Bool → Main ℕ}
    (hp : (serve log serial alarm upload).skip (s.stage upload) = .call (.join t) next)
    (hready : ended s t = true) (hstage : s'.stage upload = s.stage upload + 1)
    (hthreads : unjoined upload (s.stage upload + 1) =
      (unjoined upload (s.stage upload)).filter fun j => j ≠ t)
    (hflags : flags s' = flags s) (hended : ended s' = ended s) :
    Goes upload log serial alarm s s' := by
  refine ⟨hended, .inr ⟨hstage, ?_⟩⟩
  rw [call_simulates hp hready, owner, owner, hstage, hflags, hended, hthreads]
  simp only [Ownership.Op.after, Ownership.Op.revive, List.filter_map]
  rfl

/-- The threads that are left behind a call of `serve`. -/
theorem unjoined_succ (n : ℕ) :
    unjoined upload (n + 1) = (unjoined upload n).filter fun t => joinStage t ≠ n := by
  rw [unjoined, unjoined, List.filter_filter]
  refine List.filter_congr fun t _ => ?_
  rw [← Bool.decide_and]
  exact decide_eq_decide.2 (by omega)

/-- A call that is no join leaves them all. -/
theorem unjoined_tell {n : ℕ} (hn : n ≤ 4 ∨ n = 8) :
    unjoined upload (n + 1) = unjoined upload n := by
  rw [unjoined_succ, List.filter_eq_self]
  intro t _
  refine decide_eq_true ?_
  cases t with
  | collect | processor | store | uploader =>
    simp only [joinStage]
    omega

theorem joinStage_injective {t t' : Thread} (h : joinStage t = joinStage t') : t = t' := by
  cases t <;> cases t' <;> first | rfl | cases h

theorem unjoined_join (t : Thread) :
    unjoined upload (joinStage t + 1) = (unjoined upload (joinStage t)).filter fun j => j ≠ t := by
  rw [unjoined_succ]
  exact List.filter_congr fun j _ =>
    decide_eq_decide.2 (not_congr ⟨joinStage_injective, congrArg joinStage⟩)

/-- **A step of `main()`** up to its third join. -/
theorem goes_main {p : Pipeline.State w} (hend : Ending cfg s)
    (h : Pipeline.mainStep s.pipeline = some p) :
    Goes upload log serial alarm s (s.withPipeline p) := by
  have htail : s.tail = .setUpload := by
    by_contra htail
    rw [Pipeline.mainStep, hend.joined htail] at h
    cases h
  have hstage : s.stage upload = s.pipeline.main.stage := by
    rw [State.stage, htail]
    rfl
  have hnext : (s.withPipeline p).stage upload = p.main.stage := by
    change p.main.stage + s.tail.stage upload = p.main.stage
    rw [htail]
    rfl
  cases hpc : s.pipeline.main with
  | running =>
    rw [hpc] at hstage
    simp only [Pipeline.mainStep, hpc, Option.some.injEq] at h
    by_cases hsignal : s.pipeline.gShutdown = true
    · rw [if_pos hsignal] at h
      subst h
      refine .tell (k := .gShutdown) (.inr ⟨rfl, hsignal⟩) (by rw [hstage]; rfl)
        (by rw [hnext, hstage]; rfl) (by rw [hstage]; exact unjoined_tell (by decide))
        (funext fun k => ?_) rfl
      cases k with
      | gShutdown => exact hsignal
      | procShutdown | storeShutdown | uploadShutdown | rawQueue | storeQueue => rfl
    · -- the loop goes on
      rw [if_neg hsignal, ← hpc] at h
      subst h
      exact ⟨rfl, .inl ⟨rfl, rfl⟩⟩
  | setProc | setStore | shutRaw | shutStore =>
    rw [hpc] at hstage
    simp only [Pipeline.mainStep, hpc, Option.some.injEq] at h
    subst h
    refine .tell (.inl rfl) (by rw [hstage]; rfl) (by rw [hnext, hstage]; rfl)
      (by rw [hstage]; exact unjoined_tell (by decide)) (funext fun k => ?_) rfl
    cases k <;> rfl
  | joinCollect =>
    rw [hpc] at hstage
    simp only [Pipeline.mainStep, hpc] at h
    obtain ⟨hret, heq⟩ := Option.ite_none_right_eq_some.1 h
    cases heq
    exact .join (t := .collect) (by rw [hstage]; rfl) (decide_eq_true hret)
      (by rw [hnext, hstage]; rfl) (by rw [hstage]; exact unjoined_join .collect) rfl rfl
  | joinProc =>
    rw [hpc] at hstage
    simp only [Pipeline.mainStep, hpc] at h
    obtain ⟨hret, heq⟩ := Option.ite_none_right_eq_some.1 h
    cases heq
    exact .join (t := .processor) (by rw [hstage]; rfl) (decide_eq_true hret)
      (by rw [hnext, hstage]; rfl) (by rw [hstage]; exact unjoined_join .processor) rfl rfl
  | joinStore =>
    rw [hpc] at hstage
    simp only [Pipeline.mainStep, hpc] at h
    obtain ⟨hret, heq⟩ := Option.ite_none_right_eq_some.1 h
    cases heq
    exact .join (t := .store) (by rw [hstage]; rfl) (decide_eq_true hret)
      (by rw [hnext, hstage]; rfl) (by rw [hstage]; exact unjoined_join .store) rfl rfl
  | joined =>
    simp only [Pipeline.mainStep, hpc] at h
    cases h

/-- **The end of `main()`**, behind its third join. -/
theorem goes_tail (hend : Ending cfg s) (h : tailStep cfg s = some s') :
    Goes (uploads cfg) log serial alarm s s' := by
  cases moves_of_step (l := .tail) h with
  | setUpload htail hmain =>
    have hstage : s.stage (uploads cfg) = 8 := by
      rw [State.stage, htail, hmain]
      rfl
    refine .tell (.inl rfl) (by rw [hstage]; rfl) ?_
      (by rw [hstage]; exact unjoined_tell (by decide)) (funext fun k => ?_) rfl
    · rw [hstage, State.stage, hmain]
      rfl
    · cases k <;> rfl
  | joinUpload htail hjoin =>
    have hmain : s.pipeline.main = .joined := hend.joined (by rw [htail]; decide)
    have hstage : s.stage (uploads cfg) = 9 := by
      rw [State.stage, htail, hmain]
      rfl
    have hnext : State.stage (uploads cfg) { s with tail := .closed } =
        8 + Tail.closed.stage (uploads cfg) := by
      rw [State.stage, hmain]
      rfl
    cases hup : uploads cfg with
    | false =>
      -- no uploader was started
      rw [hup] at hstage hnext
      refine ⟨rfl, .inl ⟨hnext.trans hstage.symm, ?_⟩⟩
      rw [owner, owner, hstage, hnext]
      rfl
    | true =>
      rw [hup] at hstage hnext
      have hpc : s.uploader.pc = .stopped :=
        hjoin.resolve_left (of_decide_eq_true hup)
      exact .join (t := .uploader) (by rw [hstage]; rfl) (decide_eq_true hpc)
        (by rw [hnext, hstage]; rfl) (by rw [hstage]; exact unjoined_join .uploader) rfl rfl

/-! ## Runs -/

/-- **A thread that is joined has returned.** -/
def Reaped (upload : Bool) (s : State w) : Prop :=
  ∀ t ∈ started upload, joinStage t < s.stage upload → ended s t = true

theorem Reaped.mem (h : Reaped upload s) {t : Thread} (ht : t ∈ started upload)
    (hended : ended s t = false) : t ∈ unjoined upload (s.stage upload) := by
  refine List.mem_filter.2 ⟨ht, decide_eq_true ?_⟩
  by_contra hlt
  have := h t ht (Nat.lt_of_not_le hlt)
  rw [hended] at this
  cases this

theorem Reaped.own (h : Reaped upload s) {t : Thread} (hown : Own upload t s s') :
    Reaped upload s' := by
  intro j hj hlt
  have hended := h j hj (hown.stage ▸ hlt)
  by_cases heq : j = t
  · exact heq ▸ hown.keeps (heq ▸ hended)
  · exact (hown.others j heq).trans hended

/-- `main()` goes past a join behind the thread. -/
theorem ended_of_call {t : Thread} {S : Ownership.State Handle Thread Flag ℕ}
    (ht : t ∈ started upload) (hstage : joinStage t = s.stage upload)
    (h : Ownership.step world (owner upload log serial alarm s) (.call true) = some S) :
    ended s t = true := by
  have hp : ∃ next, (serve log serial alarm upload).skip (joinStage t) = .call (.join t) next := by
    cases t with
    | collect | processor | store => exact ⟨_, rfl⟩
    | uploader =>
      cases upload with
      | false => exact absurd ht (by decide)
      | true => exact ⟨_, rfl⟩
  obtain ⟨next, hp⟩ := hp
  rw [hstage] at hp
  have hprogram : (owner upload log serial alarm s).program = .call (.join t) next := hp
  simp only [Ownership.step, hprogram] at h
  exact (Option.ite_none_right_eq_some.1 h).1.1

theorem Reaped.goes (h : Reaped upload s) (hgoes : Goes upload log serial alarm s s') :
    Reaped upload s' := by
  intro t ht hlt
  rw [hgoes.threads]
  by_cases hbefore : joinStage t < s.stage upload
  · exact h t ht hbefore
  · obtain ⟨hstage, -⟩ | ⟨hstage, hstep⟩ := hgoes.call
    · omega
    · exact ended_of_call ht (by omega) hstep

/-- **The gateway is a run of `main()`.** -/
def Owned (cfg : GatewayConfig) (log serial alarm : Bool) (s : State w) : Prop :=
  ∃ ls, Run.exec (Ownership.step world) (.start (Startup.main (uploads cfg))) ls =
    some (owner (uploads cfg) log serial alarm s)

theorem Owned.exec (h : Owned cfg log serial alarm s)
    (hrun : ∃ ls, Run.exec (Ownership.step world) (owner (uploads cfg) log serial alarm s) ls =
      some (owner (uploads cfg) log serial alarm s')) : Owned cfg log serial alarm s' := by
  obtain ⟨ls, hls⟩ := h
  obtain ⟨ls', hls'⟩ := hrun
  exact ⟨ls ++ ls', Run.exec_append_eq_some.2 ⟨_, hls, hls'⟩⟩

theorem Owned.goes (h : Owned cfg log serial alarm s)
    (hgoes : Goes (uploads cfg) log serial alarm s s') : Owned cfg log serial alarm s' := by
  obtain ⟨-, hsame⟩ | ⟨-, hstep⟩ := hgoes.call
  · exact h.exec ⟨[], by rw [hsame]; rfl⟩
  · exact h.exec ⟨[.call true], by rw [Run.exec_cons, hstep, Option.bind_some, Run.exec_nil]⟩

/-- The answers on the way to the start of the threads. -/
def startAnswers (upload log serial alarm : Bool) : List (Ownership.Label Thread Flag) :=
  [.call true, .call log] ++
    (if serial then [.call true, .call true, .call true] else [.call false]) ++ [.call alarm] ++
    List.replicate (if upload then 11 else 10) (.call true)

/-- The threads are started, and none has ended. -/
theorem exec_startAnswers (upload log serial alarm : Bool) :
    ∃ e, Run.exec (Ownership.step world) (.start (Startup.main upload))
      (startAnswers upload log serial alarm) =
        some ⟨serve log serial alarm upload,
          { held := handles log serial alarm
            threads := (started upload).map fun t => (t, context log serial alarm t)
            told := fun _ => false }, e⟩ ∧ ∀ t, e t = false := by
  cases upload <;> cases log <;> cases serial <;> cases alarm <;>
    exact ⟨_, rfl, fun t => by cases t <;> rfl⟩

/-- **`main()` comes to the start of its threads.** -/
theorem owned_start {past : List Life} (h : start base past = some s) :
    Owned cfg log serial alarm s := by
  obtain ⟨p, hp, rfl⟩ := Option.map_eq_some_iff.1 h
  obtain ⟨raw, hraw, hp⟩ := Option.bind_eq_some_iff.1 hp
  obtain ⟨store, hstore, rfl⟩ := Option.map_eq_some_iff.1 hp
  have hrawOpen : raw.shutdown = false := congrArg Fifo.closed (Queue.wellFormed_create hraw).2.1
  have hstoreOpen : store.shutdown = false :=
    congrArg Fifo.closed (Queue.wellFormed_create hstore).2.1
  obtain ⟨e, hrun, he⟩ := exec_startAnswers (uploads cfg) log serial alarm
  refine ⟨startAnswers (uploads cfg) log serial alarm, hrun.trans ?_⟩
  have hjoin : unjoined (uploads cfg) 0 = started (uploads cfg) :=
    List.filter_eq_self.2 fun t _ => decide_eq_true (Nat.zero_le _)
  rw [owner]
  congr 2
  · change _ = Books.mk _ ((unjoined (uploads cfg) 0).map _) _
    rw [hjoin]
    congr 1
    funext k
    cases k with
    | rawQueue => exact hrawOpen.symm
    | storeQueue => exact hstoreOpen.symm
    | gShutdown | procShutdown | storeShutdown | uploadShutdown => rfl
  · funext t
    rw [he t]
    cases t <;> rfl

theorem reaped_start {past : List Life} (h : start base past = some s) : Reaped upload s := by
  obtain ⟨p, hp, rfl⟩ := Option.map_eq_some_iff.1 h
  obtain ⟨raw, store, -, -, -, -, rfl⟩ := Pipeline.init_cases hp
  exact fun t _ hlt => absurd hlt (Nat.not_lt_zero _)

theorem mem_started {t : Thread} (ht : t ≠ .uploader) : t ∈ started upload := by
  cases upload <;> cases t <;> first | decide | exact absurd rfl ht

/-- A signal. -/
theorem signal_simulates {s' : State w} (hstage : s'.stage upload = s.stage upload)
    (hended : ended s' = ended s) (hflags : flags s' = Function.update (flags s) .gShutdown true) :
    ∃ ls, Run.exec (Ownership.step world) (owner upload log serial alarm s) ls =
      some (owner upload log serial alarm s') := by
  refine ⟨[.signal .gShutdown], ?_⟩
  rw [Run.exec_cons, Ownership.step, if_pos (by decide), Option.bind_some, Run.exec_nil, owner,
    owner, hstage, hended, hflags]

/-- **What the owner sees of a step.** -/
theorem owned_step (hg : Guarded cfg s) (hreaped : Reaped (uploads cfg) s)
    (howned : Owned cfg log serial alarm s) (h : step cfg s l = some s') :
    Reaped (uploads cfg) s' ∧ Owned cfg log serial alarm s' := by
  have hgoes : Goes (uploads cfg) log serial alarm s s' →
      Reaped (uploads cfg) s' ∧ Owned cfg log serial alarm s' := fun hgoes =>
    ⟨hreaped.goes hgoes, howned.goes hgoes⟩
  have hturn : ∀ t, t ∈ started (uploads cfg) → Own (uploads cfg) t s s' →
      Reaped (uploads cfg) s' ∧ Owned cfg log serial alarm s' := fun t ht hown =>
    ⟨hreaped.own hown, howned.exec (hown.simulates (hreaped.mem ht))⟩
  cases moves_of_step h with
  | pipeline l p hown hp =>
    by_cases hmain : l = .main
    · subst hmain
      exact hgoes (goes_main hg.ending hp)
    · by_cases hsignal : l = .signal
      · subst hsignal
        cases hp
        refine ⟨hreaped, howned.exec (signal_simulates rfl rfl (funext fun k => ?_))⟩
        cases k <;> rfl
      · have hmover : mover l ≠ .uploader := fun ht => by cases l <;> cases ht
        exact hturn _ (mem_started hmover) (own_pipeline hg.sound hown hsignal hmain hp)
  | uploader l u henabled hown hu =>
    have hup : uploads cfg = true := decide_eq_true henabled
    exact hturn .uploader (by rw [hup]; decide) (own_uploader hown hu)
  | setUpload | joinUpload => exact hgoes (goes_tail hg.ending h)
  | restart p hp => exact ⟨reaped_start h, owned_start h⟩

/-- **The gateway is a run of `main()`**: each state it comes to, in
whatever order its threads run and after whatever starts, is one in which
`main()` as the owner of its handles may be. So `main()` joins a thread that
is there, told to stop and kept from sleeping in a queue, and its cleanup
finds no thread left. -/
theorem gateway_owned {s₀ : State w} (h₀ : init w base = some s₀)
    (h : Run.exec (step cfg) s₀ ls = some s) (log serial alarm : Bool) :
    (∃ ls, Run.exec (Ownership.step world) (.start (Startup.main (uploads cfg))) ls =
      some (owner (uploads cfg) log serial alarm s)) ∧
    Ownership.Sound world Left (owner (uploads cfg) log serial alarm s) := by
  obtain ⟨-, -, ls', howned⟩ := Run.exec_invariant
    (I := fun s => Guarded cfg s ∧ Reaped (uploads cfg) s ∧ Owned cfg log serial alarm s)
    (fun _ _ _ hI ht => ⟨hI.1.step ht, owned_step hI.1 hI.2.1 hI.2.2 ht⟩)
    ⟨guarded_start h₀, reaped_start h₀, owned_start h₀⟩ h
  exact ⟨⟨ls', howned⟩, Ownership.sound_of_exec (safe_main _) howned⟩

/-- The program that is closed has only its handles left. -/
theorem gateway_owned_closed :
    ∃ s₀ s : State 32, init 32 AutoTable.empty = some s₀ ∧
      Run.exec (step Config.configSetDefault) s₀ (toClosing ++ lastJoin) = some s ∧
      (owner (uploads Config.configSetDefault) true true true s).books.threads = [] ∧
      ∃ ls, Run.exec (Ownership.step world)
        (.start (Startup.main (uploads Config.configSetDefault))) ls =
          some (owner (uploads Config.configSetDefault) true true true s) := by
  obtain ⟨s₀, s, h₀, h, hp⟩ := exists_of_run (toClosing ++ lastJoin)
    (fun s => decide (s.tail = .closed ∧ s.pipeline.main = .joined)) (by decide +kernel)
  obtain ⟨htail, hmain⟩ := of_decide_eq_true hp
  refine ⟨s₀, s, h₀, h, ?_, (gateway_owned h₀ h true true true).1⟩
  simp only [owner, State.stage, htail, hmain]
  decide

end Gateway

end WaterGateway
