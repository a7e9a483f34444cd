import WaterGateway.Gateway.Shutdown
import WaterGateway.Pipeline.Joins
import WaterGateway.Uploader.Stop

/-!
# The program comes to its end

`main()` tells the uploader to stop behind its third join, and joins it
last. The table is the uploader's alone by then, so each round of its drain
takes a try from it, and no step of the others gives one back. The last
join ends from wherever the flag has found the uploader.
-/

namespace WaterGateway

namespace Gateway

open Config (GatewayConfig)
open Pipeline (Joining Told joinMeasure)
open Uploader (Aimed Held Named Present stopMeasure)

variable {w : ℕ} {cfg : GatewayConfig} {s s' : State w} {l : Label} {ls ls' : List Label}
variable {base : Samples}

/-- A step of a thread, or of `main()`. The others are the world's. -/
def Label.thread : Label → Bool
  | .pipeline l => l.thread
  | .uploader l => !l.world
  | .tail => true
  | .restart => false

/-- What `main()` has left. -/
def Tail.rank : Tail → ℕ
  | .setUpload => 2
  | .joinUpload => 1
  | .closed => 0

/-- **The measure of the end**: 520 for each try that is left in the table,
and what each thread has left. -/
def closeMeasure (cfg : GatewayConfig) (s : State w) : ℕ :=
  s.tail.rank + joinMeasure s.pipeline + stopMeasure (uploaderConfig cfg) s.uploader

/-! ## What holds at every state -/

section Present

variable {c : Uploader.Config} {u u' : Uploader.State w} {l : Uploader.Label}

/-- A step of the uploader takes no row away. -/
theorem rows_own (hown : ownUploader l = true) (h : Uploader.step c u l = some u') :
    ∀ r ∈ u.db.rows, ∃ b, (r.1, b) ∈ u'.db.rows := by
  intro r hr
  cases Uploader.moves_of_step h with
  | marked | counted => exact Store.exists_mem_updateRow hr
  | shutdown | inserted | insertFailed | trimmed => cases hown
  | idle | queried | tested | skipped | fetched | connected | connectFailed | sendFailed | sentSome
    | sentAll | delivered | reset => exact ⟨r.2, hr⟩

/-- **The row of the drain loop stays in the table.** -/
theorem present_own (hown : ownUploader l = true) (h : Uploader.step c u l = some u')
    (hpresent : u.pc.draining = true → Present u) (hin : u'.pc.draining = true) : Present u' := by
  cases hold : u.pc.draining with
  | true => exact (hpresent hold).step h (rows_own hown h)
  | false =>
    -- the drain begins without a row
    have hnone : u'.pc.aim = none := by
      rw [entry_of_step hown h hold hin]
      split <;> rfl
    intro stmt sampleId haim
    rw [hnone] at haim
    cases haim

end Present

/-- **What the end rests on**, at every reachable state. -/
structure Guarded (cfg : GatewayConfig) (s : State w) : Prop where
  sound : Pipeline.Sound s.pipeline
  told : Told s.pipeline
  ending : Ending cfg s
  flag : s.tail ≠ .setUpload → s.uploader.shutdown = true
  aimed : Aimed s.uploader
  held : Held (uploaderConfig cfg) s.uploader
  present : s.uploader.pc.draining = true → Present s.uploader

theorem guarded_start {past : List Life} (h : start base past = some s) : Guarded cfg s := by
  have hend : Ending cfg s := ending_start h
  obtain ⟨p, hp, rfl⟩ := Option.map_eq_some_iff.1 h
  exact ⟨Pipeline.sound_init hp, Pipeline.told_init hp, hend, fun htail => absurd rfl htail,
    Uploader.aimed_init _, Uploader.held_init _, fun hin => absurd hin Bool.false_ne_true⟩

theorem Guarded.step (hg : Guarded cfg s) (h : step cfg s l = some s') : Guarded cfg s' := by
  have hend := hg.ending.step hg.sound h
  by_cases hrestart : l = .restart
  · subst hrestart
    exact guarded_start h
  · obtain ⟨haimed, hheld⟩ := Run.exec_invariant
      (I := fun u : Uploader.State w => Aimed u ∧ Held (uploaderConfig cfg) u)
      (fun u l u' hu hstep => ⟨hu.1.step hstep, hu.2.step hu.1 hstep⟩)
      ⟨hg.aimed, hg.held⟩ (uploader_step hg.sound h hrestart)
    obtain ⟨hsound, htold⟩ := Run.exec_invariant
      (I := fun p : Pipeline.State w => Pipeline.Sound p ∧ Told p)
      (fun p l p' hp hstep => ⟨hp.1.step hstep, hp.2.step hp.1 hstep⟩)
      ⟨hg.sound, hg.told⟩ (pipeline_step h hrestart)
    refine ⟨hsound, htold, hend, ?_, haimed, hheld, ?_⟩
    · cases moves_of_step h with
      | pipeline => exact hg.flag
      | uploader l u henabled hown hu =>
        exact fun htail => (ending_step hown hu).1.trans (hg.flag htail)
      | joinUpload htail => exact fun _ => hg.flag (by rw [htail]; decide)
      | setUpload => exact fun _ => rfl
      | restart => exact absurd rfl hrestart
    · cases moves_of_step h with
      | pipeline l p hown hp =>
        intro hin
        have htail := hg.ending.asked (hg.ending.behind (ending_of_draining hin))
        rw [hg.ending.alone hg.sound htail hown hp]
        exact hg.present hin
      | uploader l u henabled hown hu => exact present_own hown hu hg.present
      | setUpload | joinUpload => exact hg.present
      | restart => exact absurd rfl hrestart

theorem guarded_exec (h₀ : init w base = some s) (h : Run.exec (Gateway.step cfg) s ls = some s') :
    Guarded cfg s' :=
  Run.exec_invariant (I := Guarded cfg) (fun _ _ _ hg ht => hg.step ht) (guarded_start h₀) h

/-! ## The end -/

/-- **The uploader is told to stop**, and is alone with a table whose `id`s
are `int`s. -/
structure Closing (cfg : GatewayConfig) (s : State w) : Prop where
  guarded : Guarded cfg s
  tail : s.tail ≠ .setUpload
  ids : s.db.seq < 2 ^ 31

/-- A step of the program, without a new start, whose upload statements
succeed. -/
def Label.closes (l : Label) : Bool := decide (l ≠ .restart) && l.uploadSqlOk

theorem drains_of_own {l : Uploader.Label} (hown : ownUploader l = true) (hl : l.sqlOk = true) :
    l.drains = true := by
  cases l with
  | storeInsert | storeTrim => cases hown
  | sql a => exact hl
  | shutdown | tau | connect | send | deliver | reset => rfl

theorem Closing.joining (hc : Closing cfg s) : Joining s.pipeline := by
  refine ⟨hc.guarded.sound, hc.guarded.told, hc.guarded.told.queue.2 ?_⟩
  rw [hc.guarded.ending.joined hc.tail]
  decide

/-- Its own steps give no row an `id`. -/
theorem seq_own {c : Uploader.Config} {u u' : Uploader.State w} {l : Uploader.Label}
    (hown : ownUploader l = true) (h : Uploader.step c u l = some u') :
    u'.db.seq = u.db.seq := by
  cases Uploader.moves_of_step h with
  | marked | counted => exact Store.seq_updateRow _ _ _ _
  | shutdown | inserted | insertFailed | trimmed => cases hown
  | idle | queried | tested | skipped | fetched | connected | connectFailed | sendFailed | sentSome
    | sentAll | delivered | reset => rfl

theorem Closing.step (hc : Closing cfg s) (hl : l.closes = true) (h : step cfg s l = some s') :
    Closing cfg s' := by
  have hguarded := hc.guarded.step h
  cases moves_of_step h with
  | pipeline l p hown hp =>
    have hsame := hc.guarded.ending.alone hc.guarded.sound hc.tail hown hp
    refine ⟨hguarded, hc.tail, ?_⟩
    rw [seq_eq, hsame, ← seq_eq]
    exact hc.ids
  | uploader l u henabled hown hu =>
    refine ⟨hguarded, hc.tail, ?_⟩
    rw [db_withUploader, seq_own hown hu, ← seq_eq]
    exact hc.ids
  | setUpload htail => exact absurd htail hc.tail
  | joinUpload => exact ⟨hguarded, show Tail.closed ≠ .setUpload by decide, hc.ids⟩
  | restart => cases hl

/-- **Every step of a thread gets the program nearer to its end**, and no
other step takes it back. -/
theorem Closing.measure (hc : Closing cfg s) (hdevice : cfg.deviceId.length ≤ 63)
    (hl : l.closes = true) (h : Gateway.step cfg s l = some s') :
    closeMeasure cfg s' + (if l.thread then 1 else 0) ≤ closeMeasure cfg s := by
  have hg := hc.guarded
  cases moves_of_step h with
  | pipeline l p hown hp =>
    have hsame := hg.ending.alone hg.sound hc.tail hown hp
    have hjoin : joinMeasure p + (if l.thread then 1 else 0) ≤ joinMeasure s.pipeline :=
      hc.joining.measure hp
    rw [closeMeasure, closeMeasure, hsame]
    change s.tail.rank + joinMeasure p + _ + (if l.thread then 1 else 0) ≤ _
    omega
  | uploader l u henabled hown hu =>
    obtain ⟨-, hsql⟩ := Bool.and_eq_true_iff.1 hl
    have hnamed : Named s.uploader := hg.aimed.named (seq_eq s ▸ hc.ids)
    have hshort : (uploaderConfig cfg).deviceId.length ≤ 63 := hdevice
    have hstop := Uploader.stop_step hshort (hg.flag hc.tail) hnamed hg.held hg.present
      (drains_of_own hown hsql) hu
    rw [closeMeasure, closeMeasure]
    change s.tail.rank + joinMeasure s.pipeline + stopMeasure (uploaderConfig cfg) u +
      (if !l.world then 1 else 0) ≤ _
    omega
  | setUpload htail => exact absurd htail hc.tail
  | joinUpload htail =>
    rw [closeMeasure, closeMeasure, htail]
    change 0 + joinMeasure s.pipeline + stopMeasure (uploaderConfig cfg) s.uploader + 1 ≤ 1 + _ + _
    omega
  | restart => cases hl

/-- The last join waits for a thread that can move, or is done. -/
theorem Closing.enabled (hc : Closing cfg s) (hopen : s.tail ≠ .closed) :
    ∃ l, l.thread = true ∧ l.closes = true ∧ (Gateway.step cfg s l).isSome = true := by
  have htail : s.tail = .joinUpload := by
    cases ht : s.tail with
    | setUpload => exact absurd ht hc.tail
    | joinUpload => rfl
    | closed => exact absurd ht hopen
  by_cases hdone : cfg.uploadEnabled = 0 ∨ s.uploader.pc = .stopped
  · refine ⟨.tail, rfl, rfl, ?_⟩
    simp only [Gateway.step, tailStep, htail, if_pos hdone, Option.isSome_some]
  · obtain ⟨henabled, hpc⟩ := not_or.1 hdone
    have hmoves : ∃ l : Uploader.Label, l.sqlOk = true ∧ l.world = false ∧
        (Uploader.step (uploaderConfig cfg) s.uploader l).isSome = true :=
      Uploader.exists_step hpc
    obtain ⟨l, hsql, hthread, hsome⟩ := hmoves
    have hown : ownUploader l = true := by
      cases l with
      | shutdown | storeInsert | storeTrim => cases hthread
      | tau | connect | sql | send | deliver | reset => rfl
    refine ⟨.uploader l, by rw [Label.thread, hthread]; rfl, ?_, ?_⟩
    · rw [Label.closes, Label.uploadSqlOk, hsql]
      rfl
    · obtain ⟨u, hu⟩ := Option.isSome_iff_exists.1 hsome
      rw [Gateway.step, if_pos ⟨henabled, hown⟩, hu]
      rfl

/-- **The program comes to its end**: once `main()` has told the uploader
to stop, whatever the uploader was doing, the program takes a bounded
number of steps more, in whatever order its threads run and whatever `send`
and `connect` answer; and until the last join is done one of its threads
can take a step. -/
theorem closing_ends {s₀ : State w} (h₀ : init w base = some s₀)
    (h : Run.exec (step cfg) s₀ ls = some s) (htail : s.tail ≠ .setUpload)
    (hids : s.db.seq < 2 ^ 31) (hdevice : cfg.deviceId.length ≤ 63)
    (hls : ∀ l ∈ ls', l.closes = true) (h' : Run.exec (step cfg) s ls' = some s') :
    ls'.countP Label.thread ≤ closeMeasure cfg s ∧
      (s'.tail ≠ .closed →
        ∃ l, l.thread = true ∧ l.closes = true ∧ (step cfg s' l).isSome = true) := by
  have hclosing : Closing cfg s := ⟨guarded_exec h₀ h, htail, hids⟩
  refine ⟨?_, fun hopen => ?_⟩
  · have hcount := Run.countP_le_measure (I := Closing cfg) (C := fun _ l => l.closes = true)
      (μ := closeMeasure cfg) (p := Label.thread)
      (fun _ _ _ hI hl ht => ⟨hI.step hl ht, hI.measure hdevice hl ht⟩) hclosing
      (Run.along_of_forall hls _) h'
    omega
  · exact (Run.exec_invariant_along (I := Closing cfg) (C := fun _ l => l.closes = true)
      (fun _ _ _ hI hl ht => hI.step hl ht) hclosing (Run.along_of_forall hls _) h').enabled hopen

/-- The flag finds the uploader in its main loop, with one row stored. -/
def toClosing : List Label := findNone ++ Pipeline.drainedRun.map .pipeline ++ [.tail]

/-- It drains, and is joined. -/
def lastJoin : List Label := drainOne ++ [.tail]

/-- It leaves the main loop, sends the row in its drain, and is joined. -/
theorem closing_ends_sample :
    ∃ s₀ s s' : State 32, init 32 AutoTable.empty = some s₀ ∧
      Run.exec (step Config.configSetDefault) s₀ toClosing = some s ∧
      Run.exec (step Config.configSetDefault) s lastJoin = some s' ∧
      s.tail = .joinUpload ∧ s'.tail = .closed ∧
      lastJoin.countP Label.thread = 13 ∧
      lastJoin.countP Label.thread ≤ closeMeasure Config.configSetDefault s := by
  obtain ⟨s₀, s, h₀, h, hp⟩ := exists_of_run toClosing
    (fun s => decide (s.tail = .joinUpload ∧ s.db.seq < 2 ^ 31 ∧
      (Run.exec (step Config.configSetDefault) s lastJoin).any
        (fun s' => decide (s'.tail = .closed)) = true)) (by decide +kernel)
  obtain ⟨htail, hids, hrest⟩ := of_decide_eq_true hp
  obtain ⟨s', h', hclosed⟩ := Run.exists_of_exec _ s _ _ hrest
  exact ⟨s₀, s, s', h₀, h, h', htail, hclosed, by decide +kernel,
    (closing_ends h₀ h (by rw [htail]; decide) hids (by decide) (by decide +kernel) h').1⟩

end Gateway

end WaterGateway
