import Mathlib.Data.List.Nodup
import WaterGateway.Pipeline.Moves

/-!
# The order of the samples

The samples in the pipeline stand in a line: those handed to the insert,
the one the store thread holds, the store queue, the one the processor
holds, the raw queue, the one the collect thread holds. A step moves a
sample up the line, drops one, or puts a new one at the end (`line_step`),
so the line is at all times a sublist of what was produced, and so are the
rows that were inserted.
-/

namespace WaterGateway

namespace Pipeline

variable {w : ℕ} {cfg : Config} {s s' : State w} {l : Label} {ls : List Label} {db₀ : Samples}

/-- **The line**, front first, with each sample as the processor leaves
it. -/
def line (cfg : Config) (s : State w) : List Item :=
  s.hist.passed ++ (s.store.held ++ (s.storeQueue.items ++ (s.proc.held cfg.thresholds ++
    (s.rawQueue.items ++ s.collect.held).map (processItem cfg.thresholds))))

/-- The samples a label produces. -/
def Label.acquired : Label → List WaterSample
  | .acquire sample => [sample]
  | _ => []

/-- How the two ends of a step stand to each other: the new samples, with
the next numbers, are those of the label, and what stands in the line then
stood in it before, or is new. -/
structure Advances (cfg : Config) (s : State w) (l : Label) (s' : State w) (new : List Item) :
    Prop where
  produced : s'.hist.produced = s.hist.produced ++ new
  samples : new.map Prod.snd = l.acquired
  numbers : new.map Prod.fst = List.range' s.hist.produced.length new.length
  line : (line cfg s').Sublist (line cfg s ++ new.map (processItem cfg.thresholds))

/-- A step that produces nothing. -/
theorem Advances.of_sublist (hproduced : s'.hist.produced = s.hist.produced)
    (hl : l.acquired = []) (hline : (Pipeline.line cfg s').Sublist (Pipeline.line cfg s)) :
    Advances cfg s l s' [] where
  produced := by rw [hproduced, List.append_nil]
  samples := hl.symm
  numbers := rfl
  line := by rwa [List.map_nil, List.append_nil]

/-- **A step moves the line up**, drops a sample from it, or produces one. -/
theorem line_step (hok : Sound s) (h : step cfg s l = some s') :
    ∃ new, Advances cfg s l s' new := by
  cases moves_of_step hok h with
  | signal | main | setProc | setStore | shutRaw | shutStore | markUploaded | incRetry =>
    exact ⟨[], Advances.of_sublist rfl rfl (List.Sublist.refl _)⟩
  | trim a pc pc' final db hpc hrows hseq =>
    refine ⟨[], Advances.of_sublist rfl rfl ?_⟩
    simp only [line, hpc, StorePc.held]
    exact List.Sublist.refl _
  | collect b pc hheld =>
    refine ⟨[], Advances.of_sublist rfl rfl ?_⟩
    simp only [line, hheld]
    exact List.Sublist.refl _
  | acquire sample hpc =>
    refine ⟨[(s.hist.produced.length, sample)], rfl, rfl, rfl, ?_⟩
    simp [line, hpc]
  | collectRefused b item asleep hpc hshut =>
    refine ⟨[], Advances.of_sublist rfl rfl ?_⟩
    simp [line, hpc]
  | collectAccepted b item asleep c old kept hpc hawake hc =>
    refine ⟨[], Advances.of_sublist rfl rfl ?_⟩
    simp [line, hpc, hc.before, hc.after]
  | proc b pc hheld hpc hreturned =>
    refine ⟨[], Advances.of_sublist rfl rfl ?_⟩
    simp only [line, hheld]
    exact List.Sublist.refl _
  | procPop b item asleep c hpc hc =>
    refine ⟨[], Advances.of_sublist rfl rfl ?_⟩
    simp [line, hpc, hc.before]
  | procHandle b item d alarms hpc =>
    refine ⟨[], Advances.of_sublist rfl rfl ?_⟩
    simp [line, hpc]
  | procRefused b item asleep hpc hshut =>
    refine ⟨[], Advances.of_sublist rfl rfl ?_⟩
    simp [line, hpc]
  | procAccepted b item asleep c old kept hpc hc =>
    refine ⟨[], Advances.of_sublist rfl rfl ?_⟩
    simp [line, hpc, hc.before, hc.after]
  | store b pc hheld hpc hdrained hempty hdrain =>
    refine ⟨[], Advances.of_sublist rfl rfl ?_⟩
    simp only [line, hheld]
    exact List.Sublist.refl _
  | storePop b item drain c hdrained hheld hc =>
    refine ⟨[], Advances.of_sublist rfl rfl ?_⟩
    simp [line, hc.before]
  | insert a item drain pc hpc hafter hdb =>
    refine ⟨[], Advances.of_sublist rfl rfl ?_⟩
    have hheld : pc.held = [] := hafter ▸ held_afterInsert cfg _ drain
    simp [line, hpc, hheld]
  | insertFailed a item drain pc hpc hafter =>
    refine ⟨[], Advances.of_sublist rfl rfl ?_⟩
    have hheld : pc.held = [] := hafter ▸ held_afterInsert cfg _ drain
    simp [line, hpc, hheld]

/-- **The line is a sublist of what was produced**, which is numbered from
zero on and is what the labels of the run produced. -/
structure Ordered (cfg : Config) (s : State w) : Prop where
  numbers : s.hist.produced.map Prod.fst = List.range s.hist.produced.length
  line : (line cfg s).Sublist (s.hist.produced.map (processItem cfg.thresholds))

theorem ordered_init (h : init w db₀ = some s) : Ordered cfg s := by
  obtain ⟨raw, store, -, hraw, -, hstore, rfl⟩ := init_cases h
  refine ⟨rfl, ?_⟩
  simp [Pipeline.line, start, Channel.fresh, Channel.items, hraw, hstore, StorePc.held,
    ProcPc.held, CollectPc.held]

theorem Ordered.step (hord : Ordered cfg s) (hok : Sound s) (h : step cfg s l = some s') :
    Ordered cfg s' := by
  obtain ⟨new, hadv⟩ := line_step hok h
  refine ⟨?_, ?_⟩
  · rw [hadv.produced, List.map_append, hord.numbers, hadv.numbers, List.length_append,
      List.range_eq_range', List.range_eq_range', ← List.range'_append_1, Nat.zero_add]
  · rw [hadv.produced, List.map_append]
    exact hadv.line.trans (hord.line.append (List.Sublist.refl _))

/-- No sample is in the line twice. -/
theorem Ordered.nodup_line (hord : Ordered cfg s) : (Pipeline.line cfg s).Nodup := by
  have hmap : ((s.hist.produced.map (processItem cfg.thresholds)).map Prod.fst) =
      List.range s.hist.produced.length := by
    rw [List.map_map, ← hord.numbers]
    rfl
  have hnumbers : ((s.hist.produced.map (processItem cfg.thresholds)).map Prod.fst).Nodup := by
    rw [hmap]
    exact List.nodup_range
  exact (List.Nodup.of_map Prod.fst hnumbers).sublist hord.line

/-! ## The table -/

/-- A row as it was inserted, whatever the uploader has marked on it. -/
def asInserted (r : ℕ × Record) : ℕ × Record :=
  (r.1, { r.2 with uploaded := 0, uploadRetry := 0 })

/-- The rows of a table that were inserted after `db₀`, as they were
inserted. -/
def rowsSince (db₀ db : Samples) : List (ℕ × Record) :=
  (db.rows.filter fun r => decide (db₀.seq < r.1)).map asInserted

theorem rowsSince_sublist {db db' : Samples} (h : db'.rows.Sublist db.rows) :
    (rowsSince db₀ db').Sublist (rowsSince db₀ db) :=
  (h.filter _).map _

theorem rowsSince_insert {db : Samples} (hseq : db₀.seq ≤ db.seq) (deviceId : List UChar)
    (sample : WaterSample) :
    rowsSince db₀ (db.insert (Store.recordOf deviceId sample)) =
      rowsSince db₀ db ++ [(db.seq + 1, Store.recordOf deviceId sample)] := by
  have hnew : db₀.seq < db.seq + 1 := Nat.lt_succ_of_le hseq
  simp [rowsSince, AutoTable.insert, List.filter_append, hnew]
  rfl

/-- An update that leaves the sample of a row alone does not show. -/
theorem rowsSince_modify {db : Samples} {p : ℕ → Bool} {f : Record → Record}
    (hf : ∀ b, asInserted (0, f b) = asInserted (0, b)) :
    rowsSince db₀ (db.modify p f) = rowsSince db₀ db := by
  have hrow : ∀ r : ℕ × Record,
      asInserted (r.1, if p r.1 then f r.2 else r.2) = asInserted r := by
    intro r
    split
    · exact Prod.ext rfl (Prod.mk.inj (hf r.2)).2
    · rfl
  simp only [rowsSince, AutoTable.modify, List.filter_map, List.map_map]
  exact List.map_congr_left fun r _ => hrow r

theorem rowsSince_updateRow (db₀ db : Samples) (sampleId : ℤ) {f : Record → Record} (a : SqlAnswer)
    (hf : ∀ b, asInserted (0, f b) = asInserted (0, b)) :
    rowsSince db₀ (Store.updateRow db sampleId f a).1 = rowsSince db₀ db ∧
      (Store.updateRow db sampleId f a).1.seq = db.seq := by
  obtain hdb | hdb := Store.updateRow_cases db sampleId f a
  · rw [hdb]
    exact ⟨rowsSince_modify hf, rfl⟩
  · rw [hdb]
    exact ⟨rfl, rfl⟩

/-- **The record of the inserts** says what the table has gained, and the
counters count it. -/
structure Recorded (cfg : Config) (db₀ : Samples) (s : State w) : Prop where
  rows : (s.hist.written.map Prod.snd).Sublist
    (s.hist.passed.map fun item => Store.recordOf cfg.deviceId item.2)
  ids : s.hist.written.Pairwise fun r r' => r.1 < r'.1
  ids_le : ∀ r ∈ s.hist.written, r.1 ≤ s.db.seq
  seq_le : db₀.seq ≤ s.db.seq
  table : (rowsSince db₀ s.db).Sublist s.hist.written
  writeCount : s.writeCount = BitVec.ofNat w s.hist.written.length
  total : s.writeCount + s.writeFailCount = BitVec.ofNat w s.hist.passed.length

theorem recorded_init (h : init w db₀ = some s) : Recorded cfg db₀ s := by
  obtain ⟨raw, store, -, -, -, -, rfl⟩ := init_cases h
  have hnone : rowsSince db₀ db₀ = [] := by
    rw [rowsSince, List.filter_eq_nil_iff.2, List.map_nil]
    intro r hr
    simpa using db₀.le_seq r hr
  refine ⟨List.Sublist.refl _, List.Pairwise.nil, ?_, Nat.le_refl _, ?_, rfl, ?_⟩
  · intro r hr
    cases hr
  · exact hnone ▸ List.Sublist.refl _
  · exact BitVec.add_zero 0

theorem Recorded.step (hrec : Recorded cfg db₀ s) (hok : Sound s)
    (h : step cfg s l = some s') : Recorded cfg db₀ s' := by
  obtain ⟨hrows, hids, hle, hseq, htable, hcount, htotal⟩ := hrec
  cases moves_of_step hok h with
  | signal | main | setProc | setStore | shutRaw | shutStore | collect | acquire | collectRefused
    | collectAccepted | proc | procPop | procHandle | procRefused | procAccepted | store
    | storePop => exact ⟨hrows, hids, hle, hseq, htable, hcount, htotal⟩
  | insert a item drain pc hpc hafter hdb =>
    refine ⟨?_, ?_, ?_, ?_, ?_, ?_, ?_⟩
    · simp only [List.map_append]
      exact hrows.append (List.Sublist.refl _)
    · refine List.pairwise_append.2 ⟨hids, List.pairwise_singleton _ _, ?_⟩
      intro r hr r' hr'
      rw [List.mem_singleton.1 hr']
      exact Nat.lt_succ_of_le (hle r hr)
    · intro r hr
      rcases List.mem_append.1 hr with hr | hr
      · exact Nat.le_succ_of_le (hle r hr)
      · obtain rfl := List.mem_singleton.1 hr
        exact Nat.le_refl _
    · exact Nat.le_succ_of_le hseq
    · rw [rowsSince_insert hseq]
      exact htable.append (List.Sublist.refl _)
    · rw [List.length_append, BitVec.ofNat_add, hcount]
      rfl
    · rw [List.length_append, BitVec.ofNat_add, ← htotal, BitVec.add_assoc,
        BitVec.add_comm 1, ← BitVec.add_assoc]
      rfl
  | insertFailed a item drain pc hpc hafter =>
    refine ⟨?_, hids, hle, hseq, htable, hcount, ?_⟩
    · simp only [List.map_append]
      exact hrows.trans (List.sublist_append_left _ _)
    · rw [List.length_append, BitVec.ofNat_add, ← htotal, BitVec.add_assoc]
      rfl
  | trim a pc pc' final db hpc hdb hdbseq =>
    refine ⟨hrows, hids, ?_, ?_, ?_, hcount, htotal⟩
    · intro r hr
      exact hdbseq ▸ hle r hr
    · exact hdbseq ▸ hseq
    · exact (rowsSince_sublist hdb).trans htable
  | markUploaded sampleId a =>
    obtain ⟨hdb, hdbseq⟩ := rowsSince_updateRow db₀ s.db sampleId
      (f := fun b => { b with uploaded := 1 }) a fun b => rfl
    exact ⟨hrows, hids, fun r hr => hdbseq ▸ hle r hr, hdbseq ▸ hseq, hdb ▸ htable, hcount, htotal⟩
  | incRetry sampleId a =>
    obtain ⟨hdb, hdbseq⟩ := rowsSince_updateRow db₀ s.db sampleId
      (f := fun b => { b with uploadRetry := b.uploadRetry + 1 }) a fun b => rfl
    exact ⟨hrows, hids, fun r hr => hdbseq ▸ hle r hr, hdbseq ▸ hseq, hdb ▸ htable, hcount, htotal⟩

/-! ## Runs -/

/-- What every reachable state keeps. -/
theorem reachable {s₀ : State w} (h₀ : init w db₀ = some s₀)
    (h : Run.exec (step cfg) s₀ ls = some s) : Sound s ∧ Ordered cfg s ∧ Recorded cfg db₀ s := by
  refine Run.exec_invariant (I := fun s => Sound s ∧ Ordered cfg s ∧ Recorded cfg db₀ s) ?_
    ⟨sound_init h₀, ordered_init h₀, recorded_init h₀⟩ h
  rintro s l t ⟨hok, hord, hrec⟩ ht
  exact ⟨hok.step ht, hord.step hok ht, hrec.step hok ht⟩

/-- The samples produced are those of the labels, in order. -/
theorem produced_exec (hok : Sound s) (h : Run.exec (step cfg) s ls = some s') :
    s'.hist.produced.map Prod.snd = s.hist.produced.map Prod.snd ++ ls.flatMap Label.acquired := by
  induction ls generalizing s with
  | nil =>
    cases h
    exact (List.append_nil _).symm
  | cons l ls ih =>
    obtain ⟨t, ht, hrest⟩ := Run.exec_cons_eq_some.1 h
    obtain ⟨new, hadv⟩ := line_step hok ht
    rw [ih (hok.step ht) hrest, hadv.produced, List.map_append, hadv.samples, List.flatMap_cons,
      List.append_assoc]

/-- The row made of a produced sample. -/
def rowOf (cfg : Config) (sample : WaterSample) : Record :=
  Store.recordOf cfg.deviceId { sample with
    alarmStatus := sample.alarmStatus ||| Processor.processorComputeAlarm sample cfg.thresholds }

/-- **What the pipeline owes for a run** `ls` that ends in `s`: the rows
inserted have increasing ids and are, in that order, made of a subsequence
of the samples produced; `write_count` counts them; and the table holds no
other row that is not in `db₀`. -/
structure Faithful (cfg : Config) (db₀ : Samples) (ls : List Label) (s : State w) : Prop where
  ids : s.hist.written.Pairwise fun r r' => r.1 < r'.1
  rows : (s.hist.written.map Prod.snd).Sublist ((ls.flatMap Label.acquired).map (rowOf cfg))
  writeCount : s.writeCount.toNat = s.hist.written.length % 2 ^ w
  table : (rowsSince db₀ s.db).Sublist s.hist.written

/-- **The pipeline never reorders, duplicates or invents a sample**, in
any run from its start. -/
theorem pipeline_faithful {s₀ : State w} (h₀ : init w db₀ = some s₀)
    (h : Run.exec (step cfg) s₀ ls = some s) : Faithful cfg db₀ ls s := by
  obtain ⟨-, hord, hrec⟩ := reachable h₀ h
  have hproduced : s.hist.produced.map Prod.snd = ls.flatMap Label.acquired := by
    have hnone : s₀.hist.produced = [] := by
      obtain ⟨raw, store, -, -, -, -, rfl⟩ := init_cases h₀
      rfl
    rw [produced_exec (sound_init h₀) h, hnone]
    rfl
  have hpassed : s.hist.passed.Sublist (s.hist.produced.map (processItem cfg.thresholds)) :=
    (List.sublist_append_left _ _).trans hord.line
  refine ⟨hrec.ids, ?_, ?_, hrec.table⟩
  · have hmap : ((s.hist.produced.map (processItem cfg.thresholds)).map
        fun item => Store.recordOf cfg.deviceId item.2) =
          (ls.flatMap Label.acquired).map (rowOf cfg) := by
      rw [← hproduced, List.map_map, List.map_map]
      refine List.map_congr_left fun item _ => ?_
      simp only [Function.comp_apply, processItem, rowOf, Processor.process_eq]
    exact hrec.rows.trans (hmap ▸ hpassed.map _)
  · rw [hrec.writeCount, BitVec.toNat_ofNat]

/-! ## A run -/

/-- A configuration with the default thresholds. -/
def exampleConfig : Config := ⟨Processor.processorThresholdDefault, bytes "gw-001", 10000⟩

/-- The sample of the registers `0, 0, 0, 0, 0, 0, n`, whose pH is too
low. -/
def exampleSample (n : UInt) : WaterSample := ⟨0, ⟨0⟩, ⟨0⟩, ⟨0⟩, ⟨0⟩, 0, 0, n⟩

/-- The collect thread produces a sample and pushes it. -/
def collectOne (n : UInt) : List Label :=
  [.collect false, .acquire (exampleSample n), .collect false, .collect false]

/-- The processor pops a sample and pushes it on. -/
def processOne : List Label := [.proc false, .proc false, .proc false, .proc false]

/-- The store thread pops a sample and inserts it. -/
def insertOne : List Label := [.store false, .store false, .sql .ok]

/-- A run of the labels that ends in `p`, from an empty table. -/
def runsTo (ls : List Label) (p : State 32 → State 32 → Bool) : Bool :=
  (init 32 AutoTable.empty).any fun s₀ =>
    (Run.exec (step exampleConfig) s₀ ls).any fun s => p s₀ s

theorem exists_of_runsTo (ls : List Label) (p : State 32 → State 32 → Bool)
    (h : runsTo ls p = true) :
    ∃ s₀ s : State 32, init 32 AutoTable.empty = some s₀ ∧
      Run.exec (step exampleConfig) s₀ ls = some s ∧ p s₀ s = true := by
  obtain ⟨s₀, h₀, hrest⟩ := (Option.any_eq_true _ _).1 h
  obtain ⟨s, hs, hp⟩ := (Option.any_eq_true _ _).1 hrest
  exact ⟨s₀, s, h₀, hs, hp⟩

/-- Two samples on their way, and the first row of them. -/
theorem pipeline_faithful_two :
    ∃ s₀ s : State 32, init 32 AutoTable.empty = some s₀ ∧
      Run.exec (step exampleConfig) s₀ (collectOne 1 ++ processOne ++ collectOne 2 ++ insertOne) =
        some s ∧
      s.hist.written.map Prod.fst = [1] ∧
      Faithful exampleConfig AutoTable.empty
        (collectOne 1 ++ processOne ++ collectOne 2 ++ insertOne) s := by
  obtain ⟨s₀, s, h₀, h, hp⟩ :=
    exists_of_runsTo (collectOne 1 ++ processOne ++ collectOne 2 ++ insertOne)
      (fun _ s => decide (s.hist.written.map Prod.fst = [1])) (by decide +kernel)
  exact ⟨s₀, s, h₀, h, of_decide_eq_true hp, pipeline_faithful h₀ h⟩

end Pipeline

end WaterGateway
