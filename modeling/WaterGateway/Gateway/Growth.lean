import WaterGateway.Gateway.Order
import WaterGateway.Pipeline.Growth

/-!
# The table over the starts

`sample_counter` begins at zero with each start, and only its hundredth
sample trims. A start that is killed before leaves its rows to the next, so
the table outgrows its limit by what each start may add between its last
trim and its end, and by no more; a start that comes to its end brings it
back.
-/

namespace WaterGateway

namespace Gateway

open Config (GatewayConfig)
open Pipeline (Sized)

variable {w : ℕ} {cfg : GatewayConfig} {s s' : State w} {l : Label} {ls : List Label}
variable {base : Samples}

/-- **The statements of the trims succeed**, on a table whose rows an `int`
can count. -/
def trimsRight (s : State w) : Label → Bool
  | .pipeline l => Pipeline.trimsRight s.pipeline l
  | _ => true

/-- What the uploader and the end of `main()` do is no trim. -/
theorem along_pipelineLabels (hright : trimsRight s l = true) :
    Run.Along (Pipeline.step (pipelineConfig cfg))
      (fun p l => Pipeline.trimsRight p l = true) s.pipeline (pipelineLabels s l) := by
  cases l with
  | pipeline l => exact ⟨hright, fun _ _ => trivial⟩
  | uploader l =>
    cases l with
    | sql a =>
      simp only [pipelineLabels]
      split
      · exact ⟨rfl, fun _ _ => trivial⟩
      · exact ⟨rfl, fun _ _ => trivial⟩
      · trivial
    | shutdown | tau | connect | send | storeInsert | storeTrim | deliver | reset => trivial
  | tail | restart => trivial

/-- **What the table of a start rests on**, behind `n` others: the rows the
start has found. -/
def Bounded (cfg : GatewayConfig) (base : Samples) (n : ℕ) (s : State w) : Prop :=
  ∃ rows₀ : ℕ, rows₀ ≤ max base.rows.length cfg.maxCacheCount.toNat + 164 * n ∧
    Sized (pipelineConfig cfg) (max rows₀ cfg.maxCacheCount.toNat) s.pipeline

theorem bounded_start {n : ℕ} {db : Samples} {past : List Life}
    (hrows : db.rows.length ≤ max base.rows.length cfg.maxCacheCount.toNat + 164 * n)
    (h : start db past = some s) : Bounded cfg base n s := by
  obtain ⟨p, hp, rfl⟩ := Option.map_eq_some_iff.1 h
  exact ⟨db.rows.length, hrows, Pipeline.sized_init hp⟩

/-- The size of the table, behind `n` starts. -/
theorem Bounded.rows_le {n : ℕ} (hpos : 0 < cfg.maxCacheCount) (h : Bounded cfg base n s) :
    s.db.rows.length ≤ max base.rows.length cfg.maxCacheCount.toNat + 164 * (n + 1) := by
  obtain ⟨rows₀, hrows, hsized⟩ := h
  have hle : s.db.rows.length ≤ max rows₀ cfg.maxCacheCount.toNat + 164 :=
    hsized.grown.rows_le hpos hsized.cached
  omega

theorem Bounded.step {n : ℕ} (hpos : 0 < cfg.maxCacheCount) (h : Bounded cfg base n s)
    (hright : trimsRight s l = true) (hstep : step cfg s l = some s') :
    Bounded cfg base (n + if l = .restart then 1 else 0) s' := by
  by_cases hl : l = .restart
  · -- the next start finds what this one leaves
    subst hl
    exact bounded_start (h.rows_le hpos) hstep
  · obtain ⟨rows₀, hrows, hsized⟩ := h
    rw [if_neg hl]
    refine ⟨rows₀, hrows, Run.exec_invariant_along (fun p l p' hI hr hp => ?_) hsized
      (along_pipelineLabels hright) (pipeline_step hstep hl)⟩
    have hmost : (pipelineConfig cfg).maxCacheCount ≤
        (max rows₀ cfg.maxCacheCount.toNat : ℕ) := by
      change cfg.maxCacheCount ≤ _
      omega
    exact hI.step hpos hmost hr hp

/-- **The table over all starts**: in every run whose trims succeed, over
every interleaving and any number of starts, each of which may come at any
point, the table is larger than its limit, or than it was at first, by at
most 164 rows for each start; and it is at the limit when the store thread
has returned. -/
theorem table_bounded {s₀ : State w} (hpos : 0 < cfg.maxCacheCount)
    (h₀ : init w base = some s₀)
    (hright : Run.Along (step cfg) (fun s l => trimsRight s l = true) s₀ ls)
    (h : Run.exec (step cfg) s₀ ls = some s) :
    (s.db.rows.length : ℤ) ≤
        max (base.rows.length : ℤ) cfg.maxCacheCount + 164 * (ls.count .restart + 1) ∧
      (s.pipeline.store = .returned → s.db.rows.length ≤ cfg.maxCacheCount) := by
  have hbounded := Run.exec_counts (I := fun n s => Bounded cfg base n s)
    (f := fun _ l _ => if l = .restart then 1 else 0)
    (fun n s l t hI hr ht => hI.step hpos hr ht) (bounded_start (n := 0) (by omega) h₀) hright h
  have hcount : Run.total (step cfg) (fun _ l _ => if l = .restart then 1 else 0) s₀ ls =
      ls.count .restart := by
    have htotal := Run.total_of_label (fun l : Label => l == .restart) h
    simp only [beq_iff_eq] at htotal
    rw [htotal, List.count]
  rw [hcount, Nat.zero_add] at hbounded
  refine ⟨?_, fun hpc => ?_⟩
  · have hle := hbounded.rows_le hpos
    omega
  · obtain ⟨rows₀, -, hsized⟩ := hbounded
    exact hsized.cached.at_pc hpc

/-- A device that keeps two samples. -/
def smallConfig : GatewayConfig := { Config.configSetDefault with maxCacheCount := 2 }

/-- A start that comes to its end. -/
def trimmedStart : List Label := Pipeline.trimmedRun.map .pipeline

/-- Behind it, one that is killed behind its first sample. -/
def trimmedThenKilled : List Label := trimmedStart ++ .restart :: storeOne ++ [.restart]

/-- The first start leaves two rows of four, the second one more. -/
theorem table_bounded_killed :
    ∃ s₀ s₁ s : State 32, init 32 Store.threeRows = some s₀ ∧
      Run.exec (step smallConfig) s₀ trimmedStart = some s₁ ∧
      s₁.pipeline.store = .returned ∧ s₁.db.rows.length ≤ smallConfig.maxCacheCount ∧
      Run.exec (step smallConfig) s₀ trimmedThenKilled = some s ∧
      s.db.rows.map Prod.fst = [3, 4, 5] ∧
      (s.db.rows.length : ℤ) ≤
        max (Store.threeRows.rows.length : ℤ) smallConfig.maxCacheCount +
          164 * (trimmedThenKilled.count .restart + 1) := by
  obtain ⟨s₀, h₀, hrest⟩ := (Option.any_eq_true _ _).1
    (show (init 32 Store.threeRows).any (fun s₀ =>
      decide (Run.Along (step smallConfig) (fun s l => trimsRight s l = true) s₀ trimmedStart ∧
        Run.Along (step smallConfig) (fun s l => trimsRight s l = true) s₀ trimmedThenKilled) &&
      ((Run.exec (step smallConfig) s₀ trimmedStart).any fun s =>
        decide (s.pipeline.store = .returned)) &&
      (Run.exec (step smallConfig) s₀ trimmedThenKilled).any fun s =>
        decide (s.db.rows.map Prod.fst = [3, 4, 5])) = true by decide +kernel)
  obtain ⟨hfirst, hend⟩ := Bool.and_eq_true_iff.1 hrest
  obtain ⟨hright, hmiddle⟩ := Bool.and_eq_true_iff.1 hfirst
  obtain ⟨hright₁, hright₂⟩ := of_decide_eq_true hright
  obtain ⟨s₁, h₁, hreturned⟩ := Run.exists_of_exec (step smallConfig) s₀ trimmedStart _ hmiddle
  obtain ⟨s, h, hrows⟩ := Run.exists_of_exec (step smallConfig) s₀ trimmedThenKilled _ hend
  exact ⟨s₀, s₁, s, h₀, h₁, hreturned, (table_bounded (by decide) h₀ hright₁ h₁).2 hreturned, h,
    hrows, (table_bounded (by decide) h₀ hright₂ h).1⟩

/-! ## Starts that come to no trim -/

/-- The sample of `storeOne`, as the store thread pops it. -/
def storedItem : Pipeline.Item :=
  Pipeline.processItem Processor.processorThresholdDefault (0, Pipeline.exampleSample 1)

/-- A start stores its first sample, whatever it is configured to keep. -/
theorem exec_storeOne (cfg : GatewayConfig) (db : Samples) (past : List Life)
    (hid : db.seq < Store.maxId) :
    ∃ s s' : State w, start db past = some s ∧ Run.exec (step cfg) s storeOne = some s' ∧
      s'.db = db.insert (Store.recordOf cfg.deviceId storedItem.2) := by
  obtain ⟨s, s₁, hs, h₁, hpc, hdb⟩ : ∃ s s₁ : State w, start db past = some s ∧
      Run.exec (step cfg) s ((Pipeline.collectOne 1 ++ Pipeline.processOne ++
        Pipeline.insertOne.take 2).map Label.pipeline) = some s₁ ∧
      s₁.pipeline.store = .insert storedItem false ∧ s₁.pipeline.db = db :=
    ⟨_, _, rfl, rfl, rfl, rfl⟩
  have hinsert : Store.sqliteStoreInsert s₁.pipeline.db (pipelineConfig cfg).deviceId
      storedItem.2 .ok = (db.insert (Store.recordOf cfg.deviceId storedItem.2), 0) := by
    rw [hdb]
    exact if_pos ⟨rfl, by decide, hid⟩
  obtain ⟨p, hp, hrows⟩ : ∃ p, Pipeline.step (pipelineConfig cfg) s₁.pipeline (.sql .ok) =
      some p ∧ p.db = db.insert (Store.recordOf cfg.deviceId storedItem.2) := by
    simp only [Pipeline.step, Pipeline.sqlStep, hpc]
    exact ⟨_, rfl, congrArg Prod.fst hinsert⟩
  refine ⟨s, s₁.withPipeline p, hs, ?_, hrows⟩
  refine Run.exec_append_eq_some.2 ⟨s₁, h₁, Run.exec_cons_eq_some.2 ⟨_, ?_, rfl⟩⟩
  change (Pipeline.step (pipelineConfig cfg) s₁.pipeline (.sql .ok)).map s₁.withPipeline = _
  rw [hp]
  rfl

/-- `n` starts, each killed behind its first sample, and one more. -/
def killedEarly (n : ℕ) : List Label := (List.replicate n (storeOne ++ [.restart])).flatten

/-- **A limit is none for starts that are killed early**: each of them
leaves a row more, although no statement fails. So the starts have to be
counted above. -/
theorem exec_killedEarly (n : ℕ) (db : Samples) (past : List Life)
    (hid : db.seq + n ≤ Store.maxId) :
    ∃ s s' : State w, start db past = some s ∧ Run.exec (step cfg) s (killedEarly n) = some s' ∧
      s'.db.rows.length = db.rows.length + n := by
  induction n generalizing db past with
  | zero => exact ⟨_, _, rfl, rfl, rfl⟩
  | succ n ih =>
    obtain ⟨s, s₁, hs, h₁, hdb⟩ := exec_storeOne (w := w) cfg db past (by omega)
    obtain ⟨t, s', ht, h', hrows⟩ := ih s₁.db s₁.lives (by
      rw [hdb]
      change db.seq + 1 + n ≤ _
      omega)
    refine ⟨s, s', hs, ?_, ?_⟩
    · rw [killedEarly, List.replicate_succ, List.flatten_cons, List.append_assoc]
      refine Run.exec_append_eq_some.2 ⟨s₁, h₁, ?_⟩
      exact Run.exec_cons_eq_some.2 ⟨t, ht, h'⟩
    · rw [hrows, hdb, AutoTable.length_insert]
      omega

end Gateway

end WaterGateway
