import WaterGateway.Uploader.Drain
import WaterGateway.Uploader.Length
import WaterGateway.Uploader.Once

/-!
# The drain ends

The outer loop of the drain has no counter: it ends when a query returns
no row. Every row it reads it marks, or counts a try of, so the tries that
are left in the table fall with each row; between two rows the thread takes
a bounded number of steps, since every line fits its buffer.
-/

namespace WaterGateway

namespace Uploader

variable {w : ℕ} {cfg : Config} {s s₀ s' : State w} {l : Label} {ls : List Label} {db : Samples}

/-! ## The measure -/

/-- The tries that are left for a row. -/
def triesLeft (cfg : Config) (b : Record) : ℕ :=
  if eligible cfg b then (cfg.retryMax - b.uploadRetry).toNat else 0

/-- The tries that are left in the table. -/
def totalLeft (cfg : Config) (db : Samples) : ℕ := (db.rows.map fun r => triesLeft cfg r.2).sum

/-- How many steps the thread may take before the next row is done with. -/
def Pc.rank : Pc → ℕ
  | .read .drain _ true => 519
  | .finalize .drain true => 518
  | .query .drain => 517
  | .read .drain _ false => 516
  | .send .drain _ _ line sent => 4 + (line.length - sent)
  | .mark .drain _ _ | .incRetry .drain _ _ => 3
  | .finalize .drain false => 2
  | .closing => 1
  | _ => 0

/-- **The measure of the drain.** -/
def drainMeasure (cfg : Config) (s : State w) : ℕ := 520 * totalLeft cfg s.db + s.pc.rank

theorem triesLeft_mark_lt {b : Record} (h : eligible cfg b = true) :
    triesLeft cfg { b with uploaded := 1 } < triesLeft cfg b := by
  obtain ⟨-, hlt⟩ := uploaded_of_eligible h
  have hnot : eligible cfg { b with uploaded := 1 } = false := by simp [eligible]
  rw [triesLeft, triesLeft, if_pos h, hnot, if_neg Bool.false_ne_true]
  omega

theorem triesLeft_incRetry_lt {b : Record} (h : eligible cfg b = true) :
    triesLeft cfg { b with uploadRetry := b.uploadRetry + 1 } < triesLeft cfg b := by
  obtain ⟨-, hlt⟩ := uploaded_of_eligible h
  rw [triesLeft, triesLeft, if_pos h]
  split
  · dsimp only
    omega
  · omega

/-- An update of an eligible row that takes a try from it. -/
theorem totalLeft_updateRow_lt {k : ℕ} {b : Record} {f : Record → Record} (hb : (k, b) ∈ db.rows)
    (hlt : triesLeft cfg (f b) < triesLeft cfg b) :
    totalLeft cfg (Store.updateRow db k f .ok).1 < totalLeft cfg db := by
  have hkey : (fun j : ℕ => decide ((j : ℤ) = (k : ℤ))) = fun j => decide (j = k) := by
    funext j
    simp
  rw [Store.updateRow_ok, hkey]
  exact AutoTable.sum_modify_key_lt (g := fun r => triesLeft cfg r.2) hb hlt

/-- A step that leaves the table gets on with the row. -/
theorem measure_lt_of_rank (hdb : s'.db = s.db) (hrank : s'.pc.rank < s.pc.rank) :
    drainMeasure cfg s' < drainMeasure cfg s := by
  rw [drainMeasure, drainMeasure, hdb]
  exact Nat.add_lt_add_left hrank _

/-- An update of the row in hand takes a try from it, which outweighs any
rank. -/
theorem measure_lt_of_update (hnamed : Named s) (hheld : Held cfg s) (hpresent : Present s)
    {stmt : Stmt} {sampleId : ℤ} {f : Record → Record} (haim : s.pc.aim = some (stmt, sampleId))
    (hf : ∀ b, eligible cfg b = true → triesLeft cfg (f b) < triesLeft cfg b)
    (hdb : s'.db = (Store.updateRow s.db sampleId f .ok).1) (hrank : s'.pc.rank < 520) :
    drainMeasure cfg s' < drainMeasure cfg s := by
  obtain ⟨b, hb⟩ := hpresent stmt sampleId haim
  have hless : totalLeft cfg s'.db < totalLeft cfg s.db := by
    rw [hdb, hnamed stmt sampleId haim]
    exact totalLeft_updateRow_lt hb (hf b (hheld stmt sampleId haim b hb))
  rw [drainMeasure, drainMeasure]
  omega

/-- A row that is read has a line that fits. -/
theorem rank_send_lt (hdevice : cfg.deviceId.length ≤ 63) (b : Record) (stmt stmt' : Stmt)
    (hasData : Bool) (sampleId : ℤ) :
    (Pc.send .drain stmt' sampleId (lineOf cfg b) 0).rank < (Pc.read .drain stmt hasData).rank := by
  have hshort : (lineOf cfg b).length < jsonSize := length_lt_jsonSize hdevice _
  have hsize : jsonSize = 512 := rfl
  have hrank : 516 ≤ (Pc.read .drain stmt hasData).rank := by
    cases hasData with
    | true => exact show 516 ≤ 519 by omega
    | false => exact Nat.le_refl _
  change 4 + ((lineOf cfg b).length - 0) < _
  omega

/-- A step of the thread without a statement. -/
theorem measure_tau (hdraining : s.pc.draining = true) (h : tauStep s = some s') :
    drainMeasure cfg s' < drainMeasure cfg s := by
  unfold tauStep at h
  split at h
  · next hpc =>
    rw [hpc] at hdraining
    cases hdraining
  · next stmt hasData hpc =>
    rw [hpc] at hdraining
    cases hdraining
  · next hasData hpc =>
    rw [hpc] at hdraining
    cases hdraining
  · next drained hpc =>
    cases h
    refine measure_lt_of_rank rfl ?_
    rw [hpc]
    cases drained with
    | true => exact Nat.lt_succ_self _
    | false => exact Nat.lt_succ_self _
  · next hpc =>
    rw [hpc] at hdraining
    cases hdraining
  · next hpc =>
    cases h
    refine measure_lt_of_rank rfl ?_
    rw [hpc]
    exact Nat.lt_succ_self _
  · cases h

/-- A statement of the thread. -/
theorem measure_sql (hdevice : cfg.deviceId.length ≤ 63) (hdraining : s.pc.draining = true)
    (hnamed : Named s) (hheld : Held cfg s) (hpresent : Present s)
    (h : sqlStep cfg s .ok = some s') : drainMeasure cfg s' < drainMeasure cfg s := by
  unfold sqlStep at h
  split at h
  · next hpc =>
    rw [hpc] at hdraining
    cases hdraining
  · next hpc =>
    cases h
    refine measure_lt_of_rank rfl ?_
    rw [hpc]
    exact Nat.lt_succ_self _
  · next loop stmt hasData hpc =>
    cases loop with
    | main =>
      rw [hpc] at hdraining
      cases hdraining
    | drain =>
      rw [if_pos rfl] at h
      split at h
      · cases h
        refine measure_lt_of_rank rfl ?_
        rw [hpc]
        cases hasData with
        | true => exact Nat.lt_succ_self _
        | false => exact show 2 < 516 by omega
      · next k b hfetch =>
        cases h
        have hshort : (lineOf cfg b).length < jsonSize := length_lt_jsonSize hdevice _
        refine measure_lt_of_rank rfl ?_
        rw [hpc, if_pos hshort]
        exact rank_send_lt hdevice b stmt _ hasData _
  · next loop stmt sampleId hpc =>
    cases h
    refine measure_lt_of_update hnamed hheld hpresent (by rw [hpc]; rfl)
      (fun b hb => triesLeft_mark_lt hb) rfl ?_
    cases loop with
    | main =>
      rw [hpc] at hdraining
      cases hdraining
    | drain => exact Nat.lt_succ_self _
  · next stmt sampleId hpc =>
    rw [hpc] at hdraining
    cases hdraining
  · next stmt sampleId hpc =>
    cases h
    exact measure_lt_of_update hnamed hheld hpresent (by rw [hpc]; rfl)
      (fun b hb => triesLeft_incRetry_lt hb) rfl (show 518 < 520 by omega)
  · cases h

/-- A send. -/
theorem measure_send {r : ℤ} (hdraining : s.pc.draining = true) (h : sendStep s r = some s') :
    drainMeasure cfg s' < drainMeasure cfg s := by
  unfold sendStep at h
  split at h
  · next loop stmt sampleId line sent hpc =>
    cases loop with
    | main =>
      rw [hpc] at hdraining
      cases hdraining
    | drain =>
      have hrank : s.pc.rank = 4 + (line.length - sent) := by
        rw [hpc]
        rfl
      split at h
      · cases h
        refine measure_lt_of_rank rfl ?_
        change 3 < _
        omega
      · split at h
        · cases h
        · dsimp only at h
          split at h
          · cases h
          · split at h
            · cases h
              refine measure_lt_of_rank rfl ?_
              change 4 + (line.length - (sent + r.toNat)) < _
              omega
            · cases h
              refine measure_lt_of_rank rfl ?_
              change 3 < _
              omega
  · cases h

/-- **Every step of the drain lowers the measure**, and a step of the world
leaves it. -/
theorem measure_step (hdevice : cfg.deviceId.length ≤ 63) (hdraining : s.pc.draining = true)
    (hnamed : Named s) (hheld : Held cfg s) (hpresent : Present s) (hl : l.drains = true)
    (h : step cfg s l = some s') :
    drainMeasure cfg s' + (if !l.world then 1 else 0) ≤ drainMeasure cfg s := by
  cases l with
  | tau => exact measure_tau hdraining h
  | sql a =>
    obtain rfl : a = .ok := of_decide_eq_true hl
    exact measure_sql hdevice hdraining hnamed hheld hpresent h
  | send r => exact measure_send hdraining h
  | connect ok =>
    simp only [step, connectStep] at h
    split at h
    · next hpc =>
      rw [hpc] at hdraining
      cases hdraining
    · cases h
  | storeInsert | storeTrim => cases hl
  | shutdown | deliver | reset => cases h; exact Nat.le_refl _

/-! ## What a drain keeps -/

/-- No step of the drain inserts a row, or takes one away. -/
theorem keys_step (hl : l.drains = true) (h : step cfg s l = some s') :
    s'.db.rows.map Prod.fst = s.db.rows.map Prod.fst := by
  cases moves_of_step h with
  | marked | counted => exact Store.keys_updateRow _ _ _ _
  | inserted | trimmed => cases hl
  | idle | queried | tested | skipped | fetched | connected | connectFailed | sendFailed | sentSome
    | sentAll | shutdown | insertFailed | delivered | reset => rfl

/-- **What a drain keeps** since it started in `s₀`. -/
structure Draining (cfg : Config) (s₀ s : State w) : Prop where
  aimed : Aimed s
  held : Held cfg s
  present : Present s
  drains : ∃ n, Drains cfg s₀ n s
  keys : s.db.rows.map Prod.fst = s₀.db.rows.map Prod.fst
  flags : ∀ k b₀ b, (k, b₀) ∈ s₀.db.rows → (k, b) ∈ s.db.rows →
    b.uploaded = b₀.uploaded ∨ b.uploaded = 1
  sent : ∃ hd, s.handed = s₀.handed ++ hd ∧ SentOnce hd s

theorem draining_start (hpc : s₀.pc = .query .drain) : Draining cfg s₀ s₀ := by
  have hnone : s₀.pc.aim = none := by
    rw [hpc]
    rfl
  refine ⟨?_, ?_, ?_, ⟨0, drains_start hpc⟩, rfl, ?_, [], (List.append_nil _).symm, sentOnce_nil _⟩
  · intro stmt sampleId haim
    rw [hnone] at haim
    cases haim
  · intro stmt sampleId haim
    rw [hnone] at haim
    cases haim
  · intro stmt sampleId haim
    rw [hnone] at haim
    cases haim
  · intro k b₀ b hb₀ hb
    exact Or.inl (congrArg Record.uploaded (AutoTable.row_unique hb hb₀))

theorem Draining.draining (h : Draining cfg s₀ s) : s.pc.draining = true := by
  obtain ⟨n, hd, rt, -, -, -, hpoint⟩ := h.drains
  exact draining_of_point hpoint

/-- A table whose `id`s are `int`s keeps being one. -/
theorem Draining.fits (h : Draining cfg s₀ s) (hids : ∀ r ∈ s₀.db.rows, r.1 < 2 ^ 31) {k : ℕ}
    {b : Record} (hb : (k, b) ∈ s.db.rows) : Store.columnInt k = k := by
  obtain ⟨b₀, hb₀⟩ := AutoTable.exists_of_keys h.keys.symm hb
  exact Store.columnInt_of_lt (hids _ hb₀)

theorem Draining.named (h : Draining cfg s₀ s) (hids : ∀ r ∈ s₀.db.rows, r.1 < 2 ^ 31) :
    Named s := by
  intro stmt sampleId haim
  obtain ⟨b, hb⟩ := h.present stmt sampleId haim
  rw [(h.aimed stmt sampleId haim).2, h.fits hids hb]

theorem Draining.step (hbatch : 1 ≤ cfg.batchMax) (h : Draining cfg s₀ s)
    (hids : ∀ r ∈ s₀.db.rows, r.1 < 2 ^ 31) (hl : l.drains = true)
    (hstep : step cfg s l = some s') : Draining cfg s₀ s' := by
  have hkeys := keys_step hl hstep
  have hrows : ∀ r ∈ s.db.rows, ∃ b, (r.1, b) ∈ s'.db.rows := fun r hr =>
    AutoTable.exists_of_keys hkeys hr
  obtain ⟨n, hdrains⟩ := h.drains
  obtain ⟨hd, hhanded, hsent⟩ := h.sent
  have hmark : MarkSucceeds s l := by
    rintro loop stmt sampleId a - rfl
    exact of_decide_eq_true hl
  obtain ⟨new, hnew, hsent'⟩ := hsent.step (h.named hids) h.held h.present hrows hmark hstep
  refine ⟨h.aimed.step hstep, h.held.step h.aimed hstep, h.present.step hstep hrows,
    ⟨_, hdrains.step hbatch hl hstep⟩, hkeys.trans h.keys, ?_, hd ++ new, ?_, hsent'⟩
  · intro k b₀ b' hb₀ hb'
    obtain ⟨b, hb⟩ := AutoTable.exists_of_keys hkeys.symm hb'
    obtain rfl | ⟨-, -, -, -, -, -, rfl⟩ | ⟨-, -, -, -, -, -, rfl⟩ := row_step hstep hb hb'
    · exact h.flags k b₀ _ hb₀ hb
    · exact Or.inr rfl
    · exact h.flags k b₀ b hb₀ hb
  · rw [hnew, hhanded, List.append_assoc]

theorem draining_exec (hbatch : 1 ≤ cfg.batchMax) (hpc : s₀.pc = .query .drain)
    (hids : ∀ r ∈ s₀.db.rows, r.1 < 2 ^ 31) (hls : ∀ l ∈ ls, l.drains = true)
    (h : Run.exec (step cfg) s₀ ls = some s) : Draining cfg s₀ s :=
  Run.exec_invariant_along (C := fun _ l => l.drains = true)
    (fun _ _ _ hI hl ht => hI.step hbatch hids hl ht) (draining_start hpc)
    (Run.along_of_forall hls _) h

/-- The thread can go on until it has stopped. -/
theorem Draining.enabled (h : Draining cfg s₀ s) (hpc : s.pc ≠ .stopped) :
    ∃ l, l.drains = true ∧ l.world = false ∧ (Uploader.step cfg s l).isSome = true := by
  have hdraining := h.draining
  have hsql : (sqlStep cfg s .ok).isSome = true →
      ∃ l, l.drains = true ∧ l.world = false ∧ (Uploader.step cfg s l).isSome = true :=
    fun hsome => ⟨.sql .ok, rfl, rfl, hsome⟩
  have htau : (tauStep s).isSome = true →
      ∃ l, l.drains = true ∧ l.world = false ∧ (Uploader.step cfg s l).isSome = true :=
    fun hsome => ⟨.tau, rfl, rfl, hsome⟩
  cases hs : s.pc with
  | query loop | mark loop stmt sampleId | incRetry loop stmt sampleId =>
    refine hsql ?_
    cases loop <;> simp only [sqlStep, hs, Option.isSome_some]
  | read loop stmt hasData =>
    refine hsql ?_
    simp only [sqlStep, hs, if_pos]
    cases fetch cfg s.db stmt <;> rfl
  | send loop stmt sampleId line sent =>
    refine ⟨.send (-1), rfl, rfl, ?_⟩
    have hfails : (-1 : ℤ) ≤ 0 := by decide
    simp only [Uploader.step, sendStep, hs, if_pos hfails, Option.isSome_some]
  | finalize loop drained =>
    refine htau ?_
    cases loop <;> simp only [tauStep, hs, Option.isSome_some]
  | closing =>
    refine htau ?_
    simp only [tauStep, hs, Option.isSome_some]
  | stopped => exact absurd hs hpc
  | outer | connect | inner | drainTest =>
    rw [hs] at hdraining
    cases hdraining

/-! ## The marks -/

/-- Row `k` is about to be marked. -/
def Pc.toMark (k : ℕ) : Pc → ℕ
  | .mark _ stmt _ => if stmt.last = k then 1 else 0
  | _ => 0

/-- The step marks row `k`. -/
def marks (k : ℕ) (s : State w) : Label → ℕ
  | .sql _ => s.pc.toMark k
  | _ => 0

/-- How often row `k` has been handed over. -/
def timesHanded (k : ℕ) (hd : List Handover) : ℕ := (hd.map Handover.row).count k

theorem toMark_of_busy {pc : Pc} (h : pc.busy = false) (k : ℕ) : pc.toMark k = 0 := by
  cases pc with
  | send | mark | incRetry => cases h
  | outer | connect | query | inner | read | finalize | drainTest | closing | stopped => rfl

/-- **A row is marked as often as it is handed over**, but for a mark that
is still to come. -/
theorem marks_step (k : ℕ) (h : step cfg s l = some s') :
    timesHanded k s'.handed + s.pc.toMark k =
      timesHanded k s.handed + marks k s l + s'.pc.toMark k := by
  have hquiet : s'.handed = s.handed → s.pc.toMark k = 0 → s'.pc.toMark k = 0 →
      timesHanded k s'.handed + s.pc.toMark k =
        timesHanded k s.handed + marks k s l + s'.pc.toMark k := by
    intro hhanded hpc hpc'
    have hnone : marks k s l = 0 := by
      unfold marks
      split
      · exact hpc
      · rfl
    rw [hhanded, hpc, hpc', hnone]
  cases moves_of_step h with
  | idle l pc hl hs hpc =>
    exact hquiet rfl (toMark_of_busy hs k) (toMark_of_busy (busy_of_idle hpc) k)
  | queried loop hpc | skipped loop _ _ _ _ hpc =>
    cases loop <;> exact hquiet rfl (by rw [hpc]; rfl) rfl
  | marked a loop stmt sampleId hpc =>
    cases loop <;> rfl
  | sentAll r loop stmt sampleId line sent i c hpc =>
    have hcount : [stmt.last].count k = (Pc.mark loop stmt sampleId).toMark k := by
      simp [Pc.toMark, List.count_singleton]
    dsimp only [marks, timesHanded]
    rw [hpc, List.map_append, List.count_append, List.map_singleton, hcount]
    rfl
  | tested | fetched | counted | connected | connectFailed | sendFailed | sentSome =>
    have hpc := ‹s.pc = _›
    exact hquiet rfl (by rw [hpc]; rfl) rfl
  | shutdown | inserted | insertFailed | trimmed | delivered | reset => rfl

theorem marks_exec (k : ℕ) (h₀ : s₀.pc.toMark k = 0) (h : Run.exec (step cfg) s₀ ls = some s)
    (hpc : s.pc.toMark k = 0) :
    timesHanded k s.handed =
      timesHanded k s₀.handed + Run.total (step cfg) (fun s l _ => marks k s l) s₀ ls := by
  have hcounts := Run.exec_counts
    (I := fun n (t : State w) => timesHanded k t.handed =
      timesHanded k s₀.handed + n + t.pc.toMark k)
    (C := fun _ _ => True) (n := 0) (f := fun s l _ => marks k s l)
    (fun n t l t' hI _ ht => by
      have hstep := marks_step k ht
      omega)
    (by omega) (Run.along_of_all (fun _ _ => trivial) _ _) h
  omega

/-! ## The end of the drain -/

/-- **Nothing eligible is left**: of the rows the drain started with, each
that had a flag has been uploaded or is out of tries. -/
structure LeavesNothing (cfg : Config) (s₀ s : State w) : Prop where
  keys : s.db.rows.map Prod.fst = s₀.db.rows.map Prod.fst
  spent : ∀ k b₀ b, (k, b₀) ∈ s₀.db.rows → (k, b) ∈ s.db.rows →
    (b₀.uploaded = 0 ∨ b₀.uploaded = 1) → b.uploaded = 1 ∨ cfg.retryMax ≤ b.uploadRetry

/-- **Every row is sent once**: each row that was eligible at the start has
been handed over once and marked once since, and is uploaded. -/
def SendsAllOnce (cfg : Config) (s₀ : State w) (ls : List Label) (s : State w) : Prop :=
  ∀ k b₀, (k, b₀) ∈ s₀.db.rows → eligible cfg b₀ = true →
    timesHanded k (s.handed.drop s₀.handed.length) = 1 ∧
      Run.total (step cfg) (fun s l _ => marks k s l) s₀ ls = 1 ∧
      ∃ b, (k, b) ∈ s.db.rows ∧ b.uploaded = 1

theorem Draining.leavesNothing (h : Draining cfg s₀ s) (hpc : s.pc = .closing) :
    LeavesNothing cfg s₀ s where
  keys := h.keys
  spent := by
    intro k b₀ b hb₀ hb hflag
    obtain ⟨n, hd, rt, -, -, -, hpoint⟩ := h.drains
    rw [hpc] at hpoint
    have hspent : ¬ (b.uploaded = 0 ∧ b.uploadRetry < cfg.retryMax) := by
      have hnot := hpoint (k, b) hb
      simpa [eligible] using hnot
    obtain hsame | hone := h.flags k b₀ b hb₀ hb
    · omega
    · exact Or.inl hone

/-- At the end of a drain without a failed send, an eligible row has been
handed over. -/
theorem mem_handed_of_no_failure (hbatch : 1 ≤ cfg.batchMax) (hpc₀ : s₀.pc = .query .drain)
    (hls : ∀ l ∈ ls, l.drains = true) (h : Run.exec (step cfg) s₀ ls = some s)
    (hpc : s.pc = .closing) (hfail : failures ls = 0) {hd : List Handover}
    (hhanded : s.handed = s₀.handed ++ hd) {k : ℕ} {b₀ : Record} (hb₀ : (k, b₀) ∈ s₀.db.rows)
    (hel : eligible cfg b₀ = true) : ∃ x ∈ hd, Store.columnInt x.row = k := by
  obtain ⟨hd', rt, hhanded', hn, hacc, hpoint⟩ := (drains_start hpc₀).exec hbatch hls h
  obtain rfl : hd = hd' := List.append_cancel_left (hhanded.symm.trans hhanded')
  obtain rfl : rt = [] := List.eq_nil_of_length_eq_zero (by omega)
  obtain ⟨b, hb, hretry, hmark⟩ := hacc.rows k b₀ hb₀
  refine hmark.resolve_left fun hsame => ?_
  rw [hpc] at hpoint
  have hstill : eligible cfg b = true := by
    rw [eligible_congr hsame (by simpa using hretry)]
    exact hel
  rw [hpoint (k, b) hb] at hstill
  cases hstill

theorem sendsAllOnce_of_no_failure (hbatch : 1 ≤ cfg.batchMax) (hpc₀ : s₀.pc = .query .drain)
    (hids : ∀ r ∈ s₀.db.rows, r.1 < 2 ^ 31) (hls : ∀ l ∈ ls, l.drains = true)
    (h : Run.exec (step cfg) s₀ ls = some s) (hpc : s.pc = .closing) (hfail : failures ls = 0) :
    SendsAllOnce cfg s₀ ls s := by
  intro k b₀ hb₀ hel
  have hdrain := draining_exec hbatch hpc₀ hids hls h
  obtain ⟨hd, hhanded, hsent⟩ := hdrain.sent
  obtain ⟨x, hx, hrow⟩ :=
    mem_handed_of_no_failure hbatch hpc₀ hls h hpc hfail hhanded hb₀ hel
  obtain ⟨b, hb, hmarked⟩ := hsent.marked x hx
  obtain rfl : x.row = k := by
    have hfit := hdrain.fits hids hb
    omega
  have honce : timesHanded x.row hd = 1 :=
    List.count_eq_one_of_mem hsent.once (List.mem_map_of_mem hx)
  have hmarks := marks_exec x.row (by rw [hpc₀]; rfl) h (by rw [hpc]; rfl)
  have hall : timesHanded x.row s.handed = timesHanded x.row s₀.handed + timesHanded x.row hd := by
    rw [hhanded, timesHanded, List.map_append, List.count_append]
    rfl
  refine ⟨?_, by omega, b, hb, hmarked.resolve_right ?_⟩
  · rw [hhanded, List.drop_left]
    exact honce
  · rintro ⟨loop, stmt, sampleId, hmark, -⟩
    rw [hpc] at hmark
    cases hmark

/-- **The drain ends, and leaves nothing eligible**: for any table whose
`id`s are `int`s, batches of any size, any limit on the tries and any
answers of `send`, the thread takes a bounded number of steps, and can take
one until it has stopped; where the loop ends, every row is uploaded or out
of tries; and if no send has failed, every row was sent once and marked
once. -/
theorem drain_ends (hbatch : 1 ≤ cfg.batchMax) (hdevice : cfg.deviceId.length ≤ 63)
    (hpc : s₀.pc = .query .drain) (hids : ∀ r ∈ s₀.db.rows, r.1 < 2 ^ 31) :
    ∃ n, ∀ ls s, (∀ l ∈ ls, l.drains = true) → Run.exec (step cfg) s₀ ls = some s →
      ls.countP (fun l => !l.world) ≤ n ∧
      (s.pc ≠ .stopped →
        ∃ l, l.drains = true ∧ l.world = false ∧ (step cfg s l).isSome = true) ∧
      (s.pc = .closing →
        LeavesNothing cfg s₀ s ∧ (failures ls = 0 → SendsAllOnce cfg s₀ ls s)) := by
  refine ⟨drainMeasure cfg s₀, fun ls s hls h => ⟨?_, ?_, ?_⟩⟩
  · have hmeasure := Run.countP_le_measure (I := Draining cfg s₀) (C := fun _ l => l.drains = true)
      (μ := drainMeasure cfg) (p := fun l => !l.world)
      (fun t l t' hI hl ht => ⟨hI.step hbatch hids hl ht,
        measure_step hdevice hI.draining (hI.named hids) hI.held hI.present hl ht⟩)
      (draining_start hpc) (Run.along_of_forall hls _) h
    omega
  · exact (draining_exec hbatch hpc hids hls h).enabled
  · intro hend
    exact ⟨(draining_exec hbatch hpc hids hls h).leavesNothing hend,
      sendsAllOnce_of_no_failure hbatch hpc hids hls h hend⟩

/-- Both rows go out, and the next batch finds none. -/
theorem drain_ends_two :
    ∃ s₀ s : State 32, ∃ ls, Run.exec (step exampleConfig) (init 32 twoRows) toDrain = some s₀ ∧
      ls = [.sql .ok, .sql .ok] ++ sendOne ++ [.sql .ok] ++ sendOne ++ [.sql .ok, .tau] ++
        lastBatch ∧
      Run.exec (step exampleConfig) s₀ ls = some s ∧ s.pc = .closing ∧
      LeavesNothing exampleConfig s₀ s ∧ SendsAllOnce exampleConfig s₀ ls s := by
  obtain ⟨s₀, h₀, hpc, hids, hrun⟩ := Run.exists_of_exec (step exampleConfig) (init 32 twoRows)
    toDrain (fun s₀ => s₀.pc = .query .drain ∧ (∀ r ∈ s₀.db.rows, r.1 < 2 ^ 31) ∧
      (Run.exec (step exampleConfig) s₀ ([.sql .ok, .sql .ok] ++ sendOne ++ [.sql .ok] ++ sendOne ++
        [.sql .ok, .tau] ++ lastBatch)).any (fun s => decide (s.pc = .closing)) = true)
    (by decide +kernel)
  obtain ⟨s, h, hend⟩ := Run.exists_of_exec _ s₀ _ _ hrun
  have hbatch : 1 ≤ exampleConfig.batchMax := by decide
  have hdevice : exampleConfig.deviceId.length ≤ 63 := by decide
  obtain ⟨n, hall⟩ := drain_ends hbatch hdevice hpc hids
  obtain ⟨-, -, hclosing⟩ := hall _ s (by decide +kernel) h
  exact ⟨s₀, s, _, h₀, rfl, h, hend, (hclosing hend).1, (hclosing hend).2 (by decide +kernel)⟩

end Uploader

end WaterGateway
