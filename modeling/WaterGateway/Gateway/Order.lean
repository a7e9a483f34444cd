import WaterGateway.Common.Replay
import WaterGateway.Gateway.Moves
import WaterGateway.Uploader.Fidelity

/-!
# From the samples to the lines

The lines the gateway hands over, over all its starts, are those of the
samples it has produced, read from left to right: some are left out, none
is invented, none overtakes another, and none comes twice but for one at
each start, where the program before it was killed between the last `send`
of a line and its mark.

`InLedger` follows the rows from the store thread into the table, `After`
what the uploader owes to the lines an earlier start has handed over.
-/

namespace WaterGateway

namespace Gateway

open Config (GatewayConfig)
open Pipeline (asInserted rowOf)
open Uploader (Handover Settled SentFor lineOf eligible)

variable {w : ℕ} {cfg : GatewayConfig} {s s' : State w} {l : Label} {ls : List Label}
variable {base : Samples}

/-! ## The ledger -/

/-- **The rows that were ever inserted**: those in `front` by earlier
starts, and those of this one. The table holds a part of them. -/
structure InLedger (front : List (ℕ × Record)) (p : Pipeline.State w) : Prop where
  ids : (front ++ p.hist.written).Pairwise fun r r' => r.1 < r'.1
  known : ∀ r ∈ front ++ p.hist.written, r.1 ≤ p.db.seq
  table : (p.db.rows.map asInserted).Sublist (front ++ p.hist.written)

theorem asInserted_modify {rows : List (ℕ × Record)} {f : ℕ → Record → Record}
    (hf : ∀ k b, asInserted (k, f k b) = asInserted (k, b)) :
    (rows.map fun r => (r.1, f r.1 r.2)).map asInserted = rows.map asInserted := by
  rw [List.map_map]
  exact List.map_congr_left fun r _ => hf r.1 r.2

theorem asInserted_updateRow (db : Samples) (sampleId : ℤ) {f : Record → Record} (a : SqlAnswer)
    (hf : ∀ k b, asInserted (k, f b) = asInserted (k, b)) :
    (Store.updateRow db sampleId f a).1.rows.map asInserted = db.rows.map asInserted := by
  obtain hdb | hdb := Store.updateRow_cases db sampleId f a
  · rw [hdb]
    refine asInserted_modify (f := fun k b => if (decide ((k : ℤ) = sampleId)) then f b else b) ?_
    intro k b
    split
    · exact hf k b
    · rfl
  · rw [hdb]

theorem InLedger.step {front : List (ℕ × Record)} {c : Pipeline.Config} {p p' : Pipeline.State w}
    {l : Pipeline.Label} (hin : InLedger front p) (hok : Pipeline.Sound p)
    (h : Pipeline.step c p l = some p') : InLedger front p' := by
  obtain ⟨hids, hknown, htable⟩ := hin
  cases Pipeline.moves_of_step hok h with
  | insert a item drain pc hpc hafter hdb =>
    have hnew : ∀ r ∈ front ++ p.hist.written, r.1 < p.db.seq + 1 := fun r hr =>
      Nat.lt_succ_of_le (hknown r hr)
    refine ⟨?_, ?_, ?_⟩
    · rw [← List.append_assoc]
      refine List.pairwise_append.2 ⟨hids, List.pairwise_singleton _ _, ?_⟩
      intro r hr r' hr'
      rw [List.mem_singleton.1 hr']
      exact hnew r hr
    · intro r hr
      rw [← List.append_assoc] at hr
      rcases List.mem_append.1 hr with hr | hr
      · exact (hnew r hr).le
      · rw [List.mem_singleton.1 hr]
        exact Nat.le_refl _
    · rw [← List.append_assoc]
      simp only [AutoTable.insert, List.map_append]
      exact htable.append (List.Sublist.refl _)
  | trim a pc pc' final db hpc hrows hseq =>
    exact ⟨hids, fun r hr => hseq ▸ hknown r hr, (hrows.map _).trans htable⟩
  | markUploaded sampleId a =>
    have hrows := asInserted_updateRow p.db sampleId (f := fun b => { b with uploaded := 1 }) a
      fun k b => rfl
    exact ⟨hids, fun r hr => (hknown r hr).trans (Nat.le_of_eq (Store.seq_updateRow _ _ _ _).symm),
      hrows ▸ htable⟩
  | incRetry sampleId a =>
    have hrows := asInserted_updateRow p.db sampleId
      (f := fun b => { b with uploadRetry := b.uploadRetry + 1 }) a fun k b => rfl
    exact ⟨hids, fun r hr => (hknown r hr).trans (Nat.le_of_eq (Store.seq_updateRow _ _ _ _).symm),
      hrows ▸ htable⟩
  | signal | main | setProc | setStore | shutRaw | shutStore | collect | acquire | collectRefused
    | collectAccepted | proc | procPop | procHandle | procRefused | procAccepted | store | storePop
    | insertFailed => exact ⟨hids, hknown, htable⟩

/-- What a start of the program owes: its rows are made of its samples, in
order. -/
def Life.Faithful (c : Pipeline.Config) (life : Life) : Prop :=
  (life.written.map Prod.snd).Sublist (life.produced.map (rowOf c))

/-- A row as the store thread makes it of a produced sample. -/
theorem recordOf_processItem (c : Pipeline.Config) (items : List Pipeline.Item) :
    (items.map (Pipeline.processItem c.thresholds)).map
        (fun item => Store.recordOf c.deviceId item.2) =
      (items.map Prod.snd).map (rowOf c) := by
  rw [List.map_map, List.map_map]
  refine List.map_congr_left fun item _ => ?_
  simp only [Function.comp_apply, Pipeline.processItem, rowOf, Processor.process_eq]

theorem faithful_of_recorded {c : Pipeline.Config} {db₀ : Samples} {p : Pipeline.State w}
    (hord : Pipeline.Ordered c p) (hrec : Pipeline.Recorded c db₀ p) :
    (p.hist.written.map Prod.snd).Sublist ((p.hist.produced.map Prod.snd).map (rowOf c)) := by
  have hpassed : p.hist.passed.Sublist
      (p.hist.produced.map (Pipeline.processItem c.thresholds)) :=
    (List.sublist_append_left _ _).trans hord.line
  exact hrec.rows.trans (recordOf_processItem c _ ▸ hpassed.map _)

/-! ## The lines of the ledger -/

/-- **Every line sent is that of a row of the ledger.** -/
def LinesFrom (c : Uploader.Config) (ledger : List (ℕ × Record)) (u : Uploader.State w) : Prop :=
  ∀ k line, SentFor u k line → ∃ b, (k, b) ∈ ledger ∧ line = lineOf c b

/-- A row of the table stands in the ledger, with the same line. -/
theorem InLedger.mem {front : List (ℕ × Record)} {p : Pipeline.State w} (hin : InLedger front p)
    (c : Uploader.Config) {k : ℕ} {b : Record} (hb : (k, b) ∈ p.db.rows) :
    ∃ b', (k, b') ∈ front ++ p.hist.written ∧ lineOf c b = lineOf c b' :=
  ⟨_, hin.table.subset (List.mem_map_of_mem hb), rfl⟩

theorem LinesFrom.step {c : Uploader.Config} {ledger : List (ℕ × Record)} {u u' : Uploader.State w}
    {l : Uploader.Label} (hlines : LinesFrom c ledger u)
    (hrows : ∀ k b, (k, b) ∈ u.db.rows → ∃ b', (k, b') ∈ ledger ∧ lineOf c b = lineOf c b')
    (h : Uploader.step c u l = some u') : LinesFrom c ledger u' := by
  intro k line hsent
  obtain hold | ⟨b, hb, rfl⟩ := Uploader.sentFor_step h hsent
  · exact hlines k line hold
  · exact hrows k b hb

/-- The lines stay those of the ledger as it grows, whatever becomes of the
rest of the uploader. -/
theorem LinesFrom.grow {c : Uploader.Config} {ledger ledger' : List (ℕ × Record)}
    {u u' : Uploader.State w} (hlines : LinesFrom c ledger u) (hsub : ledger ⊆ ledger')
    (hhanded : u'.handed = u.handed) (hpc : u'.pc = u.pc) : LinesFrom c ledger' u' := by
  intro k line hsent
  rw [SentFor, hhanded, hpc] at hsent
  obtain ⟨b, hb, hline⟩ := hlines k line hsent
  exact ⟨b, hsub hb, hline⟩

/-! ## The order across the starts -/

/-- **What the uploader owes to the lines in `front`**, which earlier
starts have handed over: the rows below them are settled, and what it hands
over stands at them or behind. -/
structure After (c : Uploader.Config) (front : List Handover) (u : Uploader.State w) : Prop where
  known : ∀ x ∈ front, x.row ≤ u.db.seq
  settled : ∀ x ∈ front, ∀ r ∈ u.db.rows, r.1 < x.row → Settled c r.2
  aimed : ∀ x ∈ front, ∀ stmt sampleId, u.pc.aim = some (stmt, sampleId) → x.row ≤ stmt.last
  handed : ∀ x ∈ front, ∀ y ∈ u.handed, x.row ≤ y.row

/-- A settled row stays settled. -/
theorem settled_step {c : Uploader.Config} {u u' : Uploader.State w} {l : Uploader.Label}
    (h : Uploader.step c u l = some u') {k : ℕ} {b b' : Record} (hb : (k, b) ∈ u.db.rows)
    (hb' : (k, b') ∈ u'.db.rows) (hset : Settled c b) : Settled c b' := by
  obtain rfl | ⟨-, -, -, -, -, -, rfl⟩ | ⟨-, -, -, -, -, -, rfl⟩ := Uploader.row_step h hb hb'
  · exact hset
  · intro hel
    simp [eligible] at hel
  · intro hel
    refine hset ?_
    simp only [eligible, Bool.and_eq_true, decide_eq_true_eq] at hel ⊢
    exact ⟨hel.1, by omega⟩

/-- **A row in hand that was not in hand before the step is not settled.** -/
theorem unsettled_of_aim {c : Uploader.Config} {u u' : Uploader.State w} {l : Uploader.Label}
    (h : Uploader.step c u l = some u') {stmt : Uploader.Stmt} {sampleId : ℤ}
    (haim : u'.pc.aim = some (stmt, sampleId)) :
    u.pc.aim = some (stmt, sampleId) ∨
      ∃ b, (stmt.last, b) ∈ u.db.rows ∧ ¬ Settled c b := by
  have hnone : u'.pc.aim = none → u.pc.aim = some (stmt, sampleId) := fun hpc => by
    rw [hpc] at haim
    cases haim
  cases Uploader.moves_of_step h with
  | fetched loop stmt' hasData k b hpc hfetch hshort =>
    cases haim
    obtain ⟨hrow, -, hel, -⟩ := Uploader.fetch_eq_some hfetch
    exact Or.inr ⟨b, hrow, fun hset => absurd (hset hel) (Nat.not_le_of_lt hshort)⟩
  | idle l pc hl hs hpc => exact Or.inl (hnone (Uploader.aim_of_busy (Uploader.busy_of_idle hpc)))
  | queried loop | skipped loop | marked a loop => cases loop <;> exact Or.inl (hnone rfl)
  | tested | counted | connected | connectFailed => exact Or.inl (hnone rfl)
  | sendFailed r loop stmt' sampleId' line sent net hpc => exact Or.inl (by rw [hpc]; exact haim)
  | sentSome r loop stmt' sampleId' line sent i c hpc => exact Or.inl (by rw [hpc]; exact haim)
  | sentAll r loop stmt' sampleId' line sent i c hpc => exact Or.inl (by rw [hpc]; exact haim)
  | shutdown | inserted | insertFailed | trimmed | delivered | reset => exact Or.inl haim

theorem After.step {c : Uploader.Config} {front : List Handover} {u u' : Uploader.State w}
    {l : Uploader.Label} (hafter : After c front u) (h : Uploader.step c u l = some u') :
    After c front u' where
  known := fun x hx => (hafter.known x hx).trans (Uploader.seq_le_step h)
  settled := by
    rintro x hx ⟨k, b'⟩ hb' hlt
    obtain ⟨b, hb⟩ | ⟨hnew, -, -⟩ := Uploader.key_step h hb'
    · exact settled_step h hb hb' (hafter.settled x hx _ hb hlt)
    · have hle := hafter.known x hx
      have hlt' : k < x.row := hlt
      omega
  aimed := by
    intro x hx stmt sampleId haim
    obtain hold | ⟨b, hb, hnot⟩ := unsettled_of_aim h haim
    · exact hafter.aimed x hx stmt sampleId hold
    · exact Nat.le_of_not_lt fun hlt => hnot (hafter.settled x hx _ hb hlt)
  handed := by
    intro x hx y hy
    obtain hsame | ⟨loop, stmt, sampleId, line, sent, i, hpc, -, -, hhanded⟩ :=
      Uploader.handed_before h
    · exact hafter.handed x hx y (hsame ▸ hy)
    · rw [hhanded, List.mem_append, List.mem_singleton] at hy
      obtain hold | rfl := hy
      · exact hafter.handed x hx y hold
      · exact hafter.aimed x hx stmt sampleId (by rw [hpc]; rfl)

/-- Behind a line handed over the rows are settled; its own may be about to
be marked. -/
theorem settled_below {c : Uploader.Config} {u : Uploader.State w} (hord : Uploader.Ordered c u)
    {x : Handover} (hx : x ∈ u.handed) {r : ℕ × Record} (hr : r ∈ u.db.rows) (hlt : r.1 < x.row) :
    Settled c r.2 := by
  cases hbusy : u.pc.busy with
  | false => exact hord.covered.behind hbusy x hx r hr hlt.le
  | true =>
    cases hpc : u.pc with
    | send loop stmt sampleId line sent =>
      obtain ⟨hall, hset⟩ := hord.covered.at_pc hpc
      exact hset r hr (hlt.trans (hall x hx))
    | incRetry loop stmt sampleId =>
      obtain ⟨hall, hset⟩ := hord.covered.at_pc hpc
      exact hset r hr (hlt.trans (hall x hx))
    | mark loop stmt sampleId =>
      obtain ⟨hall, hset⟩ := hord.covered.at_pc hpc
      exact hset r hr (Nat.lt_of_lt_of_le hlt (hall x hx))
    | outer | connect | query | inner | read | finalize | drainTest | closing | stopped =>
      rw [hpc] at hbusy
      cases hbusy

/-- **The next start begins behind what the last one has handed over.** -/
theorem After.restart {c : Uploader.Config} {front : List Handover} {u : Uploader.State w}
    (hafter : After c front u) (hord : Uploader.Ordered c u) :
    After c (front ++ u.handed) (Uploader.init w u.db) where
  known := by
    intro x hx
    rcases List.mem_append.1 hx with hx | hx
    · exact hafter.known x hx
    · exact hord.known x hx
  settled := by
    intro x hx r hr hlt
    rcases List.mem_append.1 hx with hx | hx
    · exact hafter.settled x hx r hr hlt
    · exact settled_below hord hx hr hlt
  aimed := fun _ _ _ _ haim => nomatch haim
  handed := fun _ _ _ hy => nomatch hy

/-! ## Every reachable state -/

/-- The rows inserted before this start of the program, and those the
table had at first. -/
def State.front (base : Samples) (s : State w) : List (ℕ × Record) :=
  base.rows.map asInserted ++ s.past.flatMap Life.written

/-- What earlier starts have handed over. -/
def State.pastHanded (s : State w) : List Handover := s.past.flatMap Life.handed

/-- **What every reachable state keeps**: of the pipeline, of the ledger,
and of the lines that are sent. -/
structure Kept (cfg : GatewayConfig) (base : Samples) (s : State w) : Prop where
  sound : Pipeline.Sound s.pipeline
  ordered : Pipeline.Ordered (pipelineConfig cfg) s.pipeline
  recorded : ∃ db₀, Pipeline.Recorded (pipelineConfig cfg) db₀ s.pipeline
  ledger : InLedger (s.front base) s.pipeline
  faithful : ∀ life ∈ s.past, life.Faithful (pipelineConfig cfg)
  lines : LinesFrom (uploaderConfig cfg) (s.front base ++ s.pipeline.hist.written) s.uploader
  pastLines : ∀ x ∈ s.pastHanded, ∃ b, (x.row, b) ∈ s.front base ∧
    x.line = lineOf (uploaderConfig cfg) b

/-- The record of the inserts only grows. -/
theorem written_step {c : Pipeline.Config} {p p' : Pipeline.State w} {l : Pipeline.Label}
    (hok : Pipeline.Sound p) (h : Pipeline.step c p l = some p') :
    p.hist.written <+: p'.hist.written := by
  cases Pipeline.moves_of_step hok h with
  | insert => exact List.prefix_append _ _
  | signal | main | setProc | setStore | shutRaw | shutStore | collect | acquire | collectRefused
    | collectAccepted | proc | procPop | procHandle | procRefused | procAccepted | store | storePop
    | insertFailed | trim | markUploaded | incRetry => exact List.prefix_rfl

theorem past_step (h : step cfg s l = some s') (hl : l ≠ .restart) : s'.past = s.past := by
  cases moves_of_step h with
  | pipeline | uploader | setUpload | joinUpload => rfl
  | restart => exact absurd rfl hl

/-- What the pipeline keeps, until the next start. -/
theorem Kept.pipeline (hk : Kept cfg base s) (h : step cfg s l = some s') (hl : l ≠ .restart) :
    Pipeline.Sound s'.pipeline ∧ Pipeline.Ordered (pipelineConfig cfg) s'.pipeline ∧
      (∃ db₀, Pipeline.Recorded (pipelineConfig cfg) db₀ s'.pipeline) ∧
      InLedger (s.front base) s'.pipeline := by
  refine Run.exec_invariant (I := fun p => Pipeline.Sound p ∧
    Pipeline.Ordered (pipelineConfig cfg) p ∧
    (∃ db₀, Pipeline.Recorded (pipelineConfig cfg) db₀ p) ∧ InLedger (s.front base) p) ?_
    ⟨hk.sound, hk.ordered, hk.recorded, hk.ledger⟩ (pipeline_step h hl)
  rintro p l p' ⟨hok, hord, ⟨db₀, hrec⟩, hin⟩ hp
  exact ⟨hok.step hp, hord.step hok hp, ⟨db₀, hrec.step hok hp⟩, hin.step hok hp⟩

/-- What the lines keep, until the next start. -/
theorem Kept.lines_step (hk : Kept cfg base s) (h : step cfg s l = some s') (hl : l ≠ .restart) :
    LinesFrom (uploaderConfig cfg) (s.front base ++ s'.pipeline.hist.written) s'.uploader := by
  cases moves_of_step h with
  | pipeline l p hown hp =>
    refine hk.lines.grow ?_ rfl rfl
    intro r hr
    exact List.mem_append.2 ((List.mem_append.1 hr).imp_right
      fun hin => (written_step hk.sound hp).subset hin)
  | uploader l u henabled hown hu =>
    refine hk.lines.step (fun k b hb => ?_) hu
    exact hk.ledger.mem (uploaderConfig cfg) (s.shared ▸ hb)
  | setUpload => exact hk.lines.grow (List.Subset.refl _) rfl rfl
  | joinUpload => exact hk.lines
  | restart => exact absurd rfl hl

theorem kept_start {p : Pipeline.State w} {past : List Life} {db : Samples}
    (h : Pipeline.init w db = some p)
    (hledger : ∀ q : Pipeline.State w, q.db = db → q.hist.written = [] →
      InLedger (base.rows.map asInserted ++ past.flatMap Life.written) q)
    (hfaithful : ∀ life ∈ past, life.Faithful (pipelineConfig cfg))
    (hpast : ∀ x ∈ past.flatMap Life.handed,
      ∃ b, (x.row, b) ∈ base.rows.map asInserted ++ past.flatMap Life.written ∧
        x.line = lineOf (uploaderConfig cfg) b) :
    Kept cfg base ⟨p, Uploader.init w p.db, .setUpload, past, rfl⟩ where
  sound := Pipeline.sound_init h
  ordered := Pipeline.ordered_init h
  recorded := ⟨db, Pipeline.recorded_init h⟩
  ledger := by
    obtain ⟨raw, store, -, -, -, -, rfl⟩ := Pipeline.init_cases h
    exact hledger _ rfl rfl
  faithful := hfaithful
  lines := by
    rintro k line (⟨x, hx, -⟩ | ⟨loop, stmt, sampleId, sent, hpc, -⟩)
    · cases hx
    · cases hpc
  pastLines := hpast

theorem kept_init (h : init w base = some s) : Kept cfg base s := by
  rw [init, start, Option.map_eq_some_iff] at h
  obtain ⟨p, hp, rfl⟩ := h
  refine kept_start hp (fun q hdb hnone => ?_) (fun life hlife => absurd hlife List.not_mem_nil)
    (fun x hx => absurd hx List.not_mem_nil)
  rw [List.flatMap_nil, List.append_nil]
  refine ⟨?_, ?_, ?_⟩
  · rw [hnone, List.append_nil, List.pairwise_map]
    exact base.sorted
  · intro r hr
    rw [hnone, List.append_nil] at hr
    obtain ⟨r₀, hr₀, rfl⟩ := List.mem_map.1 hr
    rw [hdb]
    exact base.le_seq r₀ hr₀
  · rw [hnone, hdb, List.append_nil]

theorem Kept.step (hk : Kept cfg base s) (h : step cfg s l = some s') : Kept cfg base s' := by
  by_cases hl : l = .restart
  · subst hl
    cases moves_of_step h with
    | restart p hp =>
      obtain ⟨db₀, hrec⟩ := hk.recorded
      have hwritten : base.rows.map asInserted ++ s.lives.flatMap Life.written =
          s.front base ++ s.pipeline.hist.written := by
        simp only [State.lives, State.front, State.life, List.flatMap_append,
          List.flatMap_singleton, List.append_assoc]
      have hledger := hk.ledger
      refine kept_start hp (fun q hdb hnone => ?_) ?_ ?_
      · rw [hwritten]
        refine ⟨?_, ?_, ?_⟩
        · rw [hnone, List.append_nil]
          exact hledger.ids
        · rw [hnone, List.append_nil, hdb]
          exact hledger.known
        · rw [hnone, List.append_nil, hdb]
          exact hledger.table
      · intro life hlife
        rcases List.mem_append.1 hlife with hlife | hlife
        · exact hk.faithful life hlife
        · rw [List.mem_singleton.1 hlife]
          exact faithful_of_recorded hk.ordered hrec
      · intro x hx
        rw [hwritten]
        rw [State.lives, List.flatMap_append, List.flatMap_singleton] at hx
        rcases List.mem_append.1 hx with hx | hx
        · obtain ⟨b, hb, hline⟩ := hk.pastLines x hx
          exact ⟨b, List.mem_append_left _ hb, hline⟩
        · exact hk.lines x.row x.line (Or.inl ⟨x, hx, rfl, rfl⟩)
  · have hpast : s'.past = s.past := past_step h hl
    have hfront : s'.front base = s.front base := by rw [State.front, hpast, State.front]
    obtain ⟨hok, hord, hrec, hin⟩ := hk.pipeline h hl
    refine ⟨hok, hord, hrec, hfront ▸ hin, hpast ▸ hk.faithful, ?_, ?_⟩
    · rw [hfront]
      exact hk.lines_step h hl
    · rw [State.pastHanded, hpast, hfront]
      exact hk.pastLines

/-! ## The order of a run -/

/-- The SQL statements of the uploader succeed. -/
def Label.uploadSqlOk : Label → Bool
  | .uploader l => l.sqlOk
  | _ => true

/-- **What the order of the lines rests on**, at every reachable state. -/
structure InOrder (cfg : GatewayConfig) (s : State w) : Prop where
  ordered : Uploader.Ordered (uploaderConfig cfg) s.uploader
  after : After (uploaderConfig cfg) s.pastHanded s.uploader
  within : ∀ life ∈ s.past, life.handed.Pairwise fun x y => x.row < y.row
  across : s.pastHanded.Pairwise fun x y => x.row ≤ y.row

theorem sqlOk_of_mem {l' : Uploader.Label} (hl : l.uploadSqlOk = true)
    (h : l' ∈ uploaderLabels cfg s l) : l'.sqlOk = true := by
  cases l with
  | uploader l =>
    rw [List.mem_singleton.1 h]
    exact hl
  | pipeline l =>
    cases l with
    | sql a =>
      simp only [uploaderLabels] at h
      split at h
      · rw [List.mem_singleton.1 h]
        rfl
      · rw [List.mem_singleton.1 h]
        rfl
      · cases h
    | signal | main | collect | acquire | proc | store | markUploaded | incRetry => cases h
  | tail =>
    simp only [uploaderLabels] at h
    split at h
    · rw [List.mem_singleton.1 h]
      rfl
    · cases h
  | restart => cases h

/-- No step of the gateway takes an `id` back. -/
theorem seq_le_gateway (hk : Kept cfg base s) (h : step cfg s l = some s') :
    s.db.seq ≤ s'.db.seq := by
  by_cases hl : l = .restart
  · subst hl
    cases moves_of_step h with
    | restart p hp =>
      obtain ⟨raw, store, -, -, -, -, rfl⟩ := Pipeline.init_cases hp
      exact Nat.le_refl _
  · have hseq : s.uploader.db.seq ≤ s'.uploader.db.seq := Run.exec_relates
      (R := fun a b : Uploader.State w => a.db.seq ≤ b.db.seq) (fun _ => Nat.le_refl _)
      Nat.le_trans (fun _ _ _ => Uploader.seq_le_step) (uploader_step hk.sound h hl)
    rwa [← s.shared, ← s'.shared] at hseq

theorem inOrder_init (h : init w base = some s) : InOrder cfg s := by
  rw [init, start, Option.map_eq_some_iff] at h
  obtain ⟨p, hp, rfl⟩ := h
  have hnone : ∀ x : Handover, x ∉ ([] : List Handover) := fun _ => List.not_mem_nil
  exact ⟨Uploader.ordered_init _, ⟨fun x hx => absurd hx (hnone x), fun x hx => absurd hx (hnone x),
    fun x hx => absurd hx (hnone x), fun x hx => absurd hx (hnone x)⟩,
    fun _ hlife => absurd hlife List.not_mem_nil, List.Pairwise.nil⟩

theorem InOrder.step (hin : InOrder cfg s) (hk : Kept cfg base s) (hl : l.uploadSqlOk = true)
    (hids : s'.db.seq < 2 ^ 31) (h : step cfg s l = some s') : InOrder cfg s' := by
  by_cases hrestart : l = .restart
  · subst hrestart
    cases moves_of_step h with
    | restart p hp =>
      have hdb : p.db = s.uploader.db := by
        obtain ⟨raw, store, -, -, -, -, rfl⟩ := Pipeline.init_cases hp
        exact s.shared
      have hhanded : s.lives.flatMap Life.handed = s.pastHanded ++ s.uploader.handed := by
        simp only [State.lives, State.pastHanded, State.life, List.flatMap_append,
          List.flatMap_singleton]
      refine ⟨Uploader.ordered_init _, ?_, ?_, ?_⟩
      · have hafter := hin.after.restart (w := w) hin.ordered
        rwa [← hdb, ← hhanded] at hafter
      · intro life hlife
        rcases List.mem_append.1 hlife with hlife | hlife
        · exact hin.within life hlife
        · rw [List.mem_singleton.1 hlife]
          exact hin.ordered.increasing
      · rw [State.pastHanded, hhanded]
        exact List.pairwise_append.2 ⟨hin.across,
          hin.ordered.increasing.imp fun hlt => Nat.le_of_lt hlt, hin.after.handed⟩
  · have hpast : s'.past = s.past := past_step h hrestart
    have hrun := uploader_step hk.sound h hrestart
    have hids' : s'.uploader.db.seq < 2 ^ 31 := s'.shared ▸ hids
    refine ⟨?_, ?_, hpast ▸ hin.within, ?_⟩
    · exact Uploader.ordered_exec hin.ordered (fun l' hl' => sqlOk_of_mem hl hl') hrun hids'
    · rw [State.pastHanded, hpast]
      exact Run.exec_invariant (fun u l u' hafter hu => hafter.step hu) hin.after hrun
    · rw [State.pastHanded, hpast]
      exact hin.across

/-- What holds of every state of a run whose upload statements succeed. -/
theorem reachable (h₀ : init w base = some s) (hsql : ∀ l ∈ ls, l.uploadSqlOk = true)
    (h : Run.exec (step cfg) s ls = some s') :
    Kept cfg base s' ∧ (s'.db.seq < 2 ^ 31 → InOrder cfg s') := by
  refine Run.exec_invariant_along (I := fun t => Kept cfg base t ∧
    (t.db.seq < 2 ^ 31 → InOrder cfg t)) (C := fun _ l => l.uploadSqlOk = true) ?_
    ⟨kept_init h₀, fun _ => inOrder_init h₀⟩ (Run.along_of_forall hsql s) h
  rintro t l t' ⟨hk, hin⟩ hl ht
  refine ⟨hk.step ht, fun hids => ?_⟩
  exact (hin (Nat.lt_of_le_of_lt (seq_le_gateway hk ht) hids)).step hk hl hids ht

/-- **The lines handed over are read off the ledger**, with at most one
repetition at each start. -/
theorem replay_ledger (hk : Kept cfg base s) (hin : InOrder cfg s) :
    Replay s.past.length ((s.front base ++ s.pipeline.hist.written).map
        fun r => lineOf (uploaderConfig cfg) r.2) (s.handed.map Handover.line) := by
  have hhanded : s.handed = s.pastHanded ++ s.uploader.handed := by
    simp only [State.handed, State.lives, State.pastHanded, State.life, List.flatMap_append,
      List.flatMap_singleton]
  have hread : Replay (Replay.repeats ((s.handed.map fun x => (x.row, x.line)).map Prod.fst))
      ((s.front base ++ s.pipeline.hist.written).map
        fun r => (r.1, lineOf (uploaderConfig cfg) r.2))
      (s.handed.map fun x => (x.row, x.line)) := by
    refine Replay.of_keys (List.pairwise_map.2 hk.ledger.ids) (List.pairwise_map.2 ?_) ?_
    · rw [hhanded]
      exact List.pairwise_append.2 ⟨hin.across,
        hin.ordered.increasing.imp fun hlt => Nat.le_of_lt hlt, hin.after.handed⟩
    · intro y hy
      obtain ⟨x, hx, rfl⟩ := List.mem_map.1 hy
      rw [hhanded] at hx
      refine List.mem_map.2 ?_
      rcases List.mem_append.1 hx with hx | hx
      · obtain ⟨b, hb, hline⟩ := hk.pastLines x hx
        exact ⟨_, List.mem_append_left _ hb, by rw [hline]⟩
      · obtain ⟨b, hb, hline⟩ := hk.lines x.row x.line (Or.inl ⟨x, hx, rfl, rfl⟩)
        exact ⟨_, hb, by rw [hline]⟩
  have hgroups : (s.handed.map fun x => (x.row, x.line)).map Prod.fst =
      (s.lives.map fun life => life.handed.map Handover.row).flatten := by
    rw [List.map_map, State.handed, List.flatMap_def, List.map_flatten, List.map_map]
    rfl
  have hrepeats : Replay.repeats ((s.handed.map fun x => (x.row, x.line)).map Prod.fst) ≤
      s.past.length := by
    rw [hgroups]
    refine (Replay.repeats_flatten_le ?_).trans ?_
    · intro rows hrows
      obtain ⟨life, hlife, rfl⟩ := List.mem_map.1 hrows
      refine List.pairwise_map.2 ?_
      rcases List.mem_append.1 hlife with hlife | hlife
      · exact hin.within life hlife
      · rw [List.mem_singleton.1 hlife]
        exact hin.ordered.increasing
    · simp [State.lives]
  have hlines := (hread.mono hrepeats).map Prod.snd
  rwa [List.map_map, List.map_map] at hlines

/-! ## Samples -/

/-- **The line of a sample**, as it is stored and read back. -/
def wire (cfg : GatewayConfig) (sample : WaterSample) : List UChar :=
  lineOf (uploaderConfig cfg) (rowOf (pipelineConfig cfg) sample)

/-- The lines of the ledger are those of the first table, and of samples
produced since. -/
theorem ledger_lines (hk : Kept cfg base s) :
    ((s.front base ++ s.pipeline.hist.written).map
      fun r => lineOf (uploaderConfig cfg) r.2).Sublist
      ((base.rows.map fun r => lineOf (uploaderConfig cfg) r.2) ++ s.produced.map (wire cfg)) := by
  obtain ⟨db₀, hrec⟩ := hk.recorded
  have hlife : ∀ life ∈ s.lives, life.Faithful (pipelineConfig cfg) := by
    intro life hlife
    rcases List.mem_append.1 hlife with hlife | hlife
    · exact hk.faithful life hlife
    · rw [List.mem_singleton.1 hlife]
      exact faithful_of_recorded hk.ordered hrec
  have hledger : s.front base ++ s.pipeline.hist.written =
      base.rows.map asInserted ++ s.lives.flatMap Life.written := by
    simp only [State.front, State.lives, State.life, List.flatMap_append, List.flatMap_singleton,
      List.append_assoc]
  rw [hledger, List.map_append, List.map_map]
  refine List.Sublist.append (List.Sublist.refl _) ?_
  have hall : ∀ lives : List Life, (∀ life ∈ lives, life.Faithful (pipelineConfig cfg)) →
      ((lives.flatMap Life.written).map Prod.snd).Sublist
        ((lives.flatMap Life.produced).map (rowOf (pipelineConfig cfg))) := by
    intro lives hlives
    induction lives with
    | nil => exact List.Sublist.refl _
    | cons life lives ih =>
      rw [List.flatMap_cons, List.flatMap_cons, List.map_append, List.map_append]
      exact (hlives life List.mem_cons_self).append
        (ih fun life' hmem => hlives life' (List.mem_cons_of_mem _ hmem))
  have hrows := (hall s.lives hlife).map (lineOf (uploaderConfig cfg))
  rwa [List.map_map, List.map_map] at hrows

/-- **The samples produced are those of the labels.** -/
theorem produced_exec (hk : Kept cfg base s) (h : Run.exec (step cfg) s ls = some s') :
    s'.produced = s.produced ++ ls.flatMap Label.acquired ∧
      s'.past.length = s.past.length + ls.count .restart := by
  induction ls generalizing s with
  | nil =>
    cases h
    exact ⟨(List.append_nil _).symm, rfl⟩
  | cons l ls ih =>
    obtain ⟨t, ht, hrest⟩ := Run.exec_cons_eq_some.1 h
    obtain ⟨hproduced, hpast⟩ := ih (hk.step ht) hrest
    have hhead : t.produced = s.produced ++ l.acquired ∧
        t.past.length = s.past.length + [l].count .restart := by
      cases moves_of_step ht with
      | pipeline l p hown hp =>
        obtain ⟨new, hadv⟩ := Pipeline.line_step hk.sound hp
        refine ⟨?_, by simp [State.withPipeline]⟩
        simp only [State.produced, State.lives, State.life, State.withPipeline,
          List.flatMap_append, List.flatMap_singleton, hadv.produced, List.map_append,
          hadv.samples, List.append_assoc, Label.acquired]
      | uploader l u henabled hown hu =>
        refine ⟨?_, by simp [State.withUploader]⟩
        simp only [State.produced, State.lives, State.life, State.withUploader,
          List.flatMap_append, List.flatMap_singleton, Label.acquired, List.append_nil]
      | setUpload => exact ⟨(List.append_nil _).symm, by simp⟩
      | joinUpload => exact ⟨(List.append_nil _).symm, by simp⟩
      | restart p hp =>
        obtain ⟨raw, store, -, -, -, -, rfl⟩ := Pipeline.init_cases hp
        refine ⟨?_, by simp [State.lives]⟩
        simp only [State.produced, State.lives, State.life, Pipeline.start, List.flatMap_append,
          List.flatMap_singleton, List.map_nil, Label.acquired]
    refine ⟨?_, ?_⟩
    · rw [hproduced, hhead.1, List.flatMap_cons, List.append_assoc]
    · rw [hpast, hhead.2, Nat.add_assoc, ← List.count_append, List.singleton_append]

/-- What the first start begins with. -/
theorem produced_of_init (h₀ : init w base = some s) (h : Run.exec (step cfg) s ls = some s') :
    s'.produced = ls.flatMap Label.acquired ∧ s'.past.length = ls.count .restart := by
  obtain ⟨hproduced, hpast⟩ := produced_exec (kept_init h₀) h
  have hnone : s.produced = [] ∧ s.past = [] := by
    rw [init, start, Option.map_eq_some_iff] at h₀
    obtain ⟨p, hp, rfl⟩ := h₀
    obtain ⟨raw, store, -, -, -, -, rfl⟩ := Pipeline.init_cases hp
    exact ⟨rfl, rfl⟩
  rw [hnone.1, List.nil_append] at hproduced
  rw [hnone.2, List.length_nil, Nat.zero_add] at hpast
  exact ⟨hproduced, hpast⟩

/-- **The gateway hands its samples over in order**: in every run, over
every interleaving of its threads and any number of starts, each of which
may come at any point, the lines handed over are those of the rows first in
the table and then of the samples produced, read from left to right; and no
line is read twice, but for one at each start. -/
theorem gateway_replays {s₀ : State w} (h₀ : init w base = some s₀)
    (hsql : ∀ l ∈ ls, l.uploadSqlOk = true) (h : Run.exec (step cfg) s₀ ls = some s)
    (hids : s.db.seq < 2 ^ 31) :
    Replay (ls.count .restart)
      ((base.rows.map fun r => lineOf (uploaderConfig cfg) r.2) ++
        (ls.flatMap Label.acquired).map (wire cfg))
      (s.handed.map Handover.line) := by
  obtain ⟨hk, hin⟩ := reachable h₀ hsql h
  obtain ⟨hproduced, hpast⟩ := produced_of_init h₀ h
  rw [← hproduced, ← hpast]
  exact (replay_ledger hk (hin hids)).trans_sublist (ledger_lines hk)

/-! ## A run -/

/-- The length of the line of the example sample, with the defaults. -/
def lineLength : ℤ := (wire Config.configSetDefault (Pipeline.exampleSample 1)).length

/-- A sample is produced, processed and stored. -/
def storeOne : List Label :=
  (Pipeline.collectOne 1 ++ Pipeline.processOne ++ Pipeline.insertOne).map .pipeline

/-- The uploader connects, reads a row and sends all of its line. -/
def sendOne : List Label :=
  (Uploader.connectAndQuery ++ Uploader.readOne ++ [Uploader.Label.send lineLength]).map
    .uploader

/-- A run of the labels that ends in `p`, from an empty table. -/
theorem exists_of_run (ls : List Label) (p : State 32 → Bool)
    (h : ((init 32 AutoTable.empty).any fun s₀ =>
      (Run.exec (step Config.configSetDefault) s₀ ls).any p) = true) :
    ∃ s₀ s : State 32, init 32 AutoTable.empty = some s₀ ∧
      Run.exec (step Config.configSetDefault) s₀ ls = some s ∧ p s = true := by
  obtain ⟨s₀, h₀, hrest⟩ := (Option.any_eq_true _ _).1 h
  obtain ⟨s, hs, hp⟩ := (Option.any_eq_true _ _).1 hrest
  exact ⟨s₀, s, h₀, hs, hp⟩

/-- The program is killed between the last send and the mark, and sends
the row again. -/
theorem gateway_replays_killed :
    ∃ s₀ s : State 32, init 32 AutoTable.empty = some s₀ ∧
      Run.exec (step Config.configSetDefault) s₀ (storeOne ++ sendOne ++ .restart :: sendOne) =
        some s ∧
      s.handed.map Handover.row = [1, 1] ∧
      Replay ((storeOne ++ sendOne ++ .restart :: sendOne).count .restart)
        (((AutoTable.empty : Samples).rows.map fun r =>
            lineOf (uploaderConfig Config.configSetDefault) r.2) ++
          ((storeOne ++ sendOne ++ .restart :: sendOne).flatMap Label.acquired).map
            (wire Config.configSetDefault))
        (s.handed.map Handover.line) := by
  obtain ⟨s₀, s, h₀, h, hp⟩ := exists_of_run (storeOne ++ sendOne ++ .restart :: sendOne)
    (fun s => decide (s.handed.map Handover.row = [1, 1] ∧ s.db.seq < 2 ^ 31))
    (by decide +kernel)
  obtain ⟨hrows, hids⟩ := of_decide_eq_true hp
  exact ⟨s₀, s, h₀, h, hrows, gateway_replays h₀ (by decide +kernel) h hids⟩

end Gateway

end WaterGateway
