import WaterGateway.Uploader.Moves

/-!
# The order of the uploads

A row is `Settled` when the uploader will not hand it over again: the
query no longer selects it, or its line does not fit the buffer. Behind
every row handed over all rows are settled, apart from the row itself
until it is marked; so the rows handed over have increasing `id`s.
-/

namespace WaterGateway

namespace Uploader

variable {w : ℕ} {cfg : Config} {s s' : State w} {l : Label} {ls : List Label}

/-- The row in hand, and the `int` its updates name it by. -/
def Pc.aim : Pc → Option (Stmt × ℤ)
  | .send _ stmt sampleId _ _ | .mark _ stmt sampleId | .incRetry _ stmt sampleId =>
    some (stmt, sampleId)
  | _ => none

/-- **The row in hand** is one the table has known, and is named by the low
32 bits of its `id`. -/
def Aimed (s : State w) : Prop :=
  ∀ stmt sampleId, s.pc.aim = some (stmt, sampleId) →
    stmt.last ≤ s.db.seq ∧ sampleId = Store.columnInt stmt.last

theorem aimed_init (db : Samples) : Aimed (init w db) := fun _ _ haim => nomatch haim

/-- No step takes an `id` back. -/
theorem seq_le_step (h : step cfg s l = some s') : s.db.seq ≤ s'.db.seq := by
  cases moves_of_step h with
  | marked => exact Nat.le_of_eq (Store.seq_updateRow _ _ _ _).symm
  | counted => exact Nat.le_of_eq (Store.seq_updateRow _ _ _ _).symm
  | inserted => exact Nat.le_succ _
  | trimmed maxCount pc a db hrows hseq => exact Nat.le_of_eq hseq.symm
  | idle | queried | tested | skipped | fetched | connected | connectFailed | sendFailed | sentSome
    | sentAll | shutdown | insertFailed | delivered | reset => exact Nat.le_refl _

theorem aim_of_busy {pc : Pc} (h : pc.busy = false) : pc.aim = none := by
  cases pc with
  | send | mark | incRetry => cases h
  | outer | connect | query | inner | read | finalize | drainTest | closing | stopped => rfl

/-- **The row in hand after a step** was in hand before it, or the step has
read it. -/
theorem aim_before (hstep : step cfg s l = some s') {stmt : Stmt} {sampleId : ℤ}
    (haim : s'.pc.aim = some (stmt, sampleId)) :
    s.pc.aim = some (stmt, sampleId) ∨ (sampleId = Store.columnInt stmt.last ∧ s'.db = s.db ∧
      ∃ b, (stmt.last, b) ∈ s.db.rows ∧ eligible cfg b = true) := by
  have hnone : s'.pc.aim = none → s.pc.aim = some (stmt, sampleId) := fun hpc => by
    rw [hpc] at haim
    cases haim
  cases moves_of_step hstep with
  | idle l pc hl hs hpc => exact Or.inl (hnone (aim_of_busy (busy_of_idle hpc)))
  | queried loop | skipped loop | marked a loop => cases loop <;> exact Or.inl (hnone rfl)
  | tested | counted | connected | connectFailed => exact Or.inl (hnone rfl)
  | fetched loop stmt' hasData k b hpc hfetch hshort =>
    cases haim
    obtain ⟨hrow, -, hel, -⟩ := fetch_eq_some hfetch
    exact Or.inr ⟨rfl, rfl, b, hrow, hel⟩
  | sendFailed r loop stmt' sampleId' line sent net hpc => exact Or.inl (by rw [hpc]; exact haim)
  | sentSome r loop stmt' sampleId' line sent i c hpc => exact Or.inl (by rw [hpc]; exact haim)
  | sentAll r loop stmt' sampleId' line sent i c hpc => exact Or.inl (by rw [hpc]; exact haim)
  | shutdown | inserted | insertFailed | trimmed | delivered | reset => exact Or.inl haim

theorem Aimed.step (h : Aimed s) (hstep : step cfg s l = some s') : Aimed s' := by
  intro stmt sampleId haim
  obtain hbefore | ⟨hid, hdb, b, hb, -⟩ := aim_before hstep haim
  · obtain ⟨hle, hid⟩ := h stmt sampleId hbefore
    exact ⟨hle.trans (seq_le_step hstep), hid⟩
  · rw [hdb]
    exact ⟨s.db.le_seq _ hb, hid⟩

/-- **The row in hand is named by its own `id`.** -/
def Named (s : State w) : Prop :=
  ∀ stmt sampleId, s.pc.aim = some (stmt, sampleId) → sampleId = stmt.last

/-- It is, where all `id`s are `int`s. -/
theorem Aimed.named (h : Aimed s) (hids : s.db.seq < 2 ^ 31) : Named s := by
  intro stmt sampleId haim
  obtain ⟨hle, hid⟩ := h stmt sampleId haim
  rw [hid, Store.columnInt_of_lt (Nat.lt_of_le_of_lt hle hids)]

/-- The query no longer selects the row, or its line is too long. -/
def Settled (cfg : Config) (b : Record) : Prop :=
  eligible cfg b = true → jsonSize ≤ (lineOf cfg b).length

/-- Up to every row handed over, all rows are settled. -/
def Behind (cfg : Config) (s : State w) : Prop :=
  ∀ h ∈ s.handed, ∀ r ∈ s.db.rows, r.1 ≤ h.row → Settled cfg r.2

/-- **How far the rows are settled**, at every point of the thread. -/
def Covered (cfg : Config) (s : State w) : Prop :=
  match s.pc with
  | .inner stmt _ | .read _ stmt _ =>
    stmt.last ≤ s.db.seq ∧ Behind cfg s ∧ ∀ r ∈ s.db.rows, r.1 ≤ stmt.last → Settled cfg r.2
  | .send _ stmt _ _ _ | .incRetry _ stmt _ =>
    (∀ h ∈ s.handed, h.row < stmt.last) ∧ ∀ r ∈ s.db.rows, r.1 < stmt.last → Settled cfg r.2
  | .mark _ stmt _ =>
    (∀ h ∈ s.handed, h.row ≤ stmt.last) ∧ ∀ r ∈ s.db.rows, r.1 < stmt.last → Settled cfg r.2
  | _ => Behind cfg s

/-- What the record of the lines handed over keeps. -/
structure Ordered (cfg : Config) (s : State w) : Prop where
  increasing : s.handed.Pairwise fun h h' => h.row < h'.row
  known : ∀ h ∈ s.handed, h.row ≤ s.db.seq
  aimed : Aimed s
  covered : Covered cfg s

/-- A statement of the store thread leaves the rows that are there as they
are. -/
theorem Ordered.of_world {db : Samples} {net : List (Link UChar)} {shutdown : Bool}
    (h : Ordered cfg s) (hseq : s.db.seq ≤ db.seq)
    (hrows : ∀ r ∈ db.rows, r.1 ≤ s.db.seq → r ∈ s.db.rows) :
    Ordered cfg { s with shutdown := shutdown, db := db, net := net } := by
  obtain ⟨hinc, hknown, haimed, hcov⟩ := h
  have hbehind : Behind cfg s → ∀ h ∈ s.handed, ∀ r ∈ db.rows, r.1 ≤ h.row → Settled cfg r.2 :=
    fun hb h hh r hr hle => hb h hh r (hrows r hr (hle.trans (hknown h hh))) hle
  refine ⟨hinc, fun h hh => (hknown h hh).trans hseq,
    fun stmt sampleId haim => ⟨(haimed stmt sampleId haim).1.trans hseq,
      (haimed stmt sampleId haim).2⟩, ?_⟩
  unfold Covered at hcov ⊢
  cases hpc : s.pc with
  | inner stmt hasData | read loop stmt hasData =>
    rw [hpc] at hcov
    obtain ⟨hlast, hb, hset⟩ := hcov
    exact ⟨hlast.trans hseq, hbehind hb, fun r hr hle => hset r (hrows r hr (hle.trans hlast)) hle⟩
  | send loop stmt sampleId line sent | incRetry loop stmt sampleId | mark loop stmt sampleId =>
    rw [hpc] at hcov
    obtain ⟨hlast, -⟩ := haimed stmt sampleId (by rw [hpc]; rfl)
    exact ⟨hcov.1, fun r hr hlt => hcov.2 r (hrows r hr (hlt.le.trans hlast)) hlt⟩
  | outer | connect | query | finalize | drainTest | closing | stopped =>
    rw [hpc] at hcov
    exact hbehind hcov

/-- What is settled at a known point. -/
theorem Covered.at_pc (h : Covered cfg s) {pc : Pc} (hpc : s.pc = pc) :
    Covered cfg { s with pc := pc } := by
  subst hpc
  exact h

theorem Covered.behind (h : Covered cfg s) (hpc : s.pc.busy = false) : Behind cfg s := by
  unfold Covered at h
  cases hs : s.pc with
  | inner stmt hasData | read loop stmt hasData =>
    rw [hs] at h
    exact h.2.1
  | send | mark | incRetry =>
    rw [hs] at hpc
    cases hpc
  | outer | connect | query | finalize | drainTest | closing | stopped =>
    rw [hs] at h
    exact h

/-- At a point without a cursor nothing else is asked. -/
theorem covered_of_idle (hpc : s.pc.idle = true) (h : Behind cfg s) : Covered cfg s := by
  unfold Covered
  cases hs : s.pc with
  | inner | read | send | mark | incRetry =>
    rw [hs] at hpc
    cases hpc
  | outer | connect | query | finalize | drainTest | closing | stopped => exact h

/-- The inner loop goes on behind rows that are settled. -/
theorem covered_again {loop : Loop} {stmt : Stmt} (hpc : s.pc = again loop stmt)
    (hlast : stmt.last ≤ s.db.seq) (hb : Behind cfg s)
    (hset : ∀ r ∈ s.db.rows, r.1 ≤ stmt.last → Settled cfg r.2) : Covered cfg s := by
  unfold Covered
  cases loop <;> rw [hpc] <;> exact ⟨hlast, hb, hset⟩

/-- Rows the cursor has passed over are settled up to the one it is on. -/
theorem settled_of_fetch {stmt : Stmt} {k : ℕ} {b : Record}
    (hset : ∀ r ∈ s.db.rows, r.1 ≤ stmt.last → Settled cfg r.2)
    (hfetch : fetch cfg s.db stmt = some (k, b)) {r : ℕ × Record} (hr : r ∈ s.db.rows)
    (hlt : r.1 < k) : Settled cfg r.2 := by
  obtain ⟨-, -, -, hmin⟩ := fetch_eq_some hfetch
  rcases Nat.lt_or_ge stmt.last r.1 with hpast | hle
  · intro hel
    exact absurd (hmin r hr hpast hel) (Nat.not_le_of_lt hlt)
  · exact hset r hr hle

theorem Ordered.step (hord : Ordered cfg s) (hl : l.sqlOk = true) (hids : s.db.seq < 2 ^ 31)
    (h : step cfg s l = some s') : Ordered cfg s' := by
  have haimed : Aimed s' := hord.aimed.step h
  cases moves_of_step h with
  | idle l pc hl' hs hpc =>
    exact ⟨hord.increasing, hord.known, haimed, covered_of_idle hpc (hord.covered.behind hs)⟩
  | queried loop hpc =>
    have hb : Behind cfg s := hord.covered.behind (by rw [hpc]; rfl)
    have hnone : ∀ r ∈ s.db.rows, r.1 ≤ (query cfg).last → Settled cfg r.2 := fun r hr hle =>
      absurd (s.db.pos r hr) (Nat.not_lt_of_le hle)
    refine ⟨hord.increasing, hord.known, haimed, ?_⟩
    cases loop <;> exact ⟨Nat.zero_le _, hb, hnone⟩
  | tested stmt hasData hpc =>
    have hcov := hord.covered.at_pc hpc
    exact ⟨hord.increasing, hord.known, haimed, hcov⟩
  | skipped loop stmt hasData k b hpc hfetch hlong =>
    obtain ⟨-, hb, hset⟩ := hord.covered.at_pc hpc
    obtain ⟨hrow, -, -, -⟩ := fetch_eq_some hfetch
    refine ⟨hord.increasing, hord.known, haimed, covered_again rfl (s.db.le_seq _ hrow) hb ?_⟩
    intro r hr hle
    rcases Nat.lt_or_eq_of_le hle with hlt | heq
    · exact settled_of_fetch hset hfetch hr hlt
    · obtain ⟨k', b'⟩ := r
      obtain rfl : k' = k := heq
      obtain rfl : b' = b := AutoTable.row_unique hr hrow
      exact fun _ => hlong
  | fetched loop stmt hasData k b hpc hfetch hshort =>
    obtain ⟨-, hb, hset⟩ := hord.covered.at_pc hpc
    obtain ⟨hrow, -, hel, -⟩ := fetch_eq_some hfetch
    refine ⟨hord.increasing, hord.known, haimed, ?_, ?_⟩
    · intro hd hhd
      -- a row handed over before is ahead of all the cursor still selects
      by_contra hle
      exact absurd (hb hd hhd _ hrow (Nat.le_of_not_lt hle) hel) (Nat.not_le_of_lt hshort)
    · exact fun r hr hlt => settled_of_fetch hset hfetch hr hlt
  | marked a loop stmt sampleId hpc =>
    obtain rfl : a = .ok := of_decide_eq_true hl
    obtain ⟨hall, hset⟩ := hord.covered.at_pc hpc
    obtain ⟨hlast, -⟩ := hord.aimed stmt sampleId (by rw [hpc]; rfl)
    have hid : sampleId = stmt.last := hord.aimed.named hids stmt sampleId (by rw [hpc]; rfl)
    -- the row that was sent is marked, and so is settled like those before it
    have hset' : ∀ r ∈ (Store.sqliteStoreMarkUploaded s.db sampleId .ok).1.rows,
        r.1 ≤ stmt.last → Settled cfg r.2 := by
      rintro ⟨k, b⟩ hr hle
      obtain ⟨b₀, hb₀, rfl⟩ := Store.mem_updateRow_ok.1 hr
      split
      · exact fun hel => by simp [eligible] at hel
      · next hne =>
        refine hset _ hb₀ (Nat.lt_of_le_of_ne hle ?_)
        intro heq
        exact hne (by rw [hid, show k = stmt.last from heq])
    exact ⟨hord.increasing, hord.known, haimed, covered_again rfl hlast
      (fun h hh r hr hle => hset' r hr (hle.trans (hall h hh))) hset'⟩
  | counted a loop stmt sampleId connected sock hpc hsock =>
    obtain rfl : a = .ok := of_decide_eq_true hl
    obtain ⟨hall, hset⟩ := hord.covered.at_pc hpc
    have hid : sampleId = stmt.last := hord.aimed.named hids stmt sampleId (by rw [hpc]; rfl)
    refine ⟨hord.increasing, hord.known, haimed, covered_of_idle rfl ?_⟩
    rintro h hh ⟨k, b⟩ hr hle
    have hlt : k < stmt.last := Nat.lt_of_le_of_lt hle (hall h hh)
    obtain ⟨b₀, hb₀, rfl⟩ := Store.mem_updateRow_ok.1 hr
    rw [if_neg (by omega)]
    exact hset _ hb₀ hlt
  | connected hpc =>
    exact ⟨hord.increasing, hord.known, haimed, hord.covered.behind (by rw [hpc]; rfl)⟩
  | connectFailed hpc =>
    exact ⟨hord.increasing, hord.known, haimed, hord.covered.behind (by rw [hpc]; rfl)⟩
  | sendFailed r loop stmt sampleId line sent net hpc hr hnet =>
    have hcov := hord.covered.at_pc hpc
    exact ⟨hord.increasing, hord.known, haimed, hcov⟩
  | sentSome r loop stmt sampleId line sent i c hpc hr hlink hopen hsent =>
    have hcov := hord.covered.at_pc hpc
    exact ⟨hord.increasing, hord.known, haimed, hcov⟩
  | sentAll r loop stmt sampleId line sent i c hpc hr hlink hopen hsent =>
    obtain ⟨hall, hset⟩ := hord.covered.at_pc hpc
    obtain ⟨hlast, -⟩ := hord.aimed stmt sampleId (by rw [hpc]; rfl)
    refine ⟨?_, ?_, haimed, ?_, hset⟩
    · refine List.pairwise_append.2 ⟨hord.increasing, List.pairwise_singleton _ _, ?_⟩
      intro hd hhd hd' hhd'
      rw [List.mem_singleton.1 hhd']
      exact hall hd hhd
    · intro hd hhd
      rcases List.mem_append.1 hhd with hhd | hhd
      · exact hord.known hd hhd
      · rw [List.mem_singleton.1 hhd]
        exact hlast
    · intro hd hhd
      rcases List.mem_append.1 hhd with hhd | hhd
      · exact (hall hd hhd).le
      · obtain rfl := List.mem_singleton.1 hhd
        exact Nat.le_refl _
  | shutdown => exact hord.of_world (Nat.le_refl _) fun r hr _ => hr
  | inserted deviceId sample a =>
    refine hord.of_world (Nat.le_succ _) fun r hr hle => ?_
    rcases AutoTable.mem_insert.1 hr with hr | rfl
    · exact hr
    · exact absurd hle (Nat.not_succ_le_self _)
  | insertFailed => exact hord
  | trimmed maxCount pc a db hrows hseq =>
    exact hord.of_world (Nat.le_of_eq hseq.symm) fun r hr _ => hrows.subset hr
  | delivered i n => exact hord.of_world (Nat.le_refl _) fun r hr _ => hr
  | reset i => exact hord.of_world (Nat.le_refl _) fun r hr _ => hr

/-! ## Runs -/

theorem ordered_exec (hord : Ordered cfg s) (hls : ∀ l ∈ ls, l.sqlOk = true)
    (h : Run.exec (step cfg) s ls = some s') (hids : s'.db.seq < 2 ^ 31) : Ordered cfg s' := by
  refine Run.exec_invariant_along (I := fun t => t.db.seq < 2 ^ 31 → Ordered cfg t)
    (C := fun _ l => l.sqlOk = true) ?_ (fun _ => hord) (Run.along_of_forall hls s) h hids
  intro t l t' hI hl ht hids'
  have hids'' : t.db.seq < 2 ^ 31 := Nat.lt_of_le_of_lt (seq_le_step ht) hids'
  exact (hI hids'').step hl hids'' ht

theorem ordered_init (db : Samples) : Ordered cfg (init w db) where
  increasing := List.Pairwise.nil
  known := fun _ hh => nomatch hh
  aimed := aimed_init db
  covered := fun _ hh => nomatch hh

/-- **A flag is set by a mark**, of the row in hand or of one that shares
the low 32 bits of its `id`. -/
theorem flag_step (haimed : Aimed s) (h : step cfg s l = some s') {k : ℕ} {b b' : Record}
    (hb : (k, b) ∈ s.db.rows) (hb' : (k, b') ∈ s'.db.rows) (hclear : b.uploaded ≠ 1)
    (hset : b'.uploaded = 1) :
    ∃ loop stmt sampleId, s.pc = .mark loop stmt sampleId ∧ Store.columnInt stmt.last = k := by
  obtain rfl | ⟨loop, stmt, sampleId, hpc, -, hk, -⟩ | ⟨-, -, -, -, -, -, rfl⟩ := row_step h hb hb'
  · exact absurd hset hclear
  · obtain ⟨-, hid⟩ := haimed stmt sampleId (by rw [hpc]; rfl)
    exact ⟨loop, stmt, sampleId, hpc, by rw [← hid, hk]⟩
  · -- a try that is counted leaves the flag
    exact absurd hset hclear

/-- The run ends with the send that hands row `k` over, and then steps of
the world only. -/
def EndsInHandover (cfg : Config) (s₀ : State w) (ls : List Label) (k : ℕ) : Prop :=
  ∃ (before : List Label) (r : ℤ) (world : List Label) (t t' : State w) (h : Handover),
    ls = before ++ .send r :: world ∧ Run.exec (step cfg) s₀ before = some t ∧
      step cfg t (.send r) = some t' ∧ t'.handed = t.handed ++ [h] ∧ h.row = k ∧
      ∀ l ∈ world, l.world = true

/-- **A row about to be marked has just been handed over.** -/
theorem endsInHandover_of_mark {s₀ : State w} {loop : Loop} {stmt : Stmt} {sampleId : ℤ}
    (h₀ : s₀.pc = .outer) (h : Run.exec (step cfg) s₀ ls = some s)
    (hpc : s.pc = .mark loop stmt sampleId) : EndsInHandover cfg s₀ ls stmt.last := by
  have hstart : ¬ s₀.pc = .mark loop stmt sampleId := by
    rw [h₀]
    exact Pc.noConfusion
  -- a step of the world leaves the thread where it is
  obtain ⟨before, l, world, t, t', rfl, ht, ht', ⟨r, i, line, rfl, hhanded⟩, hworld⟩ :=
    Run.exec_last (Q := fun t : State w => t.pc = .mark loop stmt sampleId)
      (W := fun l => l.world = true)
      (E := fun t l t' => ∃ r i line, l = .send r ∧ t'.handed = t.handed ++ [⟨stmt.last, i, line⟩])
      (fun _ _ _ hstep hQ => mark_before hstep hQ) hstart h hpc
  exact ⟨before, r, world, t, t', _, rfl, ht, ht', hhanded, rfl, hworld⟩

/-- **What a run of the uploader owes**: the rows handed over have
strictly increasing `id`s, and a step that sets the flag of a row is the
one right after the send that handed the row over. -/
structure UploadsInOrder (cfg : Config) (s₀ : State w) (ls : List Label) (s : State w) : Prop where
  increasing : (s.handed.map Handover.row).Pairwise (· < ·)
  flagged : ∀ before l after t t', ls = before ++ l :: after →
    Run.exec (step cfg) s₀ before = some t → step cfg t l = some t' →
    ∀ k b b', (k, b) ∈ t.db.rows → (k, b') ∈ t'.db.rows → b.uploaded ≠ 1 → b'.uploaded = 1 →
      EndsInHandover cfg s₀ before k

/-- **Rows are uploaded in order, and marked exactly when handed over**, in
every run from the start of the thread whose SQL statements succeed. -/
theorem uploads_in_order {db : Samples} (hls : ∀ l ∈ ls, l.sqlOk = true)
    (h : Run.exec (step cfg) (init w db) ls = some s) (hids : s.db.seq < 2 ^ 31) :
    UploadsInOrder cfg (init w db) ls s := by
  refine ⟨List.pairwise_map.2 (ordered_exec (ordered_init db) hls h hids).increasing, ?_⟩
  rintro before l after t t' rfl ht ht' k b b' hb hb' hclear hset
  obtain ⟨u, hu, hrest⟩ := Run.exec_append_eq_some.1 h
  obtain rfl : u = t := Option.some.inj (hu.symm.trans ht)
  have hids' : u.db.seq < 2 ^ 31 := by
    have hmono : u.db.seq ≤ s.db.seq := Run.exec_relates
      (R := fun a b : State w => a.db.seq ≤ b.db.seq) (fun _ => Nat.le_refl _) Nat.le_trans
      (fun a l b => seq_le_step) hrest
    exact Nat.lt_of_le_of_lt hmono hids
  have hord := ordered_exec (ordered_init db)
    (fun l' hl' => hls l' (List.mem_append_left _ hl')) ht hids'
  obtain ⟨loop, stmt, sampleId, hpc, hrow⟩ := flag_step hord.aimed ht' hb hb' hclear hset
  obtain ⟨hlast, -⟩ := hord.aimed stmt sampleId (by rw [hpc]; rfl)
  rw [Store.columnInt_of_lt (Nat.lt_of_le_of_lt hlast hids')] at hrow
  obtain rfl : stmt.last = k := by omega
  exact endsInHandover_of_mark rfl ht hpc

/-! ## A run -/

/-- A device with batches of 20 and 3 tries. -/
def exampleConfig : Config := ⟨bytes "gw-001", 20, 3⟩

/-- The row of the registers `0, 0, 0, 0, 0, 0, n`. -/
def exampleRecord (n : UInt) : Record :=
  Store.recordOf (bytes "gw-001") ⟨0, ⟨0⟩, ⟨0⟩, ⟨0⟩, ⟨0⟩, 0, 0, n⟩

/-- A table of two rows. -/
def twoRows : Samples := (AutoTable.empty.insert (exampleRecord 1)).insert (exampleRecord 2)

/-- The length of the line of either. -/
def lineLength : ℤ := (lineOf exampleConfig (exampleRecord 1)).length

/-- The thread connects and asks for a batch. -/
def connectAndQuery : List Label := [.tau, .connect true, .sql .ok]

/-- It reads a row in its main loop. -/
def readOne : List Label := [.tau, .sql .ok]

/-- It hands the row over, in two pieces, and marks it. -/
def sendOne : List Label := [.send 100, .send (lineLength - 100), .sql .ok]

/-- Two rows, one after the other. -/
theorem uploads_in_order_two :
    ∃ s : State 32, Run.exec (step exampleConfig) (init 32 twoRows)
        (connectAndQuery ++ readOne ++ sendOne ++ readOne ++ sendOne) = some s ∧
      s.handed.map Handover.row = [1, 2] ∧
      UploadsInOrder exampleConfig (init 32 twoRows)
        (connectAndQuery ++ readOne ++ sendOne ++ readOne ++ sendOne) s := by
  obtain ⟨s, h, hrows, hids⟩ := Run.exists_of_exec (step exampleConfig) (init 32 twoRows)
    (connectAndQuery ++ readOne ++ sendOne ++ readOne ++ sendOne)
    (fun s => s.handed.map Handover.row = [1, 2] ∧ s.db.seq < 2 ^ 31) (by decide +kernel)
  exact ⟨s, h, hrows, uploads_in_order (by decide +kernel) h hids⟩

end Uploader

end WaterGateway
