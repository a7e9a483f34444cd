import WaterGateway.Uploader.Order

/-!
# The row in hand

Between the read of a row and the end of its handling the store thread may
insert and trim, but nobody else touches the row's status; so the row that
is marked, or whose try is counted, is one the query selects. `row_step`
says what one step does to a row. A status update names its row by an
`int`, and hits it exactly when the `id` is one.
-/

namespace WaterGateway

namespace Uploader

variable {w : ℕ} {cfg : Config} {s s' : State w} {l : Label} {ls : List Label}

/-- **The row in hand**, while it is in the table, is one the query
selects. -/
def Held (cfg : Config) (s : State w) : Prop :=
  ∀ stmt sampleId, s.pc.aim = some (stmt, sampleId) →
    ∀ b, (stmt.last, b) ∈ s.db.rows → eligible cfg b = true

theorem held_init (db : Samples) : Held cfg (init w db) := fun _ _ haim => nomatch haim

theorem Held.step (h : Held cfg s) (haimed : Aimed s) (hstep : step cfg s l = some s') :
    Held cfg s' := by
  have hnone : s'.pc.aim = none → Held cfg s' := fun hpc stmt sampleId haim => by
    rw [hpc] at haim
    cases haim
  have hkeep : s'.pc.aim = s.pc.aim →
      (∀ r ∈ s'.db.rows, r.1 ≤ s.db.seq → r ∈ s.db.rows) → Held cfg s' := by
    intro hpc hrows stmt sampleId haim b hb
    rw [hpc] at haim
    exact h stmt sampleId haim b (hrows _ hb (haimed stmt sampleId haim).1)
  cases moves_of_step hstep with
  | idle l pc hl hs hpc => exact hnone (aim_of_busy (busy_of_idle hpc))
  | queried loop | skipped loop | marked a loop => cases loop <;> exact hnone rfl
  | tested | counted | connected | connectFailed => exact hnone rfl
  | fetched loop stmt hasData k b hpc hfetch hshort =>
    intro stmt' sampleId haim b' hb'
    cases haim
    obtain ⟨hrow, -, hel, -⟩ := fetch_eq_some hfetch
    obtain rfl := AutoTable.row_unique hb' hrow
    exact hel
  | sendFailed r loop stmt sampleId line sent net hpc =>
    exact hkeep (by rw [hpc]; rfl) fun r hr _ => hr
  | sentSome r loop stmt sampleId line sent i c hpc =>
    exact hkeep (by rw [hpc]; rfl) fun r hr _ => hr
  | sentAll r loop stmt sampleId line sent i c hpc =>
    exact hkeep (by rw [hpc]; rfl) fun r hr _ => hr
  | shutdown | insertFailed | delivered | reset => exact hkeep rfl fun r hr _ => hr
  | inserted deviceId sample a =>
    refine hkeep rfl fun r hr hle => ?_
    rcases AutoTable.mem_insert.1 hr with hr | rfl
    · exact hr
    · exact absurd hle (Nat.not_succ_le_self _)
  | trimmed maxCount pc a db hrows hseq => exact hkeep rfl fun r hr _ => hrows.subset hr

/-- **The row in hand is in the table.** -/
def Present (s : State w) : Prop :=
  ∀ stmt sampleId, s.pc.aim = some (stmt, sampleId) → ∃ b, (stmt.last, b) ∈ s.db.rows

/-- It is, as long as no row is taken away. -/
theorem Present.step (h : Present s) (hstep : step cfg s l = some s')
    (hrows : ∀ r ∈ s.db.rows, ∃ b, (r.1, b) ∈ s'.db.rows) : Present s' := by
  intro stmt sampleId haim
  obtain hbefore | ⟨-, hdb, b, hb, -⟩ := aim_before hstep haim
  · obtain ⟨b, hb⟩ := h stmt sampleId hbefore
    exact hrows _ hb
  · exact ⟨b, hdb ▸ hb⟩

theorem tracked_exec {db : Samples} (h : Run.exec (step cfg) (init w db) ls = some s) :
    Aimed s ∧ Held cfg s :=
  Run.exec_invariant (I := fun t : State w => Aimed t ∧ Held cfg t)
    (fun _ _ _ hI ht => ⟨hI.1.step ht, hI.2.step hI.1 ht⟩) ⟨aimed_init db, held_init db⟩ h

/-! ## What a step does to a row -/

/-- **What a step does to a row, where the row in hand is named by its
`id`**: only that row is changed, and the query selects it. -/
theorem status_step (hnamed : Named s) (hheld : Held cfg s) (h : step cfg s l = some s') {k : ℕ}
    {b b' : Record} (hb : (k, b) ∈ s.db.rows) (hb' : (k, b') ∈ s'.db.rows) :
    b' = b ∨ (eligible cfg b = true ∧
      ((∃ loop stmt sampleId, s.pc = .mark loop stmt sampleId ∧ stmt.last = k ∧
        b' = { b with uploaded := 1 }) ∨
      ∃ loop stmt sampleId, s.pc = .incRetry loop stmt sampleId ∧ stmt.last = k ∧
        b' = { b with uploadRetry := b.uploadRetry + 1 })) := by
  have hhand : ∀ {stmt : Stmt} {sampleId : ℤ}, s.pc.aim = some (stmt, sampleId) →
      (k : ℤ) = sampleId → stmt.last = k ∧ eligible cfg b = true := by
    intro stmt sampleId haim hk
    have hid : sampleId = stmt.last := hnamed stmt sampleId haim
    obtain rfl : stmt.last = k := by omega
    exact ⟨rfl, hheld stmt sampleId haim b hb⟩
  obtain hsame | ⟨loop, stmt, sampleId, hpc, -, hk, heq⟩ |
    ⟨loop, stmt, sampleId, hpc, -, hk, heq⟩ := row_step h hb hb'
  · exact Or.inl hsame
  · obtain ⟨hlast, hel⟩ := hhand (by rw [hpc]; rfl) hk
    exact Or.inr ⟨hel, Or.inl ⟨loop, stmt, sampleId, hpc, hlast, heq⟩⟩
  · obtain ⟨hlast, hel⟩ := hhand (by rw [hpc]; rfl) hk
    exact Or.inr ⟨hel, Or.inr ⟨loop, stmt, sampleId, hpc, hlast, heq⟩⟩

/-- A row the query selects is not uploaded. -/
theorem uploaded_of_eligible {b : Record} (h : eligible cfg b = true) :
    b.uploaded = 0 ∧ b.uploadRetry < cfg.retryMax := by
  simpa [eligible] using h

/-! ## The row a status update hits -/

/-- The status update the thread is about to make: of which row, and what
it does to a row. -/
def Pc.update : Pc → Option (Stmt × (Record → Record))
  | .mark _ stmt _ => some (stmt, fun b => { b with uploaded := 1 })
  | .incRetry _ stmt _ => some (stmt, fun b => { b with uploadRetry := b.uploadRetry + 1 })
  | _ => none

/-- **A status update hits its row**: that row is changed, and no other. -/
def StatusHits (cfg : Config) (s : State w) (l : Label) : Prop :=
  ∀ stmt f a s', s.pc.update = some (stmt, f) → l = .sql a → step cfg s l = some s' →
    s'.db = s.db.modify (fun k => k = stmt.last) f

/-- **The update can hit**: the statement succeeds and the `id` of the row
is an `int`; or the row has been trimmed, and the `int` is no `id` of a row
that would be changed. -/
def UpdateFits (s : State w) (l : Label) : Prop :=
  ∀ stmt f a, s.pc.update = some (stmt, f) → l = .sql a →
    (a = .ok ∧ stmt.last < 2 ^ 31) ∨
      ((∀ b, (stmt.last, b) ∉ s.db.rows) ∧
        (a = .ok → ∀ r ∈ s.db.rows, (r.1 : ℤ) = Store.columnInt stmt.last → f r.2 = r.2))

variable {stmt : Stmt} {f : Record → Record}

/-- The statement of a status update names its row by the `int`. -/
theorem update_step (cfg : Config) (h : s.pc.update = some (stmt, f)) (a : SqlAnswer) :
    ∃ sampleId s', s.pc.aim = some (stmt, sampleId) ∧ step cfg s (.sql a) = some s' ∧
      s'.db = (Store.updateRow s.db sampleId f a).1 := by
  unfold step sqlStep
  cases hpc : s.pc with
  | mark loop stmt' sampleId =>
    rw [hpc] at h
    cases h
    exact ⟨sampleId, _, rfl, rfl, rfl⟩
  | incRetry loop stmt' sampleId =>
    rw [hpc] at h
    cases h
    cases loop <;> exact ⟨sampleId, _, rfl, rfl, rfl⟩
  | outer | connect | query | inner | read | send | finalize | drainTest | closing | stopped =>
    rw [hpc] at h
    cases h

/-- A row the query selects is changed by either update. -/
theorem update_ne (h : s.pc.update = some (stmt, f)) {b : Record} (hb : eligible cfg b = true) :
    f b ≠ b := by
  have hzero : b.uploaded = 0 := (uploaded_of_eligible hb).1
  intro heq
  cases hpc : s.pc with
  | mark loop stmt' sampleId =>
    rw [hpc] at h
    cases h
    have hflag : (1 : ℤ) = b.uploaded := congrArg Record.uploaded heq
    omega
  | incRetry loop stmt' sampleId =>
    rw [hpc] at h
    cases h
    have hretry : b.uploadRetry + 1 = b.uploadRetry := congrArg Record.uploadRetry heq
    omega
  | outer | connect | query | inner | read | send | finalize | drainTest | closing | stopped =>
    rw [hpc] at h
    cases h

/-- An `id` survives the way to the program and back exactly when it is an
`int`. -/
theorem columnInt_eq_iff {k : ℕ} : Store.columnInt k = k ↔ k < 2 ^ 31 := by
  refine ⟨fun h => ?_, Store.columnInt_of_lt⟩
  obtain ⟨-, hlt, -⟩ := Store.columnInt_spec k
  omega

/-- **What the narrowed update leaves**, against the update of the row. -/
theorem updateRow_eq_modify_iff {db : Samples} {k : ℕ} {a : SqlAnswer}
    (hchanges : ∀ b, (k, b) ∈ db.rows → f b ≠ b) :
    (Store.updateRow db (Store.columnInt k) f a).1 = db.modify (fun j => j = k) f ↔
      (a = .ok ∧ k < 2 ^ 31) ∨ ((∀ b, (k, b) ∉ db.rows) ∧
        (a = .ok → ∀ r ∈ db.rows, (r.1 : ℤ) = Store.columnInt k → f r.2 = r.2)) := by
  by_cases ha : a = .ok
  · subst ha
    rw [Store.updateRow_ok, AutoTable.modify_eq_modify_iff]
    by_cases hk : k < 2 ^ 31
    · refine iff_of_true (fun r hr hdiff => absurd ?_ hdiff) (Or.inl ⟨rfl, hk⟩)
      simp [Store.columnInt_of_lt hk]
    · have hne : Store.columnInt k ≠ k := fun heq => hk (columnInt_eq_iff.1 heq)
      simp only [hk, and_false, false_or, true_implies]
      constructor
      · intro h
        refine ⟨fun b hb => hchanges b hb (h _ hb ?_), fun r hr hid => h r hr ?_⟩
        · simpa using hne.symm
        · have hrow : r.1 ≠ k := fun heq => hne (by rw [← hid, heq])
          simp [hid, hrow]
      · rintro ⟨hgone, hsame⟩ r hr hdiff
        have hrow : r.1 ≠ k := fun heq => hgone r.2 (heq ▸ hr)
        refine hsame r hr ?_
        simpa [hrow] using hdiff
  · -- the table stays as it is, which is right only if the row is gone
    have hid : (Store.updateRow db (Store.columnInt k) f a).1 = db.modify (fun _ => false) f := by
      rw [Store.updateRow, if_neg ha, AutoTable.modify_false]
    rw [hid, AutoTable.modify_eq_modify_iff]
    simp only [ha, false_and, false_or, false_implies, and_true]
    constructor
    · intro h b hb
      exact hchanges b hb (h _ hb (by simp))
    · intro hgone r hr hdiff
      have hrow : r.1 = k := by simpa using hdiff
      exact absurd (hrow ▸ hr) (hgone r.2)

/-- **A step hits its row exactly where the update fits.** -/
theorem statusHits_iff_step (haimed : Aimed s) (hheld : Held cfg s) (l : Label) :
    StatusHits cfg s l ↔ UpdateFits s l := by
  refine forall₃_congr fun stmt f a => ?_
  have hiff : ∀ (hu : s.pc.update = some (stmt, f)) (hl : l = .sql a),
      (∀ s', step cfg s l = some s' → s'.db = s.db.modify (fun k => k = stmt.last) f) ↔
        (a = .ok ∧ stmt.last < 2 ^ 31) ∨ ((∀ b, (stmt.last, b) ∉ s.db.rows) ∧
          (a = .ok → ∀ r ∈ s.db.rows, (r.1 : ℤ) = Store.columnInt stmt.last → f r.2 = r.2)) := by
    rintro hu rfl
    obtain ⟨sampleId, s', haim, hstep, hdb⟩ := update_step cfg hu a
    rw [(haimed stmt sampleId haim).2] at hdb
    rw [← updateRow_eq_modify_iff fun b hb => update_ne hu (hheld stmt sampleId haim b hb), ← hdb]
    constructor
    · exact fun h => h s' hstep
    · intro h t ht
      obtain rfl : s' = t := Option.some.inj (hstep.symm.trans ht)
      exact h
  constructor
  · exact fun h hu hl => (hiff hu hl).1 fun s' hs' => h s' hu hl hs'
  · exact fun h s' hu hl hs' => (hiff hu hl).2 (h hu hl) s' hs'

/-- **The status updates of a run hit the rows that were sent, whatever
the `id`s are, if and only if every one of them fits.** -/
theorem statusHits_iff (db : Samples) (ls : List Label) :
    Run.Along (step cfg) (StatusHits cfg) (init w db) ls ↔
      Run.Along (step cfg) UpdateFits (init w db) ls :=
  Run.along_congr (I := fun s => Aimed s ∧ Held cfg s) (E := fun _ _ => True)
    (fun _ _ _ hI _ _ hstep => ⟨hI.1.step hstep, hI.2.step hI.1 hstep⟩)
    (fun _ l hI _ => statusHits_iff_step hI.1 hI.2 l)
    ⟨aimed_init db, held_init db⟩ (Run.along_of_all (fun _ _ => trivial) _ _)

/-- A row that is out of tries, and one whose `id` ends in the same 32
bits. -/
def twinRows : Samples where
  rows := [(1, { exampleRecord 1 with uploadRetry := 3 }), (2 ^ 32 + 1, exampleRecord 2)]
  seq := 2 ^ 32 + 1
  sorted := by decide
  pos := by decide
  le_seq := by decide

/-- **The wrong row is marked**: the row with the large `id` is sent, and
row 1 gets its flag. -/
theorem mark_hits_twin :
    ∃ s s' : State 32, Run.exec (step exampleConfig) (init 32 twinRows)
        (connectAndQuery ++ readOne ++ [.send 100, .send (lineLength - 100)]) = some s ∧
      s.handed.map Handover.row = [2 ^ 32 + 1] ∧
      step exampleConfig s (.sql .ok) = some s' ∧
      s'.db.rows.map (fun r => (r.1, r.2.uploaded)) = [(1, 1), (2 ^ 32 + 1, 0)] ∧
      ¬ StatusHits exampleConfig s (.sql .ok) := by
  obtain ⟨s, h, hrow, hpc, hdb, hmarked⟩ := Run.exists_of_exec (step exampleConfig)
    (init 32 twinRows) (connectAndQuery ++ readOne ++ [.send 100, .send (lineLength - 100)])
    (fun s => s.handed.map Handover.row = [2 ^ 32 + 1] ∧
      s.pc = .mark .main ⟨2 ^ 32 + 1, 19⟩ 1 ∧ s.db = twinRows ∧
      (sqlStep exampleConfig s .ok).any (fun s' => decide
        (s'.db.rows.map (fun r => (r.1, r.2.uploaded)) = [(1, 1), (2 ^ 32 + 1, 0)])) = true)
    (by decide +kernel)
  obtain ⟨s', hs', hrows⟩ := (Option.any_eq_true _ _).1 hmarked
  have hflags := of_decide_eq_true hrows
  refine ⟨s, s', h, hrow, hs', hflags, fun hhits => ?_⟩
  have hright := hhits ⟨2 ^ 32 + 1, 19⟩ _ .ok s' (by rw [hpc]; rfl) rfl hs'
  rw [hright, hdb] at hflags
  exact absurd hflags (by decide +kernel)

end Uploader

end WaterGateway
