import Mathlib.Data.List.Count
import WaterGateway.Uploader.InHand

/-!
# The account of the tries

A try is counted for the row whose `send` has failed, and that row was
selected when it was read; so a count is raised below the limit only, and
never on a row that has been uploaded. Each failed send moves
`failed_count` on, also where its row has been trimmed meanwhile and no
count is raised.
-/

namespace WaterGateway

namespace Uploader

variable {w : ℕ} {cfg : Config} {s s₀ s' : State w} {l : Label} {ls : List Label}
  {db db' : Samples} {k : ℕ} {b b' b'' : Record}

/-! ## The failed send -/

/-- The run ends with a send of row `k` that fails, and then steps of the
world only. -/
def EndsInFailure (cfg : Config) (s₀ : State w) (ls : List Label) (k : ℕ) : Prop :=
  ∃ (before : List Label) (r : ℤ) (world : List Label) (t : State w) (loop : Loop) (stmt : Stmt)
    (sampleId : ℤ) (line : List UChar) (sent : ℕ),
    ls = before ++ .send r :: world ∧ Run.exec (step cfg) s₀ before = some t ∧ r ≤ 0 ∧
      t.pc = .send loop stmt sampleId line sent ∧ stmt.last = k ∧ ∀ l ∈ world, l.world = true

/-- **A try that is about to be counted has just failed.** -/
theorem endsInFailure_of_incRetry {loop : Loop} {stmt : Stmt} {sampleId : ℤ}
    (h₀ : s₀.pc = .outer) (h : Run.exec (step cfg) s₀ ls = some s)
    (hpc : s.pc = .incRetry loop stmt sampleId) : EndsInFailure cfg s₀ ls stmt.last := by
  have hstart : ¬ s₀.pc = .incRetry loop stmt sampleId := by
    rw [h₀]
    exact Pc.noConfusion
  obtain ⟨before, l, world, t, t', rfl, ht, -, ⟨r, line, sent, rfl, hr, hsend⟩, hworld⟩ :=
    Run.exec_last (Q := fun t : State w => t.pc = .incRetry loop stmt sampleId)
      (W := fun l => l.world = true)
      (E := fun t l _ => ∃ r line sent, l = .send r ∧ r ≤ 0 ∧
        t.pc = .send loop stmt sampleId line sent)
      (fun _ _ _ hstep hQ => incRetry_before hstep hQ) hstart h hpc
  exact ⟨before, r, world, t, loop, stmt, sampleId, line, sent, rfl, ht, hr, hsend, rfl, hworld⟩

/-! ## What becomes of a row -/

/-- **A row later in a run**: an uploaded row keeps its status, and no count
goes past the limit. -/
structure Follows (retryMax : ℤ) (b b' : Record) : Prop where
  kept : b.uploaded = 1 → b'.uploaded = 1 ∧ b'.uploadRetry = b.uploadRetry
  bound : b'.uploadRetry ≤ max b.uploadRetry retryMax

theorem follows_refl (retryMax : ℤ) (b : Record) : Follows retryMax b b :=
  ⟨fun h => ⟨h, rfl⟩, le_max_left _ _⟩

theorem Follows.trans {retryMax : ℤ} (h : Follows retryMax b b') (h' : Follows retryMax b' b'') :
    Follows retryMax b b'' where
  kept := by
    intro hup
    obtain ⟨hup', hretry⟩ := h.kept hup
    obtain ⟨hup'', hretry'⟩ := h'.kept hup'
    exact ⟨hup'', hretry'.trans hretry⟩
  bound := h'.bound.trans (max_le h.bound (le_max_right _ _))

/-- **A table later in a run**: every row is one that was there, or a new
one. -/
structure Since (cfg : Config) (db db' : Samples) : Prop where
  seq : db.seq ≤ db'.seq
  rows : ∀ k b', (k, b') ∈ db'.rows → (∃ b, (k, b) ∈ db.rows ∧ Follows cfg.retryMax b b') ∨
    (db.seq < k ∧ b'.uploadRetry ≤ max 0 cfg.retryMax)

theorem since_refl (db : Samples) : Since cfg db db where
  seq := Nat.le_refl _
  rows := fun _ b' hb' => Or.inl ⟨b', hb', follows_refl _ _⟩

theorem Since.step (h : Since cfg db s.db) (haimed : Aimed s) (hheld : Held cfg s)
    (hids : s.db.seq < 2 ^ 31) (hstep : step cfg s l = some s') : Since cfg db s'.db where
  seq := h.seq.trans (seq_le_step hstep)
  rows := by
    intro k b' hb'
    obtain ⟨b, hb⟩ | ⟨hnew, -, hzero⟩ := key_step hstep hb'
    · have hfollows : Follows cfg.retryMax b b' := by
        obtain rfl | ⟨hel, hchange⟩ := status_step (haimed.named hids) hheld hstep hb hb'
        · exact follows_refl _ _
        · obtain ⟨hzero, hlt⟩ := uploaded_of_eligible hel
          have hclear : b.uploaded ≠ 1 := by omega
          obtain ⟨-, -, -, -, -, rfl⟩ | ⟨-, -, -, -, -, rfl⟩ := hchange
          · exact ⟨fun hone => absurd hone hclear, le_max_left _ _⟩
          · exact ⟨fun hone => absurd hone hclear, le_max_of_le_right hlt⟩
      obtain ⟨b₀, hb₀, hbefore⟩ | ⟨hnew, hle⟩ := h.rows k b hb
      · exact Or.inl ⟨b₀, hb₀, hbefore.trans hfollows⟩
      · exact Or.inr ⟨hnew, hfollows.bound.trans (max_le hle (le_max_right _ _))⟩
    · exact Or.inr ⟨hnew ▸ Nat.lt_succ_of_le h.seq, hzero ▸ le_max_left _ _⟩

/-- The `id`s of a run are `int`s where those at its end are. -/
theorem along_ids {n : ℕ} (h : Run.exec (step cfg) s₀ ls = some s) (hids : s.db.seq < n) :
    Run.Along (step cfg) (fun t _ => t.db.seq < n) s₀ ls :=
  Run.along_of_last (P := fun t : State w => t.db.seq < n)
    (fun _ _ _ ht hn => Nat.lt_of_le_of_lt (seq_le_step ht) hn) h hids

theorem since_exec (haimed : Aimed s₀) (hheld : Held cfg s₀)
    (h : Run.exec (step cfg) s₀ ls = some s) (hids : s.db.seq < 2 ^ 31) :
    Since cfg s₀.db s.db := by
  have hall : Aimed s ∧ Held cfg s ∧ Since cfg s₀.db s.db := Run.exec_invariant_along
    (I := fun t : State w => Aimed t ∧ Held cfg t ∧ Since cfg s₀.db t.db)
    (fun _ _ _ hI hC ht => ⟨hI.1.step ht, hI.2.1.step hI.1 ht, hI.2.2.step hI.1 hI.2.1 hC ht⟩)
    ⟨haimed, hheld, since_refl _⟩ (along_ids h hids) h
  exact hall.2.2

/-! ## What is counted -/

/-- How many counts of the rows a step changes. -/
def raised (db db' : Samples) : ℕ :=
  db'.rows.countP fun r' => db.rows.any fun r => r.1 = r'.1 ∧ r.2.uploadRetry ≠ r'.2.uploadRetry

/-- A failed send is counted, and its row has been trimmed. -/
def missed (s : State w) : Label → ℕ
  | .sql _ =>
    match s.pc with
    | .incRetry _ stmt _ => if s.db.rows.any (fun r => r.1 = stmt.last) then 0 else 1
    | _ => 0
  | _ => 0

theorem raised_eq_zero
    (h : ∀ k b b', (k, b) ∈ db.rows → (k, b') ∈ db'.rows → b'.uploadRetry = b.uploadRetry) :
    raised db db' = 0 := by
  refine List.countP_eq_zero.2 fun r' hr' => ?_
  simp only [List.any_eq_true, not_exists, not_and, decide_eq_true_eq]
  rintro ⟨k, b⟩ hr rfl hne
  exact hne (h _ b r'.2 hr hr').symm

/-- The statement that counts a try raises the count of its row, if there
is one. -/
theorem raised_incRetry (db : Samples) {k : ℕ} (hk : k < 2 ^ 31) :
    raised db (Store.sqliteStoreIncRetry db (Store.columnInt k) .ok).1 =
      if db.rows.any (fun r => r.1 = k) then 1 else 0 := by
  rw [← db.countP_key, raised, Store.sqliteStoreIncRetry, Store.updateRow_ok,
    Store.columnInt_of_lt hk, AutoTable.modify, List.countP_map]
  refine List.countP_congr fun r hr => ?_
  simp only [Function.comp_apply, List.any_eq_true, decide_eq_true_eq, Nat.cast_inj]
  constructor
  · rintro ⟨⟨j, b⟩, hb, rfl, hne⟩
    by_contra hk'
    rw [if_neg hk'] at hne
    exact hne (congrArg Record.uploadRetry (AutoTable.row_unique hb hr))
  · intro hk'
    refine ⟨r, hr, rfl, ?_⟩
    rw [if_pos hk']
    exact Int.ne_of_lt (Int.lt_succ _)

/-- **What a step adds to `failed_count`.** -/
theorem failedCount_step (haimed : Aimed s) (hids : s.db.seq < 2 ^ 31) (hl : l.sqlOk = true)
    (h : step cfg s l = some s') :
    s'.failedCount = s.failedCount + BitVec.ofNat w (raised s.db s'.db + missed s l) := by
  -- away from the count of a try, no count is raised and none is missed
  have hquiet : (∀ loop stmt sampleId, s.pc = .incRetry loop stmt sampleId → l.world = true) →
      raised s.db s'.db + missed s l = 0 := by
    intro hpc
    have hraised : raised s.db s'.db = 0 := by
      refine raised_eq_zero fun k b b' hb hb' => ?_
      obtain rfl | ⟨-, -, -, -, -, -, rfl⟩ | ⟨loop, stmt, sampleId, hpc', rfl, -⟩ :=
        row_step h hb hb'
      · rfl
      · rfl
      · exact absurd (hpc loop stmt sampleId hpc') Bool.false_ne_true
    have hmissed : missed s l = 0 := by
      unfold missed
      split
      · split
        · next loop stmt sampleId hpc' =>
          exact absurd (hpc loop stmt sampleId hpc') Bool.false_ne_true
        · rfl
      · rfl
    rw [hraised, hmissed]
  cases moves_of_step h with
  | counted a loop stmt sampleId connected sock hpc hsock =>
    obtain rfl : a = .ok := of_decide_eq_true hl
    obtain ⟨hlast, hid⟩ := haimed stmt sampleId (by rw [hpc]; rfl)
    have hone : raised s.db (Store.sqliteStoreIncRetry s.db sampleId .ok).1 +
        missed s (.sql .ok) = 1 := by
      rw [hid, raised_incRetry s.db (Nat.lt_of_le_of_lt hlast hids), missed, hpc]
      dsimp only
      split <;> rfl
    dsimp only
    rw [hone]
    rfl
  | shutdown | inserted | insertFailed | trimmed | delivered | reset =>
    rw [hquiet fun _ _ _ _ => rfl]
    exact (BitVec.add_zero _).symm
  | idle l pc hl' hs =>
    have hnot : ∀ loop stmt sampleId, s.pc ≠ .incRetry loop stmt sampleId := by
      intro loop stmt sampleId hpc
      rw [hpc] at hs
      cases hs
    rw [hquiet fun loop stmt sampleId hpc => absurd hpc (hnot loop stmt sampleId)]
    exact (BitVec.add_zero _).symm
  | queried | tested | skipped | fetched | marked | connected | connectFailed | sendFailed
    | sentSome | sentAll =>
    have hpc := ‹s.pc = _›
    rw [hquiet fun loop stmt sampleId hpc' => by rw [hpc] at hpc'; cases hpc']
    exact (BitVec.add_zero _).symm

theorem failedCount_exec (hls : ∀ l ∈ ls, l.sqlOk = true)
    (h : Run.exec (step cfg) (init w db) ls = some s) (hids : s.db.seq < 2 ^ 31) :
    s.failedCount = BitVec.ofNat w
      (Run.total (step cfg) (fun s _ t => raised s.db t.db) (init w db) ls +
        Run.total (step cfg) (fun s l _ => missed s l) (init w db) ls) := by
  rw [← Run.total_add]
  have hcounts := Run.exec_counts
    (I := fun n (t : State w) => Aimed t ∧ t.failedCount = BitVec.ofNat w n)
    (C := fun t l => t.db.seq < 2 ^ 31 ∧ l.sqlOk = true) (n := 0)
    (f := fun s l t => raised s.db t.db + missed s l)
    (fun n t l t' hI hC ht => ⟨hI.1.step ht, by
      rw [failedCount_step hI.1 hC.1 hC.2 ht, hI.2, ← BitVec.ofNat_add]⟩)
    ⟨aimed_init db, rfl⟩ (Run.along_and (along_ids h hids) (Run.along_of_forall hls _)) h
  rw [hcounts.2, Nat.zero_add]

/-! ## Runs -/

/-- **The account of the tries** of a run: a count is raised by one, right
after a failed send of the row; it never goes past the limit, or past the
count the row had at the start; an uploaded row keeps its flag and its
count; and `failed_count` is the number of counts raised and of failed
sends whose row was gone. -/
structure CountsTries (cfg : Config) (s₀ : State w) (ls : List Label) (s : State w) : Prop where
  raised : ∀ before l after t t', ls = before ++ l :: after →
    Run.exec (step cfg) s₀ before = some t → step cfg t l = some t' →
    ∀ k b b', (k, b) ∈ t.db.rows → (k, b') ∈ t'.db.rows → b'.uploadRetry ≠ b.uploadRetry →
      b'.uploadRetry = b.uploadRetry + 1 ∧ EndsInFailure cfg s₀ before k
  bounded : ∀ k b', (k, b') ∈ s.db.rows →
    (∃ b, (k, b) ∈ s₀.db.rows ∧ b'.uploadRetry ≤ max b.uploadRetry cfg.retryMax) ∨
      ((∀ b, (k, b) ∉ s₀.db.rows) ∧ b'.uploadRetry ≤ max 0 cfg.retryMax)
  kept : ∀ before after t, ls = before ++ after → Run.exec (step cfg) s₀ before = some t →
    ∀ k b b', (k, b) ∈ t.db.rows → (k, b') ∈ s.db.rows → b.uploaded = 1 →
      b'.uploaded = 1 ∧ b'.uploadRetry = b.uploadRetry
  failed : s.failedCount = BitVec.ofNat w
    (Run.total (step cfg) (fun s _ t => Uploader.raised s.db t.db) s₀ ls +
      Run.total (step cfg) (fun s l _ => missed s l) s₀ ls)

/-- **Every run of the uploader keeps the account of the tries**, whatever
the connections do, and with any inserts and trims beside it. -/
theorem counts_tries (hls : ∀ l ∈ ls, l.sqlOk = true)
    (h : Run.exec (step cfg) (init w db) ls = some s) (hids : s.db.seq < 2 ^ 31) :
    CountsTries cfg (init w db) ls s := by
  -- the `id`s up to any point of the run are `int`s
  have hpoint : ∀ {before after : List Label} {t : State w}, ls = before ++ after →
      Run.exec (step cfg) (init w db) before = some t →
      Run.exec (step cfg) t after = some s ∧ t.db.seq < 2 ^ 31 := by
    rintro before after t rfl ht
    obtain ⟨u, hu, hrest⟩ := Run.exec_append_eq_some.1 h
    obtain rfl : u = t := Option.some.inj (hu.symm.trans ht)
    refine ⟨hrest, Nat.lt_of_le_of_lt ?_ hids⟩
    exact Run.exec_relates (R := fun a b : State w => a.db.seq ≤ b.db.seq)
      (fun _ => Nat.le_refl _) Nat.le_trans (fun a l b => seq_le_step) hrest
  refine ⟨?_, ?_, ?_, failedCount_exec hls h hids⟩
  · intro before l after t t' hsplit ht ht' k b b' hb hb' hne
    obtain ⟨haimed, hheld⟩ := tracked_exec ht
    obtain rfl | ⟨-, hmark | ⟨loop, stmt, sampleId, hpc, rfl, rfl⟩⟩ :=
      status_step (haimed.named (hpoint hsplit ht).2) hheld ht' hb hb'
    · exact absurd rfl hne
    · obtain ⟨-, -, -, -, -, rfl⟩ := hmark
      exact absurd rfl hne
    · exact ⟨rfl, endsInFailure_of_incRetry rfl ht hpc⟩
  · intro k b' hb'
    have hsince : Since cfg db s.db := since_exec (aimed_init db) (held_init db) h hids
    obtain ⟨b, hb, hfollows⟩ | ⟨hnew, hle⟩ := hsince.rows k b' hb'
    · exact Or.inl ⟨b, hb, hfollows.bound⟩
    · exact Or.inr ⟨fun b hb => absurd (db.le_seq _ hb) (Nat.not_le_of_lt hnew), hle⟩
  · intro before after t hsplit ht k b b' hb hb' hone
    obtain ⟨haimed, hheld⟩ := tracked_exec ht
    obtain ⟨b₀, hb₀, hfollows⟩ | ⟨hnew, -⟩ :=
      (since_exec haimed hheld (hpoint hsplit ht).1 hids).rows k b' hb'
    · obtain rfl := AutoTable.row_unique hb hb₀
      exact hfollows.kept hone
    · exact absurd (t.db.le_seq _ hb) (Nat.not_le_of_lt hnew)

/-- A failed send whose row is still there, and one whose row is trimmed
before its try is counted. -/
theorem counts_tries_two :
    ∃ s : State 32, ∃ ls, ls = connectAndQuery ++ readOne ++ [.send 0, .sql .ok, .tau] ++
        connectAndQuery ++ readOne ++ [.send (-1), .storeTrim 1 (.delete2 1) .ok, .sql .ok] ∧
      Run.exec (step exampleConfig) (init 32 twoRows) ls = some s ∧ s.failedCount = 2 ∧
      CountsTries exampleConfig (init 32 twoRows) ls s := by
  obtain ⟨s, h, hcount, hids⟩ := Run.exists_of_exec (step exampleConfig) (init 32 twoRows)
    (connectAndQuery ++ readOne ++ [.send 0, .sql .ok, .tau] ++
      connectAndQuery ++ readOne ++ [.send (-1), .storeTrim 1 (.delete2 1) .ok, .sql .ok])
    (fun s => s.failedCount = 2 ∧ s.db.seq < 2 ^ 31) (by decide +kernel)
  exact ⟨s, _, rfl, h, hcount, counts_tries (by decide +kernel) h hids⟩

end Uploader

end WaterGateway
