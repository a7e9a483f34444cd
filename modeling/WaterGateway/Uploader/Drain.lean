import Mathlib.Data.List.Count
import WaterGateway.Uploader.Framing

/-!
# What the drain does to the backlog

A failed `send` ends a batch of the drain loop, but not the drain: the
socket stays open, the outer loop asks for the rows again, and the same row
comes first. So a drain raises as many `upload_retry` counts as it has
failed sends, whatever the rows are and however large a batch is.
-/

namespace WaterGateway

namespace Uploader

variable {w : ℕ} {cfg : Config} {s s₀ s' : State w} {l : Label} {ls : List Label}
  {db db₀ : Samples} {hd : List Handover} {rt : List ℤ} {n : ℕ}

/-- A step of a drain whose SQL statements succeed, when the store thread
has been joined. -/
def Label.drains : Label → Bool
  | .sql a => a = .ok
  | .storeInsert .. | .storeTrim .. => false
  | _ => true

/-- How many sends of a run fail. -/
def failures (ls : List Label) : ℕ := ls.countP Label.sendFails

/-- The query selects no row. -/
def Emptied (cfg : Config) (db : Samples) : Prop := ∀ r ∈ db.rows, eligible cfg r.2 = false

/-- A row the drain has read. An `id` that is no `int` is never updated, so
such a row stays eligible. -/
def Reads (cfg : Config) (db : Samples) (j : ℕ) : Prop :=
  ∃ b, (j, b) ∈ db.rows ∧ (Store.columnInt j = j ∨ eligible cfg b = true)

theorem columnInt_columnInt (x : ℤ) : Store.columnInt (Store.columnInt x) = Store.columnInt x :=
  Int.bmod_bmod

theorem Reads.update {j : ℕ} (h : Reads cfg db j) (x : ℤ) (f : Record → Record) :
    Reads cfg (Store.updateRow db (Store.columnInt x) f .ok).1 j := by
  obtain ⟨b, hb, hj⟩ := h
  refine ⟨_, Store.mem_updateRow_ok.2 ⟨b, hb, rfl⟩, ?_⟩
  by_cases hfits : Store.columnInt j = j
  · exact Or.inl hfits
  · refine Or.inr ?_
    have hne : (j : ℤ) ≠ Store.columnInt x := by
      intro heq
      exact hfits (by rw [heq, columnInt_columnInt])
    rw [if_neg hne]
    exact hj.resolve_left hfits

/-! ## The account of a drain -/

/-- **The account of a drain** that has handed over the lines `hd` and has
counted a failure for each `id` in `rt`, against the table it started
from. -/
structure Account (cfg : Config) (db₀ : Samples) (hd : List Handover) (rt : List ℤ)
    (db : Samples) : Prop where
  known : ∀ k b', (k, b') ∈ db.rows → ∃ b, (k, b) ∈ db₀.rows
  rows : ∀ k b, (k, b) ∈ db₀.rows → ∃ b', (k, b') ∈ db.rows ∧
    b'.uploadRetry = b.uploadRetry + rt.count (k : ℤ) ∧
    (b'.uploaded = b.uploaded ∨ ∃ h ∈ hd, Store.columnInt h.row = k)
  retried : ∀ id ∈ rt, ∃ j : ℕ, Store.columnInt j = id ∧ Reads cfg db j
  sent : ∀ h ∈ hd, Reads cfg db h.row

theorem account_refl (db : Samples) : Account cfg db [] [] db where
  known := fun _ b' hb' => ⟨b', hb'⟩
  rows := fun _ b hb => ⟨b, hb, by simp, Or.inl rfl⟩
  retried := fun _ hid => nomatch hid
  sent := fun _ hh => nomatch hh

/-- A line is handed over. -/
theorem Account.hand (h : Account cfg db₀ hd rt db) {x : Handover} (hx : Reads cfg db x.row) :
    Account cfg db₀ (hd ++ [x]) rt db where
  known := h.known
  rows := by
    intro k b hb
    obtain ⟨b', hb', hretry, hmark⟩ := h.rows k b hb
    refine ⟨b', hb', hretry, hmark.imp_right ?_⟩
    rintro ⟨y, hy, hrow⟩
    exact ⟨y, List.mem_append_left _ hy, hrow⟩
  retried := h.retried
  sent := by
    intro y hy
    rcases List.mem_append.1 hy with hy | hy
    · exact h.sent y hy
    · rw [List.mem_singleton.1 hy]
      exact hx

/-- No update brings a row in. -/
theorem Account.known_updateRow (h : Account cfg db₀ hd rt db) {x : ℤ} {f : Record → Record}
    {k : ℕ} {b' : Record} (hb' : (k, b') ∈ (Store.updateRow db x f .ok).1.rows) :
    ∃ b, (k, b) ∈ db₀.rows := by
  obtain ⟨b, hb, -⟩ := Store.mem_updateRow_ok.1 hb'
  exact h.known k b hb

/-- A row handed over is marked. -/
theorem Account.mark (h : Account cfg db₀ hd rt db) {x : Handover} (hx : x ∈ hd) :
    Account cfg db₀ hd rt
      (Store.sqliteStoreMarkUploaded db (Store.columnInt x.row) .ok).1 where
  known := fun _ _ hb' => h.known_updateRow hb'
  rows := by
    intro k b hb
    obtain ⟨b', hb', hretry, hmark⟩ := h.rows k b hb
    refine ⟨_, Store.mem_updateRow_ok.2 ⟨b', hb', rfl⟩, ?_⟩
    by_cases hk : (k : ℤ) = Store.columnInt x.row
    · rw [if_pos hk]
      exact ⟨hretry, Or.inr ⟨x, hx, hk.symm⟩⟩
    · rw [if_neg hk]
      exact ⟨hretry, hmark⟩
  retried := by
    intro id hid
    obtain ⟨j, hj, hreads⟩ := h.retried id hid
    exact ⟨j, hj, hreads.update _ _⟩
  sent := fun y hy => (h.sent y hy).update _ _

/-- A failure is counted. -/
theorem Account.retry (h : Account cfg db₀ hd rt db) {j : ℕ} (hj : Reads cfg db j) :
    Account cfg db₀ hd (Store.columnInt j :: rt)
      (Store.sqliteStoreIncRetry db (Store.columnInt j) .ok).1 where
  known := fun _ _ hb' => h.known_updateRow hb'
  rows := by
    intro k b hb
    obtain ⟨b', hb', hretry, hmark⟩ := h.rows k b hb
    refine ⟨_, Store.mem_updateRow_ok.2 ⟨b', hb', rfl⟩, ?_⟩
    by_cases hk : (k : ℤ) = Store.columnInt j
    · rw [if_pos hk]
      refine ⟨?_, hmark⟩
      have hcount : (Store.columnInt j :: rt).count (k : ℤ) = rt.count (k : ℤ) + 1 := by
        rw [hk, List.count_cons_self]
      rw [hcount]
      change b'.uploadRetry + 1 = _
      omega
    · rw [if_neg hk, List.count_cons_of_ne (fun heq => hk heq.symm)]
      exact ⟨hretry, hmark⟩
  retried := by
    intro id hid
    rcases List.mem_cons.1 hid with heq | hid
    · exact ⟨j, heq.symm, hj.update _ _⟩
    · obtain ⟨i, hi, hreads⟩ := h.retried id hid
      exact ⟨i, hi, hreads.update _ _⟩
  sent := fun y hy => (h.sent y hy).update _ _

/-! ## The steps of a drain -/

/-- A row in hand that the drain has read. -/
def Aims (cfg : Config) (db : Samples) (stmt : Stmt) (sampleId : ℤ) : Prop :=
  sampleId = Store.columnInt stmt.last ∧ Reads cfg db stmt.last

/-- **What holds at each point of the drain**, and that the thread is in
it. A batch that has read no row leaves none to be read. -/
def DrainPoint (cfg : Config) (db : Samples) (hd : List Handover) : Pc → Prop
  | .query .drain => True
  | .read .drain stmt drained => drained = false → stmt = query cfg
  | .send .drain stmt sampleId _ _ | .incRetry .drain stmt sampleId => Aims cfg db stmt sampleId
  | .mark .drain stmt sampleId => Aims cfg db stmt sampleId ∧ ∃ h ∈ hd, h.row = stmt.last
  | .finalize .drain drained => drained = false → Emptied cfg db
  | .closing | .stopped => Emptied cfg db
  | _ => False

/-- A failed send that is not counted yet. -/
def Pc.pending : Pc → ℕ
  | .incRetry .. => 1
  | _ => 0

theorem pending_of_busy {pc : Pc} (h : pc.busy = false) : pc.pending = 0 := by
  cases pc with
  | send | mark | incRetry => cases h
  | outer | connect | query | inner | read | finalize | drainTest | closing | stopped => rfl

/-- **A drain with `n` failed sends** since `s₀`. -/
def Drains (cfg : Config) (s₀ : State w) (n : ℕ) (s : State w) : Prop :=
  ∃ hd rt, s.handed = s₀.handed ++ hd ∧ n = rt.length + s.pc.pending ∧
    Account cfg s₀.db hd rt s.db ∧ DrainPoint cfg s.db hd s.pc

theorem draining_of_point {pc : Pc} (h : DrainPoint cfg db hd pc) : pc.draining = true := by
  unfold DrainPoint at h
  split at h <;> first | rfl | exact h.elim

/-- A first batch that reads no row finds the table emptied. -/
theorem emptied_of_fetch (hbatch : 1 ≤ cfg.batchMax) (h : fetch cfg db (query cfg) = none) :
    Emptied cfg db := by
  intro r hr
  have hlimit : (query cfg).limit ≠ 0 := by
    change cfg.batchMax ≠ 0
    omega
  rw [fetch, if_neg hlimit] at h
  exact AutoTable.next_eq_none h hr (db.pos r hr)

/-- The next points without a row in hand. -/
theorem point_of_idle (hbatch : 1 ≤ cfg.batchMax) {pc : Pc}
    (hp : DrainPoint cfg s.db hd s.pc) (hsql : l.sqlOk = true) (hidle : pc.idle = true)
    (hfinalize : ∀ drained, pc = .finalize .drain drained →
      ∃ stmt, s.pc = .read .drain stmt drained ∧ (l.sqlOk = true → fetch cfg s.db stmt = none))
    (hclosing : pc = .closing →
      s.pc = .finalize .drain false ∨ s.pc = .drainTest ∨ (s.pc = .query .drain ∧ l.sqlOk = false))
    (hstopped : pc = .stopped → s.pc = .closing)
    (hdraining : s.pc.draining = true → pc.draining = true) : DrainPoint cfg s.db hd pc := by
  have hin : pc.draining = true := hdraining (draining_of_point hp)
  cases pc with
  | query loop =>
    cases loop with
    | main => cases hin
    | drain => trivial
  | finalize loop drained =>
    cases loop with
    | main => cases hin
    | drain =>
      obtain ⟨stmt, hpc, hfetch⟩ := hfinalize drained rfl
      rw [hpc] at hp
      intro hdrained
      obtain rfl : stmt = query cfg := hp hdrained
      exact emptied_of_fetch hbatch (hfetch hsql)
  | closing =>
    obtain hpc | hpc | ⟨-, hfail⟩ := hclosing rfl
    · rw [hpc] at hp
      exact hp rfl
    · rw [hpc] at hp
      exact hp.elim
    · rw [hsql] at hfail
      cases hfail
  | stopped =>
    rw [hstopped rfl] at hp
    exact hp
  | outer | connect | drainTest => cases hin
  | inner | read | send | mark | incRetry => cases hidle

theorem Drains.step (hbatch : 1 ≤ cfg.batchMax) (h : Drains cfg s₀ n s) (hl : l.drains = true)
    (hstep : step cfg s l = some s') : Drains cfg s₀ (n + if l.sendFails then 1 else 0) s' := by
  obtain ⟨hd, rt, hall, hn, hacc, hp⟩ := h
  cases moves_of_step hstep with
  | idle l pc hnofail hbusy hidle hfinalize hclosing hstopped hdraining =>
    have hsql : l.sqlOk = true := by
      cases l with
      | sql a => exact hl
      | shutdown | tau | connect | send | storeInsert | storeTrim | deliver | reset => rfl
    rw [hnofail]
    refine ⟨hd, rt, hall, ?_, hacc,
      point_of_idle (s := s) (l := l) hbatch hp hsql hidle hfinalize hclosing hstopped hdraining⟩
    have hbefore := pending_of_busy hbusy
    have hafter : pc.pending = 0 := pending_of_busy (busy_of_idle hidle)
    change n + 0 = rt.length + pc.pending
    omega
  | queried loop hpc =>
    rw [hpc] at hn hp
    cases loop with
    | main => exact hp.elim
    | drain => exact ⟨hd, rt, hall, hn, hacc, fun _ => rfl⟩
  | tested stmt hasData hpc =>
    rw [hpc] at hp
    exact hp.elim
  | skipped loop stmt hasData k b hpc hfetch hlong =>
    rw [hpc] at hn hp
    cases loop with
    | main => exact hp.elim
    | drain => exact ⟨hd, rt, hall, hn, hacc, fun hfalse => nomatch hfalse⟩
  | fetched loop stmt hasData k b hpc hfetch hshort =>
    rw [hpc] at hn hp
    obtain ⟨hrow, -, hel, -⟩ := fetch_eq_some hfetch
    cases loop with
    | main => exact hp.elim
    | drain => exact ⟨hd, rt, hall, hn, hacc, rfl, b, hrow, Or.inr hel⟩
  | marked a loop stmt sampleId hpc =>
    obtain rfl : a = .ok := of_decide_eq_true hl
    rw [hpc] at hn hp
    cases loop with
    | main => exact hp.elim
    | drain =>
      obtain ⟨⟨hid, -⟩, x, hx, hrow⟩ := hp
      rw [hid, ← hrow]
      exact ⟨hd, rt, hall, hn, hacc.mark hx, fun hfalse => nomatch hfalse⟩
  | counted a loop stmt sampleId connected sock hpc hsock =>
    obtain rfl : a = .ok := of_decide_eq_true hl
    rw [hpc] at hn hp
    cases loop with
    | main => exact hp.elim
    | drain =>
      obtain ⟨hid, hreads⟩ := hp
      rw [hid]
      exact ⟨hd, Store.columnInt stmt.last :: rt, hall, hn, hacc.retry hreads,
        fun hfalse => nomatch hfalse⟩
  | connected hpc =>
    rw [hpc] at hp
    exact hp.elim
  | connectFailed hpc =>
    rw [hpc] at hp
    exact hp.elim
  | sendFailed r loop stmt sampleId line sent net hpc hr hnet =>
    rw [hpc] at hn hp
    have hfails : (Label.send r).sendFails = true := decide_eq_true hr
    cases loop with
    | main => exact hp.elim
    | drain =>
      refine ⟨hd, rt, hall, ?_, hacc, hp⟩
      rw [if_pos hfails, hn]
      rfl
  | sentSome r loop stmt sampleId line sent i c hpc hr hlink hopen hsent =>
    rw [hpc] at hn hp
    have hfails : (Label.send r).sendFails = false := decide_eq_false (by omega)
    rw [hfails]
    cases loop with
    | main => exact hp.elim
    | drain => exact ⟨hd, rt, hall, hn, hacc, hp⟩
  | sentAll r loop stmt sampleId line sent i c hpc hr hlink hopen hsent =>
    rw [hpc] at hn hp
    have hfails : (Label.send r).sendFails = false := decide_eq_false (by omega)
    rw [hfails]
    cases loop with
    | main => exact hp.elim
    | drain =>
      refine ⟨hd ++ [⟨stmt.last, i, line⟩], rt, ?_, hn, hacc.hand hp.2, hp, _,
        List.mem_append_right _ (List.mem_singleton.2 rfl), rfl⟩
      rw [hall, List.append_assoc]
  | shutdown | delivered | reset => exact ⟨hd, rt, hall, hn, hacc, hp⟩
  | inserted | insertFailed | trimmed => cases hl

/-! ## Runs -/

theorem drains_start (hpc : s₀.pc = .query .drain) : Drains cfg s₀ 0 s₀ := by
  refine ⟨[], [], (List.append_nil _).symm, ?_, account_refl _, ?_⟩
  · rw [hpc]
    rfl
  · rw [hpc]
    trivial

theorem Drains.exec (hbatch : 1 ≤ cfg.batchMax) (h : Drains cfg s₀ n s)
    (hls : ∀ l ∈ ls, l.drains = true) (hexec : Run.exec (Uploader.step cfg) s ls = some s') :
    Drains cfg s₀ (n + failures ls) s' := by
  rw [failures, ← Run.total_of_label Label.sendFails hexec]
  exact Run.exec_counts (C := fun _ l => l.drains = true)
    (fun n s l t hI hl ht => hI.step hbatch hl ht) h (Run.along_of_forall hls s) hexec

/-- **The drain spares the backlog**: it raises `upload_retry` of at most
one row, by one, and leaves every other row eligible that was eligible and
has not been handed over. -/
def Spares (cfg : Config) (s₀ s : State w) : Prop :=
  ∃ k, ∀ i b, (i, b) ∈ s₀.db.rows → ∃ b', (i, b') ∈ s.db.rows ∧
    (b'.uploadRetry = b.uploadRetry ∨ (i = k ∧ b'.uploadRetry = b.uploadRetry + 1)) ∧
    (b'.uploadRetry = b.uploadRetry → eligible cfg b = true →
      (∀ h ∈ s.handed.drop s₀.handed.length, h.row ≠ i) → eligible cfg b' = true)

/-- A row keeps being eligible if neither of its fields is touched. -/
theorem eligible_congr {b b' : Record} (huploaded : b'.uploaded = b.uploaded)
    (hretry : b'.uploadRetry = b.uploadRetry) : eligible cfg b' = eligible cfg b := by
  unfold eligible
  rw [huploaded, hretry]

/-- Every failure counted raises the count of a row of the first table. -/
theorem Account.length_le_of_spares (h : Account cfg s₀.db hd rt s.db)
    (hfits : ∀ j, Reads cfg s.db j → Store.columnInt j = j) (hspares : Spares cfg s₀ s) :
    rt.length ≤ 1 := by
  obtain ⟨k, hk⟩ := hspares
  -- a row with a failure is row `k`, and has one
  have hone : ∀ id ∈ rt, id = (k : ℤ) ∧ rt.count id = 1 := by
    intro id hid
    obtain ⟨j, hj, hreads⟩ := h.retried id hid
    obtain rfl : id = (j : ℤ) := hj.symm.trans (hfits j hreads)
    obtain ⟨b₁, hb₁, -⟩ := hreads
    obtain ⟨b, hb⟩ := h.known j b₁ hb₁
    obtain ⟨b', hb', hretry, -⟩ := h.rows j b hb
    obtain ⟨b₂, hb₂, hraised, -⟩ := hk j b hb
    obtain rfl : b' = b₂ := AutoTable.row_unique hb' hb₂
    have hpos : 0 < rt.count (j : ℤ) := List.count_pos_iff.2 hid
    rcases hraised with hsame | ⟨rfl, hraised⟩
    · omega
    · exact ⟨rfl, by omega⟩
  by_cases hnil : rt = []
  · rw [hnil]
    exact Nat.zero_le _
  · obtain ⟨id, hid⟩ := List.exists_mem_of_ne_nil rt hnil
    have hall : ∀ id' ∈ rt, id = id' := fun id' hid' => (hone id hid).1.trans (hone id' hid').1.symm
    rw [← List.count_eq_length.2 hall, (hone id hid).2]

/-- With one failure at most, no row but the one it hit has changed, apart
from the marks of rows handed over. -/
theorem Account.spares (h : Account cfg s₀.db hd rt s.db) (hhanded : s.handed = s₀.handed ++ hd)
    (hfits : ∀ j, Reads cfg s.db j → Store.columnInt j = j) (hrt : rt.length ≤ 1) :
    Spares cfg s₀ s := by
  have hk : ∃ k : ℕ, ∀ i : ℕ, rt.count (i : ℤ) = 0 ∨ (i = k ∧ rt.count (i : ℤ) = 1) := by
    match rt with
    | [] => exact ⟨0, fun i => Or.inl rfl⟩
    | [id] =>
      refine ⟨id.toNat, fun i => ?_⟩
      by_cases hi : id = (i : ℤ)
      · refine Or.inr ⟨by omega, ?_⟩
        rw [hi, List.count_cons_self, List.count_nil]
      · refine Or.inl ?_
        rw [List.count_cons_of_ne hi, List.count_nil]
  obtain ⟨k, hk⟩ := hk
  refine ⟨k, fun i b hb => ?_⟩
  obtain ⟨b', hb', hretry, hmark⟩ := h.rows i b hb
  refine ⟨b', hb', ?_, fun hsame hel hnot => ?_⟩
  · rcases hk i with hzero | ⟨rfl, hone⟩
    · exact Or.inl (by omega)
    · exact Or.inr ⟨rfl, by omega⟩
  · rw [hhanded, List.drop_left] at hnot
    rcases hmark with hmark | ⟨x, hx, hrow⟩
    · rw [eligible_congr hmark hsame]
      exact hel
    · have hfit := hfits x.row (h.sent x hx)
      exact absurd (by omega) (hnot x hx)

/-- **A drain spares the backlog if and only if at most one of its sends
fails**: at its end, for any table, and at every point before with no
failed send left to count, for a table whose `id`s are `int`s. -/
theorem drain_spares_iff (hbatch : 1 ≤ cfg.batchMax) (hpc : s₀.pc = .query .drain)
    (hls : ∀ l ∈ ls, l.drains = true) (h : Run.exec (step cfg) s₀ ls = some s)
    (hat : s.pc = .closing ∨ (s.pc.pending = 0 ∧ s₀.db.seq < 2 ^ 31)) :
    Spares cfg s₀ s ↔ failures ls ≤ 1 := by
  obtain ⟨hd, rt, hhanded, hn, hacc, hp⟩ := (drains_start hpc).exec hbatch hls h
  have hpending : s.pc.pending = 0 := by
    rcases hat with hend | ⟨hnone, -⟩
    · rw [hend]
      rfl
    · exact hnone
  have hfits : ∀ j, Reads cfg s.db j → Store.columnInt j = j := by
    rintro j ⟨b, hb, hj⟩
    rcases hat with hend | ⟨-, hids⟩
    · rw [hend] at hp
      refine hj.resolve_right ?_
      rw [hp _ hb]
      exact Bool.false_ne_true
    · obtain ⟨b₀, hb₀⟩ := hacc.known j b hb
      exact Store.columnInt_of_lt (Nat.lt_of_le_of_lt (s₀.db.le_seq _ hb₀) hids)
  have hlength : failures ls = rt.length := by omega
  rw [hlength]
  exact ⟨hacc.length_le_of_spares hfits, hacc.spares hhanded hfits⟩

/-- The thread is told to stop, and goes to its drain loop. -/
def toDrain : List Label := connectAndQuery ++ [.shutdown, .tau, .tau, .tau, .tau]

/-- A batch whose first send fails. -/
def failBatch : List Label := [.sql .ok, .sql .ok, .send (-1), .sql .ok, .tau]

/-- A batch that finds no row, which ends the drain. -/
def lastBatch : List Label := [.sql .ok, .sql .ok, .tau]

/-- One send fails, and then both rows go out. -/
theorem drain_spares_iff_one :
    ∃ s₀ s : State 32, ∃ ls, Run.exec (step exampleConfig) (init 32 twoRows) toDrain = some s₀ ∧
      ls = failBatch ++ [.sql .ok, .sql .ok] ++ sendOne ++ [.sql .ok] ++ sendOne ++
        [.sql .ok, .tau] ++ lastBatch ∧
      Run.exec (step exampleConfig) s₀ ls = some s ∧ failures ls = 1 ∧
      Spares exampleConfig s₀ s := by
  obtain ⟨s₀, h₀, hpc, hrun⟩ := Run.exists_of_exec (step exampleConfig) (init 32 twoRows) toDrain
    (fun s₀ => s₀.pc = .query .drain ∧
      (Run.exec (step exampleConfig) s₀ (failBatch ++ [.sql .ok, .sql .ok] ++ sendOne ++
        [.sql .ok] ++ sendOne ++ [.sql .ok, .tau] ++ lastBatch)).any
          (fun s => decide (s.pc = .closing)) = true) (by decide +kernel)
  obtain ⟨s, h, hend⟩ := Run.exists_of_exec _ s₀ _ _ hrun
  exact ⟨s₀, s, _, h₀, rfl, h, by decide +kernel, (drain_spares_iff (by decide) hpc
    (by decide +kernel) h (Or.inl hend)).2 (by decide +kernel)⟩

/-- **A dead socket burns the backlog**: every send of the drain fails, and
it raises both rows to the limit, so that no row is left to be sent at the
next start. -/
theorem drain_burns_backlog :
    ∃ s₀ s : State 32, ∃ ls, Run.exec (step exampleConfig) (init 32 twoRows) toDrain = some s₀ ∧
      s₀.pc = .query .drain ∧ (∀ r ∈ s₀.db.rows, eligible exampleConfig r.2 = true) ∧
      (∀ l ∈ ls, l.drains = true) ∧ Run.exec (step exampleConfig) s₀ ls = some s ∧
      s.pc = .closing ∧ s.handed = [] ∧
      s.db.rows.map (fun r => (r.1, r.2.uploaded, r.2.uploadRetry)) = [(1, 0, 3), (2, 0, 3)] ∧
      (∀ r ∈ s.db.rows, eligible exampleConfig r.2 = false) ∧ ¬ Spares exampleConfig s₀ s := by
  obtain ⟨s₀, h₀, hpc, hdb, hel, hrun⟩ := Run.exists_of_exec (step exampleConfig)
    (init 32 twoRows) toDrain
    (fun s₀ => s₀.pc = .query .drain ∧ s₀.db = twoRows ∧
      (∀ r ∈ s₀.db.rows, eligible exampleConfig r.2 = true) ∧
      (Run.exec (step exampleConfig) s₀ ((List.replicate 6 failBatch).flatten ++ lastBatch)).any
        (fun s => decide (s.pc = .closing ∧ s.handed = [] ∧
          s.db.rows.map (fun r => (r.1, r.2.uploaded, r.2.uploadRetry)) = [(1, 0, 3), (2, 0, 3)] ∧
          ∀ r ∈ s.db.rows, eligible exampleConfig r.2 = false)) = true) (by decide +kernel)
  obtain ⟨s, h, hclosing, hnone, hrows, hspent⟩ := Run.exists_of_exec _ s₀ _ _ hrun
  refine ⟨s₀, s, _, h₀, hpc, hel, by decide +kernel, h, hclosing, hnone, hrows, hspent, ?_⟩
  rintro ⟨k, hk⟩
  obtain ⟨b, hb, hraised, -⟩ := hk 1 (exampleRecord 1) (by rw [hdb]; decide +kernel)
  have hmem : ((1, b.uploaded, b.uploadRetry) : ℕ × ℤ × ℤ) ∈ [(1, 0, 3), (2, 0, 3)] := by
    rw [← hrows]
    exact List.mem_map_of_mem (f := fun r : ℕ × Record => (r.1, r.2.uploaded, r.2.uploadRetry)) hb
  have hthree : b.uploaded = 0 ∧ b.uploadRetry = 3 := by simpa using hmem
  rw [hthree.2] at hraised
  rcases hraised with hraised | ⟨-, hraised⟩ <;> exact absurd hraised (by decide)

end Uploader

end WaterGateway
