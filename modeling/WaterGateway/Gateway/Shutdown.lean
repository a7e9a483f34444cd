import WaterGateway.Gateway.Order
import WaterGateway.Pipeline.Shutdown
import WaterGateway.Uploader.Drain

/-!
# What a shutdown leaves behind

`main()` tells the uploader to stop only when the other three threads are
joined. So nothing is inserted while the uploader drains, and its last
query, which finds no row, has seen all there is. Where it still has a
connection, a row that is left in the table has been handed over or has
used its tries.
-/

namespace WaterGateway

namespace Gateway

open Config (GatewayConfig)
open Pipeline (asInserted)
open Uploader (Handover Drains Emptied eligible lineOf)

variable {w : ℕ} {cfg : GatewayConfig} {s s' : State w} {l : Label} {ls : List Label}
variable {base : Samples}

/-! ## The drain of the uploader -/

section Drain

variable {c : Uploader.Config} {u u' : Uploader.State w} {l : Uploader.Label}

/-- The socket stands for a connection. -/
def Online (u : Uploader.State w) : Prop := u.connected = true ∧ u.sock.isSome = true

/-- A point behind the main loop. -/
def ending (pc : Uploader.Pc) : Bool := pc.draining || decide (pc = .drainTest)

theorem ending_of_draining {pc : Uploader.Pc} (h : pc.draining = true) : ending pc = true := by
  rw [ending, h, Bool.true_or]

/-- No SQL statement takes the thread out of its main loop, or back. -/
theorem ending_sql {a : SqlAnswer} (h : Uploader.sqlStep c u a = some u') :
    ending u'.pc = ending u.pc := by
  unfold Uploader.sqlStep at h
  split at h
  · next hpc =>
    cases h
    rw [hpc]
    dsimp only
    split <;> rfl
  · next hpc =>
    cases h
    rw [hpc]
    dsimp only
    split <;> rfl
  · next loop stmt hasData hpc =>
    rw [hpc]
    split at h
    · split at h
      · cases h
        cases loop <;> rfl
      · cases h
        dsimp only
        split <;> cases loop <;> rfl
    · cases h
      cases loop <;> rfl
  · next loop stmt sampleId hpc =>
    cases h
    rw [hpc]
    cases loop <;> rfl
  · next hpc =>
    cases h
    rw [hpc]
    rfl
  · next hpc =>
    cases h
    rw [hpc]
    rfl
  · cases h

theorem ending_connect {ok : Bool} (h : Uploader.connectStep u ok = some u') :
    ending u'.pc = ending u.pc := by
  unfold Uploader.connectStep at h
  split at h
  · next hpc =>
    rw [hpc]
    split at h <;> cases h <;> rfl
  · cases h

theorem ending_send (c : Uploader.Config) {r : ℤ} (h : Uploader.sendStep u r = some u') :
    ending u'.pc = ending u.pc := by
  have hmoves : Uploader.Moves c u (.send r) u' := Uploader.moves_send h
  cases hmoves with
  | idle _ pc hl hs hpc =>
    unfold Uploader.sendStep at h
    split at h
    · next hsending =>
      rw [hsending] at hs
      cases hs
    · cases h
  | sendFailed _ loop stmt sampleId line sent net hpc =>
    rw [hpc]
    cases loop <;> rfl
  | sentSome _ loop stmt sampleId line sent i c hpc =>
    rw [hpc]
    cases loop <;> rfl
  | sentAll _ loop stmt sampleId line sent i c hpc =>
    rw [hpc]
    cases loop <;> rfl

/-- **The main loop is left when the flag is seen.** -/
theorem ending_tau (h : Uploader.tauStep u = some u') (hin : ending u'.pc = true) :
    ending u.pc = true ∨ u.shutdown = true := by
  unfold Uploader.tauStep at h
  split at h
  · cases h
    dsimp only at hin
    split at hin
    · next hflag => exact Or.inr hflag
    · split at hin <;> cases hin
  · cases h
    dsimp only at hin
    split at hin <;> cases hin
  · cases h
    cases hin
  · next hpc => exact Or.inl (by rw [hpc]; rfl)
  · next hpc => exact Or.inl (by rw [hpc]; rfl)
  · next hpc => exact Or.inl (by rw [hpc]; rfl)
  · cases h

/-- A step of the thread, or of its network, leaves the flag alone, and the
main loop only where it is set. -/
theorem ending_step (hown : ownUploader l = true) (h : Uploader.step c u l = some u') :
    u'.shutdown = u.shutdown ∧ (ending u'.pc = true → ending u.pc = true ∨ u.shutdown = true) := by
  have hflag : u'.shutdown = u.shutdown := by
    cases Uploader.moves_of_step h with
    | shutdown => cases hown
    | idle | queried | tested | skipped | fetched | marked | counted | connected | connectFailed
      | sendFailed | sentSome | sentAll | inserted | insertFailed | trimmed | delivered
      | reset => rfl
  refine ⟨hflag, fun hin => ?_⟩
  cases l with
  | tau => exact ending_tau h hin
  | sql a => exact Or.inl (ending_sql h ▸ hin)
  | connect ok => exact Or.inl (ending_connect h ▸ hin)
  | send r => exact Or.inl (ending_send c h ▸ hin)
  | shutdown | storeInsert | storeTrim => cases hown
  | deliver | reset =>
    cases h
    exact Or.inl hin

/-- **The uploader starts to drain** at its test of the connection. -/
theorem entry_of_step (hown : ownUploader l = true) (h : Uploader.step c u l = some u')
    (hout : u.pc.draining = false) (hin : u'.pc.draining = true) :
    u'.pc = if u'.connected && u'.sock.isSome then .query .drain else .closing := by
  have hend : ending u'.pc = true := ending_of_draining hin
  have htest : ending u.pc = true → u.pc = .drainTest := fun hpc => by
    rw [ending, hout, Bool.false_or] at hpc
    exact of_decide_eq_true hpc
  cases l with
  | tau =>
    have htau : Uploader.tauStep u = some u' := h
    unfold Uploader.tauStep at htau
    split at htau
    · cases htau
      dsimp only at hin
      split at hin
      · cases hin
      · split at hin <;> cases hin
    · cases htau
      dsimp only at hin
      split at hin <;> cases hin
    · cases htau
      cases hin
    · next hpc =>
      rw [hpc] at hout
      cases hout
    · cases htau
      rfl
    · next hpc =>
      rw [hpc] at hout
      cases hout
    · cases htau
  | sql a =>
    have hpc := htest (ending_sql h ▸ hend)
    simp only [Uploader.step, Uploader.sqlStep, hpc] at h
    cases h
  | connect ok =>
    have hpc := htest (ending_connect h ▸ hend)
    simp only [Uploader.step, Uploader.connectStep, hpc] at h
    cases h
  | send r =>
    have hpc := htest (ending_send c h ▸ hend)
    simp only [Uploader.step, Uploader.sendStep, hpc] at h
    cases h
  | shutdown | storeInsert | storeTrim => cases hown
  | deliver | reset =>
    cases h
    rw [hin] at hout
    cases hout

/-- With a connection it starts with a query. -/
theorem query_of_entry (hown : ownUploader l = true) (h : Uploader.step c u l = some u')
    (hout : u.pc.draining = false) (hin : u'.pc.draining = true) (honline : Online u') :
    u'.pc = .query .drain := by
  rw [entry_of_step hown h hout hin, if_pos (by rw [honline.1, honline.2]; rfl)]

/-- In the drain loop the thread keeps its socket. -/
theorem online_of_step (h : Uploader.step c u l = some u') (hin : u.pc.draining = true)
    (honline : Online u') : Online u := by
  cases Uploader.moves_of_step h with
  | connected hpc =>
    rw [hpc] at hin
    cases hin
  | connectFailed hpc =>
    rw [hpc] at hin
    cases hin
  | counted a loop stmt sampleId connected sock hpc hsock =>
    cases loop with
    | main =>
      rw [hpc] at hin
      cases hin
    | drain =>
      simp only [Uploader.step, Uploader.sqlStep, hpc, Option.some.injEq] at h
      have hconnected := congrArg Uploader.State.connected h
      have hsame := congrArg Uploader.State.sock h
      exact ⟨hconnected.trans honline.1, (congrArg Option.isSome hsame).trans honline.2⟩
  | idle | queried | tested | skipped | fetched | marked | sendFailed | sentSome | sentAll
    | shutdown | inserted | insertFailed | trimmed | delivered | reset => exact honline

/-- **A drain in progress** that has its connection. -/
def InDrain (c : Uploader.Config) (u : Uploader.State w) : Prop :=
  u.pc.draining = true → Online u → ∃ (s₀ : Uploader.State w) (n : ℕ), Drains c s₀ n u

theorem InDrain.step (hbatch : 1 ≤ c.batchMax) (hin : InDrain c u) (hown : ownUploader l = true)
    (hl : l.sqlOk = true) (h : Uploader.step c u l = some u') : InDrain c u' := by
  intro hdraining honline
  cases hold : u.pc.draining with
  | false =>
    exact ⟨u', 0, Uploader.drains_start (query_of_entry hown h hold hdraining honline)⟩
  | true =>
    obtain ⟨s₀, n, hd⟩ := hin hold (online_of_step h hold honline)
    have hdrains : l.drains = true := by
      cases l with
      | storeInsert | storeTrim => cases hown
      | sql a => exact hl
      | shutdown | tau | connect | send | deliver | reset => rfl
    exact ⟨s₀, _, hd.step hbatch hdrains h⟩

end Drain

/-! ## The marks -/

/-- **A mark is worth a line handed over**, by this start or, as `front`
tells, by an earlier one; the first table may have had marks of its own. -/
structure Flagged (base : Samples) (front : List Handover) (u : Uploader.State w) : Prop where
  rows : ∀ r ∈ u.db.rows, r.2.uploaded = 0 ∨
    (∃ b₀, (r.1, b₀) ∈ base.rows ∧ b₀.uploaded ≠ 0) ∨ ∃ x ∈ front ++ u.handed, x.row = r.1
  mark : ∀ loop stmt sampleId, u.pc = .mark loop stmt sampleId → ∃ x ∈ u.handed, x.row = stmt.last

theorem Flagged.step {c : Uploader.Config} {front : List Handover} {u u' : Uploader.State w}
    {l : Uploader.Label} (hflag : Flagged base front u) (hnamed : Uploader.Named u)
    (h : Uploader.step c u l = some u') : Flagged base front u' := by
  have hgrow : ∀ k, (∃ x ∈ front ++ u.handed, x.row = k) →
      ∃ x ∈ front ++ u'.handed, x.row = k := by
    rintro k ⟨x, hx, hrow⟩
    exact ⟨x, List.mem_append.2 ((List.mem_append.1 hx).imp_right
      fun hin => (Uploader.handed_step h).subset hin), hrow⟩
  refine ⟨?_, ?_⟩
  · rintro ⟨k, b'⟩ hb'
    obtain ⟨b, hb⟩ | ⟨-, hclear, -⟩ := Uploader.key_step h hb'
    · have hold := (hflag.rows _ hb).imp_right fun hset => hset.imp_right (hgrow k)
      obtain rfl | ⟨loop, stmt, sampleId, hpc, -, hk, -⟩ | ⟨-, -, -, -, -, -, rfl⟩ :=
        Uploader.row_step h hb hb'
      · exact hold
      · -- the row that is marked is the one handed over last
        obtain ⟨x, hx, hrow⟩ := hflag.mark loop stmt sampleId hpc
        have hid : sampleId = stmt.last := hnamed stmt sampleId (by rw [hpc]; rfl)
        exact Or.inr (Or.inr (hgrow k ⟨x, List.mem_append_right _ hx, by omega⟩))
      · exact hold
    · exact Or.inl hclear
  · intro loop stmt sampleId hpc
    obtain ⟨hpc', -⟩ | ⟨r, i, line, -, hhanded⟩ := Uploader.mark_before h hpc
    · obtain ⟨x, hx, hrow⟩ := hflag.mark loop stmt sampleId hpc'
      exact ⟨x, (Uploader.handed_step h).subset hx, hrow⟩
    · rw [hhanded]
      exact ⟨_, List.mem_append_right _ (List.mem_singleton.2 rfl), rfl⟩

/-! ## The end of the program -/

/-- Once its thread has returned, the store leaves the table alone. -/
theorem stored_step {c : Pipeline.Config} {p p' : Pipeline.State w} {l : Pipeline.Label}
    (hok : Pipeline.Sound p) (hown : ownPipeline l = true) (hret : p.store = .returned)
    (h : Pipeline.step c p l = some p') : p'.store = .returned ∧ p'.db = p.db := by
  cases Pipeline.moves_of_step hok h with
  | store b pc hheld hpc => exact absurd hret hpc
  | storePop b item drain q hdrained =>
    rw [hret] at hdrained
    cases hdrained
  | insert a item drain pc hpc =>
    rw [hret] at hpc
    cases hpc
  | insertFailed a item drain pc hpc =>
    rw [hret] at hpc
    cases hpc
  | trim a pc pc' final db hpc =>
    rw [hret] at hpc
    cases hpc
  | markUploaded | incRetry => cases hown
  | signal | main | setProc | setStore | shutRaw | shutStore | collect | acquire | collectRefused
    | collectAccepted | proc | procPop | procHandle | procRefused | procAccepted =>
    exact ⟨hret, rfl⟩

/-- `main()` does not come back from its third join. -/
theorem joined_step {c : Pipeline.Config} {p p' : Pipeline.State w} {l : Pipeline.Label}
    (hok : Pipeline.Sound p) (hmain : p.main = .joined) (h : Pipeline.step c p l = some p') :
    p'.main = .joined := by
  cases l with
  | main =>
    simp only [Pipeline.step, Pipeline.mainStep, hmain] at h
    cases h
  | signal | collect | acquire | proc | store | sql | markUploaded | incRetry =>
    cases Pipeline.moves_of_step hok h <;> exact hmain

/-- Its third join waits for the store thread. -/
theorem returned_of_joined {c : Pipeline.Config} {p p' : Pipeline.State w} {l : Pipeline.Label}
    (hok : Pipeline.Sound p) (hown : ownPipeline l = true)
    (hold : p.main = .joined → p.store = .returned) (h : Pipeline.step c p l = some p')
    (hmain : p'.main = .joined) : p'.store = .returned := by
  by_cases hbefore : p.main = .joined
  · exact (stored_step hok hown (hold hbefore) h).1
  · cases Pipeline.moves_of_step hok h with
    | main pc hjoined => exact hjoined hmain
    | setProc pc hpc => exact absurd hmain hpc
    | setStore pc hpc => exact absurd hmain hpc
    | shutRaw pc hpc => exact absurd hmain hpc
    | shutStore pc hpc => exact absurd hmain hpc
    | signal | collect | acquire | collectRefused | collectAccepted | proc | procPop | procHandle
      | procRefused | procAccepted | store | storePop | insert | insertFailed | trim | markUploaded
      | incRetry => exact absurd hmain hbefore

/-- **The order of the end**, at every reachable state. -/
structure Ending (cfg : GatewayConfig) (s : State w) : Prop where
  asked : s.uploader.shutdown = true → s.tail ≠ .setUpload
  joined : s.tail ≠ .setUpload → s.pipeline.main = .joined
  stored : s.pipeline.main = .joined → s.pipeline.store = .returned
  behind : ending s.uploader.pc = true → s.uploader.shutdown = true
  closed : s.tail = .closed → cfg.uploadEnabled = 0 ∨ s.uploader.pc = .stopped

/-- A thread that has stopped takes no step. -/
theorem stopped_step {c : Uploader.Config} {u u' : Uploader.State w} {l : Uploader.Label}
    (hpc : u.pc = .stopped) (h : Uploader.step c u l = some u') : u'.pc = .stopped := by
  cases l with
  | tau =>
    simp only [Uploader.step, Uploader.tauStep, hpc] at h
    cases h
  | connect ok =>
    simp only [Uploader.step, Uploader.connectStep, hpc] at h
    cases h
  | sql a =>
    simp only [Uploader.step, Uploader.sqlStep, hpc] at h
    cases h
  | send r =>
    simp only [Uploader.step, Uploader.sendStep, hpc] at h
    cases h
  | shutdown | storeInsert | storeTrim | deliver | reset =>
    cases h
    exact hpc

/-- The thread has not begun to drain. -/
theorem inDrain_of_not {c : Uploader.Config} {u : Uploader.State w} (h : ending u.pc ≠ true) :
    InDrain c u := fun hdraining => absurd (ending_of_draining hdraining) h

theorem ending_start {db : Samples} {past : List Life} (h : start db past = some s) :
    Ending cfg s := by
  obtain ⟨p, hp, rfl⟩ := Option.map_eq_some_iff.1 h
  obtain ⟨raw, store, -, -, -, -, rfl⟩ := Pipeline.init_cases hp
  exact ⟨fun hshut => absurd hshut Bool.false_ne_true, fun htail => absurd rfl htail,
    fun hmain => (by cases hmain), fun hin => absurd hin Bool.false_ne_true,
    fun hclosed => (by cases hclosed)⟩

theorem inDrain_init (h : init w base = some s) : InDrain (uploaderConfig cfg) s.uploader := by
  rw [init, start, Option.map_eq_some_iff] at h
  obtain ⟨p, hp, rfl⟩ := h
  exact inDrain_of_not Bool.false_ne_true

theorem Ending.step (hend : Ending cfg s) (hok : Pipeline.Sound s.pipeline)
    (h : step cfg s l = some s') : Ending cfg s' := by
  cases moves_of_step h with
  | pipeline l p hown hp =>
    exact ⟨hend.asked, fun htail => joined_step hok (hend.joined htail) hp,
      returned_of_joined hok hown hend.stored hp, hend.behind, hend.closed⟩
  | uploader l u henabled hown hu =>
    obtain ⟨hflag, hin⟩ := ending_step hown hu
    refine ⟨fun hshut => hend.asked (hflag ▸ hshut), hend.joined, hend.stored, fun hpc => ?_,
      fun htail => (hend.closed htail).imp_right fun hpc => stopped_step hpc hu⟩
    change u.shutdown = true
    rw [hflag]
    exact (hin hpc).elim hend.behind id
  | setUpload htail hmain =>
    exact ⟨fun _ => show Tail.joinUpload ≠ .setUpload by decide, fun _ => hmain, hend.stored,
      fun _ => rfl, fun hclosed => (by cases hclosed)⟩
  | joinUpload htail hjoin =>
    exact ⟨fun _ => show Tail.closed ≠ .setUpload by decide,
      fun _ => hend.joined (by rw [htail]; decide), hend.stored, hend.behind, fun _ => hjoin⟩
  | restart => exact ending_start h

/-- **Nobody else uses the table** when the uploader is told to stop: the
store thread has returned by then. -/
theorem Ending.alone (hend : Ending cfg s) (hok : Pipeline.Sound s.pipeline)
    (htail : s.tail ≠ .setUpload) {l : Pipeline.Label} {p : Pipeline.State w}
    (hown : ownPipeline l = true)
    (hp : Pipeline.step (pipelineConfig cfg) s.pipeline l = some p) :
    (s.withPipeline p).uploader = s.uploader := by
  have hdb := (stored_step hok hown (hend.stored (hend.joined htail)) hp).2
  change { s.uploader with db := p.db } = s.uploader
  rw [hdb, s.shared]

/-- A drain in progress goes on. -/
theorem Ending.drains_step (hend : Ending cfg s) (hok : Pipeline.Sound s.pipeline)
    (hbatch : 1 ≤ cfg.uploadBatchMax) (hin : InDrain (uploaderConfig cfg) s.uploader)
    (hl : l.uploadSqlOk = true) (h : Gateway.step cfg s l = some s') :
    InDrain (uploaderConfig cfg) s'.uploader := by
  cases moves_of_step h with
  | pipeline l p hown hp =>
    intro hdraining honline
    have htail := hend.asked (hend.behind (ending_of_draining hdraining))
    rw [hend.alone hok htail hown hp]
    exact hin hdraining honline
  | uploader l u henabled hown hu => exact hin.step hbatch hown hl hu
  | setUpload htail hmain =>
    exact inDrain_of_not fun hpc => hend.asked (hend.behind hpc) htail
  | joinUpload => exact hin
  | restart => exact inDrain_of_not Bool.false_ne_true

theorem seq_eq (s : State w) : s.db.seq = s.uploader.db.seq := congrArg AutoTable.seq s.shared

/-- What the marks rest on, at every reachable state. -/
structure Marked (base : Samples) (s : State w) : Prop where
  aimed : Uploader.Aimed s.uploader
  flagged : s.db.seq < 2 ^ 31 → Flagged base s.pastHanded s.uploader

theorem marked_init (h : init w base = some s) : Marked base s := by
  rw [init, start, Option.map_eq_some_iff] at h
  obtain ⟨p, hp, rfl⟩ := h
  obtain ⟨raw, store, -, -, -, -, rfl⟩ := Pipeline.init_cases hp
  refine ⟨Uploader.aimed_init _, fun _ => ⟨?_, fun _ _ _ hpc => by cases hpc⟩⟩
  rintro ⟨k, b⟩ hb
  by_cases hzero : b.uploaded = 0
  · exact Or.inl hzero
  · exact Or.inr (Or.inl ⟨b, hb, hzero⟩)

theorem Marked.step (hmark : Marked base s) (hk : Kept cfg base s) (h : step cfg s l = some s') :
    Marked base s' := by
  by_cases hrestart : l = .restart
  · subst hrestart
    cases moves_of_step h with
    | restart p hp =>
      obtain ⟨raw, store, -, -, -, -, rfl⟩ := Pipeline.init_cases hp
      refine ⟨Uploader.aimed_init _, fun hids => ⟨?_, fun _ _ _ hpc => by cases hpc⟩⟩
      intro r hr
      have hold := (hmark.flagged hids).rows r (s.shared ▸ hr)
      refine hold.imp_right fun hset => hset.imp_right ?_
      rintro ⟨x, hx, hrow⟩
      refine ⟨x, List.mem_append_left _ ?_, hrow⟩
      simp only [State.pastHanded, State.lives, List.flatMap_append, List.flatMap_singleton]
      exact hx
  · have hpast : s'.past = s.past := past_step h hrestart
    have hinv := Run.exec_invariant (I := fun u : Uploader.State w => Uploader.Aimed u ∧
        (u.db.seq < 2 ^ 31 → Flagged base s.pastHanded u))
      (fun u l u' hu hstep => ⟨hu.1.step hstep, fun hids =>
        have hbefore := Nat.lt_of_le_of_lt (Uploader.seq_le_step hstep) hids
        (hu.2 hbefore).step (hu.1.named hbefore) hstep⟩)
      ⟨hmark.aimed, fun hids => hmark.flagged (seq_eq s ▸ hids)⟩
      (uploader_step hk.sound h hrestart)
    refine ⟨hinv.1, fun hids => ?_⟩
    rw [State.pastHanded, hpast]
    exact hinv.2 (seq_eq s' ▸ hids)

/-- The line handed over for a row is that of the row. -/
theorem line_of_handed (hk : Kept cfg base s) {x : Handover} (hx : x ∈ s.handed) {k : ℕ}
    {b : Record} (hb : (k, b) ∈ s.db.rows) (hrow : x.row = k) :
    x.line = lineOf (uploaderConfig cfg) b := by
  obtain ⟨b', hb', hsame⟩ := hk.ledger.mem (uploaderConfig cfg) hb
  have hledger : ∃ b₁, (x.row, b₁) ∈ s.front base ++ s.pipeline.hist.written ∧
      x.line = lineOf (uploaderConfig cfg) b₁ := by
    simp only [State.handed, State.lives, State.life, List.flatMap_append,
      List.flatMap_singleton] at hx
    rcases List.mem_append.1 hx with hx | hx
    · obtain ⟨b₁, hb₁, hline⟩ := hk.pastLines x hx
      exact ⟨b₁, List.mem_append_left _ hb₁, hline⟩
    · exact hk.lines x.row x.line (Or.inl ⟨x, hx, rfl, rfl⟩)
  obtain ⟨b₁, hb₁, hline⟩ := hledger
  have hinj := List.inj_on_of_nodup_map
    (List.Pairwise.imp (fun hlt => Nat.ne_of_lt hlt)
      (List.pairwise_map.2 hk.ledger.ids)) hb₁ hb' hrow
  rw [hline, hsame, (Prod.mk.inj hinj).2]

/-- **A shutdown leaves nothing behind**: when the program has gone through
its shutdown, in whatever order its threads have run and however often it
was started before, and the uploader's connection has held, every row in
the table has been handed over, unless it has used up its tries. -/
theorem closed_delivers {s₀ : State w} (h₀ : init w base = some s₀)
    (hsql : ∀ l ∈ ls, l.uploadSqlOk = true) (h : Run.exec (step cfg) s₀ ls = some s)
    (hids : s.db.seq < 2 ^ 31) (hbatch : 1 ≤ cfg.uploadBatchMax) (henabled : cfg.uploadEnabled ≠ 0)
    (hclosed : s.tail = .closed) (honline : Online s.uploader) {k : ℕ} {b : Record}
    (hb : (k, b) ∈ s.db.rows) :
    (∃ x ∈ s.handed, x.row = k ∧ x.line = lineOf (uploaderConfig cfg) b) ∨
      cfg.uploadRetryMax ≤ b.uploadRetry ∨ ∃ b₀, (k, b₀) ∈ base.rows ∧ b₀.uploaded ≠ 0 := by
  obtain ⟨hk, hend, hin, hmark⟩ := Run.exec_invariant_along
    (I := fun t => Kept cfg base t ∧ Ending cfg t ∧ InDrain (uploaderConfig cfg) t.uploader ∧
      Marked base t) (C := fun _ l => l.uploadSqlOk = true)
    (fun t l t' hI hl ht => ⟨hI.1.step ht, hI.2.1.step hI.1.sound ht,
      hI.2.1.drains_step hI.1.sound hbatch hI.2.2.1 hl ht, hI.2.2.2.step hI.1 ht⟩)
    ⟨kept_init h₀, ending_start h₀, inDrain_init h₀, marked_init h₀⟩
    (Run.along_of_forall hsql s₀) h
  have hstopped : s.uploader.pc = .stopped := (hend.closed hclosed).resolve_left henabled
  obtain ⟨u₀, n, hd, rt, -, -, -, hpoint⟩ := hin (by rw [hstopped]; rfl) honline
  rw [hstopped] at hpoint
  have hemptied : eligible (uploaderConfig cfg) b = false := hpoint (k, b) (s.shared ▸ hb)
  obtain hzero | hset | ⟨x, hx, hrow⟩ := (hmark.flagged hids).rows (k, b) (s.shared ▸ hb)
  · refine Or.inr (Or.inl (Int.not_lt.1 fun hlt => ?_))
    rw [eligible, decide_eq_true hzero, Bool.true_and, decide_eq_false_iff_not] at hemptied
    exact hemptied hlt
  · exact Or.inr (Or.inr hset)
  · have hhanded : x ∈ s.handed := by
      simp only [State.handed, State.lives, State.life, List.flatMap_append,
        List.flatMap_singleton]
      exact hx
    exact Or.inl ⟨x, hhanded, hrow, line_of_handed hk hhanded hb hrow⟩

/-- The uploader connects, and finds nothing to send. -/
def findNone : List Label :=
  ([.tau, .connect true, .sql .ok, .tau, .sql .ok, .tau] : List Uploader.Label).map .uploader

/-- Its drain sends one row, and stops when there are no more. -/
def drainOne : List Label :=
  ([.tau, .tau, .sql .ok, .sql .ok, .send lineLength, .sql .ok, .sql .ok] ++
    [.tau, .sql .ok, .sql .ok, .tau, .tau] : List Uploader.Label).map .uploader

/-- A shutdown with one sample in `store_queue`. -/
def closedRun : List Label :=
  findNone ++ Pipeline.drainedRun.map .pipeline ++ .tail :: (drainOne ++ [.tail])

/-- The sample is stored in the drain of the store thread, and sent in that
of the uploader. -/
theorem closed_delivers_sample :
    ∃ s₀ s : State 32, init 32 AutoTable.empty = some s₀ ∧
      Run.exec (step Config.configSetDefault) s₀ closedRun = some s ∧
      s.db.rows.map Prod.fst = [1] ∧
      ∀ k b, (k, b) ∈ s.db.rows →
        (∃ x ∈ s.handed, x.row = k ∧
          x.line = lineOf (uploaderConfig Config.configSetDefault) b) ∨
        Config.configSetDefault.uploadRetryMax ≤ b.uploadRetry ∨
          ∃ b₀, (k, b₀) ∈ (AutoTable.empty : Samples).rows ∧ b₀.uploaded ≠ 0 := by
  obtain ⟨s₀, s, h₀, h, hp⟩ := exists_of_run closedRun
    (fun s => decide (s.db.rows.map Prod.fst = [1] ∧ s.db.seq < 2 ^ 31 ∧ s.tail = .closed ∧
      s.uploader.connected = true ∧ s.uploader.sock.isSome = true)) (by decide +kernel)
  obtain ⟨hrows, hids, hclosed, honline⟩ := of_decide_eq_true hp
  exact ⟨s₀, s, h₀, h, hrows, fun k b hb => closed_delivers h₀ (by decide +kernel) h hids
    (by decide) (by decide) hclosed honline hb⟩

end Gateway

end WaterGateway
