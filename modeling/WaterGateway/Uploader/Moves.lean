import WaterGateway.Uploader.Model

/-!
# What a step of the uploader does

`Moves` lists the steps by their effect, and `moves_of_step` is the one
place where the step function is taken apart.
-/

namespace WaterGateway

namespace Uploader

variable {w : ℕ} {cfg : Config} {s s' : State w} {l : Label}

/-- A point with no row in hand and no cursor in use. -/
def Pc.idle : Pc → Bool
  | .outer | .connect | .query _ | .finalize _ _ | .drainTest | .closing | .stopped => true
  | _ => false

/-- A point between the read of a row and the end of its handling. -/
def Pc.busy : Pc → Bool
  | .send .. | .mark .. | .incRetry .. => true
  | _ => false

theorem busy_of_idle {pc : Pc} (h : pc.idle = true) : pc.busy = false := by
  cases pc with
  | send | mark | incRetry => cases h
  | outer | connect | query | inner | read | finalize | drainTest | closing | stopped => rfl

/-- A point in the drain loop or behind it. -/
def Pc.draining : Pc → Bool
  | .query .drain | .read .drain _ _ | .send .drain .. | .mark .drain .. | .incRetry .drain ..
  | .finalize .drain _ | .closing | .stopped => true
  | _ => false

/-- The SQL statement of the thread, if there is one, succeeds. -/
def Label.sqlOk : Label → Bool
  | .sql a => a = .ok
  | _ => true

/-- A `send` that fails. -/
def Label.sendFails : Label → Bool
  | .send r => r ≤ 0
  | _ => false

/-- A step of the world around the thread. -/
def Label.world : Label → Bool
  | .shutdown | .storeInsert .. | .storeTrim .. | .deliver .. | .reset _ => true
  | _ => false

/-- Where a batch starts. -/
def begin (cfg : Config) : Loop → Pc
  | .main => .inner (query cfg) false
  | .drain => .read .drain (query cfg) false

/-- **The steps by their effect.** `idle` are the steps that only leave a
cursor or move between points without one; the facts it carries are those
the drain loop is reasoned about with. -/
inductive Moves (cfg : Config) (s : State w) : Label → State w → Prop
  | idle (l : Label) (pc : Pc) (hl : l.sendFails = false) (hs : s.pc.busy = false)
      (hpc : pc.idle = true)
      (hfinalize : ∀ drained, pc = .finalize .drain drained →
        ∃ stmt, s.pc = .read .drain stmt drained ∧ (l.sqlOk = true → fetch cfg s.db stmt = none))
      (hclosing : pc = .closing →
        s.pc = .finalize .drain false ∨ s.pc = .drainTest ∨
          (s.pc = .query .drain ∧ l.sqlOk = false))
      (hstopped : pc = .stopped → s.pc = .closing)
      (hdraining : s.pc.draining = true → pc.draining = true) :
      Moves cfg s l { s with pc := pc }
  | queried (loop : Loop) (hpc : s.pc = .query loop) :
      Moves cfg s (.sql .ok) { s with pc := begin cfg loop }
  | tested (stmt : Stmt) (hasData : Bool) (hpc : s.pc = .inner stmt hasData) :
      Moves cfg s .tau { s with pc := .read .main stmt hasData }
  | skipped (loop : Loop) (stmt : Stmt) (hasData : Bool) (k : ℕ) (b : Record)
      (hpc : s.pc = .read loop stmt hasData) (hfetch : fetch cfg s.db stmt = some (k, b))
      (hlong : jsonSize ≤ (lineOf cfg b).length) :
      Moves cfg s (.sql .ok) { s with pc := again loop ⟨k, stmt.limit - 1⟩ }
  | fetched (loop : Loop) (stmt : Stmt) (hasData : Bool) (k : ℕ) (b : Record)
      (hpc : s.pc = .read loop stmt hasData) (hfetch : fetch cfg s.db stmt = some (k, b))
      (hshort : (lineOf cfg b).length < jsonSize) :
      Moves cfg s (.sql .ok) { s with
        pc := .send loop ⟨k, stmt.limit - 1⟩ (Store.columnInt k) (lineOf cfg b) 0 }
  | marked (a : SqlAnswer) (loop : Loop) (stmt : Stmt) (sampleId : ℤ)
      (hpc : s.pc = .mark loop stmt sampleId) :
      Moves cfg s (.sql a) { s with
        db := (Store.sqliteStoreMarkUploaded s.db sampleId a).1
        uploadedCount := s.uploadedCount + 1
        pc := again loop stmt }
  | counted (a : SqlAnswer) (loop : Loop) (stmt : Stmt) (sampleId : ℤ) (connected : Bool)
      (sock : Option ℕ) (hpc : s.pc = .incRetry loop stmt sampleId)
      (hsock : (loop = .main ∧ sock = none) ∨ (loop = .drain ∧ sock = s.sock)) :
      Moves cfg s (.sql a) { s with
        db := (Store.sqliteStoreIncRetry s.db sampleId a).1
        failedCount := s.failedCount + 1
        connected := connected
        sock := sock
        pc := .finalize loop true }
  | connected (hpc : s.pc = .connect) :
      Moves cfg s (.connect true) { s with
        net := s.net ++ [Link.fresh]
        sock := some s.net.length
        connected := true
        pc := .query .main }
  | connectFailed (hpc : s.pc = .connect) :
      Moves cfg s (.connect false) { s with sock := none, pc := .outer }
  | sendFailed (r : ℤ) (loop : Loop) (stmt : Stmt) (sampleId : ℤ) (line : List UChar) (sent : ℕ)
      (net : List (Link UChar)) (hpc : s.pc = .send loop stmt sampleId line sent) (hr : r ≤ 0)
      (hnet : (link? s = none ∧ net = s.net) ∨
        ∃ i c, link? s = some (i, c) ∧ net = s.net.set i c.fail) :
      Moves cfg s (.send r) { s with net := net, pc := .incRetry loop stmt sampleId }
  | sentSome (r : ℤ) (loop : Loop) (stmt : Stmt) (sampleId : ℤ) (line : List UChar) (sent : ℕ)
      (i : ℕ) (c : Link UChar) (hpc : s.pc = .send loop stmt sampleId line sent) (hr : 0 < r)
      (hlink : link? s = some (i, c)) (hopen : c.broken = false)
      (hsent : sent + r.toNat < line.length) :
      Moves cfg s (.send r) { s with
        net := s.net.set i (c.append ((line.drop sent).take r.toNat))
        pc := .send loop stmt sampleId line (sent + r.toNat) }
  | sentAll (r : ℤ) (loop : Loop) (stmt : Stmt) (sampleId : ℤ) (line : List UChar) (sent : ℕ)
      (i : ℕ) (c : Link UChar) (hpc : s.pc = .send loop stmt sampleId line sent) (hr : 0 < r)
      (hlink : link? s = some (i, c)) (hopen : c.broken = false)
      (hsent : sent + r.toNat = line.length) :
      Moves cfg s (.send r) { s with
        net := s.net.set i (c.append ((line.drop sent).take r.toNat))
        handed := s.handed ++ [⟨stmt.last, i, line⟩]
        pc := .mark loop stmt sampleId }
  | shutdown : Moves cfg s .shutdown { s with shutdown := true }
  | inserted (deviceId : List UChar) (sample : WaterSample) (a : SqlAnswer) :
      Moves cfg s (.storeInsert deviceId sample a)
        { s with db := s.db.insert (Store.recordOf deviceId sample) }
  | insertFailed (deviceId : List UChar) (sample : WaterSample) (a : SqlAnswer) :
      Moves cfg s (.storeInsert deviceId sample a) s
  | trimmed (maxCount : ℤ) (pc : Store.TrimPc) (a : SqlAnswer) (db : Samples)
      (hrows : db.rows.Sublist s.db.rows) (hseq : db.seq = s.db.seq) :
      Moves cfg s (.storeTrim maxCount pc a) { s with db := db }
  | delivered (i n : ℕ) :
      Moves cfg s (.deliver i n) { s with net := s.net.modify i fun c => c.deliver n }
  | reset (i : ℕ) : Moves cfg s (.reset i) { s with net := s.net.modify i Link.reset }

theorem moves_tau (h : tauStep s = some s') : Moves cfg s .tau s' := by
  unfold tauStep at h
  split at h
  · next hpc =>
    cases h
    refine Moves.idle .tau _ rfl (by rw [hpc]; rfl) ?_ ?_ ?_ ?_ (by simp [hpc, Pc.draining])
    · split
      · rfl
      · split <;> rfl
    · intro drained hd
      split at hd
      · cases hd
      · split at hd <;> cases hd
    · intro hd
      split at hd
      · cases hd
      · split at hd <;> cases hd
    · intro hd
      split at hd
      · cases hd
      · split at hd <;> cases hd
  · next stmt hasData hpc =>
    cases h
    split
    · exact Moves.idle .tau _ rfl (by rw [hpc]; rfl) rfl (fun drained hd => by cases hd)
        (fun hd => by cases hd) (fun hd => by cases hd) (by simp [hpc, Pc.draining])
    · exact Moves.tested stmt hasData hpc
  · next hasData hpc =>
    cases h
    exact Moves.idle .tau _ rfl (by rw [hpc]; rfl) rfl (fun drained hd => by cases hd)
      (fun hd => by cases hd) (fun hd => by cases hd) (by simp [hpc, Pc.draining])
  · next drained hpc =>
    cases h
    refine Moves.idle .tau _ rfl (by rw [hpc]; rfl) ?_ ?_ ?_ ?_ ?_
    · split <;> rfl
    · intro drained' hd
      split at hd <;> cases hd
    · intro hd
      split at hd
      · cases hd
      · next hnot =>
        rw [Bool.not_eq_true] at hnot
        exact Or.inl (hnot ▸ hpc)
    · intro hd
      split at hd <;> cases hd
    · intro _
      split <;> rfl
  · next hpc =>
    cases h
    refine Moves.idle .tau _ rfl (by rw [hpc]; rfl) ?_ ?_ (fun _ => Or.inr (Or.inl hpc)) ?_
      (by simp [hpc, Pc.draining])
    · split <;> rfl
    · intro drained' hd
      split at hd <;> cases hd
    · intro hd
      split at hd <;> cases hd
  · next hpc =>
    cases h
    exact Moves.idle .tau _ rfl (by rw [hpc]; rfl) rfl (fun drained hd => by cases hd)
      (fun hd => by cases hd) (fun _ => hpc) (fun _ => rfl)
  · cases h

theorem moves_connect {ok : Bool} (h : connectStep s ok = some s') :
    Moves cfg s (.connect ok) s' := by
  unfold connectStep at h
  split at h
  · next hpc =>
    cases ok with
    | true => cases h; exact Moves.connected hpc
    | false => cases h; exact Moves.connectFailed hpc
  · cases h

theorem moves_sql {a : SqlAnswer} (h : sqlStep cfg s a = some s') : Moves cfg s (.sql a) s' := by
  unfold sqlStep at h
  split at h
  · next hpc =>
    cases h
    split
    · next ha =>
      subst ha
      exact Moves.queried .main hpc
    · exact Moves.idle _ _ rfl (by rw [hpc]; rfl) rfl (fun drained hd => by cases hd)
        (fun hd => by cases hd) (fun hd => by cases hd) (by simp [hpc, Pc.draining])
  · next hpc =>
    cases h
    split
    · next ha =>
      subst ha
      exact Moves.queried .drain hpc
    · next ha =>
      exact Moves.idle _ _ rfl (by rw [hpc]; rfl) rfl (fun drained hd => by cases hd)
        (fun _ => Or.inr (Or.inr ⟨hpc, decide_eq_false ha⟩))
        (fun hd => by cases hd) (fun _ => rfl)
  · next loop stmt hasData hpc =>
    have hdone : ∀ a : SqlAnswer, (a = .ok → fetch cfg s.db stmt = none) →
        Moves cfg s (.sql a) { s with pc := .finalize loop hasData } := by
      intro a ha
      refine Moves.idle _ _ rfl (by rw [hpc]; rfl) rfl ?_ (fun hd => by cases hd)
        (fun hd => by cases hd) ?_
      · intro drained hd
        cases hd
        exact ⟨stmt, hpc, fun hl => ha (of_decide_eq_true hl)⟩
      · intro hd
        rw [hpc] at hd
        cases loop with
        | main => cases hd
        | drain => rfl
    split at h
    · next ha =>
      subst ha
      split at h
      · next hfetch =>
        cases h
        exact hdone _ fun _ => hfetch
      · next k b hfetch =>
        cases h
        split
        · next hshort => exact Moves.fetched loop stmt hasData k b hpc hfetch hshort
        · next hlong =>
          exact Moves.skipped loop stmt hasData k b hpc hfetch (Nat.le_of_not_lt hlong)
    · next ha =>
      cases h
      exact hdone _ fun hok => absurd hok ha
  · next loop stmt sampleId hpc =>
    cases h
    exact Moves.marked a loop stmt sampleId hpc
  · next stmt sampleId hpc =>
    cases h
    exact Moves.counted a .main stmt sampleId false none hpc (Or.inl ⟨rfl, rfl⟩)
  · next stmt sampleId hpc =>
    cases h
    exact Moves.counted a .drain stmt sampleId s.connected s.sock hpc (Or.inr ⟨rfl, rfl⟩)
  · cases h

theorem moves_send {r : ℤ} (h : sendStep s r = some s') : Moves cfg s (.send r) s' := by
  unfold sendStep at h
  split at h
  · next loop stmt sampleId line sent hpc =>
    split at h
    · next hr =>
      cases h
      refine Moves.sendFailed r loop stmt sampleId line sent _ hpc hr ?_
      split
      · next i c hlink => exact Or.inr ⟨i, c, hlink, rfl⟩
      · next hlink => exact Or.inl ⟨hlink, rfl⟩
    · next hr =>
      split at h
      · cases h
      · next i c hlink =>
        dsimp only at h
        split at h
        · cases h
        · next hfits =>
          obtain ⟨hopen, hlen⟩ := not_or.1 hfits
          rw [Bool.not_eq_true] at hopen
          split at h
          · next hmore =>
            cases h
            exact Moves.sentSome r loop stmt sampleId line sent i c hpc (by omega) hlink hopen hmore
          · next hmore =>
            cases h
            exact Moves.sentAll r loop stmt sampleId line sent i c hpc (by omega) hlink hopen
              (by omega)
  · cases h

/-- **Every step is one of the list.** -/
theorem moves_of_step (h : step cfg s l = some s') : Moves cfg s l s' := by
  cases l with
  | shutdown => cases h; exact Moves.shutdown
  | tau => exact moves_tau h
  | connect ok => exact moves_connect h
  | sql a => exact moves_sql h
  | send r => exact moves_send h
  | storeInsert deviceId sample a =>
    cases h
    obtain hins | hins := Store.insert_cases s.db deviceId sample a
    · rw [hins]
      exact Moves.inserted deviceId sample a
    · rw [hins]
      exact Moves.insertFailed deviceId sample a
  | storeTrim maxCount pc a =>
    cases h
    obtain ⟨hrows, hseq⟩ := Store.trimStep_sublist maxCount s.db pc a
    exact Moves.trimmed maxCount pc a _ hrows hseq
  | deliver i n => cases h; exact Moves.delivered i n
  | reset i => cases h; exact Moves.reset i

/-- What the cursor steps to: the first row it selects past the one it is
on. -/
theorem fetch_eq_some {db : Samples} {stmt : Stmt} {k : ℕ} {b : Record}
    (h : fetch cfg db stmt = some (k, b)) :
    (k, b) ∈ db.rows ∧ stmt.last < k ∧ eligible cfg b = true ∧
      ∀ r ∈ db.rows, stmt.last < r.1 → eligible cfg r.2 = true → k ≤ r.1 := by
  unfold fetch at h
  split at h
  · cases h
  · exact AutoTable.next_eq_some h

/-- **A line that is being sent after a step** was being sent before it, or
is that of a row the step has read. -/
theorem send_before (h : step cfg s l = some s') {loop : Loop} {stmt : Stmt} {sampleId : ℤ}
    {line : List UChar} {sent : ℕ} (hpc : s'.pc = .send loop stmt sampleId line sent) :
    (∃ sent', s.pc = .send loop stmt sampleId line sent') ∨
      ∃ b, (stmt.last, b) ∈ s.db.rows ∧ line = lineOf cfg b ∧ s'.db = s.db := by
  cases moves_of_step h with
  | idle l pc hl hs hidle =>
    rw [show pc = .send loop stmt sampleId line sent from hpc] at hidle
    cases hidle
  | fetched loop' stmt' hasData k b hpc' hfetch hshort =>
    cases hpc
    exact Or.inr ⟨b, (fetch_eq_some hfetch).1, rfl, rfl⟩
  | queried loop' | skipped loop' | marked a loop' => cases loop' <;> cases hpc
  | tested | counted | connected | connectFailed | sendFailed | sentAll => cases hpc
  | sentSome r loop' stmt' sampleId' line' sent' i c hpc' =>
    cases hpc
    exact Or.inl ⟨sent', hpc'⟩
  | shutdown | inserted | insertFailed | trimmed | delivered | reset => exact Or.inl ⟨sent, hpc⟩

/-- **A row about to be marked after a step** was so before it, and then it
is a step of the world; or the step has handed the row over. -/
theorem mark_before (h : step cfg s l = some s') {loop : Loop} {stmt : Stmt} {sampleId : ℤ}
    (hpc : s'.pc = .mark loop stmt sampleId) :
    (s.pc = .mark loop stmt sampleId ∧ l.world = true) ∨
      ∃ r i line, l = .send r ∧ s'.handed = s.handed ++ [⟨stmt.last, i, line⟩] := by
  cases moves_of_step h with
  | sentAll r loop' stmt' sampleId' line sent i c hpc' =>
    cases hpc
    exact Or.inr ⟨r, i, line, rfl, rfl⟩
  | idle l pc hl hs hidle =>
    rw [show pc = .mark loop stmt sampleId from hpc] at hidle
    cases hidle
  | queried loop' | skipped loop' | marked a loop' => cases loop' <;> cases hpc
  | tested | fetched | counted | connected | connectFailed | sendFailed | sentSome => cases hpc
  | shutdown | inserted | insertFailed | trimmed | delivered | reset => exact Or.inl ⟨hpc, rfl⟩

/-- **A row whose try is about to be counted after a step** was so before
it, and then it is a step of the world; or its send has just failed. -/
theorem incRetry_before (h : step cfg s l = some s') {loop : Loop} {stmt : Stmt} {sampleId : ℤ}
    (hpc : s'.pc = .incRetry loop stmt sampleId) :
    (s.pc = .incRetry loop stmt sampleId ∧ l.world = true) ∨
      ∃ r line sent, l = .send r ∧ r ≤ 0 ∧ s.pc = .send loop stmt sampleId line sent := by
  cases moves_of_step h with
  | sendFailed r loop' stmt' sampleId' line sent net hpc' hr =>
    cases hpc
    exact Or.inr ⟨r, line, sent, rfl, hr, hpc'⟩
  | idle l pc hl hs hidle =>
    rw [show pc = .incRetry loop stmt sampleId from hpc] at hidle
    cases hidle
  | queried loop' | skipped loop' | marked a loop' => cases loop' <;> cases hpc
  | tested | fetched | counted | connected | connectFailed | sentAll | sentSome => cases hpc
  | shutdown | inserted | insertFailed | trimmed | delivered | reset => exact Or.inl ⟨hpc, rfl⟩

/-- **What a step hands over**: nothing, or the row that was being sent and
is to be marked now. -/
theorem handed_before (h : step cfg s l = some s') : s'.handed = s.handed ∨
    ∃ loop stmt sampleId line sent i, s.pc = .send loop stmt sampleId line sent ∧
      s'.pc = .mark loop stmt sampleId ∧ s'.db = s.db ∧
      s'.handed = s.handed ++ [⟨stmt.last, i, line⟩] := by
  cases moves_of_step h with
  | sentAll r loop stmt sampleId line sent i c hpc =>
    exact Or.inr ⟨loop, stmt, sampleId, line, sent, i, hpc, rfl, rfl, rfl⟩
  | idle | queried | tested | skipped | fetched | marked | counted | connected | connectFailed
    | sendFailed | sentSome | shutdown | inserted | insertFailed | trimmed | delivered | reset =>
    exact Or.inl rfl

theorem link_eq_some {i : ℕ} {c : Link UChar} :
    link? s = some (i, c) ↔ s.sock = some i ∧ s.net[i]? = some c := by
  unfold link?
  cases hsock : s.sock with
  | none => simp
  | some j =>
    simp only [Option.bind_some, Option.map_eq_some_iff, Prod.mk.injEq, Option.some.injEq]
    constructor
    · rintro ⟨c', hc', rfl, rfl⟩
      exact ⟨rfl, hc'⟩
    · rintro ⟨rfl, hc⟩
      exact ⟨c, hc, rfl, rfl⟩

/-! ## What a step does to a row -/

/-- A row is there before a step, or the step has inserted it. -/
theorem key_step (h : step cfg s l = some s') {k : ℕ} {b' : Record} (hb' : (k, b') ∈ s'.db.rows) :
    (∃ b, (k, b) ∈ s.db.rows) ∨ (k = s.db.seq + 1 ∧ b'.uploaded = 0 ∧ b'.uploadRetry = 0) := by
  cases moves_of_step h with
  | marked a loop stmt sampleId hpc =>
    obtain ⟨b, hb, -⟩ := Store.mem_updateRow hb'
    exact Or.inl ⟨b, hb⟩
  | counted a loop stmt sampleId connected sock hpc hsock =>
    obtain ⟨b, hb, -⟩ := Store.mem_updateRow hb'
    exact Or.inl ⟨b, hb⟩
  | inserted deviceId sample a =>
    rcases AutoTable.mem_insert.1 hb' with hin | heq
    · exact Or.inl ⟨b', hin⟩
    · obtain ⟨rfl, rfl⟩ := Prod.mk.inj heq
      exact Or.inr ⟨rfl, rfl, rfl⟩
  | trimmed maxCount pc a db hrows hseq => exact Or.inl ⟨b', hrows.subset hb'⟩
  | idle | queried | tested | skipped | fetched | connected | connectFailed | sendFailed | sentSome
    | sentAll | shutdown | insertFailed | delivered | reset => exact Or.inl ⟨b', hb'⟩

/-- **What a step does to a row**: nothing, or it is marked, or a try of it
is counted. -/
theorem row_step (h : step cfg s l = some s') {k : ℕ} {b b' : Record} (hb : (k, b) ∈ s.db.rows)
    (hb' : (k, b') ∈ s'.db.rows) :
    b' = b ∨
      (∃ loop stmt sampleId, s.pc = .mark loop stmt sampleId ∧ l = .sql .ok ∧
        (k : ℤ) = sampleId ∧ b' = { b with uploaded := 1 }) ∨
      ∃ loop stmt sampleId, s.pc = .incRetry loop stmt sampleId ∧ l = .sql .ok ∧
        (k : ℤ) = sampleId ∧ b' = { b with uploadRetry := b.uploadRetry + 1 } := by
  cases moves_of_step h with
  | marked a loop stmt sampleId hpc =>
    obtain hsame | ⟨rfl, hk, heq⟩ := Store.row_updateRow hb hb'
    · exact Or.inl hsame
    · exact Or.inr (Or.inl ⟨loop, stmt, sampleId, hpc, rfl, hk, heq⟩)
  | counted a loop stmt sampleId connected sock hpc hsock =>
    obtain hsame | ⟨rfl, hk, heq⟩ := Store.row_updateRow hb hb'
    · exact Or.inl hsame
    · exact Or.inr (Or.inr ⟨loop, stmt, sampleId, hpc, rfl, hk, heq⟩)
  | inserted deviceId sample a =>
    rcases AutoTable.mem_insert.1 hb' with hin | heq
    · exact Or.inl (AutoTable.row_unique hin hb)
    · have hle := s.db.le_seq _ hb
      rw [(Prod.mk.inj heq).1] at hle
      exact absurd hle (Nat.not_succ_le_self _)
  | trimmed maxCount pc a db hrows hseq =>
    exact Or.inl (AutoTable.row_unique (hrows.subset hb') hb)
  | idle | queried | tested | skipped | fetched | connected | connectFailed | sendFailed | sentSome
    | sentAll | shutdown | insertFailed | delivered | reset =>
    exact Or.inl (AutoTable.row_unique hb' hb)

end Uploader

end WaterGateway
