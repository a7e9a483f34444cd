import WaterGateway.Uploader.Once
import WaterGateway.Uploader.Retry

/-!
# The upload counter

`uploaded_count` counts the marks that were attempted. As long as every
mark succeeds, these are the rows whose flag the run has set, and a row
that has been handed over is never selected again. A mark that fails leaves
its row in the table as it was: the counter is ahead by one, and the row is
sent again.
-/

namespace WaterGateway

namespace Uploader

variable {w : ℕ} {cfg : Config} {s s₀ s' : State w} {l : Label} {ls : List Label}
  {db db₀ : Samples}

/-- A row is uploaded, and was not at the start. -/
def newlyUploaded (db₀ : Samples) (r : ℕ × Record) : Bool :=
  decide (r.2.uploaded = 1) && db₀.rows.all fun r₀ => r₀.1 = r.1 → r₀.2.uploaded = 0

/-- How many rows have been uploaded since the start. -/
def uploadedSince (db₀ db : Samples) : ℕ := db.rows.countP (newlyUploaded db₀)

/-- **The counter tells the truth, and no line is sent twice.** -/
structure TellsTruth (db₀ : Samples) (s : State w) : Prop where
  count : s.uploadedCount = BitVec.ofNat w (uploadedSince db₀ s.db)
  once : (s.handed.map Handover.row).Nodup

/-- All `id`s are `int`s, and no row is trimmed. -/
structure KeepsRows (cfg : Config) (s : State w) (l : Label) : Prop where
  ids : s.db.seq < 2 ^ 31
  rows : ∀ s', step cfg s l = some s' → ∀ r ∈ s.db.rows, ∃ b, (r.1, b) ∈ s'.db.rows

/-- What a truthful run keeps. -/
structure Truthful (cfg : Config) (db₀ : Samples) (s : State w) : Prop where
  aimed : Aimed s
  held : Held cfg s
  present : Present s
  known : db₀.seq ≤ s.db.seq
  flags : ∀ k b, (k, b) ∈ s.db.rows → b.uploaded = 0 →
    ∀ b₀, (k, b₀) ∈ db₀.rows → b₀.uploaded = 0
  count : s.uploadedCount = BitVec.ofNat w (uploadedSince db₀ s.db)
  sent : SentOnce s.handed s

/-- A statement of a trim. -/
def Label.trims : Label → Bool
  | .storeTrim .. => true
  | _ => false

/-! ## The count -/

/-- A count of a try leaves the flags. -/
theorem uploadedSince_incRetry (db₀ db : Samples) (sampleId : ℤ) (a : SqlAnswer) :
    uploadedSince db₀ (Store.sqliteStoreIncRetry db sampleId a).1 = uploadedSince db₀ db := by
  obtain hdb | hdb := Store.updateRow_cases db sampleId
    (fun b => { b with uploadRetry := b.uploadRetry + 1 }) a
  · rw [Store.sqliteStoreIncRetry, hdb, uploadedSince, AutoTable.rows_modify, List.countP_map]
    refine List.countP_congr fun r _ => ?_
    rw [Function.comp_apply, newlyUploaded]
    split <;> rfl
  · rw [Store.sqliteStoreIncRetry, hdb]

theorem uploadedSince_insert (db₀ db : Samples) (deviceId : List UChar) (sample : WaterSample) :
    uploadedSince db₀ (db.insert (Store.recordOf deviceId sample)) = uploadedSince db₀ db :=
  List.countP_append.trans (Nat.add_zero _)

/-- A mark that succeeds is counted. -/
theorem uploadedSince_mark {k : ℕ} {b : Record} (hk : k < 2 ^ 31) (hb : (k, b) ∈ db.rows)
    (hzero : b.uploaded = 0) (hstart : ∀ b₀, (k, b₀) ∈ db₀.rows → b₀.uploaded = 0) :
    uploadedSince db₀ (Store.sqliteStoreMarkUploaded db (Store.columnInt k) .ok).1 =
      uploadedSince db₀ db + 1 := by
  have hkey : (fun j : ℕ => decide ((j : ℤ) = (k : ℤ))) = fun j => decide (j = k) := by
    funext j
    simp
  rw [Store.columnInt_of_lt hk, Store.sqliteStoreMarkUploaded, Store.updateRow_ok, hkey]
  refine AutoTable.countP_modify_key hb ?_ ?_
  · simp [newlyUploaded, hzero]
  · simp only [newlyUploaded, decide_true, Bool.true_and, List.all_eq_true, decide_eq_true_eq]
    rintro ⟨j, b₀⟩ hb₀ rfl
    exact hstart b₀ hb₀

theorem Truthful.count_step (h : Truthful cfg db₀ s) (hkeeps : KeepsRows cfg s l)
    (hmark : MarkSucceeds s l) (hstep : step cfg s l = some s') :
    s'.uploadedCount = BitVec.ofNat w (uploadedSince db₀ s'.db) := by
  have hcount := h.count
  cases moves_of_step hstep with
  | marked a loop stmt sampleId hpc =>
    obtain rfl : a = .ok := hmark loop stmt sampleId a hpc rfl
    obtain ⟨hle, hid⟩ := h.aimed stmt sampleId (by rw [hpc]; rfl)
    obtain ⟨b, hb⟩ := h.present stmt sampleId (by rw [hpc]; rfl)
    have hzero : b.uploaded = 0 :=
      (uploaded_of_eligible (h.held stmt sampleId (by rw [hpc]; rfl) b hb)).1
    rw [hid, uploadedSince_mark (Nat.lt_of_le_of_lt hle hkeeps.ids) hb hzero (h.flags _ b hb hzero),
      BitVec.ofNat_add, ← hcount]
    rfl
  | counted a loop stmt sampleId connected sock hpc hsock =>
    rw [uploadedSince_incRetry]
    exact hcount
  | inserted deviceId sample a =>
    rw [uploadedSince_insert]
    exact hcount
  | trimmed maxCount pc a db hrows hseq =>
    have hall : db.rows = s.db.rows := AutoTable.rows_eq_of_sublist hrows (hkeeps.rows _ hstep)
    rw [uploadedSince, hall]
    exact hcount
  | idle | queried | tested | skipped | fetched | connected | connectFailed | sendFailed | sentSome
    | sentAll | shutdown | insertFailed | delivered | reset => exact hcount

/-! ## The step -/

theorem Truthful.flags_step (h : Truthful cfg db₀ s) (hkeeps : KeepsRows cfg s l)
    (hstep : step cfg s l = some s') :
    ∀ k b', (k, b') ∈ s'.db.rows → b'.uploaded = 0 →
      ∀ b₀, (k, b₀) ∈ db₀.rows → b₀.uploaded = 0 := by
  intro k b' hb' hzero b₀ hb₀
  obtain ⟨b, hb⟩ | ⟨hnew, -⟩ := key_step hstep hb'
  · refine h.flags k b hb ?_ b₀ hb₀
    obtain rfl | ⟨hel, -⟩ := status_step (h.aimed.named hkeeps.ids) h.held hstep hb hb'
    · exact hzero
    · exact (uploaded_of_eligible hel).1
  · have hle := (db₀.le_seq _ hb₀).trans h.known
    omega

theorem Truthful.step (h : Truthful cfg db₀ s) (hkeeps : KeepsRows cfg s l)
    (hmark : MarkSucceeds s l) (hstep : step cfg s l = some s') : Truthful cfg db₀ s' where
  aimed := h.aimed.step hstep
  held := h.held.step h.aimed hstep
  present := h.present.step hstep (hkeeps.rows s' hstep)
  known := h.known.trans (seq_le_step hstep)
  flags := h.flags_step hkeeps hstep
  count := h.count_step hkeeps hmark hstep
  sent := by
    obtain ⟨new, hhanded, hsent⟩ := h.sent.step (h.aimed.named hkeeps.ids) h.held h.present
      (hkeeps.rows s' hstep) hmark hstep
    rw [hhanded]
    exact hsent

theorem truthful_init (db : Samples) : Truthful cfg db (init w db) where
  aimed := aimed_init db
  held := held_init db
  present := fun _ _ haim => nomatch haim
  known := Nat.le_refl _
  flags := by
    intro k b hb hzero b₀ hb₀
    rw [AutoTable.row_unique hb₀ hb]
    exact hzero
  count := by
    have hnone : uploadedSince db db = 0 := by
      refine List.countP_eq_zero.2 fun r hr hnew => ?_
      obtain ⟨hone, hall⟩ := Bool.and_eq_true_iff.1 hnew
      have hone : r.2.uploaded = 1 := of_decide_eq_true hone
      have hzero : r.2.uploaded = 0 := of_decide_eq_true (List.all_eq_true.1 hall r hr) rfl
      omega
    change 0 = BitVec.ofNat w (uploadedSince db db)
    rw [hnone]
    rfl
  sent := sentOnce_nil _

/-- **A step tells the truth exactly when it makes no mark that fails.** -/
theorem tellsTruth_iff_step (hw : 0 < w) (h : Truthful cfg db₀ s) (hkeeps : KeepsRows cfg s l) :
    (∀ s', Uploader.step cfg s l = some s' → TellsTruth db₀ s') ↔ MarkSucceeds s l := by
  constructor
  · rintro htells loop stmt sampleId a hpc rfl
    by_contra ha
    obtain ⟨sampleId', s', -, hstep, hdb⟩ := update_step cfg (s := s) (by rw [hpc]; rfl) a
    -- the table stays as it is, but the counter moves on
    have hcount : s'.uploadedCount = s.uploadedCount + 1 := by
      obtain ⟨-, hworld⟩ | ⟨-, -, -, hcount⟩ := mark_after hstep hpc
      · cases hworld
      · exact hcount
    have hsame : s'.db = s.db := by rw [hdb, Store.updateRow, if_neg ha]
    have htells' := (htells s' hstep).count
    rw [hsame, ← h.count, hcount, BitVec.add_right_eq_self] at htells'
    exact absurd (BitVec.one_eq_zero_iff.1 htells') (Nat.ne_of_gt hw)
  · intro hmark s' hstep
    have hnext := h.step hkeeps hmark hstep
    exact ⟨hnext.count, hnext.sent.once⟩

/-! ## Runs -/

/-- **The upload counter tells the truth after every step of a run, and no
line is sent twice, if and only if no mark of the run fails**: in every run
in which no row is trimmed and the `id`s are `int`s. -/
theorem tellsTruth_iff (hw : 0 < w)
    (hkeeps : Run.Along (step cfg) (KeepsRows cfg) (init w db) ls) :
    Run.Along (step cfg) (fun s l => ∀ s', step cfg s l = some s' → TellsTruth db s')
        (init w db) ls ↔
      Run.Along (step cfg) MarkSucceeds (init w db) ls :=
  Run.along_congr (I := Truthful cfg db) (fun _ _ _ hI hE hD ht => hI.step hE hD ht)
    (fun _ _ hI hE => tellsTruth_iff_step hw hI hE) (truthful_init db) hkeeps

/-- A run whose labels hold no statement of a trim trims no row. -/
theorem keepsRows_of_labels (hls : ∀ l ∈ ls, l.trims = false)
    (h : Run.exec (step cfg) s₀ ls = some s) (hids : s.db.seq < 2 ^ 31) :
    Run.Along (step cfg) (KeepsRows cfg) s₀ ls := by
  refine Run.along_mono ?_ (Run.along_and (along_ids h hids) (Run.along_of_forall hls s₀))
  rintro t l ⟨hids, hl⟩
  refine ⟨hids, fun t' ht r hr => ?_⟩
  cases moves_of_step ht with
  | marked a loop stmt sampleId hpc => exact Store.exists_mem_updateRow hr
  | counted a loop stmt sampleId connected sock hpc hsock => exact Store.exists_mem_updateRow hr
  | inserted deviceId sample a => exact ⟨r.2, AutoTable.mem_insert.2 (Or.inl hr)⟩
  | trimmed => cases hl
  | idle | queried | tested | skipped | fetched | connected | connectFailed | sendFailed | sentSome
    | sentAll | shutdown | insertFailed | delivered | reset => exact ⟨r.2, hr⟩

/-- Both rows are sent and marked. -/
theorem tellsTruth_iff_two :
    Run.Along (step exampleConfig)
      (fun s l => ∀ s', step exampleConfig s l = some s' → TellsTruth twoRows s') (init 32 twoRows)
      (connectAndQuery ++ readOne ++ sendOne ++ readOne ++ sendOne) := by
  obtain ⟨s, h, hids⟩ := Run.exists_of_exec (step exampleConfig) (init 32 twoRows)
    (connectAndQuery ++ readOne ++ sendOne ++ readOne ++ sendOne)
    (fun s => s.db.seq < 2 ^ 31) (by decide +kernel)
  refine (tellsTruth_iff (by decide) (keepsRows_of_labels (by decide +kernel) h hids)).2 ?_
  refine Run.along_mono ?_
    (Run.along_of_forall (C := fun l => l.sqlOk = true) (by decide +kernel) _)
  rintro s l hl loop stmt sampleId a - rfl
  exact of_decide_eq_true hl

/-- Row 1 is sent, and its mark fails. -/
def failMark : List Label := [.send 100, .send (lineLength - 100), .sql .stepFailed]

/-- The batch ends, and the next is asked for. -/
def nextBatch : List Label := [.tau, .sql .ok, .tau, .tau, .sql .ok]

/-- **A mark that fails is counted, and its row is sent again**: three lines
are handed over and counted, and two rows are uploaded. -/
theorem failed_mark_counted :
    ∃ s : State 32, ∃ ls, Run.exec (step exampleConfig) (init 32 twoRows) ls = some s ∧
      ls = connectAndQuery ++ readOne ++ failMark ++ readOne ++ sendOne ++ nextBatch ++ readOne ++
        sendOne ∧
      Run.Along (step exampleConfig) (KeepsRows exampleConfig) (init 32 twoRows) ls ∧
      s.uploadedCount = 3 ∧ uploadedSince twoRows s.db = 2 ∧
      s.handed.map Handover.row = [1, 2, 1] ∧ ¬ TellsTruth twoRows s := by
  obtain ⟨s, h, hids, hcount, hsince, hrows⟩ := Run.exists_of_exec (step exampleConfig)
    (init 32 twoRows) (connectAndQuery ++ readOne ++ failMark ++ readOne ++ sendOne ++ nextBatch ++
      readOne ++ sendOne)
    (fun s => s.db.seq < 2 ^ 31 ∧ s.uploadedCount = 3 ∧ uploadedSince twoRows s.db = 2 ∧
      s.handed.map Handover.row = [1, 2, 1]) (by decide +kernel)
  refine ⟨s, _, h, rfl, keepsRows_of_labels (by decide +kernel) h hids, hcount, hsince, hrows,
    fun htells => ?_⟩
  have honce := htells.once
  rw [hrows] at honce
  exact absurd honce (by decide)

end Uploader

end WaterGateway
