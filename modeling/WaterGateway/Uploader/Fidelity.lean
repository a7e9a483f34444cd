import WaterGateway.Uploader.Delivery

/-!
# What a line says

A row keeps the device it was inserted for, but the line that is sent for
it names the device of the uploader that sends it. The time stamp, the two
status words and the sequence number come through unchanged: through the
signed columns, the cursor and the text, also over restarts.
-/

namespace WaterGateway

namespace Uploader

/-! ## A line can be read in one way -/

/-- The values of a sample that a line carries exactly. -/
structure SameValues (sample sample' : WaterSample) : Prop where
  timestampMs : sample.timestampMs = sample'.timestampMs
  sensorStatus : sample.sensorStatus = sample'.sensorStatus
  alarmStatus : sample.alarmStatus = sample'.alarmStatus
  sequence : sample.sequence = sample'.sequence

theorem SameValues.symm {sample sample' : WaterSample} (h : SameValues sample sample') :
    SameValues sample' sample :=
  ⟨h.timestampMs.symm, h.sensorStatus.symm, h.alarmStatus.symm, h.sequence.symm⟩

theorem SameValues.trans {sample₁ sample₂ sample₃ : WaterSample} (h : SameValues sample₁ sample₂)
    (h' : SameValues sample₂ sample₃) : SameValues sample₁ sample₃ :=
  ⟨h.timestampMs.trans h'.timestampMs, h.sensorStatus.trans h'.sensorStatus,
    h.alarmStatus.trans h'.alarmStatus, h.sequence.trans h'.sequence⟩

/-- **What a line carries**: it is the text of this device and of a sample
with these values. -/
def Carries (line deviceId : List UChar) (sample : WaterSample) : Prop :=
  ∃ sample', SameValues sample sample' ∧ line = uploaderBuildJson deviceId sample'

/-- `'"'`. -/
def quote : UChar := 34

/-- The quotes behind the device do not depend on the sample. -/
theorem count_quote_members (sample : WaterSample) : (members sample).count quote = 17 := by
  have hnum : ∀ l : List UChar, l ⊆ numberBytes → l.count quote = 0 := fun l hl =>
    List.count_eq_zero.2 fun hmem => absurd (hl hmem) (by decide +kernel)
  simp only [members, List.count_append, hnum _ (signedDecimal_subset _),
    hnum _ (fixed2_subset _), hnum _ (decimal_subset _)]
  decide +kernel

/-- A number is read up to the first byte that is in none. -/
theorem number_append_inj {u v p t t' : List UChar} {c : UChar} (hp : p.head? = some c)
    (hc : c ∉ numberBytes) (hu : u ⊆ numberBytes) (hv : v ⊆ numberBytes)
    (h : u ++ (p ++ t) = v ++ (p ++ t')) : u = v ∧ t = t' := by
  obtain ⟨p, rfl⟩ := List.head?_eq_some_iff.1 hp
  have hcancel : ∀ e : List UChar, (∀ b ∈ e, b ∈ numberBytes) →
      ∀ r r', c :: r = e ++ c :: r' → e = [] := by
    intro e he r r' heq
    cases e with
    | nil => rfl
    | cons b e =>
      obtain rfl : c = b := (List.cons.inj heq).1
      exact absurd (he c List.mem_cons_self) hc
  rcases List.append_eq_append_iff.1 h with ⟨e, hve, ht⟩ | ⟨e, hue, ht⟩
  · obtain rfl := hcancel e (fun b hb => hv (hve ▸ List.mem_append_right u hb)) _ _ ht
    exact ⟨by rw [hve, List.append_nil], List.append_cancel_left ht⟩
  · obtain rfl := hcancel e (fun b hb => hu (hue ▸ List.mem_append_right v hb)) _ _ ht
    exact ⟨by rw [hue, List.append_nil], (List.append_cancel_left ht).symm⟩

/-- **The members are read back.** -/
theorem sameValues_of_members_eq {sample sample' : WaterSample}
    (h : members sample = members sample') : SameValues sample sample' := by
  have hcomma : (44 : UChar) ∉ numberBytes := by decide +kernel
  have hbrace : (125 : UChar) ∉ numberBytes := by decide +kernel
  rw [members, members, ← List.append_nil (_ ++ bytes "\x7d"),
    ← List.append_nil (_ ++ bytes "\x7d")] at h
  simp only [List.append_assoc] at h
  obtain ⟨htime, h⟩ := number_append_inj (by decide +kernel) hcomma (signedDecimal_subset _)
    (signedDecimal_subset _) (List.append_cancel_left h)
  obtain ⟨-, h⟩ := number_append_inj (by decide +kernel) hcomma (fixed2_subset _)
    (fixed2_subset _) h
  obtain ⟨-, h⟩ := number_append_inj (by decide +kernel) hcomma (fixed2_subset _)
    (fixed2_subset _) h
  obtain ⟨-, h⟩ := number_append_inj (by decide +kernel) hcomma (fixed2_subset _)
    (fixed2_subset _) h
  obtain ⟨-, h⟩ := number_append_inj (by decide +kernel) hcomma (signedDecimal_subset _)
    (signedDecimal_subset _) h
  obtain ⟨hsensor, h⟩ := number_append_inj (by decide +kernel) hcomma (decimal_subset _)
    (decimal_subset _) h
  obtain ⟨halarm, h⟩ := number_append_inj (by decide +kernel) hcomma (decimal_subset _)
    (decimal_subset _) h
  obtain ⟨hsequence, -⟩ := number_append_inj (by decide +kernel) hbrace (decimal_subset _)
    (decimal_subset _) h
  exact ⟨BitVec.toInt_inj.1 (signedDecimal_injective htime),
    BitVec.toNat_inj.1 (decimal_injective hsensor),
    BitVec.toNat_inj.1 (decimal_injective halarm),
    BitVec.toNat_inj.1 (decimal_injective hsequence)⟩

theorem head?_members (sample : WaterSample) : (members sample).head? = some quote := by
  have hfirst : (bytes "\",\"timestamp_ms\":").head? = some quote := by decide +kernel
  simp only [members, List.head?_append, hfirst, Option.some_or]

/-- The members tell where the device ends: behind it stand a fixed number
of quotes, the first of them at once. -/
theorem eq_nil_of_append_members {e : List UChar} {sample sample' : WaterSample}
    (h : members sample = e ++ members sample') : e = [] := by
  have hnone : quote ∉ e := by
    have hcount := congrArg (List.count quote) h
    rw [List.count_append, count_quote_members, count_quote_members] at hcount
    exact List.count_eq_zero.1 (by omega)
  cases e with
  | nil => rfl
  | cons b e =>
    have hhead := congrArg List.head? h
    rw [head?_members, List.cons_append, List.head?_cons, Option.some.injEq] at hhead
    exact absurd (hhead ▸ List.mem_cons_self) hnone

/-- **A line can be read in one way**: it fixes the device and the values. -/
theorem uploaderBuildJson_inj {deviceId deviceId' : List UChar} {sample sample' : WaterSample}
    (h : uploaderBuildJson deviceId sample = uploaderBuildJson deviceId' sample') :
    deviceId = deviceId' ∧ SameValues sample sample' := by
  rw [uploaderBuildJson, uploaderBuildJson] at h
  have hbody := List.append_cancel_right h
  rw [List.append_assoc, List.append_assoc] at hbody
  replace h := List.append_cancel_left hbody
  rcases List.append_eq_append_iff.1 h with ⟨e, hd, hm⟩ | ⟨e, hd, hm⟩
  · rw [eq_nil_of_append_members hm, List.append_nil] at hd
    rw [eq_nil_of_append_members hm, List.nil_append] at hm
    exact ⟨hd.symm, sameValues_of_members_eq hm⟩
  · rw [eq_nil_of_append_members hm, List.append_nil] at hd
    rw [eq_nil_of_append_members hm, List.nil_append] at hm
    exact ⟨hd, (sameValues_of_members_eq hm).symm⟩

/-- What the line of a device and a sample carries. -/
theorem carries_iff {deviceId deviceId' : List UChar} {sample sample' : WaterSample}
    {line : List UChar} (h : Carries line deviceId sample) :
    Carries line deviceId' sample' ↔ deviceId' = deviceId ∧ SameValues sample sample' := by
  obtain ⟨sample₁, hsame, rfl⟩ := h
  constructor
  · rintro ⟨sample₂, hsame', heq⟩
    obtain ⟨rfl, hval⟩ := uploaderBuildJson_inj heq
    exact ⟨rfl, (hsame.trans hval).trans hsame'.symm⟩
  · rintro ⟨rfl, hval⟩
    exact ⟨sample₁, hval.symm.trans hsame, rfl⟩

/-! ## Through the table -/

/-- A status word or a sequence number, through its signed column. -/
theorem ofInt_columnInt (x : BitVec 32) : BitVec.ofInt 32 (Store.columnInt x.toInt) = x := by
  rw [Store.columnInt, ← BitVec.toInt_ofInt, BitVec.ofInt_toInt, BitVec.ofInt_toInt]

/-- **An inserted row is read back** with the values of its sample. -/
theorem sameValues_recordOf (deviceId : List UChar) (sample : WaterSample) :
    SameValues sample (sampleOf (Store.recordOf deviceId sample)) where
  timestampMs := BitVec.ofInt_toInt.symm
  sensorStatus := (ofInt_columnInt _).symm
  alarmStatus := (ofInt_columnInt _).symm
  sequence := (ofInt_columnInt _).symm

variable {w : ℕ} {cfg cfg' : Config} {s s' : State w} {l : Label} {line : List UChar} {k : ℕ}

/-- A line that has been sent for row `k`, or is being sent. -/
def SentFor (s : State w) (k : ℕ) (line : List UChar) : Prop :=
  (∃ h ∈ s.handed, h.row = k ∧ h.line = line) ∨
    ∃ loop stmt sampleId sent, s.pc = .send loop stmt sampleId line sent ∧ stmt.last = k

/-- **A line that is sent after a step** was sent before it, or is that of
a row the step has read. -/
theorem sentFor_step (h : step cfg s l = some s') (hsent : SentFor s' k line) :
    SentFor s k line ∨ ∃ b, (k, b) ∈ s.db.rows ∧ line = lineOf cfg b := by
  obtain ⟨hd, hmem, hrow, hline⟩ | ⟨loop, stmt, sampleId, sent, hpc, hrow⟩ := hsent
  · obtain hsame | ⟨loop, stmt, sampleId, line', sent, i, hpc, -, -, hhanded⟩ := handed_before h
    · exact Or.inl (Or.inl ⟨hd, hsame ▸ hmem, hrow, hline⟩)
    · rw [hhanded, List.mem_append, List.mem_singleton] at hmem
      obtain hold | rfl := hmem
      · exact Or.inl (Or.inl ⟨hd, hold, hrow, hline⟩)
      · exact Or.inl (Or.inr ⟨loop, stmt, sampleId, sent, hline ▸ hpc, hrow⟩)
  · obtain ⟨sent', hpc'⟩ | ⟨b, hb, hline, -⟩ := send_before h hpc
    · exact Or.inl (Or.inr ⟨loop, stmt, sampleId, sent', hpc', hrow⟩)
    · exact Or.inr ⟨b, hrow ▸ hb, hline⟩

/-- Only rows the table has known are sent. -/
def SentKnown (s : State w) : Prop := ∀ k line, SentFor s k line → k ≤ s.db.seq

theorem sentKnown_init (db : Samples) : SentKnown (init w db) := by
  rintro k line (⟨h, hmem, -⟩ | ⟨loop, stmt, sampleId, sent, hpc, -⟩)
  · cases hmem
  · cases hpc

theorem SentKnown.step (hknown : SentKnown s) (h : step cfg s l = some s') : SentKnown s' := by
  intro k line hsent
  have hle : s.db.seq ≤ s'.db.seq := seq_le_step h
  obtain hold | ⟨b, hb, -⟩ := sentFor_step h hsent
  · exact (hknown k line hold).trans hle
  · exact (s.db.le_seq _ hb).trans hle

/-- **Row `k` has the values of `sample`**, in the table and in every line
that is sent for it. -/
structure Keeps (k : ℕ) (sample : WaterSample) (cfg : Config) (s : State w) : Prop where
  known : k ≤ s.db.seq
  row : ∀ b, (k, b) ∈ s.db.rows → SameValues sample (sampleOf b)
  sent : ∀ line, SentFor s k line → Carries line cfg.deviceId sample

theorem Keeps.step {sample : WaterSample} (hkeeps : Keeps k sample cfg s)
    (h : step cfg s l = some s') : Keeps k sample cfg s' where
  known := hkeeps.known.trans (seq_le_step h)
  row := by
    intro b' hb'
    obtain ⟨b, hb, hline⟩ | ⟨hnew, -⟩ := rows_step h hb'
    · -- the row makes the same line as before, so it has the same values
      exact (hkeeps.row b hb).trans (uploaderBuildJson_inj hline).2.symm
    · exact absurd (hnew ▸ hkeeps.known) (Nat.not_succ_le_self _)
  sent := by
    intro line hsent
    obtain hold | ⟨b, hb, rfl⟩ := sentFor_step h hsent
    · exact hkeeps.sent line hold
    · exact ⟨sampleOf b, hkeeps.row b hb, rfl⟩

/-- An insert that succeeds makes the next row, and sends nothing. -/
theorem keeps_of_insert {deviceId : List UChar} {sample : WaterSample} {a : SqlAnswer}
    (hknown : SentKnown s) (hins : (Store.sqliteStoreInsert s.db deviceId sample a).2 = 0)
    (h : step cfg s (.storeInsert deviceId sample a) = some s') :
    Keeps (s.db.seq + 1) sample cfg s' := by
  obtain hok | hfail := Store.insert_cases s.db deviceId sample a
  · cases h
    rw [hok]
    refine ⟨Nat.le_refl _, ?_, ?_⟩
    · intro b hb
      rcases AutoTable.mem_insert.1 hb with hin | heq
      · exact absurd (s.db.le_seq _ hin) (Nat.not_succ_le_self _)
      · obtain rfl := (Prod.mk.inj heq).2
        exact sameValues_recordOf deviceId sample
    · -- nothing has been sent for the row before there was one
      intro line hsent
      exact absurd (hknown _ line hsent) (Nat.not_succ_le_self _)
  · rw [hfail] at hins
    exact absurd (show (-1 : ℤ) = 0 from hins) (by decide)

/-! ## Over restarts -/

/-- A step of the uploader and its world, or a new start of the program,
which finds the table as it was left. -/
inductive WorldLabel
  | act (l : Label)
  | restart (cfg : Config)

/-- **The program over its starts**, each with a configuration. -/
def worldStep (p : Config × State w) : WorldLabel → Option (Config × State w)
  | .act l => (step p.1 p.2 l).map fun s' => (p.1, s')
  | .restart cfg => some (cfg, init w p.2.db)

/-- What the steps keep and a start brings back, the runs keep. -/
theorem worldStep_invariant {I : Config → State w → Prop}
    (hstep : ∀ cfg s l s', I cfg s → step cfg s l = some s' → I cfg s')
    (hrestart : ∀ cfg cfg' s, I cfg s → I cfg' (init w s.db)) {ls : List WorldLabel}
    {p p' : Config × State w} (h₀ : I p.1 p.2) (h : Run.exec worldStep p ls = some p') :
    I p'.1 p'.2 := by
  refine Run.exec_invariant (I := fun p => I p.1 p.2) ?_ h₀ h
  intro q l q' hI hq
  cases l with
  | act l =>
    obtain ⟨s', hs', rfl⟩ := Option.map_eq_some_iff.1 hq
    exact hstep q.1 q.2 l s' hI hs'
  | restart cfg =>
    cases hq
    exact hrestart q.1 cfg q.2 hI

theorem Keeps.restart {sample : WaterSample} (h : Keeps k sample cfg s) :
    Keeps k sample cfg' (init w s.db) := by
  refine ⟨h.known, h.row, ?_⟩
  rintro line (⟨h, hmem, -⟩ | ⟨loop, stmt, sampleId, sent, hpc, -⟩)
  · cases hmem
  · cases hpc

/-- **A sample that was stored is what is sent for its row**: its time
stamp, its status words and its sequence number, and no others, in every
line of every uploader from then on. The device of a line is that of the
uploader that sends it, also where the row was stored for another one. -/
theorem store_and_forward {cfg₀ cfg₁ cfg₂ : Config} {db₀ : Samples} {s₁ s₂ : State w}
    {ls₁ ls₂ : List WorldLabel} {deviceId : List UChar} {sample : WaterSample} {a : SqlAnswer}
    (h₁ : Run.exec worldStep (cfg₀, init w db₀) ls₁ = some (cfg₁, s₁))
    (hins : (Store.sqliteStoreInsert s₁.db deviceId sample a).2 = 0)
    (h₂ : Run.exec worldStep (cfg₁, s₁) (.act (.storeInsert deviceId sample a) :: ls₂) =
      some (cfg₂, s₂)) (hsent : SentFor s₂ (s₁.db.seq + 1) line) (deviceId' : List UChar)
    (sample' : WaterSample) :
    Carries line deviceId' sample' ↔ deviceId' = cfg₂.deviceId ∧ SameValues sample sample' := by
  have hknown : SentKnown s₁ := worldStep_invariant (I := fun _ s => SentKnown s)
    (fun cfg s l s' hI hs => hI.step hs) (fun cfg cfg' s hI => sentKnown_init s.db)
    (sentKnown_init db₀) h₁
  obtain ⟨p, hs, hrest⟩ := Run.exec_cons_eq_some.1 h₂
  obtain ⟨s', hs', rfl⟩ := Option.map_eq_some_iff.1
    (show (step cfg₁ s₁ (.storeInsert deviceId sample a)).map (fun s' => (cfg₁, s')) = some p
      from hs)
  have hkeeps : Keeps (s₁.db.seq + 1) sample cfg₂ s₂ := worldStep_invariant
    (I := Keeps (s₁.db.seq + 1) sample) (fun cfg s l s' hI hs => hI.step hs)
    (fun cfg cfg' s hI => hI.restart) (keeps_of_insert hknown hins hs') hrest
  exact carries_iff (hkeeps.sent line hsent)

/-! ## A run -/

/-- A sample of the largest values, before the epoch. -/
def extremeSample : WaterSample :=
  ⟨BitVec.intMin 64, ⟨0⟩, ⟨0⟩, ⟨0⟩, ⟨0⟩, BitVec.allOnes 32, BitVec.allOnes 32, BitVec.allOnes 32⟩

/-- Another device. -/
def renamedConfig : Config := { exampleConfig with deviceId := bytes "gw-002" }

/-- What is sent of the sample under the new name. -/
def renamedLine : List UChar := uploaderBuildJson (bytes "gw-002") extremeSample

/-- The program starts again under the new name, and hands a row over. -/
def renameAndSend : List WorldLabel :=
  .restart renamedConfig :: (connectAndQuery ++ readOne ++ [Label.send renamedLine.length]).map .act

/-- The insert, the restart, and the send. -/
theorem exists_renamed_run : ∃ s : State 32,
    Run.exec worldStep (exampleConfig, init 32 AutoTable.empty)
      (.act (.storeInsert (bytes "gw-001") extremeSample .ok) :: renameAndSend) =
        some (renamedConfig, s) ∧
    SentFor s 1 renamedLine := by
  obtain ⟨⟨cfg, s⟩, h, hcfg, hs⟩ := Run.exists_of_exec worldStep
    (exampleConfig, init 32 AutoTable.empty)
    (.act (.storeInsert (bytes "gw-001") extremeSample .ok) :: renameAndSend)
    (fun p => (p.1.deviceId, p.1.batchMax, p.1.retryMax) = (bytes "gw-002", 20, 3) ∧
      (⟨1, 0, renamedLine⟩ : Handover) ∈ p.2.handed) (by decide +kernel)
  obtain rfl : cfg = renamedConfig := by
    obtain ⟨deviceId, batchMax, retryMax⟩ := cfg
    cases hcfg
    rfl
  exact ⟨s, h, Or.inl ⟨_, hs, rfl, rfl⟩⟩

/-- Under the new name the extreme values come through. -/
theorem store_and_forward_renamed : ∃ s : State 32,
    Run.exec worldStep (exampleConfig, init 32 AutoTable.empty)
      (.act (.storeInsert (bytes "gw-001") extremeSample .ok) :: renameAndSend) =
        some (renamedConfig, s) ∧
    (Carries renamedLine (bytes "gw-002") extremeSample ↔
      bytes "gw-002" = renamedConfig.deviceId ∧ SameValues extremeSample extremeSample) := by
  obtain ⟨s, h, hsent⟩ := exists_renamed_run
  exact ⟨s, h, store_and_forward (Run.exec_nil _) (by decide +kernel) h hsent _ _⟩

/-- **The line names another device** than the row was stored for. -/
theorem sends_other_device : ∃ (s : State 32) (line : List UChar),
    Run.exec worldStep (exampleConfig, init 32 AutoTable.empty)
      (.act (.storeInsert (bytes "gw-001") extremeSample .ok) :: renameAndSend) =
        some (renamedConfig, s) ∧
    SentFor s 1 line ∧ ¬ Carries line (bytes "gw-001") extremeSample := by
  obtain ⟨s, h, hsent⟩ := exists_renamed_run
  refine ⟨s, renamedLine, h, hsent, ?_⟩
  rintro ⟨sample', -, heq⟩
  exact absurd (uploaderBuildJson_inj heq).1 (by decide +kernel)

end Uploader

end WaterGateway
