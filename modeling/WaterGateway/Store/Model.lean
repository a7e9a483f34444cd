import WaterGateway.Common.AutoTable
import WaterGateway.Sample.Model

/-!
# The sample store

`sqlite_store.c` on the table `samples`. Every SQL statement is atomic, and
an argument says how SQLite answers it: it may fail where it is prepared or
where it is stepped, and then leaves the table as it is. An `id` goes back
to the program as an `int`, so an update of it is an update of the rows
whose `id` is that `int`.
-/

namespace WaterGateway

/-- A row of `samples`, less its `id`. -/
structure Record where
  deviceId : List UChar
  timestampMs : ℤ
  ph : Single
  temperature : Single
  turbidity : Single
  conductivity : Single
  sensorStatus : ℤ
  alarmStatus : ℤ
  sequence : ℤ
  uploaded : ℤ
  uploadRetry : ℤ
  deriving DecidableEq, Inhabited

/-- The table `samples`. -/
abbrev Samples := AutoTable Record

/-- How SQLite answers a statement. -/
inductive SqlAnswer
  | prepareFailed
  | stepFailed
  | ok
  deriving DecidableEq

namespace Store

/-- `sqlite3_column_int`: the low 32 bits, as an `int`. -/
def columnInt (x : ℤ) : ℤ := x.bmod (2 ^ 32)

/-- What a `REAL` column keeps of a value: a zero loses its sign. -/
def real (x : Single) : Single := if x.mag = 0 then ⟨0⟩ else x

/-- The row that the values bound by `sqlite_store_insert` make. -/
def recordOf (deviceId : List UChar) (sample : WaterSample) : Record where
  deviceId := deviceId
  timestampMs := sample.timestampMs.toInt
  ph := real sample.ph
  temperature := real sample.temperature
  turbidity := real sample.turbidity
  conductivity := real sample.conductivity
  sensorStatus := sample.sensorStatus.toInt
  alarmStatus := sample.alarmStatus.toInt
  sequence := sample.sequence.toInt
  uploaded := 0
  uploadRetry := 0

/-- A NaN is bound as `NULL`, which a `NOT NULL` column refuses. -/
def bindable (sample : WaterSample) : Bool :=
  !(sample.ph.isNaN || sample.temperature.isNaN || sample.turbidity.isNaN ||
    sample.conductivity.isNaN)

/-- The largest `id` there is. -/
def maxId : ℕ := 2 ^ 63 - 1

/-- `sqlite_store_insert`. -/
def sqliteStoreInsert (db : Samples) (deviceId : List UChar) (sample : WaterSample)
    (a : SqlAnswer) : Samples × ℤ :=
  if a = .ok ∧ bindable sample = true ∧ db.seq < maxId then
    (db.insert (recordOf deviceId sample), 0)
  else (db, -1)

/-- An `UPDATE … WHERE id = ?` with an `int` bound. -/
def updateRow (db : Samples) (sampleId : ℤ) (f : Record → Record) (a : SqlAnswer) :
    Samples × ℤ :=
  if a = .ok then (db.modify (fun k => (k : ℤ) = sampleId) f, 0) else (db, -1)

/-- `sqlite_store_mark_uploaded`. -/
def sqliteStoreMarkUploaded (db : Samples) (sampleId : ℤ) (a : SqlAnswer) : Samples × ℤ :=
  updateRow db sampleId (fun b => { b with uploaded := 1 }) a

/-- `sqlite_store_inc_retry`. -/
def sqliteStoreIncRetry (db : Samples) (sampleId : ℤ) (a : SqlAnswer) : Samples × ℤ :=
  updateRow db sampleId (fun b => { b with uploadRetry := b.uploadRetry + 1 }) a

/-- `sqlite_store_get_total_count`. -/
def sqliteStoreGetTotalCount (db : Samples) : SqlAnswer → ℤ
  | .prepareFailed => -1
  | .stepFailed => 0
  | .ok => columnInt db.rows.length

/-! ## Trimming

`sqlite_store_trim_cache` is four statements, and the other threads may
run theirs between any two of them. -/

/-- Where a call of `sqlite_store_trim_cache` stands. -/
inductive TrimPc
  | count1
  | delete1 (toDelete : ℤ)
  | count2
  | delete2 (toDelete : ℤ)
  | done (ret : ℤ)
  deriving DecidableEq

/-- The call, up to its first statement. -/
def trimStart (maxCount : ℤ) : TrimPc := if maxCount ≤ 0 then .done (-1) else .count1

/-- The rows the first `DELETE` selects. -/
def isUploaded (b : Record) : Bool := b.uploaded = 1

/-- One statement of `sqlite_store_trim_cache`. -/
def trimStep (maxCount : ℤ) (db : Samples) (pc : TrimPc) (a : SqlAnswer) : Samples × TrimPc :=
  match pc with
  | .count1 =>
    let total := sqliteStoreGetTotalCount db a
    if total < 0 ∨ total ≤ maxCount then (db, .done 0) else (db, .delete1 (total - maxCount))
  | .delete1 toDelete =>
    if a = .ok then (db.deleteFirst isUploaded toDelete.toNat, .count2) else (db, .done (-1))
  | .count2 =>
    let total := sqliteStoreGetTotalCount db a
    if total > maxCount then (db, .delete2 (total - maxCount)) else (db, .done 0)
  | .delete2 toDelete =>
    -- the answer of the second delete is not looked at
    if a = .ok then (db.deleteFirst (fun _ => true) toDelete.toNat, .done 0) else (db, .done 0)
  | .done ret => (db, .done ret)

variable {db : Samples} {deviceId : List UChar} {sample : WaterSample} {a : SqlAnswer}

/-- **An insert**: the row under the next `id`, or no change. -/
theorem insert_cases (db : Samples) (deviceId : List UChar) (sample : WaterSample)
    (a : SqlAnswer) :
    sqliteStoreInsert db deviceId sample a = (db.insert (recordOf deviceId sample), 0) ∨
      sqliteStoreInsert db deviceId sample a = (db, -1) := by
  unfold sqliteStoreInsert
  split
  · exact Or.inl rfl
  · exact Or.inr rfl

theorem updateRow_ok (db : Samples) (sampleId : ℤ) (f : Record → Record) :
    (updateRow db sampleId f .ok).1 = db.modify (fun k => (k : ℤ) = sampleId) f := rfl

/-- What an update leaves of a row: the row, or its change if it has the
`id`. -/
theorem mem_updateRow_ok {db : Samples} {sampleId : ℤ} {f : Record → Record} {k : ℕ} {b : Record} :
    (k, b) ∈ (updateRow db sampleId f .ok).1.rows ↔
      ∃ b₀, (k, b₀) ∈ db.rows ∧ b = if (k : ℤ) = sampleId then f b₀ else b₀ := by
  rw [updateRow_ok, AutoTable.mem_modify]
  simp only [decide_eq_true_eq]

/-- **An update**: of the rows with that `id`, or no change. -/
theorem updateRow_cases (db : Samples) (sampleId : ℤ) (f : Record → Record) (a : SqlAnswer) :
    (updateRow db sampleId f a).1 = db.modify (fun k => (k : ℤ) = sampleId) f ∨
      (updateRow db sampleId f a).1 = db := by
  unfold updateRow
  split
  · exact Or.inl rfl
  · exact Or.inr rfl

@[simp] theorem seq_updateRow (db : Samples) (sampleId : ℤ) (f : Record → Record)
    (a : SqlAnswer) : (updateRow db sampleId f a).1.seq = db.seq := by
  obtain hdb | hdb := updateRow_cases db sampleId f a
  · rw [hdb, AutoTable.seq_modify]
  · rw [hdb]

@[simp] theorem length_updateRow (db : Samples) (sampleId : ℤ) (f : Record → Record)
    (a : SqlAnswer) : (updateRow db sampleId f a).1.rows.length = db.rows.length := by
  obtain hdb | hdb := updateRow_cases db sampleId f a
  · rw [hdb, AutoTable.length_modify]
  · rw [hdb]

@[simp] theorem keys_updateRow (db : Samples) (sampleId : ℤ) (f : Record → Record)
    (a : SqlAnswer) : (updateRow db sampleId f a).1.rows.map Prod.fst = db.rows.map Prod.fst := by
  obtain hdb | hdb := updateRow_cases db sampleId f a
  · rw [hdb, AutoTable.keys_modify]
  · rw [hdb]

/-- **A row behind an update** is one that was there, or the change of one
with that `id`. -/
theorem mem_updateRow {sampleId : ℤ} {f : Record → Record} {k : ℕ} {b : Record}
    (h : (k, b) ∈ (updateRow db sampleId f a).1.rows) :
    ∃ b₀, (k, b₀) ∈ db.rows ∧ (b = b₀ ∨ ((k : ℤ) = sampleId ∧ b = f b₀)) := by
  obtain hdb | hdb := updateRow_cases db sampleId f a
  · rw [hdb] at h
    obtain ⟨b₀, hb₀, rfl⟩ := AutoTable.mem_modify.1 h
    refine ⟨b₀, hb₀, ?_⟩
    split
    · next hid => exact Or.inr ⟨of_decide_eq_true hid, rfl⟩
    · exact Or.inl rfl
  · exact ⟨b, hdb ▸ h, Or.inl rfl⟩

/-- No update takes a row away. -/
theorem exists_mem_updateRow {sampleId : ℤ} {f : Record → Record} {r : ℕ × Record}
    (h : r ∈ db.rows) : ∃ b, (r.1, b) ∈ (updateRow db sampleId f a).1.rows :=
  AutoTable.exists_of_keys (keys_updateRow db sampleId f a) h

/-- An update that fails leaves a row as it is, one that succeeds changes
it if it has the `id`. -/
theorem row_updateRow {sampleId : ℤ} {f : Record → Record} {k : ℕ}
    {b b' : Record} (hb : (k, b) ∈ db.rows) (hb' : (k, b') ∈ (updateRow db sampleId f a).1.rows) :
    b' = b ∨ (a = .ok ∧ (k : ℤ) = sampleId ∧ b' = f b) := by
  by_cases ha : a = .ok
  · subst ha
    obtain ⟨b₀, hb₀, rfl⟩ := mem_updateRow_ok.1 hb'
    obtain rfl := AutoTable.row_unique hb₀ hb
    split
    · next hk => exact Or.inr ⟨rfl, hk, rfl⟩
    · exact Or.inl rfl
  · rw [updateRow, if_neg ha] at hb'
    exact Or.inl (AutoTable.row_unique hb' hb)

/-- **A statement of a trim** deletes rows, and gives none an `id`. -/
theorem trimStep_sublist (maxCount : ℤ) (db : Samples) (pc : TrimPc) (a : SqlAnswer) :
    (trimStep maxCount db pc a).1.rows.Sublist db.rows ∧
      (trimStep maxCount db pc a).1.seq = db.seq := by
  unfold trimStep
  split
  · dsimp only
    split <;> exact ⟨List.Sublist.refl _, rfl⟩
  · split
    · exact ⟨AutoTable.rows_deleteFirst_sublist _, rfl⟩
    · exact ⟨List.Sublist.refl _, rfl⟩
  · dsimp only
    split <;> exact ⟨List.Sublist.refl _, rfl⟩
  · split
    · exact ⟨AutoTable.rows_deleteFirst_sublist _, rfl⟩
    · exact ⟨List.Sublist.refl _, rfl⟩
  · exact ⟨List.Sublist.refl _, rfl⟩

/-- An `int` differs from what it was read from by a multiple of
`2 ^ 32`. -/
theorem columnInt_spec (x : ℤ) :
    -2 ^ 31 ≤ columnInt x ∧ columnInt x < 2 ^ 31 ∧ ∃ k, x = columnInt x + 2 ^ 32 * k := by
  have hlow : -(2 ^ 32 / 2) ≤ columnInt x := Int.le_bmod (by decide)
  have hhigh : columnInt x < (2 ^ 32 + 1) / 2 := Int.bmod_lt (by decide)
  refine ⟨by omega, by omega, x.bdiv (2 ^ 32), ?_⟩
  exact (Int.bmod_add_bdiv x (2 ^ 32)).symm

/-- An `id` below `2 ^ 31` goes to the program and back unchanged. -/
theorem columnInt_of_lt {k : ℕ} (h : k < 2 ^ 31) : columnInt k = k := by
  unfold columnInt
  rw [Int.bmod_eq_of_le] <;> omega

end Store

end WaterGateway
