import WaterGateway.Common.Run
import WaterGateway.Store.Trim

/-!
# Marks between the statements of a trim

`sqlite_store_trim_cache` is no transaction: the upload thread may mark
rows between its statements. The first delete removes uploaded rows only,
and behind it no uploaded row is left, if it did not make room enough. A
row that is marked from then on is passed over by the second delete, which
looks at the `id`s alone.
-/

namespace WaterGateway

namespace Store

variable {db : Samples} {maxCount : ℤ}

/-- A call of `sqlite_store_trim_cache` with the upload thread beside it.
`marked` records the rows marked since the first delete. -/
structure TrimCall where
  db : Samples
  pc : TrimPc
  marked : List ℤ
  deriving DecidableEq

/-- The call runs its next statement, or the upload thread marks a row. -/
inductive TrimLabel
  | statement (a : SqlAnswer)
  | mark (sampleId : ℤ) (a : SqlAnswer)
  deriving DecidableEq

/-- The start of the call. -/
def callStart (maxCount : ℤ) (db : Samples) : TrimCall := ⟨db, trimStart maxCount, []⟩

/-- **The call and the marks**, one statement at a time. -/
def callStep (maxCount : ℤ) (s : TrimCall) : TrimLabel → Option TrimCall
  | .statement a =>
    match s.pc with
    | .done _ => none
    | .delete1 toDelete =>
      some ⟨(trimStep maxCount s.db (.delete1 toDelete) a).1,
        (trimStep maxCount s.db (.delete1 toDelete) a).2, []⟩
    | pc => some ⟨(trimStep maxCount s.db pc a).1, (trimStep maxCount s.db pc a).2, s.marked⟩
  | .mark sampleId a =>
    some ⟨(sqliteStoreMarkUploaded s.db sampleId a).1, s.pc,
      if a = .ok then sampleId :: s.marked else s.marked⟩

/-- **Uploaded rows go first**: where a row that is not uploaded is
removed, no uploaded row is left. -/
def UploadedFirst (db db' : Samples) : Prop :=
  (∃ r ∈ db.rows, r.2.uploaded = 0 ∧ ∀ b, (r.1, b) ∉ db'.rows) → ∀ r ∈ db'.rows, r.2.uploaded ≠ 1

/-- No row was marked at the wrong moment: of the rows marked since the
first delete none stands behind those the second delete is to remove, or
all that it is to remove were marked (or bear a flag the program never
writes). -/
def MarksInTime (s : TrimCall) : TrimLabel → Prop
  | .statement .ok =>
    match s.pc with
    | .delete2 toDelete =>
      (∀ r ∈ s.db.rows.drop toDelete.toNat, (r.1 : ℤ) ∉ s.marked) ∨
        ∀ r ∈ s.db.rows.take toDelete.toNat,
          (r.1 : ℤ) ∈ s.marked ∨ (r.2.uploaded ≠ 0 ∧ r.2.uploaded ≠ 1)
    | _ => True
  | _ => True

/-- Every uploaded row has been marked since the first delete. -/
def OnlyMarked (db : Samples) (marked : List ℤ) : Prop :=
  ∀ r ∈ db.rows, r.2.uploaded = 1 → (r.1 : ℤ) ∈ marked

/-- **What holds at each point of the call.** A first delete that does not
make room enough leaves no uploaded row. -/
def CallPoint (maxCount : ℤ) (db : Samples) (marked : List ℤ) : TrimPc → Prop
  | .count1 => 0 < maxCount
  | .delete1 toDelete =>
    0 < maxCount ∧ 0 < toDelete ∧ toDelete = columnInt db.rows.length - maxCount
  | .count2 => 0 < maxCount ∧ (columnInt db.rows.length ≤ maxCount ∨ OnlyMarked db marked)
  | .delete2 _ => OnlyMarked db marked
  | .done _ => True

/-- What the call keeps. -/
structure CallInv (maxCount : ℤ) (s : TrimCall) : Prop where
  flagged : ∀ r ∈ s.db.rows, (r.1 : ℤ) ∈ s.marked → r.2.uploaded = 1
  point : CallPoint maxCount s.db s.marked s.pc

theorem callInv_start (maxCount : ℤ) (db : Samples) : CallInv maxCount (callStart maxCount db) := by
  refine ⟨fun _ _ hmem => (nomatch hmem), ?_⟩
  unfold callStart trimStart
  split
  · trivial
  · next hpos => exact Int.lt_of_not_ge hpos

/-- A mark sets the flag of the rows it marks, and of no other. -/
theorem OnlyMarked.mark {marked : List ℤ} (h : OnlyMarked db marked) (sampleId : ℤ) :
    OnlyMarked (sqliteStoreMarkUploaded db sampleId .ok).1 (sampleId :: marked) := by
  rintro ⟨k, b⟩ hr hup
  obtain ⟨b₀, hb₀, rfl⟩ := mem_updateRow_ok.1 hr
  by_cases hk : (k : ℤ) = sampleId
  · exact hk ▸ List.mem_cons_self
  · simp only [if_neg hk] at hup
    exact List.mem_cons_of_mem _ (h (k, b₀) hb₀ hup)

theorem CallInv.mark {s : TrimCall} (h : CallInv maxCount s) (sampleId : ℤ) :
    CallInv maxCount
      ⟨(sqliteStoreMarkUploaded s.db sampleId .ok).1, s.pc, sampleId :: s.marked⟩ := by
  have hlength : (sqliteStoreMarkUploaded s.db sampleId .ok).1.rows.length = s.db.rows.length :=
    AutoTable.length_modify
  obtain ⟨hflagged, hpoint⟩ := h
  refine ⟨?_, ?_⟩
  · rintro ⟨k, b⟩ hr hmem
    obtain ⟨b₀, hb₀, rfl⟩ := mem_updateRow_ok.1 hr
    dsimp only
    split
    · rfl
    · next hne => exact hflagged _ hb₀ ((List.mem_cons.1 hmem).resolve_left hne)
  · dsimp only
    cases hpc : s.pc with
    | count1 | done ret =>
      rw [hpc] at hpoint
      exact hpoint
    | delete1 toDelete =>
      rw [hpc] at hpoint
      exact ⟨hpoint.1, hpoint.2.1, hlength ▸ hpoint.2.2⟩
    | count2 =>
      rw [hpc] at hpoint
      exact ⟨hpoint.1, hpoint.2.imp (fun hle => hlength ▸ hle) fun honly => honly.mark sampleId⟩
    | delete2 toDelete =>
      rw [hpc] at hpoint
      exact OnlyMarked.mark hpoint sampleId

/-- The first delete makes room enough, or leaves no uploaded row. -/
theorem point_of_delete₁ (hpos : 0 < maxCount) {toDelete : ℤ} (hmore : 0 < toDelete)
    (hcount : toDelete = columnInt db.rows.length - maxCount) :
    columnInt (db.deleteFirst isUploaded toDelete.toNat).rows.length ≤ maxCount ∨
      OnlyMarked (db.deleteFirst isUploaded toDelete.toNat) [] := by
  have hlength := length_delete₁ db toDelete.toNat
  rcases Nat.lt_or_ge (uploadedCount db) toDelete.toNat with hfew | henough
  · refine Or.inr fun r hr hup => ?_
    rw [AutoTable.rows_deleteFirst, AutoTable.dropFirst_of_countP_le (Nat.le_of_lt hfew)] at hr
    have hnot := (List.mem_filter.1 hr).2
    rw [show isUploaded r.2 = true from decide_eq_true hup] at hnot
    cases hnot
  · refine Or.inl ?_
    obtain ⟨-, hlt, k, hk⟩ := columnInt_spec db.rows.length
    have hle := uploadedCount_le db
    obtain ⟨hlow', hlt', k', hk'⟩ := columnInt_spec
      (db.deleteFirst isUploaded toDelete.toNat).rows.length
    omega

theorem CallInv.step {s s' : TrimCall} {l : TrimLabel} (h : CallInv maxCount s)
    (hstep : callStep maxCount s l = some s') : CallInv maxCount s' := by
  cases l with
  | mark sampleId a =>
    cases hstep
    by_cases ha : a = .ok
    · subst ha
      exact h.mark sampleId
    · rw [if_neg ha, sqliteStoreMarkUploaded, updateRow, if_neg ha]
      exact h
  | statement a =>
    obtain ⟨db, pc, marked⟩ := s
    obtain ⟨hflagged, hpoint⟩ := h
    have hkeep := (trimStep_sublist maxCount db pc a).1
    have hflagged' : ∀ r ∈ (trimStep maxCount db pc a).1.rows, (r.1 : ℤ) ∈ marked →
        r.2.uploaded = 1 := fun r hr => hflagged r (hkeep.subset hr)
    cases pc with
    | done ret => cases hstep
    | count1 =>
      cases hstep
      refine ⟨hflagged', ?_⟩
      dsimp only [trimStep]
      split
      · trivial
      · next hmore =>
        have hpos : 0 < maxCount := hpoint
        have hcount : 0 < sqliteStoreGetTotalCount db a := by omega
        obtain ⟨-, htotal⟩ := getTotalCount_of_pos a hcount
        exact ⟨hpos, by omega, by rw [htotal]⟩
    | delete1 toDelete =>
      cases hstep
      refine ⟨fun _ _ hmem => absurd hmem List.not_mem_nil, ?_⟩
      dsimp only [trimStep]
      split
      · exact ⟨hpoint.1, point_of_delete₁ hpoint.1 hpoint.2.1 hpoint.2.2⟩
      · trivial
    | count2 =>
      cases hstep
      obtain ⟨hpos, hpoint⟩ := hpoint
      dsimp only [trimStep] at hflagged' ⊢
      split
      · next hmore =>
        obtain ⟨-, htotal⟩ := getTotalCount_of_pos a (lt_trans hpos hmore)
        refine ⟨hflagged, hpoint.resolve_left ?_⟩
        dsimp only
        omega
      · exact ⟨hflagged, trivial⟩
    | delete2 toDelete =>
      cases hstep
      refine ⟨hflagged', ?_⟩
      dsimp only [trimStep]
      split <;> trivial

theorem uploadedFirst_refl (db : Samples) : UploadedFirst db db := by
  rintro ⟨r, hr, -, hgone⟩
  exact absurd hr (hgone r.2)

/-- The first delete removes uploaded rows only. -/
theorem uploadedFirst_delete₁ (db : Samples) (n : ℕ) :
    UploadedFirst db (db.deleteFirst isUploaded n) := by
  rintro ⟨r, hr, hzero, hgone⟩
  have hnot : ¬ isUploaded r.2 = true := by
    intro hup
    have hone : r.2.uploaded = 1 := of_decide_eq_true hup
    omega
  exact absurd (AutoTable.mem_dropFirst_of_neg hr hnot) (hgone r.2)

/-- What the second delete removes, and what it leaves. -/
theorem uploadedFirst_delete₂_iff {n : ℕ} : UploadedFirst db (db.deleteFirst (fun _ => true) n) ↔
    (∀ r ∈ db.rows.drop n, r.2.uploaded ≠ 1) ∨ ∀ r ∈ db.rows.take n, r.2.uploaded ≠ 0 := by
  unfold UploadedFirst
  rw [rows_delete₂]
  constructor
  · intro h
    rw [or_iff_not_imp_right]
    intro hsome
    obtain ⟨r, hr, hzero⟩ : ∃ r ∈ db.rows.take n, r.2.uploaded = 0 := by simpa using hsome
    exact h ⟨r, List.mem_of_mem_take hr, hzero, AutoTable.notMem_drop_of_mem_take hr⟩
  · rintro (hleft | hremoved) ⟨r, hr, hzero, hgone⟩
    · exact hleft
    · rw [← List.take_append_drop n db.rows, List.mem_append] at hr
      rcases hr with hr | hr
      · exact absurd hzero (hremoved r hr)
      · exact absurd hr (hgone r.2)

/-- Where exactly the marked rows are uploaded, the flags say which rows
have been marked. -/
theorem marksInTime_iff {marked : List ℤ} {n : ℕ}
    (hflagged : ∀ r ∈ db.rows, (r.1 : ℤ) ∈ marked → r.2.uploaded = 1)
    (honly : OnlyMarked db marked) :
    ((∀ r ∈ db.rows.drop n, r.2.uploaded ≠ 1) ∨ ∀ r ∈ db.rows.take n, r.2.uploaded ≠ 0) ↔
      (∀ r ∈ db.rows.drop n, (r.1 : ℤ) ∉ marked) ∨ ∀ r ∈ db.rows.take n,
        (r.1 : ℤ) ∈ marked ∨ (r.2.uploaded ≠ 0 ∧ r.2.uploaded ≠ 1) := by
  have hmarked : ∀ r ∈ db.rows, (r.2.uploaded = 1 ↔ (r.1 : ℤ) ∈ marked) :=
    fun r hr => ⟨honly r hr, hflagged r hr⟩
  refine or_congr ?_ ?_
  · refine forall₂_congr fun r hr => not_congr (hmarked r (List.mem_of_mem_drop hr))
  · refine forall₂_congr fun r hr => ?_
    rw [← hmarked r (List.mem_of_mem_take hr)]
    omega

/-- **Uploaded rows go first, step by step, exactly where the marks come
in time.** -/
theorem uploadedFirst_iff_step {s : TrimCall} (h : CallInv maxCount s) (l : TrimLabel) :
    (∀ s', callStep maxCount s l = some s' → ∀ a, l = .statement a → UploadedFirst s.db s'.db) ↔
      MarksInTime s l := by
  cases l with
  | mark sampleId a => exact ⟨fun _ => trivial, fun _ s' _ a ha => nomatch ha⟩
  | statement a =>
    obtain ⟨db, pc, marked⟩ := s
    obtain ⟨hflagged, hpoint⟩ := h
    -- a statement that is no second delete removes no row that is not uploaded
    have hquiet : UploadedFirst db (trimStep maxCount db pc a).1 → (∀ n, pc ≠ .delete2 n) →
        ((∀ s', callStep maxCount ⟨db, pc, marked⟩ (.statement a) = some s' →
          ∀ a', TrimLabel.statement a = .statement a' → UploadedFirst db s'.db) ↔
        MarksInTime ⟨db, pc, marked⟩ (.statement a)) := by
      intro hfirst hpc
      refine iff_of_true (fun s' hs' _ _ => ?_) ?_
      · cases pc with
        | done ret => cases hs'
        | count1 | delete1 | count2 | delete2 => cases hs'; exact hfirst
      · cases a with
        | prepareFailed | stepFailed => trivial
        | ok =>
          cases pc with
          | delete2 n => exact absurd rfl (hpc n)
          | count1 | delete1 | count2 | done => trivial
    cases pc with
    | done ret => exact hquiet (uploadedFirst_refl db) fun _ => nofun
    | count1 =>
      refine hquiet ?_ fun _ => nofun
      dsimp only [trimStep]
      split <;> exact uploadedFirst_refl db
    | delete1 toDelete =>
      refine hquiet ?_ fun _ => nofun
      dsimp only [trimStep]
      split
      · exact uploadedFirst_delete₁ db _
      · exact uploadedFirst_refl db
    | count2 =>
      refine hquiet ?_ fun _ => nofun
      dsimp only [trimStep]
      split <;> exact uploadedFirst_refl db
    | delete2 toDelete =>
      cases a with
      | prepareFailed | stepFailed =>
        refine iff_of_true (fun s' hs' _ _ => ?_) trivial
        cases hs'
        exact uploadedFirst_refl db
      | ok =>
        refine Iff.trans ?_ (uploadedFirst_delete₂_iff.trans (marksInTime_iff hflagged hpoint))
        exact ⟨fun hall => hall _ rfl .ok rfl, fun hfirst s' hs' _ _ => by cases hs'; exact hfirst⟩

/-- **A trim removes uploaded rows first, in a run with any marks between
its statements, if and only if every mark of the run comes in time.** -/
theorem trim_uploadedFirst_iff (maxCount : ℤ) (db : Samples) (ls : List TrimLabel) :
    Run.Along (callStep maxCount) (fun s l => ∀ s', callStep maxCount s l = some s' →
        ∀ a, l = .statement a → UploadedFirst s.db s'.db) (callStart maxCount db) ls ↔
      Run.Along (callStep maxCount) MarksInTime (callStart maxCount db) ls :=
  Run.along_congr (I := CallInv maxCount) (E := fun _ _ => True)
    (fun _ _ _ hI _ _ => CallInv.step hI) (fun _ l hI _ => uploadedFirst_iff_step hI l)
    (callInv_start maxCount db) (Run.along_of_all (fun _ _ => trivial) _ _)

/-- A call up to its second delete, with row 3 marked behind the first. -/
def lateMark : List TrimLabel :=
  [.statement .ok, .statement .ok, .mark 3 .ok, .statement .ok]

/-- **A late mark is not seen**: row 1 has not been uploaded and is
removed, row 3 has been and stays. -/
theorem trim_removes_backlog :
    ∃ s s' : TrimCall, Run.exec (callStep 2) (callStart 2 threeRows) lateMark = some s ∧
      callStep 2 s (.statement .ok) = some s' ∧
      s.db.rows.map (fun r => (r.1, r.2.uploaded)) = [(1, 0), (2, 0), (3, 1)] ∧
      s'.db.rows.map (fun r => (r.1, r.2.uploaded)) = [(2, 0), (3, 1)] ∧
      ¬ UploadedFirst s.db s'.db := by
  obtain ⟨s, h, hrows, hnext⟩ := Run.exists_of_exec (callStep 2) (callStart 2 threeRows) lateMark
    (fun s => s.db.rows.map (fun r => (r.1, r.2.uploaded)) = [(1, 0), (2, 0), (3, 1)] ∧
      (Run.exec (callStep 2) s [.statement .ok]).any (fun s' => decide
        (s'.db.rows.map (fun r => (r.1, r.2.uploaded)) = [(2, 0), (3, 1)])) = true)
    (by decide +kernel)
  obtain ⟨s', h', hrows'⟩ := Run.exists_of_exec (callStep 2) s [.statement .ok] _ hnext
  obtain ⟨t, ht, hlast⟩ := Run.exec_cons_eq_some.1 h'
  cases hlast
  refine ⟨s, s', h, ht, hrows, hrows', fun hfirst => ?_⟩
  have hkey : ∀ (k : ℕ) (u : ℤ) (db : Samples),
      (k, u) ∈ db.rows.map (fun r => (r.1, r.2.uploaded)) →
        ∃ b, (k, b) ∈ db.rows ∧ b.uploaded = u := by
    intro k u db hmem
    obtain ⟨r, hr, heq⟩ := List.mem_map.1 hmem
    obtain ⟨rfl, rfl⟩ := Prod.mk.inj heq
    exact ⟨r.2, hr, rfl⟩
  obtain ⟨b, hb, hzero⟩ := hkey 1 0 s.db (by rw [hrows]; decide)
  obtain ⟨b', hb', hone⟩ := hkey 3 1 s'.db (by rw [hrows']; decide)
  refine hfirst ⟨(1, b), hb, hzero, fun c hc => ?_⟩ (3, b') hb' hone
  have hmem := List.mem_map_of_mem (f := fun r : ℕ × Record => (r.1, r.2.uploaded)) hc
  rw [hrows'] at hmem
  simp at hmem

end Store

end WaterGateway
