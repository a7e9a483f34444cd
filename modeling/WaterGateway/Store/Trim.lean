import WaterGateway.Store.Model

/-!
# Trimming the cache

A whole call of `sqlite_store_trim_cache`, which `trimStep` takes apart:
what it does to the table when nothing runs beside it, and what its result
says. The counts go through an `int`: a table of `2 ^ 31` rows or more is
never trimmed to size.
-/

namespace WaterGateway

namespace Store

variable {db : Samples} {maxCount : ℤ} {count₁ delete₁ count₂ delete₂ : SqlAnswer}

/-- `sqlite_store_trim_cache`, by the answers to its four statements; one
that is not reached has an answer nobody reads. -/
def sqliteStoreTrimCache (db : Samples) (maxCount : ℤ)
    (count₁ delete₁ count₂ delete₂ : SqlAnswer) : Samples × ℤ :=
  if maxCount ≤ 0 then (db, -1)
  else
    let total := sqliteStoreGetTotalCount db count₁
    if total < 0 ∨ total ≤ maxCount then (db, 0)
    else if delete₁ ≠ .ok then (db, -1)
    else
      let db₁ := db.deleteFirst isUploaded (total - maxCount).toNat
      let total := sqliteStoreGetTotalCount db₁ count₂
      if total > maxCount then
        -- the result of the second delete is not looked at
        (if delete₂ = .ok then db₁.deleteFirst (fun _ => true) (total - maxCount).toNat else db₁, 0)
      else (db₁, 0)

/-- **The call is its statements**, one after another. -/
theorem trimStep_run (db : Samples) (maxCount : ℤ) (count₁ delete₁ count₂ delete₂ : SqlAnswer) :
    [count₁, delete₁, count₂, delete₂].foldl (fun x a => trimStep maxCount x.1 x.2 a)
        (db, trimStart maxCount) =
      ((sqliteStoreTrimCache db maxCount count₁ delete₁ count₂ delete₂).1,
        .done (sqliteStoreTrimCache db maxCount count₁ delete₁ count₂ delete₂).2) := by
  simp only [List.foldl_cons, List.foldl_nil]
  unfold sqliteStoreTrimCache trimStart
  by_cases hmax : maxCount ≤ 0
  · simp only [if_pos hmax, trimStep]
  · simp only [if_neg hmax]
    by_cases hfits : sqliteStoreGetTotalCount db count₁ < 0 ∨
        sqliteStoreGetTotalCount db count₁ ≤ maxCount
    · simp only [trimStep, if_pos hfits]
    · by_cases hdelete : delete₁ = .ok
      · by_cases hmore : sqliteStoreGetTotalCount (db.deleteFirst isUploaded
            (sqliteStoreGetTotalCount db count₁ - maxCount).toNat) count₂ > maxCount
        · by_cases hdelete' : delete₂ = .ok <;>
            simp [trimStep, hfits, hdelete, hmore, hdelete']
        · simp [trimStep, hfits, hdelete, hmore]
      · simp [trimStep, hfits, hdelete]

/-! ## The effect of a call -/

/-- How many rows there are too many. -/
def excess (db : Samples) (maxCount : ℤ) : ℕ := (db.rows.length - maxCount).toNat

/-- How many rows are uploaded. -/
def uploadedCount (db : Samples) : ℕ := db.rows.countP fun r => isUploaded r.2

/-- **The table is trimmed to size**: the oldest uploaded rows go first,
and if they are not enough, the oldest of the others go after all of
them. -/
structure TrimsTo (maxCount : ℤ) (db db' : Samples) : Prop where
  fits : db.rows.length ≤ maxCount → db' = db
  full : maxCount < db.rows.length → db'.rows.length = maxCount
  uploadedOnly : maxCount < db.rows.length → excess db maxCount ≤ uploadedCount db →
    db'.rows = db.rows.filter fun r =>
      r.1 ∉ ((db.rows.filter fun s => isUploaded s.2).take (excess db maxCount)).map Prod.fst
  backlogToo : maxCount < db.rows.length → uploadedCount db < excess db maxCount →
    db'.rows =
      (db.rows.filter fun r => !isUploaded r.2).drop (excess db maxCount - uploadedCount db)

theorem length_delete₁ (db : Samples) (n : ℕ) :
    (db.deleteFirst isUploaded n).rows.length = db.rows.length - min n (uploadedCount db) :=
  AutoTable.length_deleteFirst n

theorem uploadedCount_le (db : Samples) : uploadedCount db ≤ db.rows.length := List.countP_le_length

theorem rows_delete₂ (db : Samples) (n : ℕ) :
    (db.deleteFirst (fun _ => true) n).rows = db.rows.drop n := AutoTable.dropFirst_true n db.rows

/-- A count of fewer than `2 ^ 31` rows is right. -/
theorem getTotalCount_ok (h : db.rows.length < 2 ^ 31) :
    sqliteStoreGetTotalCount db .ok = db.rows.length := columnInt_of_lt h

/-- **A call whose statements succeed**, on a table that can be counted. -/
theorem trimCache_ok (hpos : 0 < maxCount) (hrows : db.rows.length < 2 ^ 31) :
    sqliteStoreTrimCache db maxCount .ok .ok .ok .ok =
      ((db.deleteFirst isUploaded (excess db maxCount)).deleteFirst (fun _ => true)
        (excess db maxCount - uploadedCount db), 0) := by
  have hcount := getTotalCount_ok hrows
  have hcount₁ := length_delete₁ db (excess db maxCount)
  have hrows₁ : sqliteStoreGetTotalCount (db.deleteFirst isUploaded (excess db maxCount)) .ok =
      (db.deleteFirst isUploaded (excess db maxCount)).rows.length := getTotalCount_ok (by omega)
  unfold sqliteStoreTrimCache
  rw [if_neg (by omega), hcount]
  dsimp only
  by_cases hfits : (db.rows.length : ℤ) ≤ maxCount
  · have hnone : excess db maxCount = 0 := Int.toNat_of_nonpos (by omega)
    rw [if_pos (Or.inr hfits), hnone, Nat.zero_sub, AutoTable.deleteFirst_zero,
      AutoTable.deleteFirst_zero]
  · have hexcess : (excess db maxCount : ℤ) = db.rows.length - maxCount :=
      Int.toNat_of_nonneg (by omega)
    have hle := uploadedCount_le db
    rw [if_neg (by omega), if_neg (by decide), show ((db.rows.length : ℤ) - maxCount).toNat =
      excess db maxCount from rfl, hrows₁, hcount₁, if_pos rfl]
    split
    · next hmore =>
      have hrest : (((db.rows.length - min (excess db maxCount) (uploadedCount db) : ℕ) : ℤ) -
          maxCount).toNat = excess db maxCount - uploadedCount db := by omega
      rw [hrest]
    · rw [show excess db maxCount - uploadedCount db = 0 by omega, AutoTable.deleteFirst_zero]

theorem trimsTo_of_lt (hpos : 0 < maxCount) (hrows : db.rows.length < 2 ^ 31) :
    TrimsTo maxCount db (sqliteStoreTrimCache db maxCount .ok .ok .ok .ok).1 := by
  rw [trimCache_ok hpos hrows]
  have hle := uploadedCount_le db
  have hexcess : excess db maxCount = (db.rows.length - maxCount).toNat := rfl
  refine ⟨fun hfits => ?_, fun hmore => ?_, fun hmore henough => ?_, fun hmore hfew => ?_⟩
  · rw [show excess db maxCount = 0 by omega, Nat.zero_sub, AutoTable.deleteFirst_zero,
      AutoTable.deleteFirst_zero]
  · rw [rows_delete₂, List.length_drop, length_delete₁]
    omega
  · rw [Nat.sub_eq_zero_of_le henough, AutoTable.deleteFirst_zero]
    exact AutoTable.dropFirst_eq_filter db.sorted _
  · rw [rows_delete₂]
    exact congrArg _ (AutoTable.dropFirst_of_countP_le (Nat.le_of_lt hfew))

/-- Rows that are taken off a count too small by a multiple of `2 ^ 32`
leave more than `maxCount`. -/
theorem left_of_wrap {rows deleted : ℕ} (hpos : 0 < maxCount) (hrows : 2 ^ 31 ≤ rows)
    (hdeleted : deleted ≤ columnInt rows - maxCount) :
    maxCount < ((rows - deleted : ℕ) : ℤ) ∧
      maxCount <
        ((rows - deleted - (columnInt (rows - deleted : ℕ) - maxCount).toNat : ℕ) : ℤ) := by
  obtain ⟨-, hint, k, hk⟩ := columnInt_spec rows
  have hfits : columnInt (rows - deleted : ℕ) = columnInt rows - deleted := by
    obtain ⟨hlow', hint', k', hk'⟩ := columnInt_spec (rows - deleted : ℕ)
    omega
  omega

/-- A count above zero was answered. -/
theorem getTotalCount_of_pos (a : SqlAnswer) (h : 0 < sqliteStoreGetTotalCount db a) :
    a = .ok ∧ sqliteStoreGetTotalCount db a = columnInt db.rows.length := by
  cases a with
  | prepareFailed => exact absurd h (by simp only [sqliteStoreGetTotalCount]; omega)
  | stepFailed => exact absurd h (by simp only [sqliteStoreGetTotalCount]; omega)
  | ok => exact ⟨rfl, rfl⟩

/-- **A table of `2 ^ 31` rows or more is not trimmed to size**, however
the statements are answered: its count is negative, or too small by a
multiple of `2 ^ 32`. -/
theorem length_trimCache_of_ge (hint : maxCount < 2 ^ 31) (hrows : 2 ^ 31 ≤ db.rows.length)
    (count₁ delete₁ count₂ delete₂ : SqlAnswer) : maxCount <
      (sqliteStoreTrimCache db maxCount count₁ delete₁ count₂ delete₂).1.rows.length := by
  have hlong : maxCount < db.rows.length := by omega
  unfold sqliteStoreTrimCache
  dsimp only
  split
  · exact hlong
  · next hpos =>
    split
    · exact hlong
    · next hmore =>
      have hpos₁ : 0 < sqliteStoreGetTotalCount db count₁ := by omega
      obtain ⟨-, htotal⟩ := getTotalCount_of_pos count₁ hpos₁
      split
      · exact hlong
      · have hdeleted : min (sqliteStoreGetTotalCount db count₁ - maxCount).toNat
            (uploadedCount db) ≤ columnInt db.rows.length - maxCount := by omega
        obtain ⟨hleft, hleft'⟩ := left_of_wrap (by omega) hrows hdeleted
        rw [← length_delete₁] at hleft hleft'
        split
        · next hmore' =>
          obtain ⟨-, htotal'⟩ := getTotalCount_of_pos count₂ (lt_trans (by omega) hmore')
          rw [htotal']
          split
          · rw [rows_delete₂, List.length_drop]
            exact hleft'
          · exact hleft
        · exact hleft

/-- **A trim has its effect if and only if the table has fewer than `2 ^ 31`
rows.** -/
theorem trimsTo_iff (hpos : 0 < maxCount) (hint : maxCount < 2 ^ 31) :
    TrimsTo maxCount db (sqliteStoreTrimCache db maxCount .ok .ok .ok .ok).1 ↔
      db.rows.length < 2 ^ 31 := by
  refine ⟨fun h => ?_, trimsTo_of_lt hpos⟩
  by_contra hge
  have hlong := length_trimCache_of_ge hint (Nat.le_of_not_lt hge) .ok .ok .ok .ok
  exact absurd (h.full (by omega)) (by omega)

/-- A row that is uploaded or not, after some tries. -/
def exampleRow (uploaded uploadRetry : ℤ) : Record :=
  { recordOf (bytes "gw-001") default with uploaded := uploaded, uploadRetry := uploadRetry }

/-- Three rows; the uploader has given up on the first two. -/
def threeRows : Samples :=
  ((AutoTable.empty.insert (exampleRow 0 3)).insert (exampleRow 0 3)).insert (exampleRow 0 0)

/-- One row of three is removed. -/
theorem trimsTo_iff_three :
    TrimsTo 2 threeRows (sqliteStoreTrimCache threeRows 2 .ok .ok .ok .ok).1 :=
  (trimsTo_iff (by decide) (by decide)).2 (by decide)

/-- The smallest table that is not trimmed at all: its count is the least
`int`. -/
theorem not_trimsTo_of_huge :
    sqliteStoreTrimCache (AutoTable.replicate (exampleRow 0 0) (2 ^ 31)) 1 .ok .ok .ok .ok =
        (AutoTable.replicate (exampleRow 0 0) (2 ^ 31), 0) ∧
      ¬ TrimsTo 1 (AutoTable.replicate (exampleRow 0 0) (2 ^ 31))
        (sqliteStoreTrimCache (AutoTable.replicate (exampleRow 0 0) (2 ^ 31)) 1
          .ok .ok .ok .ok).1 := by
  have hcount : sqliteStoreGetTotalCount (AutoTable.replicate (exampleRow 0 0) (2 ^ 31)) .ok =
      -2 ^ 31 := by
    rw [sqliteStoreGetTotalCount, AutoTable.length_replicate]
    decide
  have hsame : sqliteStoreTrimCache (AutoTable.replicate (exampleRow 0 0) (2 ^ 31)) 1
      .ok .ok .ok .ok = (AutoTable.replicate (exampleRow 0 0) (2 ^ 31), 0) := by
    unfold sqliteStoreTrimCache
    rw [hcount, if_neg (by decide)]
    exact if_pos (Or.inl (by decide))
  refine ⟨hsame, fun h => ?_⟩
  have hfull := h.full (by rw [AutoTable.length_replicate]; decide)
  rw [hsame, AutoTable.length_replicate] at hfull
  exact absurd hfull (by decide)

/-! ## What the result says -/

/-- **A call that is to return zero on a table it leaves too large is
noticed**: the table is not too large, or its rows are counted and there
are too many of them, and the first delete fails, which is reported, or
finds rows enough, or the second count and the second delete succeed. -/
def Noticed (db : Samples) (maxCount : ℤ) (count₁ delete₁ count₂ delete₂ : SqlAnswer) : Prop :=
  db.rows.length ≤ maxCount ∨
    (count₁ = .ok ∧ maxCount < columnInt db.rows.length ∧
      (delete₁ ≠ .ok ∨ (db.rows.length < 2 ^ 31 ∧
        (excess db maxCount ≤ uploadedCount db ∨ (count₂ = .ok ∧ delete₂ = .ok)))))

/-- The first count finds no row too many, or is not answered. -/
theorem trimCache_of_uncounted (hpos : 0 < maxCount)
    (h : ¬ (count₁ = .ok ∧ maxCount < columnInt db.rows.length)) :
    sqliteStoreTrimCache db maxCount count₁ delete₁ count₂ delete₂ = (db, 0) := by
  unfold sqliteStoreTrimCache
  rw [if_neg (by omega)]
  refine if_pos ?_
  by_contra hmore
  have hpos₁ : 0 < sqliteStoreGetTotalCount db count₁ := by omega
  obtain ⟨rfl, htotal⟩ := getTotalCount_of_pos count₁ hpos₁
  exact h ⟨rfl, by omega⟩

/-- The first delete fails. -/
theorem trimCache_of_failed (hpos : 0 < maxCount) (h : maxCount < columnInt db.rows.length)
    (hdelete : delete₁ ≠ .ok) :
    sqliteStoreTrimCache db maxCount .ok delete₁ count₂ delete₂ = (db, -1) := by
  have htotal : sqliteStoreGetTotalCount db .ok = columnInt db.rows.length := rfl
  unfold sqliteStoreTrimCache
  rw [if_neg (by omega), htotal]
  dsimp only
  rw [if_neg (by omega), if_pos hdelete]

/-- Only the first delete is looked at. -/
theorem trimCache_ret (hpos : 0 < maxCount) :
    (sqliteStoreTrimCache db maxCount count₁ .ok count₂ delete₂).2 = 0 := by
  unfold sqliteStoreTrimCache
  rw [if_neg (by omega)]
  dsimp only
  split
  · rfl
  · rw [if_neg (by decide)]
    split <;> rfl

/-- The rows of a call whose first delete succeeds, on a table that can be
counted. -/
theorem length_trimCache_of_deleted (hpos : 0 < maxCount) (hlong : maxCount < db.rows.length)
    (hrows : db.rows.length < 2 ^ 31) :
    (sqliteStoreTrimCache db maxCount .ok .ok count₂ delete₂).1.rows.length =
      if count₂ = .ok ∧ delete₂ = .ok then maxCount.toNat
      else db.rows.length - min (excess db maxCount) (uploadedCount db) := by
  have htotal := getTotalCount_ok hrows
  have hlength := length_delete₁ db (excess db maxCount)
  have hexcess : excess db maxCount = (db.rows.length - maxCount).toNat := rfl
  have hle := uploadedCount_le db
  unfold sqliteStoreTrimCache
  rw [if_neg (by omega), htotal]
  dsimp only
  rw [if_neg (by omega), if_neg (by decide), ← hexcess]
  split
  · next hmore =>
    obtain ⟨rfl, htotal'⟩ := getTotalCount_of_pos count₂ (lt_trans hpos hmore)
    rw [htotal', columnInt_of_lt (by omega)] at hmore ⊢
    by_cases hdelete : delete₂ = .ok
    · rw [if_pos hdelete, if_pos ⟨rfl, hdelete⟩, rows_delete₂, List.length_drop]
      omega
    · rw [if_neg hdelete, if_neg fun h => hdelete h.2]
      exact hlength
  · next hmore =>
    refine hlength.trans ?_
    split
    · next hok =>
      rw [hok.1, getTotalCount_ok (by omega)] at hmore
      omega
    · rfl

/-- **A trim that returns zero has trimmed, if and only if** none of the
failures it does not look at comes where it matters. -/
theorem trimReports_iff (hpos : 0 < maxCount) (hint : maxCount < 2 ^ 31) :
    ((sqliteStoreTrimCache db maxCount count₁ delete₁ count₂ delete₂).2 = 0 →
        (sqliteStoreTrimCache db maxCount count₁ delete₁ count₂ delete₂).1.rows.length ≤
          maxCount) ↔
      Noticed db maxCount count₁ delete₁ count₂ delete₂ := by
  by_cases hcounted : count₁ = .ok ∧ maxCount < columnInt db.rows.length
  · obtain ⟨rfl, hmore⟩ := hcounted
    have hlong : maxCount < db.rows.length := by
      obtain ⟨-, hlt, k, hk⟩ := columnInt_spec db.rows.length
      omega
    have hnoticed : Noticed db maxCount .ok delete₁ count₂ delete₂ ↔ (delete₁ ≠ .ok ∨
        (db.rows.length < 2 ^ 31 ∧
          (excess db maxCount ≤ uploadedCount db ∨ (count₂ = .ok ∧ delete₂ = .ok)))) :=
      ⟨fun h => (h.resolve_left (by omega)).2.2, fun h => Or.inr ⟨rfl, hmore, h⟩⟩
    rw [hnoticed]
    by_cases hdelete : delete₁ = .ok
    · subst hdelete
      have hle := uploadedCount_le db
      have hexcess : excess db maxCount = (db.rows.length - maxCount).toNat := rfl
      by_cases hrows : db.rows.length < 2 ^ 31
      · rw [trimCache_ret hpos, length_trimCache_of_deleted hpos hlong hrows]
        by_cases hok : count₂ = .ok ∧ delete₂ = .ok
        · rw [if_pos hok]
          exact ⟨fun _ => Or.inr ⟨hrows, Or.inr hok⟩, fun _ _ => by omega⟩
        · rw [if_neg hok]
          refine ⟨fun h => Or.inr ⟨hrows, Or.inl ?_⟩, fun h _ => ?_⟩
          · have := h rfl
            omega
          · have henough := (h.resolve_left (fun hne => hne rfl)).2.resolve_right hok
            omega
      · -- the call ends with zero and more than `maxCount` rows
        have hleft := length_trimCache_of_ge hint (Nat.le_of_not_lt hrows) .ok .ok count₂ delete₂
        refine ⟨fun h => absurd (h (trimCache_ret hpos)) (by omega), fun h => ?_⟩
        rcases h with hne | ⟨hlt, -⟩
        · exact absurd rfl hne
        · exact absurd hlt hrows
    · rw [trimCache_of_failed hpos hmore hdelete]
      exact ⟨fun _ => Or.inl hdelete, fun _ (h : (-1 : ℤ) = 0) => absurd h (by decide)⟩
  · rw [trimCache_of_uncounted hpos hcounted]
    refine ⟨fun h => Or.inl (h rfl), fun h _ => ?_⟩
    rcases h with hfits | ⟨hok, hmore, -⟩
    · exact hfits
    · exact absurd ⟨hok, hmore⟩ hcounted

/-- A first delete that fails is reported. -/
theorem trimReports_iff_failed :
    Noticed threeRows 2 .ok .stepFailed .ok .ok ∧
      ((sqliteStoreTrimCache threeRows 2 .ok .stepFailed .ok .ok).2 = 0 →
        (sqliteStoreTrimCache threeRows 2 .ok .stepFailed .ok .ok).1.rows.length ≤ (2 : ℤ)) := by
  have hnoticed : Noticed threeRows 2 .ok .stepFailed .ok .ok :=
    Or.inr ⟨rfl, by decide, Or.inl (by decide)⟩
  exact ⟨hnoticed, (trimReports_iff (by decide) (by decide)).2 hnoticed⟩

/-- **A second delete that fails is not**, and neither is a count. -/
theorem trim_reports_nothing :
    sqliteStoreTrimCache threeRows 2 .ok .ok .ok .stepFailed = (threeRows, 0) ∧
      sqliteStoreTrimCache threeRows 2 .prepareFailed .ok .ok .ok = (threeRows, 0) ∧
      ¬ (threeRows.rows.length ≤ (2 : ℤ)) := by
  decide +kernel

end Store

end WaterGateway
