import WaterGateway.Pipeline.Shutdown
import WaterGateway.Store.Trim

/-!
# The size of the cache

The store thread trims the table after every hundredth sample and once
more when it returns. Between two trims at most a hundred rows are added,
also where `sample_counter` wraps: the two multiples of 100 next to the
wrap are 96 apart. A trim leaves the table at its limit, if it is counted
rightly, which takes fewer than `2 ^ 31` rows.
-/

namespace WaterGateway

namespace Pipeline

variable {w : ℕ} {cfg : Config} {s s' : State w} {l : Label} {ls : List Label} {db₀ : Samples}

/-! ## The hundredth sample -/

/-- How far `sample_counter` is past a multiple of 100, and a bound on the
samples since. -/
def sinceTrim (counter : UInt) : ℕ := (counter.toInt % 100).toNat

theorem sinceTrim_lt (counter : UInt) : sinceTrim counter < 100 := by
  unfold sinceTrim
  omega

theorem srem_eq_zero_iff {counter : UInt} : counter.srem 100 = 0 ↔ sinceTrim counter = 0 := by
  have hrem : (counter.srem 100).toInt = counter.toInt.tmod 100 := BitVec.toInt_srem _ _
  have hzero : counter.srem 100 = 0 ↔ counter.toInt.tmod 100 = 0 := by
    rw [← hrem, ← BitVec.toInt_inj]
    exact Iff.rfl
  rw [hzero, ← Int.dvd_iff_tmod_eq_zero, sinceTrim]
  omega

/-- One sample more is the next one, or a hundredth. -/
theorem sinceTrim_succ (counter : UInt) :
    sinceTrim (counter + 1) = 0 ∨ sinceTrim counter + 1 ≤ sinceTrim (counter + 1) := by
  have hsucc : (counter + 1).toInt = (counter.toInt + 1).bmod (2 ^ 32) := BitVec.toInt_add _ _
  have hlt := counter.toInt_lt
  have hle := counter.le_toInt
  unfold sinceTrim
  rw [hsucc]
  rcases lt_or_eq_of_le (show counter.toInt ≤ 2 ^ 31 - 1 by omega) with hfits | heq
  · rw [Int.bmod_eq_of_le (by omega) (by omega)]
    omega
  · rw [heq]
    decide

/-! ## The points of the store thread -/

/-- The store thread is in its main loop. -/
def StorePc.looping : StorePc → Bool
  | .loop | .pop _ | .insert _ false | .trim _ false => true
  | _ => false

/-- **Where the store thread goes** by a step that is no SQL statement. -/
inductive Goes (cfg : Config) : StorePc → StorePc → Prop
  | test : Goes cfg .loop (.pop false)
  | stop : Goes cfg .loop .drainCheck
  | wait (asleep : Bool) : Goes cfg (.pop asleep) (.pop true)
  | failed (asleep : Bool) : Goes cfg (.pop asleep) .loop
  | popped (asleep : Bool) (item : Item) : Goes cfg (.pop asleep) (.insert item false)
  | drain : Goes cfg .drainCheck (.drainPop false)
  | drainWait (asleep : Bool) : Goes cfg (.drainPop asleep) (.drainPop true)
  | drainPopped (asleep : Bool) (item : Item) : Goes cfg (.drainPop asleep) (.insert item true)
  | drained (pc : StorePc) (hpc : pc = .drainCheck ∨ ∃ asleep, pc = .drainPop asleep) :
      Goes cfg pc (.trim (Store.trimStart cfg.maxCacheCount) true)
  | trimmed (ret : ℤ) : Goes cfg (.trim (.done ret) false) .loop
  | returned (ret : ℤ) : Goes cfg (.trim (.done ret) true) .returned

theorem goes_of_storeStep {b : Bool} (h : storeStep cfg s b = some s') :
    Goes cfg s.store s'.store := by
  unfold storeStep at h
  split at h
  · next hpc =>
    cases h
    rw [hpc]
    dsimp only
    split
    · exact Goes.stop
    · exact Goes.test
  · next asleep hpc =>
    rw [hpc]
    split at h
    · cases h
      exact Goes.wait asleep
    · split at h
      · cases h
        exact Goes.failed asleep
      · next item _ =>
        cases h
        exact Goes.popped asleep item
  · next hpc =>
    cases h
    rw [hpc]
    dsimp only
    split
    · exact Goes.drain
    · exact Goes.drained _ (Or.inl rfl)
  · next asleep hpc =>
    rw [hpc]
    split at h
    · cases h
      exact Goes.drainWait asleep
    · split at h
      · cases h
        exact Goes.drained _ (Or.inr ⟨asleep, rfl⟩)
      · next item _ =>
        cases h
        exact Goes.drainPopped asleep item
  · next ret final hpc =>
    cases h
    rw [hpc]
    cases final with
    | false => exact Goes.trimmed ret
    | true => exact Goes.returned ret
  · cases h
  · cases h
  · cases h

/-! ## The size of the table -/

/-- **The statements of a trim succeed**, on a table whose rows an `int`
can count. -/
def trimsRight (s : State w) : Label → Bool
  | .sql a =>
    match s.store with
    | .trim _ _ => a = .ok && s.db.rows.length < 2 ^ 31
    | _ => true
  | _ => true

/-- What a trim knows about the number of rows. -/
def TrimPoint (maxCount : ℤ) (rows : ℕ) : Store.TrimPc → Prop
  | .count1 | .count2 => True
  | .delete1 toDelete | .delete2 toDelete => rows = maxCount + toDelete ∧ 0 ≤ toDelete
  | .done _ => rows ≤ maxCount

/-- **How many rows there are**, at each point of the store thread; `most`
is the larger of the first size and the limit. -/
def CachePoint (maxCount : ℤ) (most rows : ℕ) (counter : UInt) (passed : List Item) :
    StorePc → Prop
  | .loop | .pop _ => rows ≤ most + sinceTrim counter ∧
      (sinceTrim counter = 0 → passed ≠ [] → rows ≤ maxCount)
  | .insert _ false => rows ≤ most + sinceTrim counter
  | .trim pc false => rows ≤ most + 100 ∧ TrimPoint maxCount rows pc
  | .trim pc true => TrimPoint maxCount rows pc
  | .returned => rows ≤ maxCount
  | .insert _ true | .drainCheck | .drainPop _ => True

/-- A delete is given the rows there are too many. -/
theorem trimPoint_delete {maxCount : ℤ} {rows : ℕ} (h : maxCount < rows) :
    (rows : ℤ) = maxCount + (rows - maxCount) ∧ 0 ≤ (rows : ℤ) - maxCount := by
  omega

/-- A statement of a trim that succeeds, on a table that can be counted. -/
theorem trimPoint_step {maxCount : ℤ} {db : Samples} {pc : Store.TrimPc} (hpos : 0 < maxCount)
    (h : TrimPoint maxCount db.rows.length pc) (hrows : db.rows.length < 2 ^ 31) :
    TrimPoint maxCount (Store.trimStep maxCount db pc .ok).1.rows.length
      (Store.trimStep maxCount db pc .ok).2 := by
  have htotal := Store.getTotalCount_ok hrows
  cases pc with
  | count1 =>
    rw [Store.trimStep, htotal]
    by_cases hfits : (db.rows.length : ℤ) < 0 ∨ (db.rows.length : ℤ) ≤ maxCount
    · rw [if_pos hfits]
      exact hfits.resolve_left (Int.not_lt.2 (Int.natCast_nonneg _))
    · rw [if_neg hfits]
      exact trimPoint_delete (Int.not_le.1 fun hle => hfits (Or.inr hle))
  | delete1 toDelete =>
    rw [Store.trimStep, if_pos rfl]
    trivial
  | count2 =>
    rw [Store.trimStep, htotal]
    by_cases hmore : (db.rows.length : ℤ) > maxCount
    · rw [if_pos hmore]
      exact trimPoint_delete hmore
    · rw [if_neg hmore]
      exact Int.not_lt.1 hmore
  | delete2 toDelete =>
    obtain ⟨hsize, hdelete⟩ : db.rows.length = maxCount + toDelete ∧ 0 ≤ toDelete := h
    rw [Store.trimStep, if_pos rfl]
    have hlength : (db.deleteFirst (fun _ => true) toDelete.toNat).rows.length =
        db.rows.length - toDelete.toNat := by rw [Store.rows_delete₂, List.length_drop]
    change ((db.deleteFirst (fun _ => true) toDelete.toNat).rows.length : ℤ) ≤ maxCount
    omega
  | done ret => exact h

theorem trimPoint_start {maxCount : ℤ} (hpos : 0 < maxCount) (rows : ℕ) :
    TrimPoint maxCount rows (Store.trimStart maxCount) := by
  rw [Store.trimStart, if_neg (by omega)]
  trivial

section Cache

variable {most : ℕ}

/-- A step of the store thread between two statements. -/
theorem cachePoint_of_goes (hpos : 0 < cfg.maxCacheCount) (hmost : cfg.maxCacheCount ≤ most)
    {rows : ℕ} {counter : UInt} {passed : List Item} {pc pc' : StorePc}
    (h : CachePoint cfg.maxCacheCount most rows counter passed pc) (hgoes : Goes cfg pc pc') :
    CachePoint cfg.maxCacheCount most rows counter passed pc' := by
  rcases hgoes with _ | _ | asleep | asleep | ⟨asleep, item⟩ | _ | asleep | ⟨asleep, item⟩ |
    ⟨hpc⟩ | ret | ret
  · exact h
  · trivial
  · exact h
  · exact h
  · exact h.1
  · trivial
  · trivial
  · trivial
  · exact trimPoint_start hpos rows
  · have hfits : (rows : ℤ) ≤ cfg.maxCacheCount := h.2
    exact ⟨by omega, fun _ _ => hfits⟩
  · exact h

/-- After an insert, of a row or of none. -/
theorem cachePoint_of_insert (hpos : 0 < cfg.maxCacheCount) {rows rows' : ℕ} {counter : UInt}
    {passed passed' : List Item} {item : Item} {drain : Bool}
    (h : CachePoint cfg.maxCacheCount most rows counter passed (.insert item drain))
    (hrows : rows' ≤ rows + 1) :
    CachePoint cfg.maxCacheCount most rows' (counter + 1) passed'
      (afterInsert cfg (counter + 1) drain) := by
  unfold afterInsert
  cases drain with
  | true => trivial
  | false =>
    have hle : rows ≤ most + sinceTrim counter := h
    have hlt := sinceTrim_lt counter
    rw [if_neg Bool.false_ne_true]
    by_cases hzero : sinceTrim (counter + 1) = 0
    · rw [if_pos ⟨hpos, srem_eq_zero_iff.2 hzero⟩]
      exact ⟨by omega, trimPoint_start hpos rows'⟩
    · rw [if_neg fun hand => hzero (srem_eq_zero_iff.1 hand.2)]
      have hsucc := (sinceTrim_succ counter).resolve_left hzero
      exact ⟨by omega, fun hnot => absurd hnot hzero⟩

/-- A statement of a trim, of the main loop or of the end. -/
theorem cachePoint_of_trim (hpos : 0 < cfg.maxCacheCount) {db : Samples} {counter : UInt}
    {passed : List Item} {pc : Store.TrimPc} {final : Bool}
    (h : CachePoint cfg.maxCacheCount most db.rows.length counter passed (.trim pc final))
    (hrows : db.rows.length < 2 ^ 31) :
    CachePoint cfg.maxCacheCount most (Store.trimStep cfg.maxCacheCount db pc .ok).1.rows.length
      counter passed (.trim (Store.trimStep cfg.maxCacheCount db pc .ok).2 final) := by
  cases final with
  | true => exact trimPoint_step hpos h hrows
  | false =>
    have hle := (Store.trimStep_sublist cfg.maxCacheCount db pc .ok).1.length_le
    exact ⟨hle.trans h.1, trimPoint_step hpos h.2 hrows⟩

theorem sqlStep_trim {a : SqlAnswer} {pc : Store.TrimPc} {final : Bool}
    (hpc : s.store = .trim pc final) (h : sqlStep cfg s a = some s') :
    s' = { s with
      db := (Store.trimStep cfg.maxCacheCount s.db pc a).1
      store := .trim (Store.trimStep cfg.maxCacheCount s.db pc a).2 final } := by
  unfold sqlStep at h
  rw [hpc] at h
  cases pc with
  | done ret => cases h
  | count1 | delete1 | count2 | delete2 => exact (Option.some.inj h).symm

/-- **The invariant**: the point the store thread is at. -/
def Cached (cfg : Config) (most : ℕ) (s : State w) : Prop :=
  CachePoint cfg.maxCacheCount most s.db.rows.length s.storeCounter s.hist.passed s.store

theorem Cached.at_pc (h : Cached cfg most s) {pc : StorePc} (hpc : s.store = pc) :
    CachePoint cfg.maxCacheCount most s.db.rows.length s.storeCounter s.hist.passed pc := hpc ▸ h

theorem Cached.step (hpos : 0 < cfg.maxCacheCount) (hmost : cfg.maxCacheCount ≤ most)
    (h : Cached cfg most s) (hok : Sound s) (hright : trimsRight s l = true)
    (hstep : step cfg s l = some s') : Cached cfg most s' := by
  cases moves_of_step hok hstep with
  | signal | main | setProc | setStore | shutRaw | shutStore | collect | acquire | collectRefused
    | collectAccepted | proc | procPop | procHandle | procRefused | procAccepted => exact h
  | markUploaded sampleId a =>
    have hlength := Store.length_updateRow s.db sampleId (fun b => { b with uploaded := 1 }) a
    exact (congrArg (CachePoint cfg.maxCacheCount most · s.storeCounter s.hist.passed s.store)
      hlength).mpr h
  | incRetry sampleId a =>
    have hlength := Store.length_updateRow s.db sampleId
      (fun b => { b with uploadRetry := b.uploadRetry + 1 }) a
    exact (congrArg (CachePoint cfg.maxCacheCount most · s.storeCounter s.hist.passed s.store)
      hlength).mpr h
  | store b pc => exact cachePoint_of_goes hpos hmost h (goes_of_storeStep hstep)
  | storePop b item drain c =>
    exact cachePoint_of_goes hpos hmost h (goes_of_storeStep hstep)
  | insert a item drain pc hpc hafter hdb =>
    obtain rfl := hafter
    exact cachePoint_of_insert hpos (h.at_pc hpc) (Nat.le_of_eq (AutoTable.length_insert _))
  | insertFailed a item drain pc hpc hafter =>
    obtain rfl := hafter
    exact cachePoint_of_insert hpos (h.at_pc hpc) (Nat.le_succ _)
  | trim a pc pc' final db hpc hrows hseq =>
    rw [trimsRight, hpc, Bool.and_eq_true, decide_eq_true_eq, decide_eq_true_eq] at hright
    obtain ⟨rfl, hcount⟩ := hright
    rw [sqlStep_trim hpc hstep]
    exact cachePoint_of_trim hpos (h.at_pc hpc) hcount

end Cache

/-! ## Runs -/

/-- **The cache stays bounded**: in the main loop by a hundred rows more
than the first table or the limit had, at the limit behind every hundredth
sample and when the thread has returned. -/
structure CacheBounded (cfg : Config) (rows₀ : ℕ) (s : State w) : Prop where
  looping : s.store.looping = true →
    (s.db.rows.length : ℤ) ≤ max (rows₀ : ℤ) cfg.maxCacheCount + 100
  hundredth : s.store = .loop → s.storeCounter.srem 100 = 0 → s.hist.passed ≠ [] →
    s.db.rows.length ≤ cfg.maxCacheCount
  returned : s.store = .returned → s.db.rows.length ≤ cfg.maxCacheCount

theorem Cached.bounded {rows₀ : ℕ} (hpos : 0 < cfg.maxCacheCount)
    (h : Cached cfg (max rows₀ cfg.maxCacheCount.toNat) s) : CacheBounded cfg rows₀ s := by
  have hmost : ((max rows₀ cfg.maxCacheCount.toNat : ℕ) : ℤ) =
      max (rows₀ : ℤ) cfg.maxCacheCount := by
    omega
  have hlt := sinceTrim_lt s.storeCounter
  have hsize : s.store.looping = true →
      s.db.rows.length ≤ max rows₀ cfg.maxCacheCount.toNat + 100 := by
    intro hloop
    match hpc : s.store with
    | .loop | .pop _ => exact (h.at_pc hpc).1.trans (by omega)
    | .insert _ false =>
      have hle : s.db.rows.length ≤ _ := h.at_pc hpc
      omega
    | .trim _ false => exact (h.at_pc hpc).1
    | .insert _ true | .trim _ true | .drainCheck | .drainPop _ | .returned =>
      rw [hpc] at hloop
      cases hloop
  refine ⟨fun hloop => ?_, fun hpc hzero hpassed => ?_, fun hpc => h.at_pc hpc⟩
  · have hle := hsize hloop
    omega
  · exact (h.at_pc hpc).2 (srem_eq_zero_iff.1 hzero) hpassed

/-- **The cache stays bounded in every run whose trims succeed and count
fewer than `2 ^ 31` rows**, for any first table, any samples and any updates
by the uploader. -/
theorem cache_bounded {s₀ : State w} (hpos : 0 < cfg.maxCacheCount) (h₀ : init w db₀ = some s₀)
    (hright : Run.Along (step cfg) (fun s l => trimsRight s l = true) s₀ ls)
    (h : Run.exec (step cfg) s₀ ls = some s) : CacheBounded cfg db₀.rows.length s := by
  have hinv : Sound s ∧ Cached cfg (max db₀.rows.length cfg.maxCacheCount.toNat) s := by
    refine Run.exec_invariant_along
      (I := fun s => Sound s ∧ Cached cfg (max db₀.rows.length cfg.maxCacheCount.toNat) s)
      (fun s l t hI hl ht => ⟨hI.1.step ht, hI.2.step hpos (by omega) hI.1 hl ht⟩)
      ⟨sound_init h₀, ?_⟩ hright h
    obtain ⟨raw, store, -, -, -, -, rfl⟩ := init_cases h₀
    exact ⟨by dsimp only [start]; omega, fun _ hne => absurd rfl hne⟩
  exact hinv.2.bounded hpos

/-- A device that keeps two samples. -/
def smallConfig : Config := { exampleConfig with maxCacheCount := 2 }

/-- A shutdown with one sample in `store_queue`, and a trim of four
statements behind it. -/
def trimmedRun : List Label :=
  collectOne 1 ++ processOne ++ setFlags ++ List.replicate 3 (.store false) ++
    [.sql .ok, .store false] ++ List.replicate 4 (.sql .ok) ++ [.store false]

/-- The table starts with three rows, the drain inserts a fourth, and two
are left. -/
theorem cache_bounded_drained :
    ∃ s₀ s : State 32, init 32 Store.threeRows = some s₀ ∧
      Run.exec (step smallConfig) s₀ trimmedRun = some s ∧ s.store = .returned ∧
      s.db.rows.map Prod.fst = [3, 4] ∧ CacheBounded smallConfig 3 s := by
  obtain ⟨s₀, h₀, hrest⟩ := (Option.any_eq_true _ _).1
    (show (init 32 Store.threeRows).any (fun s₀ => decide
        (Run.Along (step smallConfig) (fun s l => trimsRight s l = true) s₀ trimmedRun) &&
      (Run.exec (step smallConfig) s₀ trimmedRun).any fun s =>
        decide (s.store = .returned ∧ s.db.rows.map Prod.fst = [3, 4])) = true by decide +kernel)
  obtain ⟨hright, hend⟩ := Bool.and_eq_true_iff.1 hrest
  obtain ⟨s, h, hreturned, hrows⟩ := Run.exists_of_exec (step smallConfig) s₀ trimmedRun _ hend
  exact ⟨s₀, s, h₀, h, hreturned, hrows,
    cache_bounded (by decide) h₀ (of_decide_eq_true hright) h⟩

/-- A table that cannot be counted is left as it is when the thread
returns. -/
theorem returns_untrimmed (hcount : Store.columnInt db₀.rows.length < 0) :
    ∃ s₀ s : State 32, init 32 db₀ = some s₀ ∧
      Run.exec (step smallConfig) s₀ (setFlags ++ storeReturns) = some s ∧
      s.store = .returned ∧ s.db = db₀ := by
  obtain ⟨s₀, h₀, s₁, h₁, hpc₁, hdb₁⟩ : ∃ s₀ : State 32, init 32 db₀ = some s₀ ∧ ∃ s₁,
      Run.exec (step smallConfig) s₀ (setFlags ++ [.store false, .store false]) = some s₁ ∧
        s₁.store = .trim .count1 true ∧ s₁.db = db₀ := ⟨_, rfl, _, rfl, rfl, rfl⟩
  have htrim : Store.trimStep 2 s₁.db .count1 .ok = (s₁.db, .done 0) := by
    rw [Store.trimStep, Store.sqliteStoreGetTotalCount, hdb₁]
    exact if_pos (Or.inl hcount)
  have h₂ : step smallConfig s₁ (.sql .ok) = some { s₁ with store := .trim (.done 0) true } := by
    change sqlStep smallConfig s₁ .ok = _
    rw [sqlStep, hpc₁]
    dsimp only
    rw [show smallConfig.maxCacheCount = 2 from rfl, htrim]
  refine ⟨s₀, { s₁ with store := .returned }, h₀, ?_, rfl, hdb₁⟩
  change Run.exec _ s₀ ((setFlags ++ [.store false, .store false]) ++ [.sql .ok, .store false]) = _
  rw [Run.exec_append, h₁, Option.bind_some, Run.exec_cons, h₂, Option.bind_some]
  rfl

/-- **Two tables that are too large**: one of three rows behind an
iteration that got no sample, with the counter at zero, and one whose rows
are `2 ^ 31` when the thread has returned. -/
theorem cache_not_bounded :
    (∃ s₀ s : State 32, init 32 Store.threeRows = some s₀ ∧
      Run.exec (step smallConfig) s₀ [.store false, .store false, .store true] = some s ∧
      s.store = .loop ∧ s.storeCounter.srem 100 = 0 ∧
      smallConfig.maxCacheCount < s.db.rows.length) ∧
    ∃ s₀ s : State 32, init 32 (AutoTable.replicate (Store.exampleRow 0 0) (2 ^ 31)) = some s₀ ∧
      Run.exec (step smallConfig) s₀ (setFlags ++ storeReturns) = some s ∧
      s.store = .returned ∧ s.db.rows.length = 2 ^ 31 := by
  refine ⟨?_, ?_⟩
  · obtain ⟨s₀, h₀, hrest⟩ := (Option.any_eq_true _ _).1
      (show (init 32 Store.threeRows).any (fun s₀ =>
        (Run.exec (step smallConfig) s₀ [.store false, .store false, .store true]).any fun s =>
          decide (s.store = .loop ∧ s.storeCounter.srem 100 = 0 ∧
            smallConfig.maxCacheCount < s.db.rows.length)) = true by decide +kernel)
    obtain ⟨s, h, hs⟩ := Run.exists_of_exec (step smallConfig) s₀ _ _ hrest
    exact ⟨s₀, s, h₀, h, hs⟩
  · have hcount : Store.columnInt
        (AutoTable.replicate (Store.exampleRow 0 0) (2 ^ 31)).rows.length < 0 := by
      rw [AutoTable.length_replicate]
      decide
    obtain ⟨s₀, s, h₀, h, hreturned, hdb⟩ := returns_untrimmed hcount
    exact ⟨s₀, s, h₀, h, hreturned, by rw [hdb, AutoTable.length_replicate]⟩

end Pipeline

end WaterGateway
