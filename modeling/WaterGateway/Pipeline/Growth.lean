import WaterGateway.Pipeline.Accounts
import WaterGateway.Pipeline.Cache

/-!
# The table at the end of a start

The drain loop of the store thread inserts what `store_queue` holds and
does not trim. The processor has been told to stop by then, and can push
one sample more; so the table grows by the queue and by that sample, from
what the main loop has left it at, before the last trim.
-/

namespace WaterGateway

namespace Pipeline

variable {w : ℕ} {cfg : Config} {s s' : State w} {l : Label} {ls : List Label} {db₀ : Samples}
variable {most : ℕ}

/-- The sample that a processor in its round may still push. -/
def ProcPc.credit (pc : ProcPc) : ℕ := if pc.resting then 0 else 1

theorem ProcPc.credit_le (pc : ProcPc) : pc.credit ≤ 1 := by
  unfold ProcPc.credit
  split <;> omega

/-- A round that is over is not begun again, behind the flag. -/
theorem credit_proc {b : Bool} (hflag : s.procShutdown = true)
    (h : procStep cfg s b = some s') : s'.proc.credit ≤ s.proc.credit := by
  unfold ProcPc.credit
  by_cases hrest : s.proc.resting = true
  · rw [if_pos (resting_proc hflag hrest h).2]
    exact Nat.zero_le _
  · rw [if_neg hrest]
    exact s'.proc.credit_le

/-- **The room the drain needs**: 99 rows since the last trim, 64 samples in
the queue, and one more. -/
structure Grown (most : ℕ) (s : State w) : Prop where
  told : s.store.looping = false → s.procShutdown = true
  rows : s.store.looping = false →
    s.db.rows.length + s.store.held.length + s.storeQueue.items.length + s.proc.credit ≤
      most + 164

theorem grown_init (h : init w db₀ = some s) : Grown most s := by
  obtain ⟨raw, store, -, -, -, -, rfl⟩ := init_cases h
  exact ⟨fun hloop => (by cases hloop), fun hloop => (by cases hloop)⟩

/-- Behind the test that ends the main loop. -/
theorem storeShutdown_of_drainCheck {b : Bool} (hpc : s.store = .loop)
    (h : storeStep cfg s b = some s') (hdrain : s'.store = .drainCheck) :
    s.storeShutdown = true := by
  simp only [storeStep, hpc, Option.some.injEq] at h
  by_contra hflag
  rw [if_neg hflag] at h
  rw [← h] at hdrain
  cases hdrain

/-- The store thread leaves its main loop by that test. -/
theorem looping_goes {pc pc' : StorePc} (h : Goes cfg pc pc') (hbefore : pc.looping = true)
    (hafter : pc'.looping = false) : pc = .loop ∧ pc' = .drainCheck := by
  cases h with
  | stop => exact ⟨rfl, rfl⟩
  | drained pc hpc =>
    obtain rfl | ⟨asleep, rfl⟩ := hpc
    · cases hbefore
    · cases hbefore
  | test | wait | failed | popped | trimmed => cases hafter
  | drain | drainWait | drainPopped | returned => cases hbefore

/-- A pop goes where its loop goes. -/
theorem looping_insert {pc : StorePc} {item : Item} {drain : Bool}
    (h : Goes cfg pc (.insert item drain)) :
    pc.looping = (StorePc.insert item drain).looping := by
  cases h with
  | popped => rfl
  | drainPopped => rfl

theorem looping_afterInsert (counter : UInt) (drain : Bool) :
    (afterInsert cfg counter drain).looping = !drain := by
  unfold afterInsert
  cases drain with
  | true => rfl
  | false =>
    rw [if_neg Bool.false_ne_true]
    split <;> rfl

/-- **The drain begins**: what the main loop and the queue can have left. -/
theorem grown_entry {b : Bool} {pc : StorePc} (hcached : Cached cfg most s)
    (hcounters : Counters s) (hok : Sound s) (htold : Told s) (hshown : Shown s)
    (hloop : s.store.looping = true) (hdrain : pc.looping = false)
    (hstep : storeStep cfg s b = some { s with store := pc }) :
    Grown most { s with store := pc } := by
  obtain ⟨hpc, rfl⟩ := looping_goes (goes_of_storeStep hstep) hloop hdrain
  have hstage := hshown.store (storeShutdown_of_drainCheck hpc hstep rfl)
  have hrows := (hcached.at_pc hpc).1
  have hsince := sinceTrim_lt s.storeCounter
  have hqueue : s.storeQueue.items.length ≤ 64 := by
    rw [Channel.length_items]
    exact hok.store.count_le.trans hcounters.store.capacity.le
  refine ⟨fun _ => htold.proc (by omega), fun _ => ?_⟩
  have hcredit := s.proc.credit_le
  change s.db.rows.length + 0 + s.storeQueue.items.length + s.proc.credit ≤ most + 164
  omega

/-- The uploader's updates leave the number of rows. -/
theorem Grown.of_length (h : Grown most s) {db : Samples}
    (hlength : db.rows.length = s.db.rows.length) : Grown most { s with db := db } := by
  refine ⟨h.told, fun hloop => ?_⟩
  have hrows := h.rows hloop
  dsimp only at hrows ⊢
  omega

/-- After an insert, of a row or of none. -/
theorem Grown.afterInsert (h : Grown most s) {item : Item} {drain : Bool} {counter : UInt}
    (hpc : s.store = .insert item drain) {db : Samples} {writes fails : BitVec w}
    {hist : History} (hrows : db.rows.length ≤ s.db.rows.length + 1) :
    Grown most { s with
      storeCounter := counter, db := db, writeCount := writes, writeFailCount := fails
      hist := hist, store := Pipeline.afterInsert cfg counter drain } := by
  have hsame : s.store.looping = (Pipeline.afterInsert cfg counter drain).looping := by
    rw [hpc, looping_afterInsert]
    cases drain <;> rfl
  refine ⟨fun hnot => h.told (hsame.trans hnot), fun hnot => ?_⟩
  have hbefore := h.rows (hsame.trans hnot)
  rw [hpc] at hbefore
  change _ + 1 + _ + _ ≤ _ at hbefore
  rw [held_afterInsert]
  dsimp only at hbefore ⊢
  rw [List.length_nil]
  omega

theorem Grown.step (h : Grown most s) (hcached : Cached cfg most s) (hcounters : Counters s)
    (hok : Sound s) (htold : Told s) (hshown : Shown s) (hstep : step cfg s l = some s') :
    Grown most s' := by
  cases moves_of_step hok hstep with
  | signal | main | setStore | shutRaw | collect | acquire | collectRefused | collectAccepted =>
    exact ⟨h.told, h.rows⟩
  | shutStore => exact ⟨h.told, h.rows⟩
  | setProc => exact ⟨fun _ => rfl, h.rows⟩
  | markUploaded | incRetry => exact h.of_length (Store.length_updateRow _ _ _ _)
  | proc | procPop | procHandle | procRefused =>
    refine ⟨h.told, fun hloop => ?_⟩
    have hcredit := credit_proc (h.told hloop) hstep
    have hrows := h.rows hloop
    dsimp only at hcredit hrows ⊢
    omega
  | procAccepted b item asleep c old kept hpc hc =>
    -- the sample of the round goes into the queue
    refine ⟨h.told, fun hloop => ?_⟩
    have hrows := h.rows hloop
    have hone : s.proc.credit = 1 := by rw [hpc]; rfl
    have hitems : c.items.length ≤ s.storeQueue.items.length + 1 := by
      rw [hc.before, hc.after, List.length_append, List.length_append, List.length_singleton]
      omega
    have hzero : ProcPc.loop.credit = 0 := rfl
    dsimp only at hrows ⊢
    omega
  | store b pc hheld hpc hdrained hempty hdrain =>
    cases hloop : s.store.looping with
    | false =>
      refine ⟨fun _ => h.told hloop, fun _ => ?_⟩
      have hrows := h.rows hloop
      dsimp only at hrows ⊢
      rw [hheld]
      exact hrows
    | true =>
      cases hafter : pc.looping with
      | false => exact grown_entry hcached hcounters hok htold hshown hloop hafter hstep
      | true =>
        exact ⟨fun hnot => absurd (hnot.symm.trans hafter) Bool.false_ne_true,
          fun hnot => absurd (hnot.symm.trans hafter) Bool.false_ne_true⟩
  | storePop b item drain c hdrained hheld hc =>
    have hsame := looping_insert (goes_of_storeStep hstep)
    refine ⟨fun hnot => h.told (hsame.trans hnot), fun hnot => ?_⟩
    have hrows := h.rows (hsame.trans hnot)
    rw [hheld, hc.before, List.length_nil, List.length_cons] at hrows
    change s.db.rows.length + 1 + c.items.length + s.proc.credit ≤ most + 164
    omega
  | insert a item drain pc hpc hafter hdb =>
    obtain rfl := hafter
    refine h.afterInsert hpc ?_
    rw [AutoTable.length_insert]
  | insertFailed a item drain pc hpc hafter =>
    obtain rfl := hafter
    exact h.afterInsert hpc (Nat.le_succ _)
  | trim a pc pc' final db hpc hrows hseq =>
    have hsame : s.store.looping = (StorePc.trim pc' final).looping := by
      rw [hpc]
      cases final <;> rfl
    refine ⟨fun hnot => h.told (hsame.trans hnot), fun hnot => ?_⟩
    have hbefore := h.rows (hsame.trans hnot)
    have hle := hrows.length_le
    rw [hpc] at hbefore
    change db.rows.length + 0 + s.storeQueue.items.length + s.proc.credit ≤ most + 164
    change _ + 0 + _ + _ ≤ _ at hbefore
    omega

/-- **The size of the table at any moment of a start**: a hundred rows more
in the main loop, and the drain. -/
theorem Grown.rows_le {rows₀ : ℕ} (hpos : 0 < cfg.maxCacheCount)
    (hcached : Cached cfg (max rows₀ cfg.maxCacheCount.toNat) s)
    (h : Grown (max rows₀ cfg.maxCacheCount.toNat) s) :
    s.db.rows.length ≤ max rows₀ cfg.maxCacheCount.toNat + 164 := by
  cases hloop : s.store.looping with
  | true =>
    have hbound := (hcached.bounded hpos).looping hloop
    omega
  | false =>
    have hrows := h.rows hloop
    omega

/-- What the size of the table rests on. -/
structure Sized (cfg : Config) (most : ℕ) (s : State w) : Prop where
  sound : Sound s
  told : Told s
  shown : Shown s
  counters : Counters s
  cached : Cached cfg most s
  grown : Grown most s

theorem sized_init (h : init w db₀ = some s) :
    Sized cfg (max db₀.rows.length cfg.maxCacheCount.toNat) s := by
  refine ⟨sound_init h, told_init h, shown_init h, counters_init h, ?_, grown_init h⟩
  obtain ⟨raw, store, -, -, -, -, rfl⟩ := init_cases h
  exact ⟨by dsimp only [start]; omega, fun _ hne => absurd rfl hne⟩

theorem Sized.step (hpos : 0 < cfg.maxCacheCount) (hmost : cfg.maxCacheCount ≤ most)
    (h : Sized cfg most s) (hright : trimsRight s l = true) (hstep : step cfg s l = some s') :
    Sized cfg most s' where
  sound := h.sound.step hstep
  told := h.told.step h.sound hstep
  shown := h.shown.step h.sound hstep
  counters := h.counters.step h.sound hstep
  cached := h.cached.step hpos hmost h.sound hright hstep
  grown := h.grown.step h.cached h.counters h.sound h.told h.shown hstep

end Pipeline

end WaterGateway
