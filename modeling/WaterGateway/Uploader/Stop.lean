import Mathlib.Algebra.Order.BigOperators.Group.List
import WaterGateway.Uploader.Termination

/-!
# The thread stops when it is told to

The flag may find `uploader_thread` anywhere. In the main loop it finishes
the row it has in hand, and goes on to the drain, or past it where there is
no connection. So a bounded number of steps is left from any point, and not
only from the start of the drain; what has to be known is that nobody else
takes the row of the drain loop out of the table.
-/

namespace WaterGateway

namespace Uploader

variable {w : ℕ} {cfg : Config} {s s' : State w} {l : Label} {db : Samples}

/-- How many steps the thread may take to its end, with no try counted. -/
def Pc.stopRank : Pc → ℕ
  | .connect => 1041
  | .query .main => 1040
  | .read .main _ _ => 1039
  | .send .main _ _ line sent => 525 + (line.length - sent)
  | .mark .main _ _ | .incRetry .main _ _ => 524
  | .inner _ _ => 523
  | .finalize .main _ => 522
  | .outer => 521
  | .drainTest => 520
  | pc => pc.rank

/-- **The measure of a thread that is told to stop.** -/
def stopMeasure (cfg : Config) (s : State w) : ℕ := 520 * totalLeft cfg s.db + s.pc.stopRank

theorem stopRank_of_draining {pc : Pc} (h : pc.draining = true) : pc.stopRank = pc.rank := by
  cases pc with
  | outer | connect | inner | drainTest => cases h
  | query loop | read loop | send loop | mark loop | incRetry loop | finalize loop =>
    cases loop with
    | main => cases h
    | drain => rfl
  | closing | stopped => rfl

/-- The drain is not left. -/
theorem draining_step (hdraining : s.pc.draining = true) (h : step cfg s l = some s') :
    s'.pc.draining = true := by
  cases moves_of_step h with
  | idle l pc hl hs hpc hfinalize hclosing hstopped hin => exact hin hdraining
  | queried loop hpc | skipped loop stmt hasData k b hpc | fetched loop stmt hasData k b hpc
    | marked a loop stmt sampleId hpc | counted a loop stmt sampleId connected sock hpc
    | sendFailed r loop stmt sampleId line sent net hpc
    | sentSome r loop stmt sampleId line sent i c hpc
    | sentAll r loop stmt sampleId line sent i c hpc =>
    rw [hpc] at hdraining
    cases loop with
    | main => cases hdraining
    | drain => rfl
  | tested stmt hasData hpc =>
    rw [hpc] at hdraining
    cases hdraining
  | connected hpc | connectFailed hpc =>
    rw [hpc] at hdraining
    cases hdraining
  | shutdown | inserted | insertFailed | trimmed | delivered | reset => exact hdraining

/-! ## The main loop -/

/-- No update gives a row tries back. -/
theorem totalLeft_updateRow_le {sampleId : ℤ} {f : Record → Record} {a : SqlAnswer}
    (hf : ∀ b, triesLeft cfg (f b) ≤ triesLeft cfg b) :
    totalLeft cfg (Store.updateRow db sampleId f a).1 ≤ totalLeft cfg db := by
  obtain hdb | hdb := Store.updateRow_cases db sampleId f a
  · rw [hdb, totalLeft, totalLeft, AutoTable.rows_modify, List.map_map]
    refine List.sum_le_sum fun r _ => ?_
    dsimp only [Function.comp_apply]
    split
    · exact hf r.2
    · exact Nat.le_refl _
  · rw [hdb]

theorem triesLeft_mark_le (b : Record) :
    triesLeft cfg { b with uploaded := 1 } ≤ triesLeft cfg b := by
  by_cases h : eligible cfg b = true
  · exact Nat.le_of_lt (triesLeft_mark_lt h)
  · have hnot : eligible cfg { b with uploaded := 1 } = false := by simp [eligible]
    rw [triesLeft, hnot, if_neg Bool.false_ne_true]
    exact Nat.zero_le _

theorem triesLeft_incRetry_le (b : Record) :
    triesLeft cfg { b with uploadRetry := b.uploadRetry + 1 } ≤ triesLeft cfg b := by
  by_cases h : eligible cfg b = true
  · exact Nat.le_of_lt (triesLeft_incRetry_lt h)
  · have hnot : ¬ eligible cfg { b with uploadRetry := b.uploadRetry + 1 } = true := by
      intro hel
      simp only [eligible, Bool.and_eq_true, decide_eq_true_eq] at h hel
      omega
    rw [triesLeft, if_neg hnot]
    exact Nat.zero_le _

/-- A step that leaves the tries, or takes some, and gets on. -/
theorem stopMeasure_lt (hdb : totalLeft cfg s'.db ≤ totalLeft cfg s.db)
    (hrank : s'.pc.stopRank < s.pc.stopRank) : stopMeasure cfg s' < stopMeasure cfg s := by
  rw [stopMeasure, stopMeasure]
  omega

theorem stop_tau (hshut : s.shutdown = true) (hout : s.pc.draining = false)
    (h : tauStep s = some s') : stopMeasure cfg s' < stopMeasure cfg s := by
  unfold tauStep at h
  split at h
  · next hpc =>
    rw [if_pos hshut] at h
    cases h
    exact stopMeasure_lt (Nat.le_refl _) (by rw [hpc]; exact Nat.lt_succ_self 520)
  · next stmt hasData hpc =>
    rw [if_pos hshut] at h
    cases h
    exact stopMeasure_lt (Nat.le_refl _) (by rw [hpc]; exact Nat.lt_succ_self 522)
  · next hasData hpc =>
    cases h
    exact stopMeasure_lt (Nat.le_refl _) (by rw [hpc]; exact Nat.lt_succ_self 521)
  · next hpc =>
    rw [hpc] at hout
    cases hout
  · next hpc =>
    cases h
    refine stopMeasure_lt (Nat.le_refl _) ?_
    rw [hpc]
    dsimp only
    split
    · exact show 517 < 520 by omega
    · exact show 1 < 520 by omega
  · next hpc =>
    rw [hpc] at hout
    cases hout
  · cases h

theorem stop_connect {ok : Bool} (h : connectStep s ok = some s') :
    stopMeasure cfg s' < stopMeasure cfg s := by
  unfold connectStep at h
  split at h
  · next hpc =>
    split at h
    · cases h
      exact stopMeasure_lt (Nat.le_refl _) (by rw [hpc]; exact Nat.lt_succ_self 1040)
    · cases h
      exact stopMeasure_lt (Nat.le_refl _) (by rw [hpc]; exact show 521 < 1041 by omega)
  · cases h

theorem stop_sql (hdevice : cfg.deviceId.length ≤ 63) (hout : s.pc.draining = false)
    {a : SqlAnswer} (h : sqlStep cfg s a = some s') :
    stopMeasure cfg s' < stopMeasure cfg s := by
  unfold sqlStep at h
  split at h
  · next hpc =>
    cases h
    refine stopMeasure_lt (Nat.le_refl _) ?_
    rw [hpc]
    dsimp only
    split
    · exact show 523 < 1040 by omega
    · exact show 521 < 1040 by omega
  · next hpc =>
    rw [hpc] at hout
    cases hout
  · next loop stmt hasData hpc =>
    cases loop with
    | drain =>
      rw [hpc] at hout
      cases hout
    | main =>
      have hfinal : (Pc.finalize .main hasData).stopRank < s.pc.stopRank := by
        rw [hpc]
        exact show 522 < 1039 by omega
      split at h
      · split at h
        · cases h
          exact stopMeasure_lt (Nat.le_refl _) hfinal
        · next k b hfetch =>
          cases h
          have hshort : (lineOf cfg b).length < jsonSize := length_lt_jsonSize hdevice _
          have hsize : jsonSize = 512 := rfl
          refine stopMeasure_lt (Nat.le_refl _) ?_
          rw [hpc]
          dsimp only
          rw [if_pos hshort]
          change 525 + ((lineOf cfg b).length - 0) < 1039
          omega
      · cases h
        exact stopMeasure_lt (Nat.le_refl _) hfinal
  · next loop stmt sampleId hpc =>
    cases loop with
    | drain =>
      rw [hpc] at hout
      cases hout
    | main =>
      cases h
      exact stopMeasure_lt (totalLeft_updateRow_le triesLeft_mark_le)
        (by rw [hpc]; exact Nat.lt_succ_self 523)
  · next hpc =>
    cases h
    exact stopMeasure_lt (totalLeft_updateRow_le triesLeft_incRetry_le)
      (by rw [hpc]; exact show 522 < 524 by omega)
  · next hpc =>
    rw [hpc] at hout
    cases hout
  · cases h

theorem stop_send {r : ℤ} (hout : s.pc.draining = false) (h : sendStep s r = some s') :
    stopMeasure cfg s' < stopMeasure cfg s := by
  unfold sendStep at h
  split at h
  · next loop stmt sampleId line sent hpc =>
    cases loop with
    | drain =>
      rw [hpc] at hout
      cases hout
    | main =>
      have hrank : s.pc.stopRank = 525 + (line.length - sent) := by
        rw [hpc]
        rfl
      split at h
      · cases h
        refine stopMeasure_lt (Nat.le_refl _) ?_
        change 524 < _
        omega
      · split at h
        · cases h
        · dsimp only at h
          split at h
          · cases h
          · split at h
            · cases h
              refine stopMeasure_lt (Nat.le_refl _) ?_
              change 525 + (line.length - (sent + r.toNat)) < _
              omega
            · cases h
              refine stopMeasure_lt (Nat.le_refl _) ?_
              change 524 < _
              omega
  · cases h

/-- **Every step of a thread that is told to stop lowers the measure**, and
a step of the world leaves it. -/
theorem stop_step (hdevice : cfg.deviceId.length ≤ 63) (hshut : s.shutdown = true)
    (hnamed : Named s) (hheld : Held cfg s) (hpresent : s.pc.draining = true → Present s)
    (hl : l.drains = true) (h : step cfg s l = some s') :
    stopMeasure cfg s' + (if !l.world then 1 else 0) ≤ stopMeasure cfg s := by
  cases hdraining : s.pc.draining with
  | true =>
    rw [stopMeasure, stopMeasure, stopRank_of_draining hdraining,
      stopRank_of_draining (draining_step hdraining h)]
    exact measure_step hdevice hdraining hnamed hheld (hpresent hdraining) hl h
  | false =>
    cases l with
    | tau => exact stop_tau hshut hdraining h
    | sql a => exact stop_sql hdevice hdraining h
    | send r => exact stop_send hdraining h
    | connect ok => exact stop_connect h
    | storeInsert | storeTrim => cases hl
    | shutdown | deliver | reset =>
      cases h
      exact Nat.le_refl _

/-- A thread that has not stopped can take a step. -/
theorem exists_step (hpc : s.pc ≠ .stopped) :
    ∃ l, l.sqlOk = true ∧ l.world = false ∧ (step cfg s l).isSome = true := by
  have hsql : (sqlStep cfg s .ok).isSome = true →
      ∃ l, l.sqlOk = true ∧ l.world = false ∧ (step cfg s l).isSome = true :=
    fun hsome => ⟨.sql .ok, rfl, rfl, hsome⟩
  have htau : (tauStep s).isSome = true →
      ∃ l, l.sqlOk = true ∧ l.world = false ∧ (step cfg s l).isSome = true :=
    fun hsome => ⟨.tau, rfl, rfl, hsome⟩
  cases hs : s.pc with
  | outer | inner | drainTest | closing =>
    exact htau (by simp only [tauStep, hs, Option.isSome_some])
  | finalize loop =>
    refine htau ?_
    cases loop <;> simp only [tauStep, hs, Option.isSome_some]
  | connect => exact ⟨.connect false, rfl, rfl, by simp [step, connectStep, hs]⟩
  | query loop | mark loop | incRetry loop =>
    refine hsql ?_
    cases loop <;> simp only [sqlStep, hs, Option.isSome_some]
  | read loop stmt hasData =>
    refine hsql ?_
    simp only [sqlStep, hs, if_pos]
    cases fetch cfg s.db stmt <;> rfl
  | send loop stmt sampleId line sent =>
    refine ⟨.send (-1), rfl, rfl, ?_⟩
    have hfails : (-1 : ℤ) ≤ 0 := by decide
    simp only [step, sendStep, hs, if_pos hfails, Option.isSome_some]
  | stopped => exact absurd hs hpc

end Uploader

end WaterGateway
