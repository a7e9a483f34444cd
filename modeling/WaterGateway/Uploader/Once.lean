import WaterGateway.Uploader.InHand

/-!
# A row is handed over once

A row handed over is uploaded as soon as its mark has run, and the query
selects no uploaded row. So where every mark succeeds and no row is
trimmed, no row is handed over a second time.
-/

namespace WaterGateway

namespace Uploader

variable {w : ℕ} {cfg : Config} {s s' : State w} {l : Label} {hd : List Handover}

/-- Every mark succeeds. -/
def MarkSucceeds (s : State w) (l : Label) : Prop :=
  ∀ loop stmt sampleId a, s.pc = .mark loop stmt sampleId → l = .sql a → a = .ok

/-- From a mark the thread goes on by its statement only. -/
theorem mark_after (h : step cfg s l = some s') {loop : Loop} {stmt : Stmt} {sampleId : ℤ}
    (hpc : s.pc = .mark loop stmt sampleId) :
    (s'.pc = .mark loop stmt sampleId ∧ l.world = true) ∨
      ∃ a, l = .sql a ∧ s'.db = (Store.sqliteStoreMarkUploaded s.db sampleId a).1 ∧
        s'.uploadedCount = s.uploadedCount + 1 := by
  cases l with
  | sql a =>
    simp only [step, sqlStep, hpc, Option.some.injEq] at h
    subst h
    exact Or.inr ⟨a, rfl, rfl, rfl⟩
  | tau => simp [step, tauStep, hpc] at h
  | connect ok => simp [step, connectStep, hpc] at h
  | send r => simp [step, sendStep, hpc] at h
  | shutdown | storeInsert | storeTrim | deliver | reset =>
    cases h
    exact Or.inl ⟨hpc, rfl⟩

/-- A row is uploaded, or is about to be marked. -/
def MarkedOrNext (s : State w) (k : ℕ) : Prop :=
  ∃ b, (k, b) ∈ s.db.rows ∧
    (b.uploaded = 1 ∨ ∃ loop stmt sampleId, s.pc = .mark loop stmt sampleId ∧ stmt.last = k)

theorem MarkedOrNext.step {k : ℕ} (h : MarkedOrNext s k) (hnamed : Named s) (hheld : Held cfg s)
    (hrows : ∀ r ∈ s.db.rows, ∃ b, (r.1, b) ∈ s'.db.rows) (hmark : MarkSucceeds s l)
    (hstep : step cfg s l = some s') : MarkedOrNext s' k := by
  obtain ⟨b, hb, hstatus⟩ := h
  obtain ⟨b', hb'⟩ := hrows _ hb
  refine ⟨b', hb', ?_⟩
  obtain hone | ⟨loop, stmt, sampleId, hpc, hlast⟩ := hstatus
  · -- an uploaded row is not touched
    refine Or.inl ?_
    obtain rfl | ⟨hel, -⟩ := status_step hnamed hheld hstep hb hb'
    · exact hone
    · have hzero : b.uploaded = 0 := (uploaded_of_eligible hel).1
      omega
  · obtain ⟨hpc', -⟩ | ⟨a, rfl, hdb, -⟩ := mark_after hstep hpc
    · exact Or.inr ⟨loop, stmt, sampleId, hpc', hlast⟩
    · refine Or.inl ?_
      obtain rfl : a = .ok := hmark loop stmt sampleId a hpc rfl
      have hid : sampleId = stmt.last := hnamed stmt sampleId (by rw [hpc]; rfl)
      rw [hdb] at hb'
      obtain ⟨b₀, -, rfl⟩ := Store.mem_updateRow_ok.1 hb'
      rw [if_pos (by rw [hid, hlast])]

/-- **The rows handed over are different ones**, and the query selects none
of them again. -/
structure SentOnce (hd : List Handover) (s : State w) : Prop where
  once : (hd.map Handover.row).Nodup
  marked : ∀ h ∈ hd, MarkedOrNext s h.row

theorem sentOnce_nil (s : State w) : SentOnce [] s := ⟨List.nodup_nil, fun _ hh => nomatch hh⟩

/-- The row being sent has not been handed over. -/
theorem SentOnce.notMem (h : SentOnce hd s) (hheld : Held cfg s) {stmt : Stmt} {sampleId : ℤ}
    (haim : s.pc.aim = some (stmt, sampleId)) (hupdate : s.pc.update = none) :
    stmt.last ∉ hd.map Handover.row := by
  intro hmem
  obtain ⟨x, hx, hrow⟩ := List.mem_map.1 hmem
  obtain ⟨b, hb, hone | ⟨loop, stmt', sampleId', hmark, -⟩⟩ := h.marked x hx
  · have hzero : b.uploaded = 0 :=
      (uploaded_of_eligible (hheld stmt sampleId haim b (hrow ▸ hb))).1
    omega
  · rw [hmark] at hupdate
    cases hupdate

/-- **What is handed over at a step comes on top of the rows handed over.** -/
theorem SentOnce.step (h : SentOnce hd s) (hnamed : Named s) (hheld : Held cfg s)
    (hpresent : Present s) (hrows : ∀ r ∈ s.db.rows, ∃ b, (r.1, b) ∈ s'.db.rows)
    (hmark : MarkSucceeds s l) (hstep : step cfg s l = some s') :
    ∃ new, s'.handed = s.handed ++ new ∧ SentOnce (hd ++ new) s' := by
  have hold : ∀ x ∈ hd, MarkedOrNext s' x.row := fun x hx =>
    (h.marked x hx).step hnamed hheld hrows hmark hstep
  obtain hsame | ⟨loop, stmt, sampleId, line, sent, i, hpc, hpc', hdb, hhanded⟩ :=
    handed_before hstep
  · refine ⟨[], ?_, ?_⟩
    · rw [hsame, List.append_nil]
    · rw [List.append_nil]
      exact ⟨h.once, hold⟩
  · have haim : s.pc.aim = some (stmt, sampleId) := by rw [hpc]; rfl
    have hupdate : s.pc.update = none := by rw [hpc]; rfl
    refine ⟨[⟨stmt.last, i, line⟩], hhanded, ?_, ?_⟩
    · rw [List.map_append, List.map_singleton]
      refine List.nodup_append.2 ⟨h.once, List.nodup_singleton _, fun j hj j' hj' heq => ?_⟩
      obtain rfl : j' = stmt.last := List.mem_singleton.1 hj'
      exact h.notMem hheld haim hupdate (heq ▸ hj)
    · intro y hy
      rcases List.mem_append.1 hy with hy | hy
      · exact hold y hy
      · obtain rfl := List.mem_singleton.1 hy
        obtain ⟨b, hb⟩ := hpresent stmt sampleId haim
        exact ⟨b, hdb ▸ hb, Or.inr ⟨loop, stmt, sampleId, hpc', rfl⟩⟩

end Uploader

end WaterGateway
