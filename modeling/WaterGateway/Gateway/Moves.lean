import WaterGateway.Gateway.Model

/-!
# The gateway as a run of its parts

Until the program starts again, a step of the gateway is a step of the
pipeline, and a step of the uploader and its world, or none: what one part
does to the table is a step the other one knows. So what the steps of a
part preserve, the gateway preserves.
-/

namespace WaterGateway

namespace Gateway

open Config (GatewayConfig)

variable {w : ℕ} {cfg : GatewayConfig} {s s' : State w} {l : Label} {ls : List Label}

/-- **The steps by who takes them.** -/
inductive Moves (cfg : GatewayConfig) (s : State w) : Label → State w → Prop
  | pipeline (l : Pipeline.Label) (p : Pipeline.State w) (hown : ownPipeline l = true)
      (h : Pipeline.step (pipelineConfig cfg) s.pipeline l = some p) :
      Moves cfg s (.pipeline l) (s.withPipeline p)
  | uploader (l : Uploader.Label) (u : Uploader.State w) (henabled : cfg.uploadEnabled ≠ 0)
      (hown : ownUploader l = true)
      (h : Uploader.step (uploaderConfig cfg) s.uploader l = some u) :
      Moves cfg s (.uploader l) (s.withUploader u)
  | setUpload (htail : s.tail = .setUpload) (hmain : s.pipeline.main = .joined) :
      Moves cfg s .tail { s with
        tail := .joinUpload
        uploader := { s.uploader with shutdown := true }
        shared := s.shared }
  | joinUpload (htail : s.tail = .joinUpload)
      (hjoin : cfg.uploadEnabled = 0 ∨ s.uploader.pc = .stopped) :
      Moves cfg s .tail { s with tail := .closed }
  | restart (p : Pipeline.State w) (h : Pipeline.init w s.db = some p) :
      Moves cfg s .restart
        { pipeline := p, uploader := Uploader.init w p.db, tail := .setUpload, past := s.lives,
          shared := rfl }

/-- **Every step is one of the list.** -/
theorem moves_of_step (h : step cfg s l = some s') : Moves cfg s l s' := by
  cases l with
  | pipeline l =>
    obtain ⟨hown, h⟩ := Option.ite_none_right_eq_some.1 h
    obtain ⟨p, hp, rfl⟩ := Option.map_eq_some_iff.1 h
    exact Moves.pipeline l p hown hp
  | uploader l =>
    obtain ⟨⟨henabled, hown⟩, h⟩ := Option.ite_none_right_eq_some.1 h
    obtain ⟨u, hu, rfl⟩ := Option.map_eq_some_iff.1 h
    exact Moves.uploader l u henabled hown hu
  | tail =>
    simp only [step, tailStep] at h
    split at h
    · next htail =>
      obtain ⟨hmain, heq⟩ := Option.ite_none_right_eq_some.1 h
      cases heq
      exact Moves.setUpload htail hmain
    · next htail =>
      obtain ⟨hjoin, heq⟩ := Option.ite_none_right_eq_some.1 h
      cases heq
      exact Moves.joinUpload htail hjoin
    · cases h
  | restart =>
    rw [step, start, Option.map_eq_some_iff] at h
    obtain ⟨p, hp, rfl⟩ := h
    exact Moves.restart p hp

@[simp] theorem db_withPipeline (s : State w) (p : Pipeline.State w) :
    (s.withPipeline p).db = p.db := rfl

@[simp] theorem db_withUploader (s : State w) (u : Uploader.State w) :
    (s.withUploader u).db = u.db := rfl

/-! ## What the uploader does to the table -/

/-- **An uploader step, as the pipeline sees it**: a mark, a try counted,
or nothing. -/
theorem exec_pipelineLabels_uploader {l : Uploader.Label} {u : Uploader.State w}
    (hown : ownUploader l = true)
    (h : Uploader.step (uploaderConfig cfg) s.uploader l = some u) :
    Run.exec (Pipeline.step (pipelineConfig cfg)) s.pipeline (pipelineLabels s (.uploader l)) =
      some { s.pipeline with db := u.db } := by
  have hshared : s.uploader.db = s.pipeline.db := s.shared.symm
  have hquiet : ∀ l : Uploader.Label, u.db = s.uploader.db → pipelineLabels s (.uploader l) = [] →
      Run.exec (Pipeline.step (pipelineConfig cfg)) s.pipeline (pipelineLabels s (.uploader l)) =
        some { s.pipeline with db := u.db } := by
    intro l hdb hnone
    rw [hnone, hdb, hshared]
    rfl
  have hsql : ∀ a, s.uploader.pc.busy = false → pipelineLabels s (.uploader (.sql a)) = [] := by
    intro a hbusy
    cases hpc : s.uploader.pc with
    | send | mark | incRetry =>
      rw [hpc] at hbusy
      cases hbusy
    | outer | connect | query | inner | read | finalize | drainTest | closing | stopped =>
      simp only [pipelineLabels, hpc]
  cases Uploader.moves_of_step h with
  | marked a loop stmt sampleId hpc =>
    simp only [pipelineLabels, hpc, Run.exec_cons, Run.exec_nil, Pipeline.step, Option.bind_some,
      hshared]
  | counted a loop stmt sampleId connected sock hpc hsock =>
    simp only [pipelineLabels, hpc, Run.exec_cons, Run.exec_nil, Pipeline.step, Option.bind_some,
      hshared]
  | idle l pc hl hs hpc =>
    refine hquiet l rfl ?_
    cases l with
    | sql a => exact hsql a hs
    | shutdown | tau | connect | send | storeInsert | storeTrim | deliver | reset => rfl
  | queried loop hpc => exact hquiet _ rfl (hsql _ (by rw [hpc]; rfl))
  | skipped loop stmt hasData k b hpc => exact hquiet _ rfl (hsql _ (by rw [hpc]; rfl))
  | fetched loop stmt hasData k b hpc => exact hquiet _ rfl (hsql _ (by rw [hpc]; rfl))
  | tested | connected | connectFailed | sendFailed | sentSome | sentAll | delivered | reset =>
    exact hquiet _ rfl rfl
  | shutdown | inserted | insertFailed | trimmed => cases hown

/-! ## What the pipeline does to the table -/

/-- **A pipeline step, as the uploader sees it**: an insert, a statement of
a trim, or nothing. -/
theorem exec_uploaderLabels_pipeline {l : Pipeline.Label} {p : Pipeline.State w}
    (hok : Pipeline.Sound s.pipeline) (hown : ownPipeline l = true)
    (h : Pipeline.step (pipelineConfig cfg) s.pipeline l = some p) :
    Run.exec (Uploader.step (uploaderConfig cfg)) s.uploader
        (uploaderLabels cfg s (.pipeline l)) = some { s.uploader with db := p.db } := by
  have hshared : s.uploader.db = s.pipeline.db := s.shared.symm
  have hquiet : ∀ l : Pipeline.Label, p.db = s.pipeline.db →
      uploaderLabels cfg s (.pipeline l) = [] →
      Run.exec (Uploader.step (uploaderConfig cfg)) s.uploader
        (uploaderLabels cfg s (.pipeline l)) = some { s.uploader with db := p.db } := by
    intro l hdb hnone
    rw [hnone, hdb, ← hshared]
    rfl
  cases l with
  | sql a =>
    simp only [Pipeline.step, Pipeline.sqlStep] at h
    split at h
    · next item drain hpc =>
      cases h
      simp only [uploaderLabels, hpc, Run.exec_cons, Run.exec_nil, Uploader.step,
        Option.bind_some, hshared, pipelineConfig]
    · cases h
    · next pc final _ hpc =>
      cases h
      simp only [uploaderLabels, hpc, Run.exec_cons, Run.exec_nil, Uploader.step,
        Option.bind_some, hshared, pipelineConfig]
    · cases h
  | markUploaded | incRetry => cases hown
  | signal | main | collect | acquire | proc | store =>
    refine hquiet _ ?_ rfl
    cases Pipeline.moves_of_step hok h <;> rfl

/-! ## The gateway takes the steps of its parts -/

/-- **Until the next start a step is a run of the pipeline.** -/
theorem pipeline_step (h : step cfg s l = some s') (hl : l ≠ .restart) :
    Run.exec (Pipeline.step (pipelineConfig cfg)) s.pipeline (pipelineLabels s l) =
      some s'.pipeline := by
  cases moves_of_step h with
  | pipeline l p hown hp =>
    rw [pipelineLabels, Run.exec_cons, hp]
    rfl
  | uploader l u henabled hown hu => exact exec_pipelineLabels_uploader hown hu
  | setUpload | joinUpload => rfl
  | restart => exact absurd rfl hl

/-- **Until the next start a step is a run of the uploader and its
world.** -/
theorem uploader_step (hok : Pipeline.Sound s.pipeline) (h : step cfg s l = some s')
    (hl : l ≠ .restart) :
    Run.exec (Uploader.step (uploaderConfig cfg)) s.uploader (uploaderLabels cfg s l) =
      some s'.uploader := by
  cases moves_of_step h with
  | pipeline l p hown hp => exact exec_uploaderLabels_pipeline hok hown hp
  | uploader l u henabled hown hu =>
    rw [uploaderLabels, Run.exec_cons, hu]
    rfl
  | setUpload htail =>
    rw [uploaderLabels, if_pos htail]
    rfl
  | joinUpload htail =>
    rw [uploaderLabels, htail]
    rfl
  | restart => exact absurd rfl hl

end Gateway

end WaterGateway
