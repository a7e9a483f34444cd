import WaterGateway.Config.Model
import WaterGateway.Pipeline.Order
import WaterGateway.Uploader.Order

/-!
# The gateway

The whole program: the threads of the pipeline and the uploader on one
table, the end of `main()` behind its third join, and the starts of the
program, one after another. Each thread takes the steps it takes on its
own; a statement of one is seen in the table by the others.

A start finds the table that the program before it has left, which may
have been killed at any point; everything else begins anew. What the
earlier programs did is kept in `past`, which no step reads.
-/

namespace WaterGateway

namespace Gateway

open Config (GatewayConfig)

/-- The contexts `main()` fills in for the processor and the store
thread. -/
def pipelineConfig (cfg : GatewayConfig) : Pipeline.Config :=
  ⟨Processor.processorThresholdDefault, cfg.deviceId, cfg.maxCacheCount⟩

/-- The context `main()` fills in for the uploader. -/
def uploaderConfig (cfg : GatewayConfig) : Uploader.Config :=
  ⟨cfg.deviceId, cfg.uploadBatchMax, cfg.uploadRetryMax⟩

/-- `main()` behind its third join: one point before the write of
`upload_ctx.shutdown`, one before the last join, and the rest, at which the
database is closed. -/
inductive Tail
  | setUpload
  | joinUpload
  | closed
  deriving DecidableEq

/-- **What one start of the program has done**: the samples produced, the
rows inserted, the lines handed over, and the connections made. -/
structure Life where
  produced : List WaterSample
  written : List (ℕ × Record)
  handed : List Uploader.Handover
  net : List (Link UChar)
  deriving DecidableEq

/-- **The state of the gateway.** The threads see one table. -/
structure State (w : ℕ) where
  pipeline : Pipeline.State w
  uploader : Uploader.State w
  tail : Tail
  past : List Life
  shared : pipeline.db = uploader.db
  deriving DecidableEq

variable {w : ℕ}

/-- The table. -/
def State.db (s : State w) : Samples := s.pipeline.db

/-- What this start of the program has done so far. -/
def State.life (s : State w) : Life where
  produced := s.pipeline.hist.produced.map Prod.snd
  written := s.pipeline.hist.written
  handed := s.uploader.handed
  net := s.uploader.net

/-- All starts of the program. -/
def State.lives (s : State w) : List Life := s.past ++ [s.life]

/-- All samples produced, oldest first. -/
def State.produced (s : State w) : List WaterSample := s.lives.flatMap Life.produced

/-- All rows inserted. -/
def State.written (s : State w) : List (ℕ × Record) := s.lives.flatMap Life.written

/-- All lines handed over. -/
def State.handed (s : State w) : List Uploader.Handover := s.lives.flatMap Life.handed

/-- All connections made. -/
def State.net (s : State w) : List (Link UChar) := s.lives.flatMap Life.net

/-- The pipeline has moved on. -/
def State.withPipeline (s : State w) (p : Pipeline.State w) : State w :=
  { s with pipeline := p, uploader := { s.uploader with db := p.db }, shared := rfl }

/-- The uploader has moved on. -/
def State.withUploader (s : State w) (u : Uploader.State w) : State w :=
  { s with pipeline := { s.pipeline with db := u.db }, uploader := u, shared := rfl }

/-- The start of the program on a table, after others. -/
def start (db : Samples) (past : List Life) : Option (State w) :=
  (Pipeline.init w db).map fun p =>
    { pipeline := p, uploader := Uploader.init w p.db, tail := .setUpload, past := past,
      shared := rfl }

/-- The first start. -/
def init (w : ℕ) (db : Samples) : Option (State w) := start db []

/-- Who moves. A label of the uploader is one of its thread or of the
network. -/
inductive Label
  | pipeline (l : Pipeline.Label)
  | uploader (l : Uploader.Label)
  | tail
  | restart
  deriving DecidableEq

/-- The steps that the pipeline takes itself. -/
def ownPipeline : Pipeline.Label → Bool
  | .markUploaded _ _ | .incRetry _ _ => false
  | _ => true

/-- The steps that the uploader and its network take themselves. -/
def ownUploader : Uploader.Label → Bool
  | .shutdown | .storeInsert _ _ _ | .storeTrim _ _ _ => false
  | _ => true

/-- The end of `main()`. -/
def tailStep (cfg : GatewayConfig) (s : State w) : Option (State w) :=
  match s.tail with
  | .setUpload =>
    if s.pipeline.main = .joined then
      some { s with tail := .joinUpload, uploader := { s.uploader with shutdown := true },
                    shared := s.shared }
    else none
  | .joinUpload =>
    -- the thread is only there if uploads are enabled
    if cfg.uploadEnabled = 0 ∨ s.uploader.pc = .stopped then some { s with tail := .closed }
    else none
  | .closed => none

/-- **The gateway.** -/
def step (cfg : GatewayConfig) (s : State w) : Label → Option (State w)
  | .pipeline l =>
    if ownPipeline l then (Pipeline.step (pipelineConfig cfg) s.pipeline l).map s.withPipeline
    else none
  | .uploader l =>
    if cfg.uploadEnabled ≠ 0 ∧ ownUploader l = true then
      (Uploader.step (uploaderConfig cfg) s.uploader l).map s.withUploader
    else none
  | .tail => tailStep cfg s
  | .restart => start s.db s.lives

/-- The samples produced in a step. -/
def Label.acquired : Label → List WaterSample
  | .pipeline l => l.acquired
  | _ => []

/-! ## The gateway, as its parts see it -/

/-- The steps of the pipeline that a step is. -/
def pipelineLabels (s : State w) : Label → List Pipeline.Label
  | .pipeline l => [l]
  | .uploader (.sql a) =>
    match s.uploader.pc with
    | .mark _ _ sampleId => [.markUploaded sampleId a]
    | .incRetry _ _ sampleId => [.incRetry sampleId a]
    | _ => []
  | _ => []

/-- The steps of the uploader and its world that a step is. -/
def uploaderLabels (cfg : GatewayConfig) (s : State w) : Label → List Uploader.Label
  | .uploader l => [l]
  | .pipeline (.sql a) =>
    match s.pipeline.store with
    | .insert item _ => [.storeInsert cfg.deviceId item.2 a]
    | .trim pc _ => [.storeTrim cfg.maxCacheCount pc a]
    | _ => []
  | .tail => if s.tail = .setUpload then [.shutdown] else []
  | _ => []

end Gateway

end WaterGateway
