import WaterGateway.Gateway.Order
import WaterGateway.Receiver.Gateway
import WaterGateway.Uploader.Stream

/-!
# From the samples to the server

What a server counts of a gateway are the messages of the samples the
gateway has produced, in order, with at most one repetition at each start
of the gateway: whatever the threads, the queues, the cache and the network
do, and in whatever pieces the bytes arrive. Of a connection the server may
get any part from the front.
-/

namespace WaterGateway

namespace Gateway

open Config (GatewayConfig)
open Pipeline (rowOf)
open Receiver (CleanDevice Counters Python Recv Takes completeLines received)
open Uploader (FramedNet Laid lineBody lineMembers newline staysDead)

variable {w : ℕ} {cfg : GatewayConfig} {s s' : State w} {l : Label} {ls : List Label}
variable {base : Samples}

/-- **A socket that has failed in the drain loop stays failed** at this
step. -/
def deadStays (s : State w) : Label → Bool
  | .uploader l => staysDead s.uploader l
  | _ => true

/-- The complete lines on a connection. -/
def linesOf (c : Link UChar) : List (List UChar) := (Lines.cut newline c.written).1

/-- **What the connections of every start carry**: the lines it has handed
over. -/
structure Streams (cfg : GatewayConfig) (s : State w) : Prop where
  framed : FramedNet (uploaderConfig cfg) s.uploader
  laid : Laid (uploaderConfig cfg) s.uploader
  past : ∀ life ∈ s.past, life.net.flatMap linesOf = life.handed.map fun x => x.line.dropLast

theorem along_uploaderLabels (hdead : deadStays s l = true) :
    Run.Along (Uploader.step (uploaderConfig cfg)) (fun u l => staysDead u l = true) s.uploader
      (uploaderLabels cfg s l) := by
  have hworld : ∀ ls : List Uploader.Label, (∀ l' ∈ ls, l'.world = true) →
      Run.Along (Uploader.step (uploaderConfig cfg)) (fun u l => staysDead u l = true)
        s.uploader ls := by
    intro ls hls
    refine Run.along_mono (C := fun _ l' => l'.world = true) (fun u l' hl' => ?_)
      (Run.along_of_forall hls _)
    cases l' with
    | send => cases hl'
    | shutdown | tau | connect | sql | storeInsert | storeTrim | deliver | reset => rfl
  cases l with
  | uploader l => exact ⟨hdead, fun _ _ => trivial⟩
  | pipeline l =>
    refine hworld _ fun l' hl' => ?_
    cases l with
    | sql a =>
      simp only [uploaderLabels] at hl'
      split at hl'
      · rw [List.mem_singleton.1 hl']
        rfl
      · rw [List.mem_singleton.1 hl']
        rfl
      · cases hl'
    | signal | main | collect | acquire | proc | store | markUploaded | incRetry => cases hl'
  | tail =>
    refine hworld _ fun l' hl' => ?_
    simp only [uploaderLabels] at hl'
    split at hl'
    · rw [List.mem_singleton.1 hl']
      rfl
    · cases hl'
  | restart => exact hworld _ fun l' hl' => by cases hl'

theorem streams_init (h : init w base = some s) : Streams cfg s := by
  rw [init, start, Option.map_eq_some_iff] at h
  obtain ⟨p, hp, rfl⟩ := h
  exact ⟨Uploader.framedNet_init _, Uploader.laid_init _,
    fun _ hlife => absurd hlife List.not_mem_nil⟩

theorem Streams.step (hst : Streams cfg s) (hk : Kept cfg base s) (hdev : newline ∉ cfg.deviceId)
    (hdead : deadStays s l = true) (h : step cfg s l = some s') : Streams cfg s' := by
  by_cases hl : l = .restart
  · subst hl
    cases moves_of_step h with
    | restart p hp =>
      refine ⟨Uploader.framedNet_init _, Uploader.laid_init _, fun life hlife => ?_⟩
      rcases List.mem_append.1 hlife with hlife | hlife
      · exact hst.past life hlife
      · rw [List.mem_singleton.1 hlife]
        exact hst.laid.flatMap_completeLines hdev
  · obtain ⟨hframed, hlaid⟩ := Run.exec_invariant_along
      (I := fun u => FramedNet (uploaderConfig cfg) u ∧ Laid (uploaderConfig cfg) u)
      (fun u l u' hI hl hu => ⟨hI.1.step hl hu, hI.2.step hI.1 hl hu⟩)
      ⟨hst.framed, hst.laid⟩ (along_uploaderLabels hdead) (uploader_step hk.sound h hl)
    exact ⟨hframed, hlaid, past_step h hl ▸ hst.past⟩

/-- **The connections of a run carry the lines handed over.** -/
theorem Streams.flatMap_linesOf (hst : Streams cfg s) (hdev : newline ∉ cfg.deviceId) :
    s.net.flatMap linesOf = s.handed.map fun x => x.line.dropLast := by
  have hlife : ∀ life ∈ s.lives,
      life.net.flatMap linesOf = life.handed.map fun x => x.line.dropLast := by
    intro life hlife
    rcases List.mem_append.1 hlife with hlife | hlife
    · exact hst.past life hlife
    · rw [List.mem_singleton.1 hlife]
      exact hst.laid.flatMap_completeLines hdev
  rw [State.net, State.handed, List.flatMap_assoc, List.map_flatMap]
  exact List.flatMap_congr hlife

/-! ## What arrives -/

/-- **Connections of which the server gets a part from the front**, in any
pieces. -/
def Arrives (conns : List (List Recv)) (net : List (Link UChar)) : Prop :=
  List.Forall₂ (fun rs c => received rs <+: c.written) conns net

/-- What arrives of a connection are lines that stand on it. -/
theorem prefix_completeLines {rs : List Recv} {c : Link UChar} (h : received rs <+: c.written) :
    completeLines rs <+: linesOf c := by
  obtain ⟨rest, hrest⟩ := h
  rw [linesOf, ← hrest, Lines.cut_append]
  exact List.prefix_append _ _

theorem Arrives.sublist {conns : List (List Recv)} {net : List (Link UChar)}
    (h : Arrives conns net) : (conns.flatMap completeLines).Sublist (net.flatMap linesOf) := by
  induction h with
  | nil => exact List.Sublist.refl _
  | cons hhead _ ih =>
    rw [List.flatMap_cons, List.flatMap_cons]
    exact (prefix_completeLines hhead).sublist.append ih

/-- A sample as it is sent: with its alarm bits, and stored and read
back. -/
def stored (cfg : GatewayConfig) (sample : WaterSample) : WaterSample :=
  Uploader.sampleOf (rowOf (pipelineConfig cfg) sample)

theorem finite_real {x : Single} (h : x.finite = true) : (Store.real x).finite = true := by
  unfold Store.real
  split
  · rfl
  · exact h

theorem finiteReadings_stored {sample : WaterSample} (h : sample.FiniteReadings) :
    (stored cfg sample).FiniteReadings :=
  ⟨finite_real h.ph, finite_real h.temperature, finite_real h.turbidity, finite_real h.conductivity⟩

theorem dropLast_wire (cfg : GatewayConfig) (sample : WaterSample) :
    (wire cfg sample).dropLast = lineBody cfg.deviceId (stored cfg sample) := by
  have hline : wire cfg sample = lineBody cfg.deviceId (stored cfg sample) ++ [newline] :=
    Uploader.uploaderBuildJson_eq
  rw [hline, List.dropLast_concat]

/-- **The server counts the samples of the gateway in order**, in every run
from an empty table in which the upload statements succeed and a socket
that has failed stays failed: with no message of its own, none before an
older one, and none twice but for one at each start of the gateway. -/
theorem server_replays {cps : List ℕ} {py : Python} {c : Counters} {conns : List (List Recv)}
    {s₀ : State w} (hdevice : CleanDevice cfg.deviceId cps)
    (h₀ : init w AutoTable.empty = some s₀) (hsql : ∀ l ∈ ls, l.uploadSqlOk = true)
    (hdead : Run.Along (step cfg) (fun s l => deadStays s l = true) s₀ ls)
    (h : Run.exec (step cfg) s₀ ls = some s) (hids : s.db.seq < 2 ^ 31)
    (hfinite : ∀ sample ∈ ls.flatMap Label.acquired, sample.FiniteReadings)
    (hpy : ∀ sample ∈ ls.flatMap Label.acquired, Takes py cps (stored cfg sample))
    (hconns : Arrives conns s.net) :
    ∃ c' new, Receiver.receiver py c conns = .ok c' ∧ c'.counted = c.counted ++ new ∧
      Replay (ls.count .restart)
        ((ls.flatMap Label.acquired).map fun sample => lineMembers cps (stored cfg sample)) new := by
  have hdev : newline ∉ cfg.deviceId :=
    Uploader.newline_notMem_of_clean hdevice.decoded hdevice.clean
  obtain ⟨hk, hin⟩ := reachable h₀ hsql h
  obtain ⟨hproduced, hpast⟩ := produced_of_init h₀ h
  obtain ⟨-, hst⟩ := Run.exec_invariant_along
    (I := fun t => Kept cfg AutoTable.empty t ∧ Streams cfg t)
    (fun t l t' hI hl ht => ⟨hI.1.step ht, hI.2.step hI.1 hdev hl ht⟩)
    ⟨kept_init h₀, streams_init h₀⟩ hdead h
  -- the lines that arrive are read off the lines of the samples
  have hbodies : Replay (ls.count .restart)
      ((ls.flatMap Label.acquired).map fun sample => lineBody cfg.deviceId (stored cfg sample))
      (conns.flatMap completeLines) := by
    have hread := (replay_ledger hk (hin hids)).trans_sublist (ledger_lines hk)
    rw [hproduced, hpast] at hread
    have hdrop := hread.map List.dropLast
    rw [List.map_append, List.map_map, List.map_map, List.map_map] at hdrop
    have hsame : (List.dropLast ∘ wire cfg) =
        fun sample => lineBody cfg.deviceId (stored cfg sample) :=
      funext fun sample => dropLast_wire cfg sample
    rw [hsame] at hdrop
    refine Replay.sublist hdrop ?_
    have harrive := hconns.sublist
    rwa [hst.flatMap_linesOf hdev] at harrive
  have hmessage : ∀ sample ∈ ls.flatMap Label.acquired,
      Receiver.messageOf true (lineBody cfg.deviceId (stored cfg sample)) =
        some (lineMembers cps (stored cfg sample)) := fun sample hsample =>
    Receiver.messageOf_lineBody hdevice (finiteReadings_stored (hfinite sample hsample))
  have hharmless : ∀ line ∈ conns.flatMap completeLines, Receiver.Harmless true py line := by
    intro line hline
    obtain ⟨sample, hsample, rfl⟩ := List.mem_map.1 (hbodies.subset hline)
    exact Receiver.harmless_lineBody hdevice (finiteReadings_stored (hfinite sample hsample))
      (hpy sample hsample)
  obtain ⟨c', hrun, hcounts⟩ := Receiver.resynchronises_of_harmless (c := c) hharmless
  refine ⟨c', _, hrun, hcounts.counted, ?_⟩
  have hmessages := hbodies.filterMap (Receiver.messageOf true)
  have hsome : ∀ sample ∈ ls.flatMap Label.acquired,
      (Receiver.messageOf true ∘ fun sample => lineBody cfg.deviceId (stored cfg sample)) sample =
        (some ∘ fun sample => lineMembers cps (stored cfg sample)) sample := hmessage
  rwa [List.filterMap_map, List.filterMap_congr hsome, List.filterMap_eq_map] at hmessages

/-- The line of the example sample. -/
def exampleLine : List UChar := wire Config.configSetDefault (Pipeline.exampleSample 1)

/-- It arrives in two pieces on one connection, and whole on the next. -/
def exampleConns : List (List Recv) :=
  [[.data (exampleLine.take 50), .data (exampleLine.drop 50)], [.data exampleLine]]

theorem cleanDevice_default :
    CleanDevice Config.configSetDefault.deviceId (Json.text "water_gateway_001") :=
  ⟨by decide +kernel, by decide +kernel⟩

/-- A row that is sent again after a kill is counted twice. -/
theorem server_replays_killed :
    ∃ (s₀ s : State 32) (c' : Counters) (new : List Receiver.Members),
      init 32 AutoTable.empty = some s₀ ∧
      Run.exec (step Config.configSetDefault) s₀ (storeOne ++ sendOne ++ .restart :: sendOne) =
        some s ∧
      Receiver.receiver Receiver.ample ⟨0, 0, 0, 0, []⟩ exampleConns = .ok c' ∧
      c'.counted = [] ++ new ∧
      Replay ((storeOne ++ sendOne ++ .restart :: sendOne).count .restart)
        (((storeOne ++ sendOne ++ .restart :: sendOne).flatMap Label.acquired).map
          fun sample => lineMembers (Json.text "water_gateway_001")
            (stored Config.configSetDefault sample)) new := by
  obtain ⟨s₀, s, h₀, h, hp⟩ := exists_of_run (storeOne ++ sendOne ++ .restart :: sendOne)
    (fun s => decide (s.db.seq < 2 ^ 31 ∧ s.net.map Link.written = [exampleLine, exampleLine]))
    (by decide +kernel)
  obtain ⟨hids, hwritten⟩ := of_decide_eq_true hp
  have hconns : Arrives exampleConns s.net := by
    rw [Arrives, ← List.forall₂_map_right_iff (R := fun rs bs => received rs <+: bs), hwritten]
    exact .cons (by decide +kernel) (.cons (by decide +kernel) .nil)
  have hdead : Run.Along (step Config.configSetDefault) (fun s l => deadStays s l = true) s₀
      (storeOne ++ sendOne ++ .restart :: sendOne) := by
    have hall : (init 32 AutoTable.empty).all (fun s₀ => decide (Run.Along
        (step Config.configSetDefault) (fun s l => deadStays s l = true) s₀
        (storeOne ++ sendOne ++ .restart :: sendOne))) = true := by decide +kernel
    rw [h₀] at hall
    exact of_decide_eq_true hall
  have honly : (storeOne ++ sendOne ++ .restart :: sendOne).flatMap Label.acquired =
      [Pipeline.exampleSample 1] := by decide +kernel
  have hfinite : ∀ sample ∈ (storeOne ++ sendOne ++ .restart :: sendOne).flatMap Label.acquired,
      sample.FiniteReadings := by
    rw [honly]
    exact fun sample hsample => List.mem_singleton.1 hsample ▸ ⟨rfl, rfl, rfl, rfl⟩
  have hpy : ∀ sample ∈ (storeOne ++ sendOne ++ .restart :: sendOne).flatMap Label.acquired,
      Takes Receiver.ample (Json.text "water_gateway_001")
        (stored Config.configSetDefault sample) := fun _ _ => ⟨rfl, rfl⟩
  obtain ⟨c', new, hrun, hcounted, hreplay⟩ := server_replays (c := ⟨0, 0, 0, 0, []⟩)
    cleanDevice_default h₀ (by decide +kernel) hdead h hids hfinite hpy hconns
  exact ⟨s₀, s, c', new, h₀, h, hrun, hcounted, hreplay⟩

end Gateway

end WaterGateway
