import WaterGateway.Alarm.Model
import WaterGateway.Processor.Debounce
import Mathlib.Algebra.Group.Nat.Even

/-!
# Whether the LED follows the debounced alarm

The processor and the device over a sequence of samples, each with whether
the device accepts writes at that moment. `led_on` is set whether or not
the write went through and starts at 0 whatever the LED is, so thread and
device can part. They agree again when an even number of changes has been
refused since the last one that went through: `led_invariant` is that
parity, and `led_follows_iff` says at which samples it decides.
-/

namespace WaterGateway

namespace Alarm

open Hysteresis Processor

/-- One sample: the locals of the thread, and the register behind the
call it makes, if it makes one. -/
def alarmStep (th : Threshold) (fd : ℤ) (s : Debounce × UInt) (input : WaterSample × Bool) :
    Debounce × UInt :=
  let r := debounceSample th s.1 input.1
  (r.1, r.2.elim s.2 fun on => alarmClientSet fd on input.2 s.2)

/-- The thread and the register after a sequence of samples. -/
def alarmRun (th : Threshold) (fd : ℤ) (dr₀ : UInt) (inputs : List (WaterSample × Bool)) :
    Debounce × UInt :=
  inputs.foldl (alarmStep th fd) (Debounce.init, dr₀)

/-- The history of a sequence: which samples were alarming, and which met a
device that accepts writes. -/
def history (th : Threshold) (inputs : List (WaterSample × Bool)) : List (Bool × Bool) :=
  inputs.map fun i => (alarming th i.1, i.2)

/-- **The LED follows**: after a sample at which the device accepts writes
it is lit if this sample and the two before it were alarming, and out if
this one and the one before it were clear. -/
def Follows (th : Threshold) (fd : ℤ) (dr₀ : UInt) (inputs : List (WaterSample × Bool)) : Prop :=
  ∀ k input, inputs[k]? = some input → input.2 = true →
    (RunEnds true 3 ((history th inputs).map Prod.fst) k →
      Lit (alarmRun th fd dr₀ (inputs.take (k + 1))).2) ∧
    (RunEnds false 2 ((history th inputs).map Prod.fst) k →
      ¬ Lit (alarmRun th fd dr₀ (inputs.take (k + 1))).2)

/-- The changes of the debounced alarm that the device refused, counted
since the last one it accepted; `as` is the history so far and `n` the
count. -/
def refusedFrom (as : List Bool) (n : ℕ) : List (Bool × Bool) → ℕ
  | [] => n
  | (alarm, accepts) :: rest =>
    refusedFrom (as ++ [alarm])
      (if Alarmed as ↔ Alarmed (as ++ [alarm]) then n else if accepts then 0 else n + 1) rest

/-- The same from the start of the thread, where an LED that is lit counts
as one change refused. -/
def refused (dr₀ : UInt) (hist : List (Bool × Bool)) : ℕ :=
  refusedFrom [] (if Lit dr₀ then 1 else 0) hist

/-- The condition: where the device accepts writes and a run of three or of
two ends, the count is even. -/
def InStep (dr₀ : UInt) (hist : List (Bool × Bool)) : Prop :=
  ∀ k accepts, (hist.map Prod.snd)[k]? = some accepts → accepts = true →
    RunEnds true 3 (hist.map Prod.fst) k ∨ RunEnds false 2 (hist.map Prod.fst) k →
    Even (refused dr₀ (hist.take (k + 1)))

variable {th : Threshold} {fd : ℤ} {dr₀ : UInt}

theorem refusedFrom_concat (as : List Bool) (n : ℕ) (hist : List (Bool × Bool))
    (alarm accepts : Bool) :
    refusedFrom as n (hist ++ [(alarm, accepts)]) =
      if Alarmed (as ++ hist.map Prod.fst) ↔ Alarmed (as ++ hist.map Prod.fst ++ [alarm])
      then refusedFrom as n hist
      else if accepts then 0 else refusedFrom as n hist + 1 := by
  induction hist generalizing as n with
  | nil =>
    rw [List.nil_append, List.map_nil, List.append_nil]
    rfl
  | cons h rest ih =>
    obtain ⟨a, acc⟩ := h
    rw [List.cons_append, refusedFrom, refusedFrom, ih, List.map_cons, List.append_assoc as [a],
      List.singleton_append]

theorem alarmRun_concat (inputs : List (WaterSample × Bool)) (input : WaterSample × Bool) :
    alarmRun th fd dr₀ (inputs ++ [input]) =
      alarmStep th fd (alarmRun th fd dr₀ inputs) input := by
  rw [alarmRun, List.foldl_append]
  rfl

/-- Where one side changes, what agreed with the other now agrees with its
negation. -/
theorem iff_not_of_flip {a a' e : Prop} (h : ¬ (a ↔ a')) : (a ↔ e) ↔ (a' ↔ ¬ e) := by
  tauto

/-- **The parity invariant**: the thread tracks the history, and the LED
agrees with it exactly when the refused changes are even in number. -/
theorem led_invariant (th : Threshold) (hfd : 0 ≤ fd) (dr₀ : UInt)
    (inputs : List (WaterSample × Bool)) :
    Tracks ((history th inputs).map Prod.fst) (alarmRun th fd dr₀ inputs).1 ∧
      (Lit (alarmRun th fd dr₀ inputs).2 ↔
        (Alarmed ((history th inputs).map Prod.fst) ↔ Even (refused dr₀ (history th inputs)))) := by
  induction inputs using List.reverseRecOn with
  | nil =>
    refine ⟨tracks_init, ?_⟩
    have hoff : ¬ Alarmed [] := not_latched_nil 3 2
    show Lit dr₀ ↔ (Alarmed [] ↔ Even (if Lit dr₀ then 1 else 0))
    by_cases hlit : Lit dr₀
    · simp [hlit, hoff]
    · simp [hlit, hoff]
  | append_singleton inputs input ih =>
    obtain ⟨htracks, hlit⟩ := ih
    obtain ⟨sample, accepts⟩ := input
    set s := alarmRun th fd dr₀ inputs with hs
    set hist := history th inputs with hhist
    have hnext : history th (inputs ++ [(sample, accepts)]) =
        hist ++ [(alarming th sample, accepts)] := by
      rw [history, List.map_append]
      rfl
    have htracks' := tracks_debounce htracks (processorComputeAlarm sample th)
    have hcall := debounce_call s.1 (processorComputeAlarm sample th)
    rw [← debounceSample] at htracks' hcall
    rw [alarmRun_concat, hnext, List.map_append, refused, refusedFrom_concat, List.nil_append,
      ← refused]
    refine ⟨htracks', ?_⟩
    have hstep : (alarmStep th fd s (sample, accepts)).2 =
        (debounceSample th s.1 sample).2.elim s.2
          fun on => alarmClientSet fd on accepts s.2 := rfl
    have hled := htracks.led
    have hled' : (debounceSample th s.1 sample).1.ledOn = true ↔
        Alarmed (hist.map Prod.fst ++ [alarming th sample]) := htracks'.led
    rw [hstep, hcall, List.map_singleton]
    by_cases hsame : (debounceSample th s.1 sample).1.ledOn = s.1.ledOn
    · -- no change and no call
      have hiff : Alarmed (hist.map Prod.fst) ↔
          Alarmed (hist.map Prod.fst ++ [alarming th sample]) := by rw [← hled, ← hled', hsame]
      rw [if_pos hsame, if_pos hiff, Option.elim_none, hlit, hiff]
    · have hflip : ¬ (Alarmed (hist.map Prod.fst) ↔
          Alarmed (hist.map Prod.fst ++ [alarming th sample])) := by
        rw [← hled, ← hled', ← Bool.eq_iff_iff]
        exact fun h => hsame h.symm
      rw [if_neg hsame, if_neg hflip, Option.elim_some, lit_alarmClientSet hfd, hled', hlit]
      cases accepts
      · -- a refused change moves the thread and not the LED
        have hodd : Even (refused dr₀ hist + 1) ↔ ¬ Even (refused dr₀ hist) :=
          Nat.even_add_one
        rw [if_neg Bool.false_ne_true, if_neg Bool.false_ne_true, hodd]
        exact iff_not_of_flip hflip
      · simp

/-- **At a run's end** the LED is right exactly if the count is even there. -/
theorem follows_at_iff (th : Threshold) (hfd : 0 ≤ fd) (dr₀ : UInt)
    {inputs : List (WaterSample × Bool)} {k : ℕ}
    (hk : k < inputs.length) :
    (RunEnds true 3 ((history th inputs).map Prod.fst) k →
      (Lit (alarmRun th fd dr₀ (inputs.take (k + 1))).2 ↔
        Even (refused dr₀ ((history th inputs).take (k + 1))))) ∧
    (RunEnds false 2 ((history th inputs).map Prod.fst) k →
      (¬ Lit (alarmRun th fd dr₀ (inputs.take (k + 1))).2 ↔
        Even (refused dr₀ ((history th inputs).take (k + 1))))) := by
  obtain ⟨-, hlit⟩ := led_invariant th hfd dr₀ (inputs.take (k + 1))
  have htake : history th (inputs.take (k + 1)) = (history th inputs).take (k + 1) :=
    List.map_take
  have hlt : k < ((history th inputs).map Prod.fst).length := by
    rw [List.length_map, history, List.length_map]
    exact hk
  rw [htake, List.map_take] at hlit
  rw [hlit, runEnds_iff_trailing hlt, runEnds_iff_trailing hlt]
  constructor
  · intro hrun
    have hon : Alarmed (((history th inputs).map Prod.fst).take (k + 1)) :=
      latched_of_trailing (by omega) hrun
    simp [hon]
  · intro hrun
    have hoff : ¬ Alarmed (((history th inputs).map Prod.fst).take (k + 1)) :=
      not_latched_of_trailing (by omega) (by omega) hrun
    simp [hoff]

/-- **When the LED follows**: on every sequence of samples and writes
refused, exactly if the refused changes are even in number at each accepted
sample a run ends with. -/
theorem led_follows_iff (th : Threshold) (hfd : 0 ≤ fd) (dr₀ : UInt)
    (inputs : List (WaterSample × Bool)) :
    Follows th fd dr₀ inputs ↔ InStep dr₀ (history th inputs) := by
  have hsnd : (history th inputs).map Prod.snd = inputs.map Prod.snd := by
    rw [history, List.map_map]
    rfl
  have hlen : ∀ k input, inputs[k]? = some input → k < inputs.length := fun k input h =>
    (List.getElem?_eq_some_iff.1 h).1
  constructor
  · intro hfollows k accepts hacc htrue hrun
    rw [hsnd, List.getElem?_map, Option.map_eq_some_iff] at hacc
    obtain ⟨input, hin, rfl⟩ := hacc
    obtain ⟨hon, hoff⟩ := follows_at_iff th hfd dr₀ (hlen k input hin)
    obtain hrun | hrun := hrun
    · exact (hon hrun).1 ((hfollows k input hin htrue).1 hrun)
    · exact (hoff hrun).1 ((hfollows k input hin htrue).2 hrun)
  · intro hstep k input hin htrue
    obtain ⟨hon, hoff⟩ := follows_at_iff th hfd dr₀ (hlen k input hin)
    have hacc : ((history th inputs).map Prod.snd)[k]? = some input.2 := by
      rw [hsnd, List.getElem?_map, hin, Option.map_some]
    exact ⟨fun hrun => (hon hrun).2 (hstep k _ hacc htrue (Or.inl hrun)),
      fun hrun => (hoff hrun).2 (hstep k _ hacc htrue (Or.inr hrun))⟩

/-- A sample with every reading in its bounds: pH 7.0. -/
def clearSample : WaterSample := { (default : WaterSample) with ph := ⟨0x40E00000⟩ }

/-- An LED left on, two clear samples, and a device that accepts every
write. -/
def leftOn : List (WaterSample × Bool) := [(clearSample, true), (clearSample, true)]

theorem led_follows_iff_left_on :
    Follows processorThresholdDefault 3 0 leftOn ↔
      InStep 0 (history processorThresholdDefault leftOn) :=
  led_follows_iff _ (by decide) _ _

/-- **An LED left on stays on**: the thread starts with `led_on` at 0, so
it never switches off an LED it has not switched on. -/
theorem led_left_on : Lit 0 ∧ ¬ Follows processorThresholdDefault 3 0 leftOn := by
  refine ⟨by decide, fun hfollows => ?_⟩
  have hoff := (hfollows 1 (clearSample, true) rfl rfl).2 (by decide +kernel)
  exact hoff (by decide +kernel)

end Alarm

end WaterGateway
