import WaterGateway.Common.Hysteresis
import WaterGateway.Common.Run
import WaterGateway.Processor.Model

/-!
# The debounce is a latch

`processor_thread` over a whole sequence of samples. The two counters are
the lengths of the runs the history ends with, up to their width
(`Tracks`), and that is enough for `led_on` to be the latch over three
alarming and two clear samples (`debounce_refines`). `alarm_client_set` is
called where the latch changes and nowhere else, so its calls alternate.
-/

namespace WaterGateway

namespace Processor

open Hysteresis

/-- What `processor_thread` does to its locals with one sample. -/
def debounceSample (th : Threshold) (d : Debounce) (sample : WaterSample) :
    Debounce × Option Bool :=
  debounce d (processorComputeAlarm sample th)

/-- A sample with alarm bits. -/
def alarming (th : Threshold) (sample : WaterSample) : Bool :=
  processorComputeAlarm sample th != 0

/-- **The debounced alarm** of a history: three alarming samples in a row,
and no two clear ones in a row later. -/
def Alarmed (as : List Bool) : Prop := Latched 3 2 as

instance (as : List Bool) : Decidable (Alarmed as) := inferInstanceAs (Decidable (Latched 3 2 as))

/-- **What the locals know of the history**: whether the latch is on, and
how long the run at its end is, up to the width of the counters. -/
structure Tracks (as : List Bool) (d : Debounce) : Prop where
  led : d.ledOn = true ↔ Alarmed as
  alarm : d.alarmCnt = BitVec.ofNat 32 (trailing true as)
  clear : d.clearCnt = BitVec.ofNat 32 (trailing false as)

variable {th : Threshold} {as : List Bool} {d : Debounce} {samples : List WaterSample}

theorem tracks_init : Tracks [] Debounce.init where
  led := ⟨fun h => absurd h Bool.false_ne_true, fun h => absurd h (not_latched_nil 3 2)⟩
  alarm := rfl
  clear := rfl

/-- A counter that has not wrapped compares as its number does. -/
theorem sle_ofNat (k n : ℕ) (hk : k < 2 ^ 31) (hn : n < 2 ^ 31) :
    (BitVec.ofNat 32 k).sle (BitVec.ofNat 32 n) = decide (k ≤ n) := by
  have hint : ∀ j, j < 2 ^ 31 → (BitVec.ofNat 32 j).toInt = (j : ℤ) := fun j hj => by
    rw [BitVec.toInt_ofNat']
    exact Int.bmod_eq_of_le (by omega) (by omega)
  rw [BitVec.sle, hint k hk, hint n hn]
  exact decide_eq_decide.2 Int.ofNat_le

/-- With the latch off the alarms at the end are fewer than three. -/
theorem trailing_lt_of_off (h : ¬ Alarmed as) : trailing true as < 3 := by
  by_contra hge
  exact h (latched_of_trailing (by omega) (by omega))

/-- With the latch on the clear samples at the end are fewer than two. -/
theorem trailing_lt_of_on (h : Alarmed as) : trailing false as < 2 := by
  by_contra hge
  exact not_latched_of_trailing (by omega) (by omega) (by omega) h

/-- The latch after an alarming sample. -/
theorem alarmed_concat_true : Alarmed (as ++ [true]) ↔ 2 ≤ trailing true as ∨ Alarmed as := by
  have hfalse : trailing false (as ++ [true]) = 0 := trailing_concat false true as
  have htrue : trailing true (as ++ [true]) = trailing true as + 1 := trailing_concat true true as
  rw [Alarmed, latched_concat, htrue, hfalse, ← Alarmed]
  constructor
  · rintro (h | ⟨h, -⟩)
    · exact Or.inl (by omega)
    · exact Or.inr h
  · rintro (h | h)
    · exact Or.inl (by omega)
    · exact Or.inr ⟨h, by omega⟩

/-- The latch after a clear sample. -/
theorem alarmed_concat_false :
    Alarmed (as ++ [false]) ↔ Alarmed as ∧ trailing false as = 0 := by
  have htrue : trailing true (as ++ [false]) = 0 := trailing_concat true false as
  have hfalse : trailing false (as ++ [false]) = trailing false as + 1 :=
    trailing_concat false false as
  rw [Alarmed, latched_concat, htrue, hfalse, ← Alarmed]
  constructor
  · rintro (h | ⟨h, hlt⟩)
    · omega
    · exact ⟨h, by omega⟩
  · rintro ⟨h, h0⟩
    exact Or.inr ⟨h, by omega⟩

/-! ## What a sample does to the locals -/

/-- The call is made where `led_on` changes, with its new value. -/
theorem debounce_call (d : Debounce) (alarm : UInt) :
    (debounce d alarm).2 =
      if (debounce d alarm).1.ledOn = d.ledOn then none else some (debounce d alarm).1.ledOn := by
  obtain ⟨ledOn, alarmCnt, clearCnt⟩ := d
  unfold debounce
  cases ledOn <;> split <;> simp <;> split <;> simp_all

/-- An alarming sample counts up, clears the other counter, and turns
`led_on` on from the third on. -/
theorem debounce_of_alarm {alarm : UInt} (h : alarm ≠ 0) (d : Debounce) :
    (debounce d alarm).1 =
      ⟨d.ledOn || debounceOnCount.sle (d.alarmCnt + 1), d.alarmCnt + 1, 0⟩ := by
  obtain ⟨ledOn, alarmCnt, clearCnt⟩ := d
  unfold debounce
  rw [if_pos h]
  cases ledOn
  · cases hs : debounceOnCount.sle (alarmCnt + 1) <;>
      simp only [hs, Bool.not_false, Bool.true_and, Bool.false_or] <;> rfl
  · rfl

/-- A clear sample does the opposite, from the second on. -/
theorem debounce_of_clear (d : Debounce) :
    (debounce d 0).1 =
      ⟨d.ledOn && !debounceOffCount.sle (d.clearCnt + 1), 0, d.clearCnt + 1⟩ := by
  obtain ⟨ledOn, alarmCnt, clearCnt⟩ := d
  unfold debounce
  rw [if_neg (not_not_intro rfl)]
  cases ledOn
  · rfl
  · cases hs : debounceOffCount.sle (clearCnt + 1) <;>
      simp only [hs, Bool.true_and, Bool.not_false, Bool.not_true] <;> rfl

/-- **One sample**: the locals go on tracking the history. -/
theorem tracks_debounce (h : Tracks as d) (alarm : UInt) :
    Tracks (as ++ [alarm != 0]) (debounce d alarm).1 := by
  have hsucc : ∀ n, BitVec.ofNat 32 n + 1 = BitVec.ofNat 32 (n + 1) := fun n =>
    (BitVec.ofNat_add n 1).symm
  by_cases hz : alarm = 0
  · have hbit : (alarm != 0) = false := by rw [hz]; rfl
    have hcnt : d.clearCnt + 1 = BitVec.ofNat 32 (trailing false as + 1) := by rw [h.clear, hsucc]
    rw [hbit, hz, debounce_of_clear]
    refine ⟨?_, (congrArg (BitVec.ofNat 32) (trailing_concat true false as)).symm,
      hcnt.trans (congrArg (BitVec.ofNat 32) (trailing_concat false false as)).symm⟩
    rw [alarmed_concat_false, ← h.led]
    by_cases hon : d.ledOn = true
    · -- the counter is still small while the latch is on
      have hlt := trailing_lt_of_on (h.led.1 hon)
      have hsle : debounceOffCount.sle (BitVec.ofNat 32 (trailing false as + 1)) =
          decide (2 ≤ trailing false as + 1) := sle_ofNat 2 _ (by omega) (by omega)
      simp only [hon, hcnt, hsle, Bool.true_and, true_and, Bool.not_eq_true',
        decide_eq_false_iff_not]
      omega
    · simp [hon]
  · have hbit : (alarm != 0) = true := bne_iff_ne.2 hz
    have hcnt : d.alarmCnt + 1 = BitVec.ofNat 32 (trailing true as + 1) := by rw [h.alarm, hsucc]
    rw [hbit, debounce_of_alarm hz]
    refine ⟨?_, hcnt.trans (congrArg (BitVec.ofNat 32) (trailing_concat true true as)).symm,
      (congrArg (BitVec.ofNat 32) (trailing_concat false true as)).symm⟩
    rw [alarmed_concat_true, ← h.led]
    by_cases hon : d.ledOn = true
    · simp [hon]
    · have hlt := trailing_lt_of_off (fun hA => hon (h.led.2 hA))
      have hsle : debounceOnCount.sle (BitVec.ofNat 32 (trailing true as + 1)) =
          decide (3 ≤ trailing true as + 1) := sle_ofNat 3 _ (by omega) (by omega)
      have hoff : d.ledOn = false := Bool.eq_false_iff.2 hon
      simp only [hoff, hcnt, hsle, Bool.false_or, Bool.false_eq_true, or_false,
        decide_eq_true_iff]
      omega

/-! ## A sequence of samples -/

/-- A sequence of samples from the start of the thread: its locals at the
end, and the call each sample makes. -/
def processed (th : Threshold) (samples : List WaterSample) : Debounce × List (Option Bool) :=
  Run.runOut (debounceSample th) Debounce.init samples

/-- The values `alarm_client_set` is called with, in order. -/
def commands (th : Threshold) (samples : List WaterSample) : List Bool :=
  (processed th samples).2.filterMap id

theorem processed_concat (th : Threshold) (samples : List WaterSample) (s : WaterSample) :
    processed th (samples ++ [s]) =
      ((debounceSample th (processed th samples).1 s).1,
        (processed th samples).2 ++ [(debounceSample th (processed th samples).1 s).2]) :=
  Run.runOut_concat _ _ _

/-- **The locals track the history** after any sequence of samples. -/
theorem tracks_processed (th : Threshold) (samples : List WaterSample) :
    Tracks (samples.map (alarming th)) (processed th samples).1 := by
  induction samples using List.reverseRecOn with
  | nil => exact tracks_init
  | append_singleton samples s ih =>
    rw [processed_concat, List.map_append]
    exact tracks_debounce ih _

/-- After an even number of calls `led_on` is 0, after an odd number 1, and
so the calls alternate. -/
theorem commands_alternate (th : Threshold) (samples : List WaterSample) :
    (processed th samples).1.ledOn = decide ((commands th samples).length % 2 = 1) ∧
      commands th samples =
        (List.range (commands th samples).length).map fun i => decide (i % 2 = 0) := by
  induction samples using List.reverseRecOn with
  | nil => exact ⟨rfl, rfl⟩
  | append_singleton samples s ih =>
    obtain ⟨hled, hlist⟩ := ih
    set d := (processed th samples).1 with hd
    have hcmds : commands th (samples ++ [s]) =
        commands th samples ++ (debounceSample th d s).2.toList := by
      rw [commands, processed_concat, List.filterMap_append, ← commands]
      cases (debounceSample th d s).2 <;> rfl
    have hlast : (processed th (samples ++ [s])).1 = (debounceSample th d s).1 := by
      rw [processed_concat]
    have hcall := debounce_call d (processorComputeAlarm s th)
    rw [← debounceSample] at hcall
    rw [hcmds, hlast]
    by_cases hsame : (debounceSample th d s).1.ledOn = d.ledOn
    · rw [hcall, if_pos hsame, hsame, Option.toList_none, List.append_nil]
      exact ⟨hled, hlist⟩
    · rw [hcall, if_neg hsame, Option.toList_some, List.length_append, List.length_singleton,
        List.range_succ, List.map_append, ← hlist]
      have hflip : (debounceSample th d s).1.ledOn = !d.ledOn := Bool.eq_not_iff.2 hsame
      have hpar : (!decide ((commands th samples).length % 2 = 1)) =
          decide ((commands th samples).length % 2 = 0) := by
        rw [← decide_not, decide_eq_decide]
        omega
      rw [hflip, hled, hpar]
      refine ⟨?_, rfl⟩
      rw [decide_eq_decide]
      omega

/-- **What the debounce owes for a sequence of samples**: `led_on` is the
latch of the history; the `k`-th sample makes a call exactly if it changes
the latch, with the latch's new value; and the calls alternate, the first
with 1. -/
structure RefinesLatch (th : Threshold) (samples : List WaterSample) : Prop where
  led : (processed th samples).1.ledOn = true ↔ Alarmed (samples.map (alarming th))
  length_calls : (processed th samples).2.length = samples.length
  called : ∀ k call, (processed th samples).2[k]? = some call →
    (call = none ↔ (Alarmed ((samples.take k).map (alarming th)) ↔
      Alarmed ((samples.take (k + 1)).map (alarming th))))
  value : ∀ k b, (processed th samples).2[k]? = some (some b) →
    (b = true ↔ Alarmed ((samples.take (k + 1)).map (alarming th)))
  alternate : commands th samples =
    (List.range (commands th samples).length).map fun i => decide (i % 2 = 0)

/-- The call a sample makes, at the history before it. -/
theorem getElem?_processed (th : Threshold) (samples : List WaterSample) {k : ℕ}
    {call : Option Bool} (h : (processed th samples).2[k]? = some call) :
    call = if (processed th (samples.take (k + 1))).1.ledOn =
        (processed th (samples.take k)).1.ledOn then none
      else some (processed th (samples.take (k + 1))).1.ledOn := by
  rw [processed, Run.getElem?_runOut_snd, ← processed, Option.map_eq_some_iff] at h
  obtain ⟨s, hs, rfl⟩ := h
  rw [List.take_add_one, hs, Option.toList_some, processed_concat]
  exact debounce_call _ _

/-- **The debounce is the latch**, on every sequence of samples and with
counters that wrap. -/
theorem debounce_refines (th : Threshold) (samples : List WaterSample) :
    RefinesLatch th samples := by
  have hled : ∀ l : List WaterSample, (processed th l).1.ledOn = true ↔
      Alarmed (l.map (alarming th)) := fun l => (tracks_processed th l).led
  refine ⟨hled samples, Run.length_runOut_snd _ _, fun k call hcall => ?_, fun k b hb => ?_,
    (commands_alternate th samples).2⟩
  · rw [← hled, ← hled, getElem?_processed th samples hcall]
    rw [← Bool.eq_iff_iff, eq_comm (a := (processed th (samples.take k)).1.ledOn)]
    simp
  · have h := getElem?_processed th samples hb
    split_ifs at h
    rw [Option.some.inj h]
    exact hled _

end Processor

end WaterGateway
