import WaterGateway.Common.Run
import WaterGateway.Modbus.Read

/-!
# The polling loop

`collect_thread` against a slave that answers every request once, with a
well-formed frame, at any time. Between the cycles the receive buffer of
the port keeps what nobody has read, and nothing in the loop throws it
away. So the answer of cycle `k` is the answer to request `k` as long as
every request finds the answers before it read to their last byte
(`poll_fresh`); an answer that comes after its cycle has given up is taken
for the next one (`poll_takes_stale`).
-/

namespace WaterGateway

namespace Modbus

open Serial

/-- An answer the loop has accepted: the cycle, the bytes it was parsed
from, and the seven registers. -/
structure Accepted where
  cycle : ℕ
  bytes : List UChar
  regs : List UShort
  deriving DecidableEq

/-- **The loop, the port and the slave.** `rx` is received and not read,
`flight` is sent and not received, `answers` are the slave's answers by
request, and `writes` is what the writes of the request answered while the
loop waits for its answer. -/
structure Poll where
  rx : List UChar
  flight : List UChar
  answers : List (List UChar)
  accepted : List Accepted
  writes : Option (List WriteResult)
  deriving DecidableEq

/-- The steps: the loop writes a request, which the slave will answer with
`answer`; bytes arrive; the loop reads. `values` is what is in the array
of the loop before the call. -/
inductive PollStep
  | request (writes : List WriteResult) (answer : List UChar)
  | arrive (n : ℕ)
  | read (sel : SelectResult) (rd : ReadResult) (values : List UShort)
  deriving DecidableEq

namespace Poll

/-- A port that has just been opened: `serial_configure` has flushed it. -/
def opened : Poll := ⟨[], [], [], [], none⟩

/-- What the system can answer with these bytes unread: `select` times out
only without bytes, and a `read` that gives bytes gives these. -/
def Possible (rx : List UChar) (sel : SelectResult) (rd : ReadResult) : Prop :=
  (sel = .timeout → rx = []) ∧ ∀ bs, rd = .data bs → bs = rx

instance (rx : List UChar) (sel : SelectResult) : DecidablePred (Possible rx sel)
  | .data bs =>
    decidable_of_iff ((sel = .timeout → rx = []) ∧ bs = rx)
      ⟨fun h => ⟨h.1, fun _ hbs => ReadResult.data.inj hbs ▸ h.2⟩, fun h => ⟨h.1, h.2 bs rfl⟩⟩
  | .eintr => decidable_of_iff (sel = .timeout → rx = []) ⟨fun h => ⟨h, nofun⟩, And.left⟩
  | .eagain => decidable_of_iff (sel = .timeout → rx = []) ⟨fun h => ⟨h, nofun⟩, And.left⟩
  | .error => decidable_of_iff (sel = .timeout → rx = []) ⟨fun h => ⟨h, nofun⟩, And.left⟩

/-- **One step**, for the port `fd` and the slave at `slaveAddr`. A cycle
whose request was not written out in full gets no answer and ends with its
write. -/
def step (fd : ℤ) (slaveAddr : UChar) (s : Poll) : PollStep → Option Poll
  | .request writes answer =>
    if s.writes ≠ none ∨ ¬ WellFormed answer then none
    else (modbusBuildReadRequest slaveAddr 0x0000 7 8).bind fun request =>
      (serialWrite fd request writes).map fun (written : ℤ × List UChar) =>
        if written.1 ≠ request.length then s
        else
          { s with
            flight := s.flight ++ answer
            answers := s.answers ++ [answer]
            writes := some writes }
  | .arrive n => some { s with rx := s.rx ++ s.flight.take n, flight := s.flight.drop n }
  | .read sel rd values =>
    match s.writes with
    | none => none
    | some writes =>
      if values.length ≠ 7 ∨ ¬ Possible s.rx sel rd then none
      else
        let rx : Receiver := ⟨fun _ => sel, rd⟩
        let response := serialRead fd responseSize 500 rx
        (collectRead fd slaveAddr values writes rx).map fun (result : ℤ × List UShort) =>
          { s with
            rx := s.rx.drop response.2.length
            accepted :=
              if result.1 = 7 then
                s.accepted ++ [⟨s.answers.length - 1, response.2, result.2⟩]
              else s.accepted
            writes := none }

/-- **Freshness**: what was accepted in a cycle is the answer to the
request of that cycle, byte for byte, and its first seven registers. -/
def Fresh (s : Poll) : Prop :=
  ∀ a ∈ s.accepted, s.answers[a.cycle]? = some a.bytes ∧
    a.regs = (List.range 7).map (frameReg a.bytes)

instance : DecidablePred Fresh := fun s =>
  inferInstanceAs (Decidable (∀ a ∈ s.accepted, _ ∧ _))

/-- The condition on a run: a request is written only when every byte of
the answers before it has arrived and been read. -/
def Quiet (s : Poll) : PollStep → Prop
  | .request _ _ => s.rx = [] ∧ s.flight = []
  | _ => True

instance (s : Poll) : DecidablePred (Quiet s)
  | .request _ _ => inferInstanceAs (Decidable (_ ∧ _))
  | .arrive _ => .isTrue trivial
  | .read _ _ _ => .isTrue trivial

variable {fd : ℤ} {slaveAddr : UChar} {s t : Poll}

/-- **The invariant of quiet runs**: while the loop waits, the bytes unread
and in flight are the answer it waits for. -/
structure Paired (s : Poll) : Prop where
  fresh : Fresh s
  waiting : s.writes ≠ none →
    ∃ answer, s.answers.getLast? = some answer ∧ WellFormed answer ∧ s.rx ++ s.flight = answer

theorem paired_opened : Paired opened where
  fresh _ ha := nomatch ha
  waiting h := absurd rfl h

/-- The answers a state has accepted stay answers when one is added. -/
theorem fresh_append {answer : List UChar} {flight : List UChar}
    {writes : Option (List WriteResult)}
    (h : Fresh s) :
    Fresh { s with flight := flight, answers := s.answers ++ [answer], writes := writes } := by
  intro a ha
  obtain ⟨hbytes, hregs⟩ := h a ha
  refine ⟨?_, hregs⟩
  rw [List.getElem?_append_left (List.getElem?_eq_some_iff.1 hbytes).1]
  exact hbytes

/-- What one call accepts: the bytes of its one read, which form a frame,
and their first seven registers. -/
theorem collectRead_accepts {values vs : List UShort} {writes : List WriteResult} {rx : Receiver}
    (hval : values.length = 7) (h : collectRead fd slaveAddr values writes rx = some (7, vs)) :
    WellFormed (serialRead fd responseSize 500 rx).2 ∧
      vs = (List.range 7).map (frameReg (serialRead fd responseSize 500 rx).2) := by
  obtain ⟨buf, hread, hparse⟩ := exists_parse_of_modbusReadRegisters h (by omega)
  obtain ⟨hw, hcount, hvs⟩ := wellFormed_of_parse (by omega) (by omega) hparse (by omega)
  have hseven : regCount buf 7 = 7 := by omega
  rw [hread]
  refine ⟨hw, ?_⟩
  rw [hvs, hseven, List.drop_of_length_le (by omega), List.append_nil]

/-- The bytes of one read are the first unread ones. -/
theorem serialRead_take {sel : SelectResult} {rd : ReadResult} (h : Possible s.rx sel rd) :
    (serialRead fd responseSize 500 ⟨fun _ => sel, rd⟩).2 <+: s.rx := by
  unfold serialRead
  split_ifs
  · exact List.nil_prefix
  · cases sel <;> simp only [List.nil_prefix]
    cases rd <;> simp only [List.nil_prefix]
    next bs =>
      obtain rfl := h.2 bs rfl
      exact List.take_prefix _ _

/-- **A step of a quiet run keeps the pairing.** -/
theorem paired_step (l : PollStep) (h : Paired s) (hq : Quiet s l)
    (hstep : step fd slaveAddr s l = some t) : Paired t := by
  cases l with
  | request writes answer =>
    simp only [step] at hstep
    split_ifs at hstep with hguard
    obtain ⟨request, -, hstep⟩ := Option.bind_eq_some_iff.1 hstep
    obtain ⟨written, -, rfl⟩ := Option.map_eq_some_iff.1 hstep
    split_ifs with hlen
    · exact h
    · obtain ⟨hrx, hflight⟩ := hq
      refine ⟨fresh_append h.fresh, fun _ => ⟨answer, ?_, ?_, ?_⟩⟩
      · exact List.getLast?_concat
      · exact not_not.1 fun hw => hguard (Or.inr hw)
      · simp only [hrx, hflight, List.nil_append]
  | arrive n =>
    simp only [step, Option.some.injEq] at hstep
    subst hstep
    refine ⟨h.fresh, fun hwait => ?_⟩
    obtain ⟨answer, hlast, hw, hbytes⟩ := h.waiting hwait
    refine ⟨answer, hlast, hw, ?_⟩
    simp only [List.append_assoc, List.take_append_drop, hbytes]
  | read sel rd values =>
    simp only [step] at hstep
    split at hstep
    · cases hstep
    · next writes hwrites =>
      split_ifs at hstep with hguard
      obtain ⟨⟨r, vs⟩, hread, rfl⟩ := Option.map_eq_some_iff.1 hstep
      refine ⟨fun a ha => ?_, fun hwait => absurd rfl hwait⟩
      simp only at ha
      split_ifs at ha with hr
      · rcases List.mem_append.1 ha with ha | ha
        · exact h.fresh a ha
        · obtain rfl := List.mem_singleton.1 ha
          obtain ⟨answer, hlast, hw, hbytes⟩ := h.waiting (by rw [hwrites]; exact nofun)
          have hval : values.length = 7 := not_not.1 fun hv => hguard (Or.inl hv)
          have hposs : Possible s.rx sel rd := not_not.1 fun hp => hguard (Or.inr hp)
          obtain ⟨hframe, hregs⟩ := collectRead_accepts hval (hr ▸ hread)
          -- the bytes read are a prefix of the answer, and no shorter one is a frame
          have hpre : (serialRead fd responseSize 500 ⟨fun _ => sel, rd⟩).2 <+: answer :=
            (serialRead_take hposs).trans (hbytes ▸ List.prefix_append _ _)
          have hall := not_not.1 fun hne => not_wellFormed_of_cut hw hpre hne hframe
          refine ⟨?_, hregs⟩
          simp only
          rw [hall, ← List.getLast?_eq_getElem?, hlast]
      · exact h.fresh a ha

/-- **A frame is taken whoever it was meant for**: a loop that waits takes
the whole frame it finds unread, whichever request it answers. -/
theorem poll_takes_whole {writes : List WriteResult} {values : List UShort} (hfd : 0 ≤ fd)
    (hwait : s.writes = some writes)
    (hwrite : ∀ request, modbusBuildReadRequest slaveAddr 0x0000 7 8 = some request →
      serialWrite fd request writes = some (8, request))
    (hval : values.length = 7) (hframe : WellFormed s.rx) (hseven : 14 ≤ byteCount s.rx)
    (hfit : s.rx.length ≤ responseSize) :
    ∃ t, step fd slaveAddr s (.read .ready (.data s.rx) values) = some t ∧
      t.accepted = s.accepted ++
        [⟨s.answers.length - 1, s.rx, (List.range 7).map (frameReg s.rx)⟩] := by
  have hmin := hframe.min_le
  obtain ⟨request, hreq, hlen⟩ : ∃ request,
      modbusBuildReadRequest slaveAddr 0x0000 7 8 = some request ∧ request.length = 8 :=
    exists_request (by decide) (by decide)
  have hread : serialRead fd responseSize 500 ⟨fun _ => .ready, .data s.rx⟩ =
      ((s.rx.length : ℤ), s.rx) := by
    rw [serialRead, if_neg (by rw [responseSize]; omega)]
    simp only [List.take_of_length_le hfit]
  have hcount : regCount s.rx 7 = 7 := by
    rw [regCount]
    omega
  have hcall : collectRead fd slaveAddr values writes ⟨fun _ => .ready, .data s.rx⟩ =
      some (7, (List.range 7).map (frameReg s.rx)) := by
    simp only [collectRead, modbusReadRegisters, hreq, hwrite request hreq, Option.bind_some,
      hlen, hread]
    rw [if_neg (by simp), if_neg (by omega), modbusParseResponse_eq (by omega) (by omega),
      if_pos hframe, hcount, List.drop_of_length_le (by omega), List.append_nil]
    rfl
  have hposs : Possible s.rx .ready (.data s.rx) :=
    ⟨fun h => absurd h (by decide), fun bs hbs => (ReadResult.data.inj hbs).symm⟩
  refine ⟨{ s with
    rx := s.rx.drop s.rx.length
    accepted := s.accepted ++
      [⟨s.answers.length - 1, s.rx, (List.range 7).map (frameReg s.rx)⟩]
    writes := none }, ?_, rfl⟩
  simp only [step, hwait, hcall, hread, Option.map_some]
  rw [if_neg fun h => h.elim (fun hv => hv hval) fun hp => hp hposs, if_pos trivial]

/-- **Every answer accepted is fresh**, in every run whose requests each
find the answers before them read to the last byte. -/
theorem poll_fresh {ls : List PollStep} (hq : Run.Along (step fd slaveAddr) Quiet opened ls)
    (hrun : Run.exec (step fd slaveAddr) opened ls = some s) : Fresh s :=
  (Run.exec_invariant_along (I := Paired) (fun _ l _ h hq => paired_step l h hq) paired_opened
    hq hrun).fresh

/-- A slave whose `k`-th answer has `k` in every register. -/
def answerOf (k : ℕ) : List UChar := responseFrame 1 (List.replicate 7 (BitVec.ofNat 16 k))

/-- Two cycles, the second answer in two pieces, both there when it is
read. -/
def promptRun : List PollStep :=
  [.request [.wrote 8] (answerOf 0), .arrive 19,
    .read .ready (.data (answerOf 0)) (List.replicate 7 0),
    .request [.wrote 8] (answerOf 1), .arrive 12, .arrive 7,
    .read .ready (.data (answerOf 1)) (List.replicate 7 0)]

theorem poll_fresh_prompt :
    ∃ s, Run.exec (step 3 1) opened promptRun = some s ∧ s.accepted.length = 2 ∧ Fresh s := by
  obtain ⟨s, hrun, hlen⟩ := Run.exists_of_exec (step 3 1) opened promptRun
    (fun s => s.accepted.length = 2) (by decide +kernel)
  exact ⟨s, hrun, hlen, poll_fresh (by decide +kernel) hrun⟩

/-- Two cycles of which the first has timed out when its answer comes. -/
def lateRun : List PollStep :=
  [.request [.wrote 8] (answerOf 0), .read .timeout .eagain (List.replicate 7 0),
    .arrive 19, .request [.wrote 8] (answerOf 1),
    .read .ready (.data (answerOf 0)) (List.replicate 7 0)]

/-- **A late answer is taken for the next one**: nothing throws it away
before the next request, and it is a frame like any other. -/
theorem poll_takes_stale :
    ∃ s, Run.exec (step 3 1) opened lateRun = some s ∧
      s.accepted = [⟨1, answerOf 0, List.replicate 7 0⟩] ∧ s.answers[1]? = some (answerOf 1) ∧
      ¬ Fresh s := by
  obtain ⟨s, hrun, hP⟩ := Run.exists_of_exec (step 3 1) opened lateRun
    (fun s => s.accepted = [⟨1, answerOf 0, List.replicate 7 0⟩] ∧
      s.answers[1]? = some (answerOf 1) ∧ ¬ Fresh s) (by decide +kernel)
  exact ⟨s, hrun, hP⟩

end Poll

end Modbus

end WaterGateway
