import WaterGateway.Uploader.Order

/-!
# The lines on a connection

The bytes put on a connection are complete lines and then at most one that
is cut short by a failed send, as long as nothing is sent after that. The
main loop sees to it by closing the socket; the drain loop keeps the
socket, and sends the next line on it. `staysDead` are the steps at which
the socket does not take it.
-/

namespace WaterGateway

namespace Uploader

variable {w : ℕ} {cfg : Config} {s s' : State w} {l : Label} {ls : List Label}

/-- A line of `uploader_build_json`. -/
def IsLine (cfg : Config) (line : List UChar) : Prop :=
  ∃ sample, line = uploaderBuildJson cfg.deviceId sample

/-- **A failed socket stays failed at this step**: a send of the drain loop
on a connection on which a send has failed fails too. -/
def staysDead (s : State w) : Label → Bool
  | .send r =>
    match s.pc with
    | .send .drain .. => decide (r ≤ 0) || (link? s).all fun x => x.2.failedAt.isNone
    | _ => true
  | _ => true

/-- A point inside `uploader_send_line`. -/
def Pc.sending : Pc → Bool
  | .send .. => true
  | _ => false

/-- What the bytes on the connection in use are made of: lines, and at a
send the part of the line already sent. -/
def Standing (cfg : Config) (pc : Pc) (bs : List UChar) : Prop :=
  match pc with
  | .send _ _ _ line sent =>
    ∃ whole, bs = whole ++ line.take sent ∧ Link.Whole (IsLine cfg) whole
  | _ => Link.Whole (IsLine cfg) bs

/-- What a connection keeps. -/
structure LinkOk (cfg : Config) (pc : Pc) (sock : Option ℕ) (i : ℕ) (c : Link UChar) : Prop where
  failed : ∀ n, c.failedAt = some n → c.written.length = n ∧ Link.Framed (IsLine cfg) c.written
  inUse : c.failedAt = none → sock = some i → Standing cfg pc c.written
  left : c.failedAt = none → sock ≠ some i → Link.Framed (IsLine cfg) c.written

/-- A point at which no send has failed on the socket: all of the main
loop, up to the failure that closes it. -/
def Pc.live (pc : Pc) : Bool :=
  match pc with
  | .incRetry .. => false
  | _ => !pc.draining

/-- **What the connections keep.** -/
structure FramedNet (cfg : Config) (s : State w) : Prop where
  links : ∀ i c, s.net[i]? = some c → LinkOk cfg s.pc s.sock i c
  line : ∀ loop stmt sampleId line sent, s.pc = .send loop stmt sampleId line sent →
    IsLine cfg line ∧ sent < line.length
  live : s.pc.live = true → ∀ i c, s.sock = some i → s.net[i]? = some c → c.failedAt = none

/-- Away from a send, the connection in use carries whole lines. -/
theorem standing_iff_whole {pc : Pc} {bs : List UChar} (h : pc.sending = false) :
    Standing cfg pc bs ↔ Link.Whole (IsLine cfg) bs := by
  cases pc with
  | send => cases h
  | outer | connect | query | inner | read | mark | incRetry | finalize | drainTest | closing
    | stopped => exact Iff.rfl

theorem sending_of_busy {pc : Pc} (h : pc.busy = false) : pc.sending = false := by
  cases pc with
  | send => cases h
  | outer | connect | query | inner | read | mark | incRetry | finalize | drainTest | closing
    | stopped => rfl

theorem live_of_busy {pc : Pc} (h : pc.busy = false) : pc.live = !pc.draining := by
  cases pc with
  | incRetry => cases h
  | outer | connect | query | inner | read | send | mark | finalize | drainTest | closing
    | stopped => rfl

/-- What is asked of a connection depends on the socket and on whether a
line is being sent. -/
theorem LinkOk.of_standing {pc pc' : Pc} {sock : Option ℕ} {i : ℕ} {c : Link UChar}
    (h : LinkOk cfg pc sock i c) (hpc : Standing cfg pc c.written → Standing cfg pc' c.written) :
    LinkOk cfg pc' sock i c :=
  ⟨h.failed, fun hfail hsock => hpc (h.inUse hfail hsock), h.left⟩

/-- The thread moves between points away from a send. -/
theorem FramedNet.goto (h : FramedNet cfg s) (hnet : s'.net = s.net) (hsock : s'.sock = s.sock)
    (hs : s.pc.sending = false) (hs' : s'.pc.sending = false)
    (hlive : s'.pc.live = true → s.pc.live = true) : FramedNet cfg s' where
  links := by
    intro i c hc
    rw [hsock]
    refine (h.links i c (hnet ▸ hc)).of_standing fun hst => ?_
    exact (standing_iff_whole hs').2 ((standing_iff_whole hs).1 hst)
  line := by
    intro loop stmt sampleId line sent hpc
    rw [hpc] at hs'
    cases hs'
  live := fun hl i c hi hc => h.live (hlive hl) i c (hsock ▸ hi) (hnet ▸ hc)

/-- The socket is given up, or there was none. -/
theorem FramedNet.leave (h : FramedNet cfg s) (hnet : s'.net = s.net) (hsock : s'.sock = none)
    (hs : s.pc.sending = false) (hs' : s'.pc.sending = false) : FramedNet cfg s' where
  links := by
    intro i c hc
    have hlink := h.links i c (hnet ▸ hc)
    refine ⟨hlink.failed, fun _ hi => ?_, fun hfail _ => ?_⟩
    · rw [hsock] at hi
      cases hi
    · by_cases hi : s.sock = some i
      · exact ((standing_iff_whole hs).1 (hlink.inUse hfail hi)).framed
      · exact hlink.left hfail hi
  line := by
    intro loop stmt sampleId line sent hpc
    rw [hpc] at hs'
    cases hs'
  live := by
    intro _ i c hi
    rw [hsock] at hi
    cases hi

/-- A new connection is in use, with nothing written on it. -/
theorem FramedNet.connect (h : FramedNet cfg s) (hnet : s'.net = s.net ++ [Link.fresh])
    (hsock : s'.sock = some s.net.length) (hs : s.pc.sending = false)
    (hs' : s'.pc.sending = false) : FramedNet cfg s' := by
  have hcases : ∀ (i : ℕ) (c : Link UChar), s'.net[i]? = some c →
      (i = s.net.length ∧ c = Link.fresh) ∨ (i < s.net.length ∧ s.net[i]? = some c) := by
    intro i c hc
    rw [hnet] at hc
    rcases Nat.lt_or_ge i s.net.length with hlt | hge
    · rw [List.getElem?_append_left hlt] at hc
      exact Or.inr ⟨hlt, hc⟩
    · rw [List.getElem?_append_right hge, List.getElem?_singleton] at hc
      split at hc
      · next hzero =>
        cases hc
        exact Or.inl ⟨by omega, rfl⟩
      · cases hc
  have hnot : ∀ {i : ℕ}, i < s.net.length → s'.sock ≠ some i := by
    intro i hlt hi
    exact absurd (Option.some.inj (hsock ▸ hi)) (by omega)
  refine ⟨fun i c hc => ?_, fun loop stmt sampleId line sent hpc => ?_, fun _ i c hi hc => ?_⟩
  · obtain ⟨rfl, rfl⟩ | ⟨hlt, hc'⟩ := hcases i c hc
    · refine ⟨fun n hn => (nomatch hn), fun _ _ => ?_, fun _ hne => absurd hsock hne⟩
      exact (standing_iff_whole hs').2 Link.whole_nil
    · have hlink := h.links i c hc'
      refine ⟨hlink.failed, fun _ hi => absurd hi (hnot hlt), fun hfail _ => ?_⟩
      by_cases hi : s.sock = some i
      · exact ((standing_iff_whole hs).1 (hlink.inUse hfail hi)).framed
      · exact hlink.left hfail hi
  · rw [hpc] at hs'
    cases hs'
  · obtain ⟨-, rfl⟩ | ⟨hlt, -⟩ := hcases i c hc
    · rfl
    · exact absurd hi (hnot hlt)

/-- The world does not touch the bytes. -/
theorem FramedNet.of_written (h : FramedNet cfg s) {net : List (Link UChar)}
    {f : Link UChar → Link UChar} {i : ℕ} (hnet : net = s.net.modify i f)
    (hf : ∀ c, (f c).written = c.written ∧ (f c).failedAt = c.failedAt)
    (hs' : s'.net = net) (hpc : s'.pc = s.pc) (hsock : s'.sock = s.sock) : FramedNet cfg s' := by
  have hold : ∀ (j : ℕ) (c : Link UChar), s'.net[j]? = some c →
      ∃ c₀ : Link UChar, s.net[j]? = some c₀ ∧ c.written = c₀.written ∧
        c.failedAt = c₀.failedAt := by
    intro j c hc
    rw [hs', hnet, List.getElem?_modify] at hc
    obtain ⟨c₀, hc₀, rfl⟩ := Option.map_eq_some_iff.1 hc
    refine ⟨c₀, hc₀, ?_⟩
    split
    · exact hf c₀
    · exact ⟨rfl, rfl⟩
  refine ⟨fun j c hc => ?_, ?_, fun hl j c hj hc => ?_⟩
  · obtain ⟨c₀, hc₀, hwritten, hfail⟩ := hold j c hc
    have hlink := h.links j c₀ hc₀
    rw [hpc, hsock]
    exact ⟨fun n hn => hwritten ▸ hlink.failed n (hfail ▸ hn),
      fun hn hj => hwritten ▸ hlink.inUse (hfail ▸ hn) hj,
      fun hn hj => hwritten ▸ hlink.left (hfail ▸ hn) hj⟩
  · rw [hpc]
    exact h.line
  · obtain ⟨c₀, hc₀, -, hfail⟩ := hold j c hc
    rw [hfail]
    exact h.live (hpc ▸ hl) j c₀ (hsock ▸ hj) hc₀

/-! ## Sending -/

/-- A send that fails cuts the line short, and the stream ends there. -/
theorem LinkOk.fail {pc pc' : Pc} {loop : Loop} {stmt : Stmt} {sampleId : ℤ} {line : List UChar}
    {sent i : ℕ} {c : Link UChar} (h : LinkOk cfg pc (some i) i c)
    (hpc : pc = .send loop stmt sampleId line sent) (hline : IsLine cfg line)
    (hsent : sent < line.length) : LinkOk cfg pc' (some i) i c.fail := by
  have hfailed : ∀ n, c.fail.failedAt = some n →
      c.written.length = n ∧ Link.Framed (IsLine cfg) c.written := by
    intro n hn
    rw [Link.failedAt_fail] at hn
    cases hfail : c.failedAt with
    | some m =>
      rw [hfail] at hn
      cases hn
      exact h.failed n hfail
    | none =>
      rw [hfail] at hn
      cases hn
      obtain ⟨whole, hbytes, hwhole⟩ : ∃ whole, c.written = whole ++ line.take sent ∧
          Link.Whole (IsLine cfg) whole := by
        have := h.inUse hfail rfl
        rwa [hpc] at this
      exact ⟨rfl, hbytes ▸ hwhole.framed_take hline hsent⟩
  have hsome : c.fail.failedAt ≠ none := by
    rw [Link.failedAt_fail]
    cases c.failedAt <;> exact Option.some_ne_none _
  exact ⟨hfailed, fun hnone => absurd hnone hsome, fun hnone => absurd hnone hsome⟩

/-- A send that is accepted carries the line on. -/
theorem LinkOk.append {pc pc' : Pc} {loop : Loop} {stmt : Stmt} {sampleId : ℤ}
    {line : List UChar} {sent n i : ℕ} {c : Link UChar} (h : LinkOk cfg pc (some i) i c)
    (hpc : pc = .send loop stmt sampleId line sent) (hfail : c.failedAt = none)
    (hnext : ∀ whole, Link.Whole (IsLine cfg) whole →
      Standing cfg pc' (whole ++ line.take (sent + n))) :
    LinkOk cfg pc' (some i) i (c.append ((line.drop sent).take n)) where
  failed := by
    intro m hm
    rw [Link.failedAt_append, hfail] at hm
    cases hm
  inUse := by
    intro _ _
    obtain ⟨whole, hbytes, hwhole⟩ : ∃ whole, c.written = whole ++ line.take sent ∧
        Link.Whole (IsLine cfg) whole := by
      have := h.inUse hfail rfl
      rwa [hpc] at this
    rw [Link.written_append, hbytes, List.append_assoc, ← List.take_add]
    exact hnext whole hwhole
  left := fun _ hi => absurd rfl hi

/-- The connection in use keeps what every connection keeps. -/
theorem FramedNet.link (h : FramedNet cfg s) {i : ℕ} {c : Link UChar}
    (hlink : link? s = some (i, c)) : LinkOk cfg s.pc (some i) i c := by
  obtain ⟨hi, hc⟩ := link_eq_some.1 hlink
  exact hi ▸ h.links i c hc

/-- The connections after a change of the one in use. -/
theorem FramedNet.of_set {i : ℕ} {c c' : Link UChar} (h : FramedNet cfg s)
    (hlink : link? s = some (i, c)) (hnet : s'.net = s.net.set i c') (hsock : s'.sock = s.sock)
    (hc' : LinkOk cfg s'.pc (some i) i c') (hline : ∀ loop stmt sampleId line sent,
      s'.pc = .send loop stmt sampleId line sent → IsLine cfg line ∧ sent < line.length)
    (hlive : s'.pc.live = true → c'.failedAt = none) : FramedNet cfg s' := by
  obtain ⟨hi, hc⟩ := link_eq_some.1 hlink
  have hcases : ∀ (j : ℕ) (d : Link UChar), s'.net[j]? = some d →
      (j = i ∧ d = c') ∨ (j ≠ i ∧ s.net[j]? = some d) := by
    intro j d hd
    rw [hnet, List.getElem?_set] at hd
    split at hd
    · next hij =>
      split at hd
      · cases hd
        exact Or.inl ⟨hij.symm, rfl⟩
      · cases hd
    · next hij => exact Or.inr ⟨fun heq => hij heq.symm, hd⟩
  refine ⟨fun j d hd => ?_, hline, fun hl j d hj hd => ?_⟩
  · obtain ⟨rfl, rfl⟩ | ⟨hne, hd'⟩ := hcases j d hd
    · rw [hsock, hi]
      exact hc'
    · have hother := h.links j d hd'
      refine ⟨hother.failed, fun _ hj => ?_, fun hfail _ => hother.left hfail ?_⟩
      · rw [hsock, hi] at hj
        exact absurd (Option.some.inj hj).symm hne
      · rw [hi]
        exact fun heq => hne (Option.some.inj heq).symm
  · obtain ⟨-, rfl⟩ | ⟨hne, -⟩ := hcases j d hd
    · exact hlive hl
    · rw [hsock, hi] at hj
      exact absurd (Option.some.inj hj).symm hne

/-- A send that is accepted was made on a socket no send has failed on. -/
theorem failedAt_of_accepted (h : FramedNet cfg s) {r : ℤ} (hdead : staysDead s (.send r) = true)
    (hr : 0 < r) {loop : Loop} {stmt : Stmt} {sampleId : ℤ} {line : List UChar} {sent : ℕ}
    (hpc : s.pc = .send loop stmt sampleId line sent) {i : ℕ} {c : Link UChar}
    (hlink : link? s = some (i, c)) : c.failedAt = none := by
  cases loop with
  | main =>
    obtain ⟨hi, hc⟩ := link_eq_some.1 hlink
    exact h.live (by rw [hpc]; rfl) i c hi hc
  | drain =>
    simp only [staysDead, hpc, hlink, Option.all_some, Bool.or_eq_true, decide_eq_true_eq,
      Option.isNone_iff_eq_none] at hdead
    exact hdead.resolve_left (by omega)

theorem FramedNet.step (h : FramedNet cfg s) (hdead : staysDead s l = true)
    (hstep : step cfg s l = some s') : FramedNet cfg s' := by
  cases moves_of_step hstep with
  | idle l pc hl hs hpc hfinalize hclosing hstopped hdraining =>
    have hbusy : pc.busy = false := busy_of_idle hpc
    refine h.goto rfl rfl (sending_of_busy hs) (sending_of_busy hbusy) fun hl => ?_
    have hnot : pc.draining = false := by simpa [live_of_busy hbusy] using hl
    rw [live_of_busy hs, Bool.not_eq_true', ← Bool.not_eq_true]
    exact fun hd => by simp [hdraining hd] at hnot
  | queried loop hpc =>
    refine h.goto rfl rfl (by rw [hpc]; rfl) (by cases loop <;> rfl) fun hl => ?_
    cases loop with
    | main => rw [hpc]; rfl
    | drain => cases hl
  | tested stmt hasData hpc => exact h.goto rfl rfl (by rw [hpc]; rfl) rfl fun _ => by rw [hpc]; rfl
  | skipped loop stmt hasData k b hpc hfetch hlong =>
    refine h.goto rfl rfl (by rw [hpc]; rfl) (by cases loop <;> rfl) fun hl => ?_
    cases loop with
    | main => rw [hpc]; rfl
    | drain => cases hl
  | fetched loop stmt hasData k b hpc hfetch hshort =>
    have hs : s.pc.sending = false := by rw [hpc]; rfl
    refine ⟨fun i c hc => (h.links i c hc).of_standing fun hst => ?_, ?_, fun hl => h.live ?_⟩
    · exact ⟨c.written, (List.append_nil _).symm, (standing_iff_whole hs).1 hst⟩
    · rintro loop' stmt' sampleId line sent hpc'
      cases hpc'
      exact ⟨⟨sampleOf b, rfl⟩, List.length_pos_of_ne_nil uploaderBuildJson_ne_nil⟩
    · cases loop with
      | main => rw [hpc]; rfl
      | drain => cases hl
  | marked a loop stmt sampleId hpc =>
    refine h.goto rfl rfl (by rw [hpc]; rfl) (by cases loop <;> rfl) fun hl => ?_
    cases loop with
    | main => rw [hpc]; rfl
    | drain => cases hl
  | counted a loop stmt sampleId connected sock hpc hsock =>
    obtain ⟨rfl, rfl⟩ | ⟨rfl, rfl⟩ := hsock
    · exact h.leave rfl rfl (by rw [hpc]; rfl) rfl
    · exact h.goto rfl rfl (by rw [hpc]; rfl) rfl fun hl => by cases hl
  | connected hpc => exact h.connect rfl rfl (by rw [hpc]; rfl) rfl
  | connectFailed hpc => exact h.leave rfl rfl (by rw [hpc]; rfl) rfl
  | sendFailed r loop stmt sampleId line sent net hpc hr hnet =>
    obtain ⟨hline, hsent⟩ := h.line loop stmt sampleId line sent hpc
    obtain ⟨hnone, rfl⟩ | ⟨i, c, hlink, rfl⟩ := hnet
    · have hgone : ∀ (i : ℕ) (c : Link UChar), s.sock = some i → s.net[i]? = some c → False := by
        intro i c hi hc
        rw [link_eq_some.2 ⟨hi, hc⟩] at hnone
        cases hnone
      refine ⟨fun i c hc => ?_, fun _ _ _ _ _ hpc' => (nomatch hpc'), fun hl => nomatch hl⟩
      have hold := h.links i c hc
      exact ⟨hold.failed, fun _ hi => (hgone i c hi hc).elim, hold.left⟩
    · exact h.of_set hlink rfl rfl ((h.link hlink).fail hpc hline hsent)
        (fun _ _ _ _ _ hpc' => nomatch hpc') (fun hl => nomatch hl)
  | sentSome r loop stmt sampleId line sent i c hpc hr hlink hopen hsent =>
    obtain ⟨hline, -⟩ := h.line loop stmt sampleId line sent hpc
    have hold := h.link hlink
    have hfail := failedAt_of_accepted h hdead hr hpc hlink
    refine h.of_set hlink rfl rfl (hold.append hpc hfail fun whole hwhole => ⟨whole, rfl, hwhole⟩)
      ?_ fun _ => hfail
    rintro loop' stmt' sampleId' line' sent' hpc'
    cases hpc'
    exact ⟨hline, hsent⟩
  | sentAll r loop stmt sampleId line sent i c hpc hr hlink hopen hsent =>
    obtain ⟨hline, -⟩ := h.line loop stmt sampleId line sent hpc
    have hold := h.link hlink
    have hfail := failedAt_of_accepted h hdead hr hpc hlink
    refine h.of_set hlink rfl rfl (hold.append hpc hfail fun whole hwhole => ?_)
      (fun _ _ _ _ _ hpc' => nomatch hpc') fun _ => hfail
    rw [hsent, List.take_length]
    exact hwhole.append hline
  | shutdown | inserted | insertFailed | trimmed => exact ⟨h.links, h.line, h.live⟩
  | delivered i n =>
    exact h.of_written rfl (fun c => ⟨Link.written_deliver c n, Link.failedAt_deliver c n⟩)
      rfl rfl rfl
  | reset i => exact h.of_written (f := Link.reset) rfl (fun c => ⟨rfl, rfl⟩) rfl rfl rfl

/-! ## Runs -/

theorem framedNet_init (db : Samples) : FramedNet cfg (init w db) where
  links := fun i c hc => by cases hc
  line := fun _ _ _ _ _ hpc => nomatch hpc
  live := fun _ _ _ hi => nomatch hi

/-- **What a connection owes**: its bytes are complete lines and at most
one incomplete line at their end; a line ends with a newline, its only one
if the device has none; and no byte follows a failed send. -/
structure StreamIntact (cfg : Config) (c : Link UChar) : Prop where
  framed : Link.Framed (IsLine cfg) c.written
  newline_last : ∀ line, IsLine cfg line → line.getLast? = some newline
  newline_only : newline ∉ cfg.deviceId → ∀ line, IsLine cfg line → newline ∉ line.dropLast
  nothing_after : ∀ n, c.failedAt = some n → c.written.length = n

/-- **The lines on every connection are whole**, in every run from the
start of the thread in which a socket that has failed in the drain loop
stays failed. -/
theorem streams_intact {db : Samples}
    (hdead : Run.Along (step cfg) (fun s l => staysDead s l = true) (init w db) ls)
    (h : Run.exec (step cfg) (init w db) ls = some s) : ∀ c ∈ s.net, StreamIntact cfg c := by
  have hframed : FramedNet cfg s := Run.exec_invariant_along (I := FramedNet cfg)
    (fun s l t hI hl ht => hI.step hl ht) (framedNet_init db) hdead h
  intro c hc
  obtain ⟨i, hi⟩ := List.mem_iff_getElem?.1 hc
  have hlink := hframed.links i c hi
  refine ⟨?_, ?_, ?_, fun n hn => (hlink.failed n hn).1⟩
  · cases hfail : c.failedAt with
    | some n => exact (hlink.failed n hfail).2
    | none =>
      by_cases hsock : s.sock = some i
      · have hst := hlink.inUse hfail hsock
        cases hpc : s.pc with
        | send loop stmt sampleId line sent =>
          rw [hpc] at hst
          obtain ⟨whole, hbytes, hwhole⟩ := hst
          obtain ⟨hline, hsent⟩ := hframed.line loop stmt sampleId line sent hpc
          exact hbytes ▸ hwhole.framed_take hline hsent
        | outer | connect | query | inner | read | mark | incRetry | finalize | drainTest | closing
          | stopped =>
          rw [hpc] at hst
          exact ((standing_iff_whole rfl).1 hst).framed
      · exact hlink.left hfail hsock
  · rintro line ⟨sample, rfl⟩
    exact getLast?_uploaderBuildJson
  · rintro hdev line ⟨sample, rfl⟩
    exact newline_notMem_dropLast hdev

/-- The thread is told to stop in its main loop, and starts to drain. -/
def startDrain : List Label := [.shutdown, .tau, .tau, .tau, .tau, .sql .ok]

/-- It reads the first row, and a send of it fails after one byte. -/
def failAfterOne : List Label := [.sql .ok, .send 1, .send (-1), .sql .ok]

/-- The drain loop asks again and reads the same row. -/
def drainAgain : List Label := [.tau, .sql .ok, .sql .ok]

/-- In the main loop the socket is closed, and the row goes out whole on
the next connection. -/
theorem streams_intact_reconnect :
    ∃ s : State 32, Run.exec (step exampleConfig) (init 32 twoRows)
        (connectAndQuery ++ [.tau] ++ failAfterOne ++ [.tau] ++ connectAndQuery ++ readOne ++
          sendOne) = some s ∧
      s.net.map (fun c => c.written.length) = [1, lineLength.toNat] ∧
      ∀ c ∈ s.net, StreamIntact exampleConfig c := by
  obtain ⟨s, h, hlengths⟩ := Run.exists_of_exec (step exampleConfig) (init 32 twoRows)
    (connectAndQuery ++ [.tau] ++ failAfterOne ++ [.tau] ++ connectAndQuery ++ readOne ++ sendOne)
    (fun s => s.net.map (fun c => c.written.length) = [1, lineLength.toNat]) (by decide +kernel)
  exact ⟨s, h, hlengths, streams_intact (by decide +kernel) h⟩

/-- A line starts with a brace and a quotation mark. -/
theorem take_two_of_isLine {line : List UChar} (h : IsLine cfg line) : line.take 2 = [123, 34] := by
  obtain ⟨sample, rfl⟩ := h
  have hstart : (bytes "\x7b\"device_id\":\"").take 2 = [123, 34] := by decide +kernel
  have hlen : 2 ≤ (bytes "\x7b\"device_id\":\"").length := by decide +kernel
  rw [uploaderBuildJson, List.append_assoc, List.append_assoc, List.take_append_of_le_length hlen,
    hstart]

theorem two_le_length_of_take {bs : List UChar} {a b : UChar} (h : bs.take 2 = [a, b]) :
    2 ≤ bs.length := by
  have hmin := congrArg List.length h
  rw [List.length_take] at hmin
  exact (Nat.le_of_eq hmin.symm).trans (Nat.min_le_right _ _)

/-- No stream of lines starts with two braces. -/
theorem not_framed_of_braces {bs : List UChar} (h : bs.take 2 = [123, 123]) :
    ¬ Link.Framed (IsLine cfg) bs := by
  rintro ⟨lines, tail, rfl, hlines, htail⟩
  have hno : ∀ {x y : List UChar}, IsLine cfg x → (x ++ y).take 2 ≠ [123, 123] := by
    intro x y hx heq
    have htwo := take_two_of_isLine hx
    rw [List.take_append_of_le_length (two_le_length_of_take htwo), htwo] at heq
    cases heq
  cases lines with
  | cons line lines =>
    rw [List.flatten_cons, List.append_assoc] at h
    exact hno (hlines line List.mem_cons_self) h
  | nil =>
    rw [List.flatten_nil, List.nil_append] at h
    rcases htail with rfl | ⟨line, hline, ⟨rest, hrest⟩, -⟩
    · cases h
    · have htwo := take_two_of_isLine hline
      rw [← hrest, List.take_append_of_le_length (two_le_length_of_take h), h] at htwo
      cases htwo

/-- **A socket that recovers is sent a new line after a broken one**: in
the drain loop one byte of a line is accepted, the next send fails, and
the whole line is sent after it on the same connection. -/
theorem drain_breaks_stream :
    ∃ s : State 32, Run.exec (step exampleConfig) (init 32 twoRows)
        (connectAndQuery ++ startDrain ++ failAfterOne ++ drainAgain ++ sendOne) = some s ∧
      ∃ c ∈ s.net, ¬ Link.Framed (IsLine exampleConfig) c.written ∧
        c.failedAt = some 1 ∧ 1 < c.written.length := by
  obtain ⟨s, h, c, hc, hbraces, hfail, hlong⟩ := Run.exists_of_exec (step exampleConfig)
    (init 32 twoRows) (connectAndQuery ++ startDrain ++ failAfterOne ++ drainAgain ++ sendOne)
    (fun s => ∃ c ∈ s.net, c.written.take 2 = [123, 123] ∧ c.failedAt = some 1 ∧
      1 < c.written.length) (by decide +kernel)
  exact ⟨s, h, c, hc, not_framed_of_braces hbraces, hfail, hlong⟩

end Uploader

end WaterGateway
