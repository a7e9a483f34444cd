import WaterGateway.Common.Lines
import WaterGateway.Uploader.Framing

/-!
# The bytes on a connection, line by line

The bytes put on a connection are the lines handed over on it, in order,
and behind them the part of a line that is being sent or was cut short. The
connections are used one after another, so the complete lines of all of
them are the lines handed over.
-/

namespace WaterGateway

namespace Uploader

variable {w : ℕ} {cfg : Config} {s s' : State w} {l : Label}

/-- The lines handed over on connection `i`. -/
def linesOn (hd : List Handover) (i : ℕ) : List (List UChar) :=
  (hd.filter fun x => decide (x.link = i)).map Handover.line

/-- What has been sent of a line that is not handed over yet. -/
def Pc.sentPart : Pc → List UChar
  | .send _ _ _ line sent => line.take sent
  | _ => []

/-- A line that is not complete, and may not have begun. -/
def CutShort (cfg : Config) (part : List UChar) : Prop :=
  ∃ line, IsLine cfg line ∧ part <+: line ∧ part ≠ line

/-- What a connection carries. -/
def Stands (cfg : Config) (s : State w) (i : ℕ) (c : Link UChar) : Prop :=
  ∃ part, c.written = (linesOn s.handed i).flatten ++ part ∧ CutShort cfg part ∧
    (s.sock = some i → c.failedAt = none → part = s.pc.sentPart)

/-- **What the connections carry**, and the order they are used in. -/
structure Laid (cfg : Config) (s : State w) : Prop where
  latest : ∀ i, s.sock = some i → i + 1 = s.net.length
  whole : ∀ x ∈ s.handed, IsLine cfg x.line
  links : ∀ x ∈ s.handed, x.link < s.net.length
  sorted : s.handed.Pairwise fun x y => x.link ≤ y.link
  bytes : ∀ i c, s.net[i]? = some c → Stands cfg s i c

theorem linesOn_concat (hd : List Handover) (x : Handover) (i : ℕ) :
    linesOn (hd ++ [x]) i = linesOn hd i ++ if x.link = i then [x.line] else [] := by
  rw [linesOn, linesOn, List.filter_append, List.map_append]
  by_cases hx : x.link = i
  · simp [hx]
  · simp [hx]

theorem cutShort_nil (cfg : Config) : CutShort cfg [] :=
  ⟨uploaderBuildJson cfg.deviceId default, ⟨default, rfl⟩, List.nil_prefix,
    fun h => uploaderBuildJson_ne_nil h.symm⟩

theorem cutShort_take {line : List UChar} (hline : IsLine cfg line) {n : ℕ}
    (hn : n < line.length) : CutShort cfg (line.take n) := by
  refine ⟨line, hline, List.take_prefix _ _, fun heq => ?_⟩
  have hlen := congrArg List.length heq
  rw [List.length_take] at hlen
  omega

theorem sentPart_of_sending {pc : Pc} (h : pc.sending = false) : pc.sentPart = [] := by
  cases pc with
  | send => cases h
  | outer | connect | query | inner | read | mark | incRetry | finalize | drainTest | closing
    | stopped => rfl

theorem laid_init (db : Samples) : Laid cfg (init w db) where
  latest := fun _ hi => nomatch hi
  whole := fun _ hx => nomatch hx
  links := fun _ hx => nomatch hx
  sorted := List.Pairwise.nil
  bytes := fun i c hc => by cases hc

/-- The thread moves between points without sending. -/
theorem Laid.goto (h : Laid cfg s) (hnet : s'.net = s.net) (hhanded : s'.handed = s.handed)
    (hsock : s'.sock = s.sock ∨ s'.sock = none) (hpart : s'.pc.sentPart = s.pc.sentPart) :
    Laid cfg s' where
  latest := by
    intro i hi
    rw [hnet]
    obtain hsame | hnone := hsock
    · exact h.latest i (hsame ▸ hi)
    · rw [hnone] at hi
      cases hi
  whole := hhanded ▸ h.whole
  links := by
    rw [hnet, hhanded]
    exact h.links
  sorted := hhanded ▸ h.sorted
  bytes := by
    intro i c hc
    obtain ⟨part, hbytes, hshort, hnow⟩ := h.bytes i c (hnet ▸ hc)
    refine ⟨part, by rw [hhanded]; exact hbytes, hshort, fun hi hfail => ?_⟩
    obtain hsame | hnone := hsock
    · rw [hpart]
      exact hnow (hsame ▸ hi) hfail
    · rw [hnone] at hi
      cases hi

/-- A new connection is in use, with nothing written on it. -/
theorem Laid.connect (h : Laid cfg s) (hnet : s'.net = s.net ++ [Link.fresh])
    (hhanded : s'.handed = s.handed) (hsock : s'.sock = some s.net.length)
    (hpart : s'.pc.sentPart = []) : Laid cfg s' where
  latest := by
    intro i hi
    rw [hsock] at hi
    cases hi
    rw [hnet, List.length_append]
    rfl
  whole := hhanded ▸ h.whole
  links := by
    intro x hx
    rw [hnet, List.length_append]
    exact Nat.lt_succ_of_lt (h.links x (hhanded ▸ hx))
  sorted := hhanded ▸ h.sorted
  bytes := by
    intro i c hc
    rw [hnet] at hc
    rcases Nat.lt_or_ge i s.net.length with hlt | hge
    · rw [List.getElem?_append_left hlt] at hc
      obtain ⟨part, hbytes, hshort, -⟩ := h.bytes i c hc
      refine ⟨part, by rw [hhanded]; exact hbytes, hshort, fun hi => ?_⟩
      rw [hsock] at hi
      cases hi
      exact absurd hlt (Nat.lt_irrefl _)
    · rw [List.getElem?_append_right hge, List.getElem?_singleton] at hc
      split at hc
      · next hzero =>
        cases hc
        -- no line has been handed over on it
        have hnone : linesOn s'.handed i = [] := by
          rw [linesOn, hhanded, List.filter_eq_nil_iff.2, List.map_nil]
          intro x hx
          have hlink := h.links x hx
          rw [decide_eq_true_eq]
          omega
        exact ⟨[], by rw [hnone]; rfl, cutShort_nil cfg, fun _ _ => hpart.symm⟩
      · cases hc

/-- The connection in use has changed. -/
theorem Laid.of_set (h : Laid cfg s) {i : ℕ} {c c' : Link UChar} (hlink : link? s = some (i, c))
    (hnet : s'.net = s.net.set i c') (hsock : s'.sock = s.sock)
    (hwhole : ∀ x ∈ s'.handed, IsLine cfg x.line)
    (hlinks : ∀ x ∈ s'.handed, x.link < s.net.length)
    (hsorted : s'.handed.Pairwise fun x y => x.link ≤ y.link)
    (hothers : ∀ j, j ≠ i → linesOn s'.handed j = linesOn s.handed j)
    (hc' : Stands cfg s' i c') : Laid cfg s' where
  latest := by
    rw [hnet, hsock, List.length_set]
    exact h.latest
  whole := hwhole
  links := by
    rw [hnet, List.length_set]
    exact hlinks
  sorted := hsorted
  bytes := by
    obtain ⟨hi, hc⟩ := link_eq_some.1 hlink
    intro j d hd
    rw [hnet, List.getElem?_set] at hd
    split at hd
    · next hij =>
      split at hd
      · cases hd
        exact hij ▸ hc'
      · cases hd
    · next hij =>
      obtain ⟨part, hbytes, hshort, -⟩ := h.bytes j d hd
      refine ⟨part, by rw [hothers j (Ne.symm hij)]; exact hbytes, hshort, fun hj => ?_⟩
      rw [hsock, hi] at hj
      exact absurd (Option.some.inj hj) hij

/-- The world does not touch the bytes. -/
theorem Laid.of_written (h : Laid cfg s) {f : Link UChar → Link UChar} {i : ℕ}
    (hf : ∀ c, (f c).written = c.written ∧ (f c).failedAt = c.failedAt)
    (hnet : s'.net = s.net.modify i f) (hhanded : s'.handed = s.handed) (hpc : s'.pc = s.pc)
    (hsock : s'.sock = s.sock) : Laid cfg s' where
  latest := by
    rw [hnet, hsock, List.length_modify]
    exact h.latest
  whole := hhanded ▸ h.whole
  links := by
    rw [hnet, hhanded, List.length_modify]
    exact h.links
  sorted := hhanded ▸ h.sorted
  bytes := by
    intro j c hc
    rw [hnet, List.getElem?_modify] at hc
    obtain ⟨c₀, hc₀, rfl⟩ := Option.map_eq_some_iff.1 hc
    obtain ⟨part, hbytes, hshort, hnow⟩ := h.bytes j c₀ hc₀
    have hsame : ∀ d : Link UChar, d.written = c₀.written ∧ d.failedAt = c₀.failedAt →
        Stands cfg s' j d := by
      rintro d ⟨hwritten, hfail⟩
      refine ⟨part, by rw [hwritten, hhanded]; exact hbytes, hshort, fun hj hd => ?_⟩
      rw [hpc]
      exact hnow (hsock ▸ hj) (hfail ▸ hd)
    split
    · exact hsame _ (hf c₀)
    · exact hsame _ ⟨rfl, rfl⟩

/-- What has been sent on the connection in use. -/
theorem Laid.inUse (h : Laid cfg s) {i : ℕ} {c : Link UChar} (hlink : link? s = some (i, c))
    (hfail : c.failedAt = none) :
    c.written = (linesOn s.handed i).flatten ++ s.pc.sentPart := by
  obtain ⟨hi, hc⟩ := link_eq_some.1 hlink
  obtain ⟨part, hbytes, -, hnow⟩ := h.bytes i c hc
  rw [hbytes, hnow hi hfail]

theorem Laid.step (h : Laid cfg s) (hframed : FramedNet cfg s) (hdead : staysDead s l = true)
    (hstep : step cfg s l = some s') : Laid cfg s' := by
  cases moves_of_step hstep with
  | idle l pc hl hs hpc =>
    refine h.goto rfl rfl (Or.inl rfl) ?_
    exact (sentPart_of_sending (sending_of_busy (busy_of_idle hpc))).trans
      (sentPart_of_sending (sending_of_busy hs)).symm
  | queried loop hpc => exact h.goto rfl rfl (Or.inl rfl) (by rw [hpc]; cases loop <;> rfl)
  | tested stmt hasData hpc => exact h.goto rfl rfl (Or.inl rfl) (by rw [hpc]; rfl)
  | skipped loop stmt hasData k b hpc =>
    exact h.goto rfl rfl (Or.inl rfl) (by rw [hpc]; cases loop <;> rfl)
  | fetched loop stmt hasData k b hpc => exact h.goto rfl rfl (Or.inl rfl) (by rw [hpc]; rfl)
  | marked a loop stmt sampleId hpc =>
    exact h.goto rfl rfl (Or.inl rfl) (by rw [hpc]; cases loop <;> rfl)
  | counted a loop stmt sampleId connected sock hpc hsock =>
    refine h.goto rfl rfl ?_ (by rw [hpc]; rfl)
    obtain ⟨-, rfl⟩ | ⟨-, rfl⟩ := hsock
    · exact Or.inr rfl
    · exact Or.inl rfl
  | connected hpc => exact h.connect rfl rfl rfl rfl
  | connectFailed hpc => exact h.goto rfl rfl (Or.inr rfl) (by rw [hpc]; rfl)
  | sendFailed r loop stmt sampleId line sent net hpc hr hnet =>
    obtain ⟨hline, hsent⟩ := hframed.line loop stmt sampleId line sent hpc
    obtain ⟨hnone, rfl⟩ | ⟨i, c, hlink, rfl⟩ := hnet
    · refine ⟨h.latest, h.whole, h.links, h.sorted, fun i c hc => ?_⟩
      obtain ⟨part, hbytes, hshort, -⟩ := h.bytes i c hc
      refine ⟨part, hbytes, hshort, fun hi => ?_⟩
      have hsome : link? s = some (i, c) := link_eq_some.2 ⟨hi, hc⟩
      rw [hsome] at hnone
      cases hnone
    · obtain ⟨hi, hc⟩ := link_eq_some.1 hlink
      obtain ⟨part, hbytes, hshort, -⟩ := h.bytes i c hc
      refine h.of_set hlink rfl rfl h.whole h.links h.sorted (fun _ _ => rfl) ?_
      refine ⟨part, hbytes, hshort, fun _ hfail => ?_⟩
      rw [Link.failedAt_fail] at hfail
      cases hc' : c.failedAt with
      | none =>
        rw [hc'] at hfail
        cases hfail
      | some n =>
        rw [hc'] at hfail
        cases hfail
  | sentSome r loop stmt sampleId line sent i c hpc hr hlink hopen hsent =>
    obtain ⟨hline, -⟩ := hframed.line loop stmt sampleId line sent hpc
    have hbytes := h.inUse hlink (failedAt_of_accepted hframed hdead hr hpc hlink)
    rw [hpc, Pc.sentPart] at hbytes
    refine h.of_set hlink rfl rfl h.whole h.links h.sorted (fun _ _ => rfl) ?_
    refine ⟨line.take (sent + r.toNat), ?_, cutShort_take hline hsent, fun _ _ => rfl⟩
    rw [Link.written_append, hbytes, List.append_assoc, ← List.take_add]
  | sentAll r loop stmt sampleId line sent i c hpc hr hlink hopen hsent =>
    obtain ⟨hi, hc⟩ := link_eq_some.1 hlink
    have hlast : i + 1 = s.net.length := h.latest i hi
    have hbytes := h.inUse hlink (failedAt_of_accepted hframed hdead hr hpc hlink)
    rw [hpc, Pc.sentPart] at hbytes
    refine h.of_set hlink rfl rfl ?_ ?_ ?_ (fun j hj => ?_) ?_
    · intro x hx
      rcases List.mem_append.1 hx with hx | hx
      · exact h.whole x hx
      · rw [List.mem_singleton.1 hx]
        exact (hframed.line loop stmt sampleId line sent hpc).1
    · intro x hx
      rcases List.mem_append.1 hx with hx | hx
      · exact h.links x hx
      · rw [List.mem_singleton.1 hx]
        exact Nat.lt_of_succ_le (Nat.le_of_eq hlast)
    · refine List.pairwise_append.2 ⟨h.sorted, List.pairwise_singleton _ _, fun x hx y hy => ?_⟩
      rw [List.mem_singleton.1 hy]
      have hlt := h.links x hx
      dsimp only
      omega
    · rw [linesOn_concat, if_neg (Ne.symm hj), List.append_nil]
    · refine ⟨[], ?_, cutShort_nil cfg, fun _ _ => rfl⟩
      rw [Link.written_append, hbytes, linesOn_concat, if_pos rfl, List.flatten_append,
        List.flatten_singleton, List.append_nil, List.append_assoc, ← List.take_add, hsent,
        List.take_length]
  | shutdown | inserted | insertFailed | trimmed =>
    exact ⟨h.latest, h.whole, h.links, h.sorted, h.bytes⟩
  | delivered i n =>
    exact h.of_written (fun c => ⟨Link.written_deliver c n, Link.failedAt_deliver c n⟩)
      rfl rfl rfl rfl
  | reset i => exact h.of_written (f := Link.reset) (fun c => ⟨rfl, rfl⟩) rfl rfl rfl rfl

/-! ## The complete lines -/

/-- Connections that are used one after another divide what was handed over
in order. -/
theorem flatMap_linesOn {hd : List Handover} {n : ℕ}
    (hsorted : hd.Pairwise fun x y => x.link ≤ y.link) (hlinks : ∀ x ∈ hd, x.link < n) :
    (List.range n).flatMap (linesOn hd) = hd.map Handover.line := by
  induction hd with
  | nil => exact List.flatMap_eq_nil_iff.2 fun _ _ => rfl
  | cons x hd ih =>
    obtain ⟨hx, hsorted⟩ := List.pairwise_cons.1 hsorted
    have hrest := ih hsorted fun y hy => hlinks y (List.mem_cons_of_mem x hy)
    -- up to the connection of `x` nothing else stands on any
    have hsplit : List.range n =
        List.range x.link ++ x.link :: List.range' (x.link + 1) (n - (x.link + 1)) := by
      have hlt : x.link < n := hlinks x List.mem_cons_self
      have happend : List.range' 0 x.link ++ List.range' (0 + x.link) (n - (x.link + 1) + 1) =
          List.range' 0 (x.link + (n - (x.link + 1) + 1)) := List.range'_append_1
      have hn : n = x.link + (n - (x.link + 1) + 1) := by omega
      rw [← List.range'_succ, List.range_eq_range', List.range_eq_range']
      rw [Nat.zero_add, ← hn] at happend
      exact happend.symm
    have hnone : ∀ {hd' : List Handover}, (∀ y ∈ hd', x.link ≤ y.link) →
        (List.range x.link).flatMap (linesOn hd') = [] := by
      intro hd' hle
      refine List.flatMap_eq_nil_iff.2 fun i hi => ?_
      rw [linesOn, List.filter_eq_nil_iff.2, List.map_nil]
      intro y hy
      have hbelow := List.mem_range.1 hi
      have habove := hle y hy
      rw [decide_eq_true_eq]
      omega
    have hbehind : (List.range' (x.link + 1) (n - (x.link + 1))).flatMap (linesOn (x :: hd)) =
        (List.range' (x.link + 1) (n - (x.link + 1))).flatMap (linesOn hd) := by
      refine List.flatMap_congr fun i hi => ?_
      have hlt : x.link + 1 ≤ i := (List.mem_range'_1.1 hi).1
      rw [linesOn, linesOn, List.filter_cons_of_neg]
      rw [decide_eq_true_eq]
      omega
    have hhead : linesOn (x :: hd) x.link = x.line :: linesOn hd x.link := by
      rw [linesOn, List.filter_cons_of_pos (by rw [decide_eq_true_eq]), List.map_cons]
      rfl
    rw [hsplit, List.flatMap_append, hnone hx, List.nil_append, List.flatMap_cons] at hrest
    rw [hsplit, List.flatMap_append, hnone, List.nil_append, List.flatMap_cons, hhead, hbehind,
      List.cons_append, hrest, List.map_cons]
    intro y hy
    rcases List.mem_cons.1 hy with rfl | hy
    · exact Nat.le_refl _
    · exact hx y hy

/-- A line less its newline has none, where the device has none. -/
theorem newline_notMem_of_isLine (hdev : newline ∉ cfg.deviceId) {line : List UChar}
    (h : IsLine cfg line) : newline ∉ line.dropLast ∧ line.dropLast ++ [newline] = line := by
  obtain ⟨sample, rfl⟩ := h
  refine ⟨newline_notMem_dropLast hdev, ?_⟩
  have hlast : (uploaderBuildJson cfg.deviceId sample).getLast uploaderBuildJson_ne_nil = newline :=
    Option.some.inj
      ((List.getLast?_eq_some_getLast _).symm.trans getLast?_uploaderBuildJson)
  rw [← hlast, List.dropLast_append_getLast]

/-- **The complete lines of a connection** are those handed over on it. -/
theorem Laid.completeLines (h : Laid cfg s) (hdev : newline ∉ cfg.deviceId) {i : ℕ}
    {c : Link UChar} (hc : s.net[i]? = some c) :
    (Lines.cut newline c.written).1 = (linesOn s.handed i).map List.dropLast := by
  obtain ⟨part, hbytes, ⟨line, hline, hprefix, hne⟩, -⟩ := h.bytes i c hc
  have hwhole : ∀ line ∈ linesOn s.handed i, IsLine cfg line := by
    intro line hmem
    obtain ⟨x, hx, rfl⟩ := List.mem_map.1 hmem
    exact h.whole x (List.mem_of_mem_filter hx)
  have hjoin : (linesOn s.handed i).flatten =
      ((linesOn s.handed i).map List.dropLast).flatMap fun line => line ++ [newline] := by
    rw [List.flatMap_map, List.flatten_eq_flatMap]
    exact List.flatMap_congr fun line hmem =>
      ((newline_notMem_of_isLine hdev (hwhole line hmem)).2).symm
  have hpart : newline ∉ part := by
    obtain ⟨hnot, hline'⟩ := newline_notMem_of_isLine hdev hline
    rw [← hline'] at hprefix
    rcases List.prefix_concat_iff.1 hprefix with heq | hshort
    · exact absurd (heq.trans hline') hne
    · exact fun hmem => hnot (hshort.subset hmem)
  rw [hbytes, hjoin, Lines.cut_joined ?_ hpart]
  intro body hbody
  obtain ⟨line, hmem, rfl⟩ := List.mem_map.1 hbody
  exact (newline_notMem_of_isLine hdev (hwhole line hmem)).1

/-- **The complete lines of the connections are the lines handed over**,
one connection after another. -/
theorem Laid.flatMap_completeLines (h : Laid cfg s) (hdev : newline ∉ cfg.deviceId) :
    s.net.flatMap (fun c => (Lines.cut newline c.written).1) =
      s.handed.map fun x => x.line.dropLast := by
  have hlines : s.net.map (fun c => (Lines.cut newline c.written).1) =
      (List.range s.net.length).map fun i => (linesOn s.handed i).map List.dropLast := by
    refine List.ext_getElem? fun i => ?_
    rw [List.getElem?_map, List.getElem?_map]
    rcases Nat.lt_or_ge i s.net.length with hlt | hge
    · rw [List.getElem?_eq_getElem hlt, List.getElem?_range hlt]
      exact congrArg some (h.completeLines hdev (List.getElem?_eq_getElem hlt))
    · rw [List.getElem?_eq_none hge, List.getElem?_eq_none (by rwa [List.length_range])]
      rfl
  have hall := flatMap_linesOn h.sorted h.links
  rw [List.flatMap_def, hlines, ← List.flatMap_def, ← List.map_flatMap, hall, List.map_map]
  rfl

end Uploader

end WaterGateway
