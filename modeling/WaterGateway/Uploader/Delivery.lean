import WaterGateway.Uploader.Order

/-!
# What a mark is worth

A row is marked when `send` has accepted its line. The line then stands in
one piece in the bytes of a connection, and the server gets it if the
connection delivers that far: there is no answer the uploader waits for,
and bytes in flight are lost when the connection breaks.
-/

namespace WaterGateway

namespace Uploader

variable {w : ℕ} {cfg : Config} {s s' : State w} {l : Label} {ls : List Label} {db₀ : Samples}

/-- **The rows of a step**: those that were there, with the same line, and
at most a new one that is not marked. -/
theorem rows_step (h : step cfg s l = some s') {k : ℕ} {b' : Record}
    (hb' : (k, b') ∈ s'.db.rows) :
    (∃ b, (k, b) ∈ s.db.rows ∧ lineOf cfg b' = lineOf cfg b) ∨
      (k = s.db.seq + 1 ∧ b'.uploaded = 0) := by
  obtain ⟨b, hb⟩ | ⟨hk, hclear, -⟩ := key_step h hb'
  · refine Or.inl ⟨b, hb, ?_⟩
    -- neither the flag nor the tries are part of the line
    obtain rfl | ⟨-, -, -, -, -, -, rfl⟩ | ⟨-, -, -, -, -, -, rfl⟩ := row_step h hb hb' <;> rfl
  · exact Or.inr ⟨hk, hclear⟩

/-- **The connections of a step**: the bytes on each only grow. -/
theorem net_step (h : step cfg s l = some s') {i : ℕ} {c : Link UChar}
    (hc : s.net[i]? = some c) :
    ∃ c' : Link UChar, s'.net[i]? = some c' ∧ c.written <+: c'.written := by
  have hset : ∀ (j : ℕ) (d d' : Link UChar), link? s = some (j, d) → d.written <+: d'.written →
      ∃ c' : Link UChar, (s.net.set j d')[i]? = some c' ∧ c.written <+: c'.written := by
    intro j d d' hlink hgrow
    obtain ⟨-, hd⟩ := link_eq_some.1 hlink
    rw [List.getElem?_set]
    split
    · next hij =>
      subst hij
      obtain rfl : d = c := Option.some.inj (hd.symm.trans hc)
      have hlt := (List.getElem?_eq_some_iff.1 hd).1
      exact ⟨d', if_pos hlt, hgrow⟩
    · exact ⟨c, hc, List.prefix_rfl⟩
  have hmodify : ∀ (j : ℕ) (f : Link UChar → Link UChar), (∀ d, (f d).written = d.written) →
      ∃ c' : Link UChar, (s.net.modify j f)[i]? = some c' ∧ c.written <+: c'.written := by
    intro j f hf
    rw [List.getElem?_modify, hc]
    refine ⟨_, rfl, ?_⟩
    split
    · exact hf c ▸ List.prefix_rfl
    · exact List.prefix_rfl
  cases moves_of_step h with
  | sendFailed r loop stmt sampleId line sent net hpc hr hnet =>
    obtain ⟨-, rfl⟩ | ⟨j, d, hlink, rfl⟩ := hnet
    · exact ⟨c, hc, List.prefix_rfl⟩
    · exact hset j d _ hlink List.prefix_rfl
  | sentSome r loop stmt sampleId line sent j d hpc hr hlink hopen hsent =>
    exact hset j d _ hlink (List.prefix_append _ _)
  | sentAll r loop stmt sampleId line sent j d hpc hr hlink hopen hsent =>
    exact hset j d _ hlink (List.prefix_append _ _)
  | connected hpc =>
    refine ⟨c, ?_, List.prefix_rfl⟩
    rw [List.getElem?_append_left (List.getElem?_eq_some_iff.1 hc).1]
    exact hc
  | delivered j n => exact hmodify j _ fun d => Link.written_deliver d n
  | reset j => exact hmodify j _ fun d => rfl
  | idle | queried | tested | skipped | fetched | marked | counted | connectFailed | shutdown
    | inserted | insertFailed | trimmed => exact ⟨c, hc, List.prefix_rfl⟩

/-- The record of what was handed over only grows. -/
theorem handed_step (h : step cfg s l = some s') : s.handed <+: s'.handed := by
  obtain hsame | ⟨-, stmt, -, line, -, i, -, -, -, hhanded⟩ := handed_before h
  · exact hsame ▸ List.prefix_rfl
  · rw [hhanded]
    exact List.prefix_append _ _

/-- A line handed over: it is the line of its row, and stands in one piece
on its connection. -/
structure Carried (cfg : Config) (s : State w) (h : Handover) : Prop where
  known : h.row ≤ s.db.seq
  line : ∀ b, (h.row, b) ∈ s.db.rows → h.line = lineOf cfg b
  bytes : ∃ (c : Link UChar) (before : List UChar), s.net[h.link]? = some c ∧
    before ++ h.line <+: c.written

theorem Carried.step {h : Handover} (hcar : Carried cfg s h) (hstep : step cfg s l = some s') :
    Carried cfg s' h where
  known := hcar.known.trans (seq_le_step hstep)
  line := by
    intro b' hb'
    obtain ⟨b, hb, hline⟩ | ⟨hnew, -⟩ := rows_step hstep hb'
    · rw [hline]
      exact hcar.line b hb
    · exact absurd (hnew ▸ hcar.known) (Nat.not_succ_le_self _)
  bytes := by
    obtain ⟨c, before, hc, hprefix⟩ := hcar.bytes
    obtain ⟨c', hc', hgrow⟩ := net_step hstep hc
    exact ⟨c', before, hc', hprefix.trans hgrow⟩

/-- **What the uploader has handed over**, and is handing over. -/
structure Carrying (cfg : Config) (db₀ : Samples) (s : State w) : Prop where
  aimed : Aimed s
  handed : ∀ h ∈ s.handed, Carried cfg s h
  line : ∀ loop stmt sampleId line sent, s.pc = .send loop stmt sampleId line sent →
    ∀ b, (stmt.last, b) ∈ s.db.rows → line = lineOf cfg b
  bytes : ∀ loop stmt sampleId line sent, s.pc = .send loop stmt sampleId line sent →
    ∀ i c, link? s = some (i, c) → ∃ before, c.written = before ++ line.take sent
  mark : ∀ loop stmt sampleId, s.pc = .mark loop stmt sampleId → ∃ h ∈ s.handed, h.row = stmt.last
  flagged : ∀ k b, (k, b) ∈ s.db.rows → b.uploaded = 1 →
    (∃ b₀, (k, b₀) ∈ db₀.rows ∧ b₀.uploaded = 1) ∨ ∃ h ∈ s.handed, Store.columnInt h.row = k

theorem carrying_init (db₀ : Samples) : Carrying cfg db₀ (init w db₀) where
  aimed := aimed_init db₀
  handed := fun _ hh => nomatch hh
  line := fun _ _ _ _ _ hpc => nomatch hpc
  bytes := fun _ _ _ _ _ hpc => nomatch hpc
  mark := fun _ _ _ hpc => nomatch hpc
  flagged := fun _ b hb hset => Or.inl ⟨b, hb, hset⟩

/-- A send that is accepted carries the line on. -/
theorem written_append_take {c : Link UChar} {before line : List UChar} {sent n : ℕ}
    (h : c.written = before ++ line.take sent) :
    (c.append ((line.drop sent).take n)).written = before ++ line.take (sent + n) := by
  rw [Link.written_append, h, List.append_assoc, ← List.take_add]

/-- The line being sent is that of the row in hand, also after a step. -/
theorem Carrying.line_step (h : Carrying cfg db₀ s) (hstep : step cfg s l = some s')
    {loop : Loop} {stmt : Stmt} {sampleId : ℤ} {line : List UChar} {sent : ℕ}
    (hpc : s'.pc = .send loop stmt sampleId line sent) {b : Record}
    (hb : (stmt.last, b) ∈ s'.db.rows) : line = lineOf cfg b := by
  obtain ⟨sent', hpc'⟩ | ⟨b₀, hb₀, rfl, hdb⟩ := send_before hstep hpc
  · obtain ⟨b₀, hb₀, hline⟩ | ⟨hnew, -⟩ := rows_step hstep hb
    · rw [hline]
      exact h.line loop stmt sampleId line sent' hpc' b₀ hb₀
    · obtain ⟨hle, -⟩ := h.aimed stmt sampleId (by rw [hpc']; rfl)
      exact absurd (hnew ▸ hle) (Nat.not_succ_le_self _)
  · rw [AutoTable.row_unique hb₀ (hdb ▸ hb)]

/-- What is on the connection ends with what has been sent of the line,
also after a step. -/
theorem Carrying.bytes_step (h : Carrying cfg db₀ s) (hstep : step cfg s l = some s')
    {loop : Loop} {stmt : Stmt} {sampleId : ℤ} {line : List UChar} {sent : ℕ}
    (hpc : s'.pc = .send loop stmt sampleId line sent) {i : ℕ} {c : Link UChar}
    (hlink : link? s' = some (i, c)) : ∃ before, c.written = before ++ line.take sent := by
  have hmodify : ∀ (j : ℕ) (f : Link UChar → Link UChar), (∀ d, (f d).written = d.written) →
      s'.net = s.net.modify j f → s'.sock = s.sock →
      s.pc = .send loop stmt sampleId line sent →
      ∃ before, c.written = before ++ line.take sent := by
    intro j f hf hnet hsock hpc'
    obtain ⟨hi, hc⟩ := link_eq_some.1 hlink
    rw [hnet, List.getElem?_modify] at hc
    obtain ⟨c₀, hc₀, rfl⟩ := Option.map_eq_some_iff.1 hc
    obtain ⟨before, hbefore⟩ := h.bytes loop stmt sampleId line sent hpc' i c₀
      (link_eq_some.2 ⟨hsock ▸ hi, hc₀⟩)
    refine ⟨before, ?_⟩
    split
    · rw [hf c₀, hbefore]
    · exact hbefore
  cases moves_of_step hstep with
  | idle l pc hl hs hidle =>
    rw [show pc = .send loop stmt sampleId line sent from hpc] at hidle
    cases hidle
  | fetched loop' stmt' hasData k b' hpc' hfetch hshort =>
    cases hpc
    exact ⟨c.written, (List.append_nil _).symm⟩
  | queried loop' | skipped loop' | marked a loop' => cases loop' <;> cases hpc
  | tested | counted | connected | connectFailed | sendFailed | sentAll => cases hpc
  | sentSome r loop' stmt' sampleId' line' sent' j d hpc' hr hlink' hopen hsent =>
    cases hpc
    obtain ⟨hj, hd⟩ := link_eq_some.1 hlink'
    obtain ⟨hi, hc⟩ := link_eq_some.1 hlink
    obtain rfl : j = i := Option.some.inj (hj.symm.trans hi)
    have hset : (s.net.set j (d.append ((line.drop sent').take r.toNat)))[j]? = some _ :=
      List.getElem?_set_self (List.getElem?_eq_some_iff.1 hd).1
    obtain rfl := Option.some.inj (hset.symm.trans hc)
    obtain ⟨before, hbefore⟩ := h.bytes loop stmt sampleId line sent' hpc' j d hlink'
    exact ⟨before, written_append_take hbefore⟩
  | shutdown | inserted | insertFailed | trimmed =>
    exact h.bytes loop stmt sampleId line sent hpc i c hlink
  | delivered j n => exact hmodify j _ (fun d => Link.written_deliver d n) rfl rfl hpc
  | reset j => exact hmodify j Link.reset (fun d => rfl) rfl rfl hpc

/-- What is handed over at a step is carried. -/
theorem Carrying.handed_step (h : Carrying cfg db₀ s) (hstep : step cfg s l = some s') :
    ∀ hd ∈ s'.handed, Carried cfg s' hd := by
  have hold : ∀ hd ∈ s.handed, Carried cfg s' hd := fun hd hhd => (h.handed hd hhd).step hstep
  cases moves_of_step hstep with
  | sentAll r loop stmt sampleId line sent i c hpc hr hlink hopen hsent =>
    intro hd hhd
    rcases List.mem_append.1 hhd with hhd | hhd
    · exact hold hd hhd
    · rw [List.mem_singleton.1 hhd]
      obtain ⟨hi, hc⟩ := link_eq_some.1 hlink
      obtain ⟨before, hbefore⟩ := h.bytes loop stmt sampleId line sent hpc i c hlink
      have hall : (c.append ((line.drop sent).take r.toNat)).written = before ++ line := by
        rw [written_append_take hbefore, hsent, List.take_length]
      refine ⟨(h.aimed stmt sampleId (by rw [hpc]; rfl)).1,
        h.line loop stmt sampleId line sent hpc, _, before,
        List.getElem?_set_self (List.getElem?_eq_some_iff.1 hc).1, ?_⟩
      exact hall ▸ List.prefix_rfl
  | idle | queried | tested | skipped | fetched | marked | counted | connected | connectFailed
    | sendFailed | sentSome | shutdown | inserted | insertFailed | trimmed | delivered | reset =>
    exact hold

/-- A row about to be marked has been handed over. -/
theorem Carrying.mark_step (h : Carrying cfg db₀ s) (hstep : step cfg s l = some s')
    {loop : Loop} {stmt : Stmt} {sampleId : ℤ} (hpc : s'.pc = .mark loop stmt sampleId) :
    ∃ hd ∈ s'.handed, hd.row = stmt.last := by
  obtain ⟨hpc', hl⟩ | ⟨r, i, line, -, hhanded⟩ := mark_before hstep hpc
  · obtain ⟨hd, hhd, hrow⟩ := h.mark loop stmt sampleId hpc'
    exact ⟨hd, (Uploader.handed_step hstep).subset hhd, hrow⟩
  · rw [hhanded]
    exact ⟨_, List.mem_append_right _ (List.mem_singleton.2 rfl), rfl⟩

theorem Carrying.step (h : Carrying cfg db₀ s) (hstep : step cfg s l = some s') :
    Carrying cfg db₀ s' where
  aimed := h.aimed.step hstep
  handed := h.handed_step hstep
  line := fun _ _ _ _ _ hpc _ hb => h.line_step hstep hpc hb
  bytes := fun _ _ _ _ _ hpc _ _ hlink => h.bytes_step hstep hpc hlink
  mark := fun _ _ _ hpc => h.mark_step hstep hpc
  flagged := by
    intro k b' hb' hset
    obtain ⟨b, hb, -⟩ | ⟨-, hclear⟩ := rows_step hstep hb'
    · by_cases hbefore : b.uploaded = 1
      · obtain hfirst | ⟨hd, hhd, hrow⟩ := h.flagged k b hb hbefore
        · exact Or.inl hfirst
        · exact Or.inr ⟨hd, (Uploader.handed_step hstep).subset hhd, hrow⟩
      · obtain ⟨loop, stmt, sampleId, hpc, hk⟩ := flag_step h.aimed hstep hb hb' hbefore hset
        obtain ⟨hd, hhd, hrow⟩ := h.mark loop stmt sampleId hpc
        exact Or.inr ⟨hd, (Uploader.handed_step hstep).subset hhd, hrow ▸ hk⟩
    · rw [hclear] at hset
      cases hset

/-! ## Runs -/

/-- **The line was accepted on one connection**, in one piece. -/
def Accepted (s : State w) (line : List UChar) : Prop :=
  ∃ (c : Link UChar) (before after : List UChar), c ∈ s.net ∧
    c.written = before ++ line ++ after

/-- A line handed over was accepted. -/
theorem Carried.accepted {h : Handover} (hcar : Carried cfg s h) : Accepted s h.line := by
  obtain ⟨c, before, hc, after, hafter⟩ := hcar.bytes
  exact ⟨c, before, after, List.mem_of_getElem? hc, hafter.symm⟩

/-- **A mark is worth a line that was accepted by `send`**: in every run,
whatever the connections do, a row the run has marked is the one that the
`int` of a sent row's `id` names, and the line of that row stands in the
bytes accepted on a connection; where all `id`s are `int`s, it is the line
of the row itself. -/
theorem flagged_line_accepted (h : Run.exec (step cfg) (init w db₀) ls = some s) {k : ℕ}
    {b : Record} (hb : (k, b) ∈ s.db.rows) (hset : b.uploaded = 1)
    (hclear : ∀ b₀, (k, b₀) ∈ db₀.rows → b₀.uploaded ≠ 1) :
    (∃ hd ∈ s.handed, Store.columnInt hd.row = k ∧ Accepted s hd.line ∧
      ∀ b', (hd.row, b') ∈ s.db.rows → hd.line = lineOf cfg b') ∧
    (s.db.seq < 2 ^ 31 → Accepted s (lineOf cfg b)) := by
  have hcarrying : Carrying cfg db₀ s := Run.exec_invariant (I := fun t => Carrying cfg db₀ t)
    (fun t l t' hI ht => hI.step ht) (carrying_init db₀) h
  obtain ⟨b₀, hb₀, hset₀⟩ | ⟨hd, hhd, hrow⟩ := hcarrying.flagged k b hb hset
  · exact absurd hset₀ (hclear b₀ hb₀)
  · have hcar : Carried cfg s hd := hcarrying.handed hd hhd
    refine ⟨⟨hd, hhd, hrow, hcar.accepted, hcar.line⟩, fun hids => ?_⟩
    rw [Store.columnInt_of_lt (Nat.lt_of_le_of_lt hcar.known hids)] at hrow
    obtain rfl : hd.row = k := by omega
    rw [← hcar.line b hb]
    exact hcar.accepted

/-- The first row is handed over, marked and delivered: the server has the
line, since its connection has delivered that far. -/
theorem flagged_line_accepted_delivered :
    ∃ s : State 32, Run.exec (step exampleConfig) (init 32 twoRows)
        (connectAndQuery ++ readOne ++ sendOne ++ [.deliver 0 1000]) = some s ∧
      Accepted s (lineOf exampleConfig { exampleRecord 1 with uploaded := 1 }) ∧
      ∃ c ∈ s.net, ∃ before,
        before ++ lineOf exampleConfig { exampleRecord 1 with uploaded := 1 } <+: c.got := by
  obtain ⟨s, h, hids, hb, hall⟩ := Run.exists_of_exec (step exampleConfig) (init 32 twoRows)
    (connectAndQuery ++ readOne ++ sendOne ++ [.deliver 0 1000])
    (fun s => s.db.seq < 2 ^ 31 ∧ (1, { exampleRecord 1 with uploaded := 1 }) ∈ s.db.rows ∧
      ∀ c ∈ s.net, c.received = c.written.length)
    (by decide +kernel)
  have haccepted : Accepted s (lineOf exampleConfig { exampleRecord 1 with uploaded := 1 }) := by
    refine (flagged_line_accepted h hb rfl ?_).2 hids
    intro b₀ hb₀
    have hnone : ∀ r ∈ twoRows.rows, r.2.uploaded ≠ 1 := by decide +kernel
    exact hnone _ hb₀
  obtain ⟨c, before, after, hc, hwritten⟩ := id haccepted
  have hprefix : before ++ lineOf exampleConfig { exampleRecord 1 with uploaded := 1 } <+:
      c.written := ⟨after, hwritten.symm⟩
  refine ⟨s, h, haccepted, c, hc, before, (Link.prefix_got_or_lt hprefix).resolve_right ?_⟩
  have hle := hprefix.length_le
  have heq := hall c hc
  omega

/-- **A marked row that no server has**: the connection breaks right after
the mark, before a byte of the line is delivered. -/
theorem mark_before_delivery :
    ∃ s : State 32, Run.exec (step exampleConfig) (init 32 twoRows)
        (connectAndQuery ++ readOne ++ sendOne ++ [.reset 0]) = some s ∧
      (1, { exampleRecord 1 with uploaded := 1 }) ∈ s.db.rows ∧ ∀ c ∈ s.net, c.got = [] := by
  obtain ⟨s, h, hflagged, hgot⟩ := Run.exists_of_exec (step exampleConfig) (init 32 twoRows)
    (connectAndQuery ++ readOne ++ sendOne ++ [.reset 0])
    (fun s => (1, { exampleRecord 1 with uploaded := 1 }) ∈ s.db.rows ∧ ∀ c ∈ s.net, c.got = [])
    (by decide +kernel)
  exact ⟨s, h, hflagged, hgot⟩

end Uploader

end WaterGateway
