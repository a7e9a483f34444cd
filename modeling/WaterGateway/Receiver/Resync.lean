import WaterGateway.Receiver.Lines

/-!
# Does the receiver resynchronise?

It should count what the gateway sends, skip any other line, and go on.
It does so exactly where no line ends it, and no object is counted that
lacks one of the gateway's members.
-/

namespace WaterGateway

namespace Receiver

open Json Lines Utf8

variable {lax : Bool} {py : Python} {c c' : Counters} {line : List (BitVec 8)} {ms : Members}
variable {conns : List (List Recv)}

/-! ## The counters after a run -/

/-- The counters have counted these messages, and those of the last
connection beside. -/
structure Counts (messages : List (List Recv) → List Members) (c : Counters)
    (conns : List (List Recv)) (c' : Counters) : Prop where
  counted : c'.counted = c.counted ++ messages conns
  totalCount : c'.totalCount = c.totalCount + (messages conns).length
  totalAlarms : c'.totalAlarms = c.totalAlarms + (messages conns).countP alarmed
  sessionCount : ∀ rs ∈ conns.getLast?, c'.sessionCount = (messages [rs]).length
  sessionAlarms : ∀ rs ∈ conns.getLast?, c'.sessionAlarms = (messages [rs]).countP alarmed

theorem counts_objects (c : Counters) (conns : List (List Recv)) :
    Counts (objects true) c conns (conns.foldl countSession c) := by
  induction conns using List.reverseRecOn with
  | nil => exact ⟨by simp [objects], by simp [objects], by simp [objects], by simp, by simp⟩
  | append_singleton conns rs ih =>
    have happend : objects true (conns ++ [rs]) = objects true conns ++ objects true [rs] := by
      rw [objects, List.flatMap_append, List.filterMap_append]
      rfl
    have hobjects : (completeLines rs).filterMap (objectOf true) = objects true [rs] := by
      rw [objects, List.flatMap_singleton]
    rw [List.foldl_append, List.foldl_cons, List.foldl_nil, countSession, countLines_eq, hobjects,
      foldl_countMessage]
    refine ⟨?_, ?_, ?_, ?_, ?_⟩
    · rw [ih.counted, happend, List.append_assoc]
    · rw [ih.totalCount, happend, List.length_append, Nat.add_assoc]
    · rw [ih.totalAlarms, happend, List.countP_append, Nat.add_assoc]
    · simp
    · simp

/-! ## Messages -/

/-- The members that the gateway writes. -/
def uploaderFields : List String :=
  ["device_id", "timestamp_ms", "ph", "temperature", "turbidity", "conductivity",
    "sensor_status", "alarm_status", "sequence"]

/-- The object has all of them. -/
def complete (ms : Members) : Bool :=
  uploaderFields.all fun name => (lookup (text name) ms).isSome

/-- A line that is a message of the gateway: a JSON object with its members,
in UTF-8, for a reader that is `lax` or keeps to the grammar. -/
def messageOf (lax : Bool) (line : List (BitVec 8)) : Option Members :=
  (objectOf lax line).filter complete

/-- The messages of some connections, in order. -/
def messages (lax : Bool) (conns : List (List Recv)) : List Members :=
  (conns.flatMap completeLines).filterMap (messageOf lax)

/-- **The receiver resynchronises**: it lives through the connections, and
has counted their messages and nothing else, in order. -/
def Resynchronises (lax : Bool) (py : Python) (c : Counters) (conns : List (List Recv)) : Prop :=
  ∃ c', receiver py c conns = .ok c' ∧ Counts (messages lax) c conns c'

/-- A line is blank; or UTF-8 that the JSON reader takes up and refuses; or
a message that can be printed. -/
def Harmless (lax : Bool) (py : Python) (line : List (BitVec 8)) : Prop :=
  blank line = true ∨ ∃ cps, decode line = some cps ∧ py.limits cps = none ∧
    (loads true cps = none ∨
      ∃ ms, loads lax cps = some (.obj ms) ∧ complete ms = true ∧ Printable py ms)

theorem objectOf_lax (h : objectOf lax line = some ms) : objectOf true line = some ms := by
  obtain ⟨cps, hdecode, hloads⟩ := objectOf_eq_some.1 h
  exact objectOf_eq_some.2 ⟨cps, hdecode, loads_lax hloads⟩

theorem messageOf_eq_some :
    messageOf lax line = some ms ↔ objectOf lax line = some ms ∧ complete ms = true := by
  rw [messageOf, Option.filter_eq_some_iff]

/-- A message is an object that the receiver counts. -/
theorem messageOf_eq_none_or (lax : Bool) (line : List (BitVec 8)) :
    messageOf lax line = none ∨ messageOf lax line = objectOf true line := by
  cases h : messageOf lax line with
  | none => exact Or.inl rfl
  | some ms => exact Or.inr (objectOf_lax (messageOf_eq_some.1 h).1).symm

theorem harmless_iff :
    Harmless lax py line ↔ Survives py line ∧ messageOf lax line = objectOf true line := by
  constructor
  · rintro (hblank | ⟨cps, hdecode, hlimits, hnone | ⟨ms, hloads, hcomplete, hprint⟩⟩)
    · have hmessage : messageOf lax line = none := by
        rw [messageOf, objectOf_blank hblank]
        rfl
      exact ⟨Or.inl hblank, by rw [hmessage, objectOf_blank hblank]⟩
    · have hobject : objectOf true line = none := by
        rw [objectOf, hdecode, Option.bind_some, hnone]
      refine ⟨Or.inr ⟨cps, hdecode, hlimits, Or.inl hnone⟩, ?_⟩
      rcases messageOf_eq_none_or lax line with h | h
      · rw [h, hobject]
      · exact h
    · have hobject : objectOf lax line = some ms := objectOf_eq_some.2 ⟨cps, hdecode, hloads⟩
      refine ⟨Or.inr ⟨cps, hdecode, hlimits, Or.inr ⟨ms, loads_lax hloads, hprint⟩⟩, ?_⟩
      rw [messageOf_eq_some.2 ⟨hobject, hcomplete⟩, objectOf_lax hobject]
  · rintro ⟨hblank | ⟨cps, hdecode, hlimits, hnone | ⟨ms, hloads, hprint⟩⟩, hmessage⟩
    · exact Or.inl hblank
    · exact Or.inr ⟨cps, hdecode, hlimits, Or.inl hnone⟩
    · -- the line is counted, so it is a message
      rw [objectOf_eq_some.2 ⟨cps, hdecode, hloads⟩] at hmessage
      obtain ⟨hobject, hcomplete⟩ := messageOf_eq_some.1 hmessage
      obtain ⟨cps', hdecode', hloads'⟩ := objectOf_eq_some.1 hobject
      obtain rfl : cps = cps' := Option.some.inj (hdecode.symm.trans hdecode')
      exact Or.inr ⟨cps, hdecode, hlimits, Or.inr ⟨ms, hloads', hcomplete, hprint⟩⟩

/-- A function that is defined on no more items than another, with the same
values there, and has as many values as the other is the other. -/
theorem eq_of_length_filterMap {α β : Type*} {f g : α → Option β} {l : List α}
    (hle : ∀ x ∈ l, f x = none ∨ f x = g x)
    (hlength : (l.filterMap g).length ≤ (l.filterMap f).length) : ∀ x ∈ l, f x = g x := by
  induction l with
  | nil => exact fun x hx => absurd hx List.not_mem_nil
  | cons x l ih =>
    obtain ⟨hx, hl⟩ := List.forall_mem_cons.1 hle
    have hfewer : (l.filterMap f).length ≤ (l.filterMap g).length := by
      rw [List.length_filterMap_eq_countP, List.length_filterMap_eq_countP]
      refine List.countP_mono_left fun y hy hf => ?_
      rcases hl y hy with hnone | heq
      · rw [hnone] at hf
        cases hf
      · rwa [← heq]
    rw [List.forall_mem_cons]
    rcases hx with hnone | heq
    · rw [List.filterMap_cons_none hnone] at hlength
      cases hg : g x with
      | none =>
        rw [List.filterMap_cons_none hg] at hlength
        exact ⟨hnone, ih hl hlength⟩
      | some b =>
        -- a value of `g` alone would make its list the longer one
        rw [List.filterMap_cons_some hg, List.length_cons] at hlength
        omega
    · cases hg : g x with
      | none =>
        rw [List.filterMap_cons_none hg, List.filterMap_cons_none (heq.trans hg)] at hlength
        exact ⟨heq.trans hg, ih hl hlength⟩
      | some b =>
        rw [List.filterMap_cons_some hg, List.filterMap_cons_some (heq.trans hg)] at hlength
        exact ⟨heq.trans hg, ih hl (Nat.le_of_succ_le_succ hlength)⟩

/-- Where every object that is counted is a message, the messages are
counted. -/
theorem counts_messages (h : ∀ line ∈ conns.flatMap completeLines,
    messageOf lax line = objectOf true line) :
    Counts (messages lax) c conns (conns.foldl countSession c) := by
  have hall : messages lax conns = objects true conns := List.filterMap_congr h
  have hlast : ∀ rs ∈ conns.getLast?, messages lax [rs] = objects true [rs] := by
    intro rs hrs
    refine List.filterMap_congr fun line hline => h line ?_
    rw [List.flatMap_singleton] at hline
    exact List.mem_flatMap.2 ⟨rs, List.mem_of_getLast? hrs, hline⟩
  have hcounts := counts_objects c conns
  refine ⟨?_, ?_, ?_, fun rs hrs => ?_, fun rs hrs => ?_⟩
  · rw [hall, hcounts.counted]
  · rw [hall, hcounts.totalCount]
  · rw [hall, hcounts.totalAlarms]
  · rw [hlast rs hrs, hcounts.sessionCount rs hrs]
  · rw [hlast rs hrs, hcounts.sessionAlarms rs hrs]

/-- Harmless lines let the receiver resynchronise. -/
theorem resynchronises_of_harmless
    (h : ∀ line ∈ conns.flatMap completeLines, Harmless lax py line) :
    Resynchronises lax py c conns := by
  simp only [harmless_iff] at h
  refine ⟨_, receiver_eq_ok.2 ⟨fun rs hrs line hline => ?_, rfl⟩,
    counts_messages fun line hline => (h line hline).2⟩
  exact (h line (List.mem_flatMap.2 ⟨rs, hrs, hline⟩)).1

/-- **The receiver resynchronises exactly when every line is harmless**,
whatever `recv()` returns and however many connections there are. -/
theorem resynchronises_iff (lax : Bool) (py : Python) (c : Counters) (conns : List (List Recv)) :
    Resynchronises lax py c conns ↔
      ∀ line ∈ conns.flatMap completeLines, Harmless lax py line := by
  refine ⟨?_, resynchronises_of_harmless⟩
  rintro ⟨c', hrun, hcounts⟩ line hline
  obtain ⟨hsurvives, rfl⟩ := receiver_eq_ok.1 hrun
  -- the messages are what the receiver has counted, and that is all objects
  have hsame : messages lax conns = objects true conns :=
    List.append_cancel_left (hcounts.counted.symm.trans (counts_objects c conns).counted)
  have hlength : (objects true conns).length ≤ (messages lax conns).length := by
    rw [hsame]
  obtain ⟨rs, hrs, hmem⟩ := List.mem_flatMap.1 hline
  exact harmless_iff.2 ⟨hsurvives rs hrs line hmem, eq_of_length_filterMap
    (fun line _ => messageOf_eq_none_or lax line) hlength line hline⟩

/-- An interpreter whose limits are not reached. -/
def ample : Python := ⟨fun _ => none, fun _ => true⟩

/-- A line that is not UTF-8, an array, and an object without members: each
of them ends the program. -/
theorem not_resynchronises :
    ¬ Resynchronises true ample ⟨0, 0, 0, 0, []⟩ [[.data [0xFF, newline]]] ∧
      ¬ Resynchronises true ample ⟨0, 0, 0, 0, []⟩ [[.data [0x5B, 0x5D, newline]]] ∧
      ¬ Resynchronises true ample ⟨0, 0, 0, 0, []⟩ [[.data [0x7B, 0x7D, newline]]] := by
  have hends : ∀ conns, (receiver ample ⟨0, 0, 0, 0, []⟩ conns).isOk = false →
      ¬ Resynchronises true ample ⟨0, 0, 0, 0, []⟩ conns := by
    rintro conns hfalse ⟨c', hrun, -⟩
    rw [hrun] at hfalse
    cases hfalse
  exact ⟨hends _ (by decide +kernel), hends _ (by decide +kernel), hends _ (by decide +kernel)⟩

end Receiver

end WaterGateway
