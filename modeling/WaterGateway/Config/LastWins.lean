import WaterGateway.Config.Keys

/-!
# The last assignment wins

A file whose lines all fit the buffer is read line by line. For each key
only the last line that assigns it counts, so the order of the lines of
different keys does not, nor do the lines that assign nothing.
-/

namespace WaterGateway

namespace Config

open Lines LastWrite

variable {file line : List UChar} {k : Key} {size : ℕ}

/-- A line that assigns a key. -/
def assigns (k : Key) (line : List UChar) : Bool :=
  (assignment (cString line)).any fun a => a.1 = k

/-- A line without its newline. -/
def chomp (line : List UChar) : List UChar := line.rdropWhile fun c => c = 10

/-- The last line that assigns a key, without its newline. -/
def lastLine (k : Key) (file : List UChar) : Option (List UChar) :=
  (((lines 10 file).filter (assigns k)).getLast?).map chomp

/-- The trimmed text behind the first equals sign of a line. -/
def valueOf (line : List UChar) : List UChar :=
  match strchr 61 (cString line) with
  | none => []
  | some (_, after) => trim after

/-- A line without effect: it is blank, a comment, has no equals sign, or
an unknown key stands before it. -/
def Inert (line : List UChar) : Prop :=
  trim (cString line) = [] ∨ isComment (cString line) = true ∨ (61 : UChar) ∉ cString line ∨
    ∃ before after, strchr 61 (cString line) = some (before, after) ∧ keyOf (trim before) = none

/-- The lines of a file, each with the key it assigns. -/
def keyed (file : List UChar) : List (List UChar × Option Key) :=
  (lines 10 file).map fun line => (chomp line, (assignment (cString line)).map Prod.fst)

/-- The last lines of all keys, from one reading of the lines. -/
theorem lastLine_of_keyed (k : Key) (file : List UChar) :
    lastLine k file = ((keyed file).filter fun p => p.2 = some k).getLast?.map Prod.fst := by
  have hassigns : ∀ line, assigns k line =
      decide ((assignment (cString line)).map Prod.fst = some k) := by
    intro line
    unfold assigns
    cases assignment (cString line) <;> simp
  rw [keyed, List.filter_map, List.getLast?_map, Option.map_map, lastLine]
  simp [Function.comp_def, funext hassigns]

/-- A string ends in the buffer, or goes on with what follows. -/
theorem cString_append (line rest : List UChar) : cString (line ++ rest) = cString line ∨
    (cString line = line ∧ cString (line ++ rest) = line ++ cString rest) := by
  unfold cString
  rw [List.takeWhile_append]
  split
  · next hall => exact Or.inr ⟨(List.takeWhile_prefix _).eq_of_length hall, rfl⟩
  · exact Or.inl rfl

/-- Blanks at the end of a line are not part of its value. -/
theorem valueOf_append_blank {blank : List UChar} (h : ∀ c ∈ blank, isspace c = true)
    (line : List UChar) : valueOf (line ++ blank) = valueOf line := by
  have hblank : ∀ c ∈ cString blank, isspace c = true := fun c hc =>
    h c ((List.takeWhile_prefix _).subset hc)
  unfold valueOf
  obtain heq | ⟨hline, heq⟩ := cString_append line blank
  · rw [heq]
  · rw [heq, hline]
    cases hchr : strchr 61 line with
    | none =>
      have hnone : (61 : UChar) ∉ line ++ cString blank := by
        rw [List.mem_append, not_or]
        exact ⟨strchr_eq_none.1 hchr, fun hmem => absurd (hblank 61 hmem) Bool.false_ne_true⟩
      rw [strchr_eq_none.2 hnone]
    | some p =>
      rw [strchr_append hchr]
      exact trim_append_blank hblank p.2

theorem valueOf_chomp (line : List UChar) : valueOf (chomp line) = valueOf line := by
  have hnewline : ∀ c ∈ line.rtakeWhile (fun c => decide (c = 10)), isspace c = true := by
    intro c hc
    obtain rfl : c = 10 := by simpa using List.mem_rtakeWhile_imp hc
    rfl
  rw [chomp, ← valueOf_append_blank hnewline, List.rdropWhile_append_rtakeWhile]

/-- A line that assigns a key stores its value there. -/
theorem value_of_assigns (h : assigns k line = true) :
    (assignment (cString line)).map Prod.snd = some (valueOf line) := by
  obtain ⟨a, ha, -⟩ := (Option.any_eq_true _ _).1 h
  obtain ⟨before, after, hchr, -, hvalue⟩ := exists_of_assignment ha
  rw [ha, valueOf, hchr, Option.map_some, ← hvalue]

theorem assignment_of_inert (h : Inert line) : assignment (cString line) = none := by
  unfold assignment
  split
  · rfl
  · next hcomment =>
    rcases h with hblank | hcom | hequal | ⟨before, after, hchr, hkey⟩
    · -- a text with an equals sign is not trimmed to nothing
      have hnone : strchr 61 (cString line) = none := strchr_eq_none.2 fun hmem => by
        obtain ⟨before, after, heq⟩ := List.append_of_mem hmem
        rw [heq, trim_append_equal] at hblank
        exact List.append_ne_nil_of_right_ne_nil _ (List.cons_ne_nil _ _) hblank
      rw [hnone, Option.bind_none]
    · exact absurd hcom hcomment
    · rw [strchr_eq_none.2 hequal, Option.bind_none]
    · rw [hchr, Option.bind_some, hkey, Option.map_none]

/-- The assignments of a file of short lines are those of its lines. -/
theorem readings_of_shortLines (h : ShortLines file) : (lines 10 file).flatMap readings =
    (lines 10 file).filterMap fun line => assignment (cString line) := by
  rw [flatMap_readings, fgetsFrom_of_shortLines h]

/-- **The last line that assigns a key** gives it its value. -/
theorem lastValue_of_shortLines (h : ShortLines file) (k : Key) :
    lastValue k ((lines 10 file).flatMap readings) = (lastLine k file).map valueOf := by
  rw [readings_of_shortLines h, lastValue_filterMap, lastLine, Option.map_map]
  change ((lines 10 file).filter (assigns k)).getLast?.bind _ = _
  cases hlast : ((lines 10 file).filter (assigns k)).getLast? with
  | none => rfl
  | some line =>
    have hassigns : assigns k line = true :=
      (List.mem_filter.1 (List.mem_of_getLast? hlast)).2
    rw [Option.bind_some, Option.map_some, value_of_assigns hassigns, Function.comp_apply,
      valueOf_chomp]

/-- What a file of short lines makes of a key. -/
theorem get_of_shortLines (atoi : List UChar → UInt) (h : ShortLines file) (k : Key) :
    k.get (configLoad atoi (some file)).1 =
      repair k (((lastLine k file).map valueOf).elim (k.get configSetDefault) (stored atoi k)) := by
  rw [get_configLoad, setting, lastValue_of_shortLines h]

/-- The checks leave the strings as they are. -/
theorem repair_of_size (h : k.size = some size) (setting : Setting) :
    repair k setting = setting := by
  cases k with
  | samplePeriodMs | baudrate | modbusSlaveAddr | maxCacheCount => cases h
  | _ => rfl

theorem stored_of_size (atoi : List UChar → UInt) (h : k.size = some size) (value : List UChar) :
    stored atoi k value = .string (copyString size value) := by
  rw [stored, h]

/-- Lines may be left out of a file of short lines. -/
theorem shortLines_flatten {ls : List (List UChar)} (h : ShortLines file)
    (hsub : ls.Sublist (lines 10 file)) : lines 10 ls.flatten = ls ∧ ShortLines ls.flatten := by
  have hlines : lines 10 ls.flatten = ls := lines_flatten ((areLines_lines 10 file).sublist hsub)
  refine ⟨hlines, fun line hline => ?_⟩
  rw [hlines] at hline
  exact h line (hsub.subset hline)

/-- **A line without effect** may be left out. -/
theorem configLoad_of_inert (atoi : List UChar → UInt) {ls ls' : List (List UChar)}
    (h : ShortLines file) (hlines : lines 10 file = ls ++ line :: ls') (hinert : Inert line) :
    configLoad atoi (some (ls ++ ls').flatten) = configLoad atoi (some file) := by
  have hsub : (ls ++ ls').Sublist (lines 10 file) := by
    rw [hlines]
    exact (List.sublist_cons_self line ls').append_left ls
  obtain ⟨hleft, hshort⟩ := shortLines_flatten h hsub
  refine configLoad_eq_iff.2 fun k => ?_
  rw [readings_of_shortLines hshort, readings_of_shortLines h, hleft, hlines,
    List.filterMap_append, List.filterMap_append, List.filterMap_cons,
    assignment_of_inert hinert]

/-- **The last assignment wins.** Two files of short lines that have the same
last line for each key give the same configuration. A string is the value
of its last line, cut to its field; a key that no line assigns has its
default; and a line without effect may be left out. -/
theorem last_wins (atoi : List UChar → UInt) {file file' : List UChar} (h : ShortLines file)
    (h' : ShortLines file') (hlast : ∀ k, lastLine k file = lastLine k file') :
    configLoad atoi (some file) = configLoad atoi (some file') ∧
      (∀ k size line, k.size = some size → lastLine k file = some line →
        k.get (configLoad atoi (some file)).1 = .string ((valueOf line).take (size - 1))) ∧
      (∀ k, lastLine k file = none →
        k.get (configLoad atoi (some file)).1 = k.get configSetDefault) ∧
      ∀ ls line ls', lines 10 file = ls ++ line :: ls' → Inert line →
        configLoad atoi (some (ls ++ ls').flatten) = configLoad atoi (some file) := by
  refine ⟨Prod.ext (ext_get fun k => ?_) rfl, fun k size line hsize hline => ?_,
    fun k hnone => ?_, fun ls line ls' hlines hinert => configLoad_of_inert atoi h hlines hinert⟩
  · rw [get_of_shortLines atoi h, get_of_shortLines atoi h', hlast k]
  · rw [get_of_shortLines atoi h, hline, Option.map_some, Option.elim_some,
      stored_of_size atoi hsize, repair_of_size hsize]
    rfl
  · rw [get_configLoad, setting_of_none]
    rw [lastValue_of_shortLines h, hnone, Option.map_none]

/-- Two files that give two keys in either order. -/
theorem last_wins_two :
    configLoad (fun _ => 0) (some (bytes "device_id=a\nlog_level = b c\n\ndevice_id=d\n")) =
        configLoad (fun _ => 0) (some (bytes "# e\ndevice_id=d\nlog_level = b c")) ∧
      Key.logLevel.get (configLoad (fun _ => 0)
        (some (bytes "device_id=a\nlog_level = b c\n\ndevice_id=d\n"))).1 =
          .string (bytes "b c") := by
  have hshort : ShortLines (bytes "device_id=a\nlog_level = b c\n\ndevice_id=d\n") := by
    unfold ShortLines
    decide +kernel
  have hshort' : ShortLines (bytes "# e\ndevice_id=d\nlog_level = b c") := by
    unfold ShortLines
    decide +kernel
  have hkeyed : keyed (bytes "device_id=a\nlog_level = b c\n\ndevice_id=d\n") =
      [(bytes "device_id=a", some .deviceId), (bytes "log_level = b c", some .logLevel),
        ([], none), (bytes "device_id=d", some .deviceId)] := by
    decide +kernel
  have hkeyed' : keyed (bytes "# e\ndevice_id=d\nlog_level = b c") =
      [(bytes "# e", none), (bytes "device_id=d", some .deviceId),
        (bytes "log_level = b c", some .logLevel)] := by
    decide +kernel
  have hlast : ∀ k, lastLine k (bytes "device_id=a\nlog_level = b c\n\ndevice_id=d\n") =
      lastLine k (bytes "# e\ndevice_id=d\nlog_level = b c") := by
    intro k
    rw [lastLine_of_keyed, lastLine_of_keyed, hkeyed, hkeyed']
    cases k <;> simp
  obtain ⟨heq, hstring, -⟩ := last_wins (fun _ => 0) hshort hshort' hlast
  refine ⟨heq, ?_⟩
  rw [hstring .logLevel 16 (bytes "log_level = b c") rfl (by decide +kernel)]
  decide +kernel

end Config

end WaterGateway
