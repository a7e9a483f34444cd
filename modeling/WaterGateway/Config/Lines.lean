import WaterGateway.Common.Lines
import WaterGateway.Config.Model

/-!
# The lines of the configuration

`fgets` cuts each line into pieces on its own, and leaves it whole if it
fits the buffer. What a piece does to the configuration is said by its
text: nothing, or the assignment of a value to a key.
-/

namespace WaterGateway

namespace Config

open Lines

variable {size : ℕ} {acc front line rest text before after : List UChar}
  {ls : List (List UChar)}

/-! ## The pieces of a line -/

/-- A newline ends a piece. -/
theorem fgetsFrom_append (size : ℕ) (acc front rest : List UChar) :
    fgetsFrom size acc (front ++ 10 :: rest) =
      fgetsFrom size acc (front ++ [10]) ++ fgetsFrom size [] rest := by
  induction front generalizing acc with
  | nil =>
    have hstop : (10 : UChar) = 10 ∨ acc.length + 2 = size := Or.inl rfl
    rw [List.nil_append, List.nil_append, fgetsFrom, if_pos hstop, fgetsFrom, if_pos hstop]
    rfl
  | cons c front ih =>
    rw [List.cons_append, List.cons_append, fgetsFrom, fgetsFrom]
    split
    · rw [ih, List.cons_append]
    · rw [ih]

/-- **The pieces of a file** are those of its lines. -/
theorem fgetsFrom_lines (size : ℕ) (file : List UChar) :
    fgetsFrom size [] file = (lines 10 file).flatMap (fgetsFrom size []) := by
  have hall : ∀ ls, AreLines 10 ls →
      fgetsFrom size [] ls.flatten = ls.flatMap (fgetsFrom size []) := by
    intro ls hls
    induction ls with
    | nil => rfl
    | cons line ls ih =>
      obtain ⟨hended, -⟩ := List.pairwise_cons.1 hls.ended
      have hrest := ih (hls.sublist (List.sublist_cons_self line ls))
      cases ls with
      | nil => simp
      | cons line' ls =>
        obtain ⟨front, rfl⟩ := hended line' List.mem_cons_self
        rw [List.flatten_cons, List.append_assoc, List.singleton_append, fgetsFrom_append, hrest]
        rfl
  conv_lhs => rw [← flatten_lines 10 file]
  exact hall _ (areLines_lines 10 file)

/-- A line that fits the buffer is one piece. -/
theorem fgetsFrom_of_short (hne : line ≠ []) (hinner : (10 : UChar) ∉ line.dropLast)
    (hshort : acc.length + line.length < size) : fgetsFrom size acc line = [acc ++ line] := by
  induction line generalizing acc with
  | nil => exact absurd rfl hne
  | cons c line ih =>
    have hroom : acc.length + (line.length + 1) < size := hshort
    rw [fgetsFrom]
    cases line with
    | nil =>
      split
      · rfl
      · rw [fgetsFrom, if_neg (List.append_ne_nil_of_right_ne_nil _ (List.cons_ne_nil _ _))]
    | cons d line =>
      have hinner' : (10 : UChar) ∉ (d :: line).dropLast ∧ c ≠ 10 := by
        rw [List.dropLast_cons_of_ne_nil (List.cons_ne_nil d line), List.mem_cons, not_or] at hinner
        exact ⟨hinner.2, Ne.symm hinner.1⟩
      have hgo : ¬ (c = 10 ∨ acc.length + 2 = size) := by
        rw [List.length_cons] at hroom
        rintro (heq | hfull)
        · exact hinner'.2 heq
        · omega
      rw [if_neg hgo, ih (List.cons_ne_nil d line) hinner'.1, List.append_assoc,
        List.singleton_append]
      rw [List.length_append, List.length_singleton]
      omega

/-- All lines, their newlines included, fit the buffer. -/
def ShortLines (file : List UChar) : Prop := ∀ line ∈ lines 10 file, line.length ≤ 255

theorem fgetsFrom_line {file : List UChar} (h : ShortLines file) (hline : line ∈ lines 10 file) :
    fgetsFrom lineSize [] line = [line] := by
  obtain ⟨hne, hinner⟩ := (areLines_lines 10 file).line line hline
  refine fgetsFrom_of_short hne hinner ?_
  have hle := h line hline
  rw [List.length_nil, lineSize]
  omega

theorem fgetsFrom_of_shortLines {file : List UChar} (h : ShortLines file) :
    fgetsFrom lineSize [] file = lines 10 file := by
  rw [fgetsFrom_lines, List.flatMap_congr fun line hline => fgetsFrom_line h hline]
  exact List.flatMap_singleton' _

/-! ## Trimming -/

/-- What is dropped from the front stops at a byte that is kept. -/
theorem dropWhile_append_cons {p : UChar → Bool} {c : UChar} (h : p c = false)
    (l l' : List UChar) : (l ++ c :: l').dropWhile p = l.dropWhile p ++ c :: l' := by
  rw [List.dropWhile_append]
  split
  · next hnil =>
    rw [List.isEmpty_iff.1 hnil, List.dropWhile_cons_of_neg (by simp [h])]
    rfl
  · rfl

theorem rdropWhile_append_cons {p : UChar → Bool} {c : UChar} (h : p c = false)
    (l l' : List UChar) : (l ++ c :: l').rdropWhile p = l ++ c :: l'.rdropWhile p := by
  rw [List.rdropWhile, List.reverse_append, List.reverse_cons, List.append_assoc,
    List.singleton_append, dropWhile_append_cons h]
  simp [List.rdropWhile]

/-- A text with an equals sign is trimmed on both sides of it. -/
theorem trim_append_equal (before after : List UChar) :
    trim (before ++ 61 :: after) = before.dropWhile isspace ++ 61 :: after.rdropWhile isspace := by
  have hequal : isspace 61 = false := rfl
  rw [trim, dropWhile_append_cons hequal, rdropWhile_append_cons hequal]

/-- Blanks at the end are trimmed. -/
theorem trim_append_blank {blank : List UChar} (h : ∀ c ∈ blank, isspace c = true)
    (str : List UChar) : trim (str ++ blank) = trim str := by
  have hright : ∀ l : List UChar, (l ++ blank).rdropWhile isspace = l.rdropWhile isspace := by
    intro l
    rw [List.rdropWhile, List.reverse_append,
      List.dropWhile_append_of_pos fun c hc => h c (List.mem_reverse.1 hc), List.rdropWhile]
  unfold trim
  rw [List.dropWhile_append]
  split
  · next hnil =>
    rw [List.isEmpty_iff.1 hnil, List.dropWhile_eq_nil_iff.2 h]
  · exact hright _

/-- Blanks at the front are trimmed. -/
theorem trim_blank_append {blank : List UChar} (h : ∀ c ∈ blank, isspace c = true)
    (str : List UChar) : trim (blank ++ str) = trim str := by
  rw [trim, List.dropWhile_append_of_pos h, trim]

theorem trim_dropWhile (str : List UChar) : trim (str.dropWhile isspace) = trim str := by
  rw [trim, List.dropWhile_idempotent, trim]

theorem trim_rdropWhile (str : List UChar) : trim (str.rdropWhile isspace) = trim str := by
  have hblank : ∀ c ∈ str.rtakeWhile isspace, isspace c = true :=
    fun c hc => List.mem_rtakeWhile_imp hc
  rw [← trim_append_blank hblank, List.rdropWhile_append_rtakeWhile]

/-- `strchr` finds the first one. -/
theorem strchr_eq_some {c : UChar} :
    strchr c text = some (before, after) ↔ text = before ++ c :: after ∧ c ∉ before := by
  unfold strchr
  constructor
  · intro h
    split at h
    · cases h
    · next b rest hdrop =>
      cases h
      have hb : b = c := by
        have hstop := List.head?_dropWhile_not (fun b => decide (b ≠ c)) text
        rw [hdrop] at hstop
        simpa using hstop
      subst hb
      refine ⟨?_, fun hmem => by simpa using List.mem_takeWhile_imp hmem⟩
      rw [← hdrop, List.takeWhile_append_dropWhile]
  · rintro ⟨rfl, hnot⟩
    have hpos : ∀ b ∈ before, decide (b ≠ c) = true := fun b hb =>
      decide_eq_true fun heq => hnot (heq ▸ hb)
    rw [List.dropWhile_append_of_pos hpos, List.takeWhile_append_of_pos hpos]
    simp

theorem strchr_eq_none {c : UChar} : strchr c text = none ↔ c ∉ text := by
  unfold strchr
  constructor
  · intro h hmem
    split at h
    · next hnil =>
      have hall := List.dropWhile_eq_nil_iff.1 hnil c hmem
      simp at hall
    · cases h
  · intro hnot
    have hnil : text.dropWhile (fun b => b ≠ c) = [] := List.dropWhile_eq_nil_iff.2 fun b hb =>
      decide_eq_true fun heq => hnot (heq ▸ hb)
    rw [hnil]

/-- What is found is found, whatever follows. -/
theorem strchr_append {c : UChar} (h : strchr c text = some (before, after))
    (rest : List UChar) : strchr c (text ++ rest) = some (before, after ++ rest) := by
  obtain ⟨rfl, hbefore⟩ := strchr_eq_some.1 h
  exact strchr_eq_some.2 ⟨by rw [List.append_assoc, List.cons_append], hbefore⟩

/-! ## The assignment of a text -/

/-- A comment: the first byte that is not blank is `#` or `;`. -/
def isComment (text : List UChar) : Bool :=
  match text.dropWhile isspace with
  | [] => false
  | c :: _ => c = 35 ∨ c = 59

/-- **The assignment a text stands for**: it is no comment, and what stands
before its first equals sign is a key. -/
def assignment (text : List UChar) : Option (Key × List UChar) :=
  if isComment text then none
  else (strchr 61 text).bind fun p => (keyOf (trim p.1)).map fun k => (k, trim p.2)

/-- A text that assigns a key has it before its first equals sign. -/
theorem exists_of_assignment {a : Key × List UChar} (h : assignment text = some a) :
    ∃ before after, strchr 61 text = some (before, after) ∧ keyOf (trim before) = some a.1 ∧
      trim after = a.2 := by
  unfold assignment at h
  split at h
  · cases h
  · obtain ⟨⟨before, after⟩, hchr, hkey⟩ := Option.bind_eq_some_iff.1 h
    obtain ⟨k, hk, rfl⟩ := Option.map_eq_some_iff.1 hkey
    exact ⟨before, after, hchr, hk, rfl⟩

/-- What an assignment does. -/
def perform (atoi : List UChar → UInt) (cfg : GatewayConfig) (a : Key × List UChar) :
    GatewayConfig := assign atoi cfg a.2 a.1

/-- The first byte that is not blank is not trimmed. -/
theorem isComment_eq_of_trim {c : UChar} {rest : List UChar} (h : trim text = c :: rest) :
    isComment text = decide (c = 35 ∨ c = 59) := by
  obtain ⟨blank, hblank⟩ := List.rdropWhile_prefix isspace (text.dropWhile isspace)
  have hfront : text.dropWhile isspace = c :: (rest ++ blank) := by
    rw [← hblank, ← trim, h, List.cons_append]
  rw [isComment, hfront]

/-- **A piece performs the assignment its text stands for**, or nothing. -/
theorem loadLine_eq (atoi : List UChar → UInt) (cfg : GatewayConfig) (line : List UChar) :
    loadLine atoi cfg line = (assignment (cString line)).elim cfg fun a => perform atoi cfg a := by
  unfold loadLine assignment
  generalize cString line = text
  cases hchr : strchr 61 text with
  | none =>
    -- without an equals sign nothing is assigned, whatever the text is
    have hnone : strchr 61 (trim text) = none :=
      strchr_eq_none.2 fun hmem => strchr_eq_none.1 hchr (trim_subset text hmem)
    rw [Option.bind_none, ite_self, Option.elim_none]
    split
    · rfl
    · next c key hkey =>
      rw [← hkey, hnone]
      split <;> rfl
  | some p =>
    obtain ⟨before, after⟩ := p
    obtain ⟨htext, hbefore⟩ := strchr_eq_some.1 hchr
    have htrim : trim text = before.dropWhile isspace ++ 61 :: after.rdropWhile isspace := by
      rw [htext, trim_append_equal]
    have hchr' : strchr 61 (trim text) =
        some (before.dropWhile isspace, after.rdropWhile isspace) :=
      strchr_eq_some.2 ⟨htrim, fun hmem => hbefore ((List.dropWhile_sublist _).subset hmem)⟩
    rw [Option.bind_some]
    split
    · next hnil =>
      rw [htrim] at hnil
      exact absurd hnil (List.append_ne_nil_of_right_ne_nil _ (List.cons_ne_nil _ _))
    · next c key hkey =>
      rw [isComment_eq_of_trim hkey, ← hkey, hchr']
      by_cases hcomment : c = 35 ∨ c = 59
      · rw [if_pos hcomment, if_pos (decide_eq_true hcomment), Option.elim_none]
      · rw [if_neg hcomment, if_neg (by simpa using hcomment)]
        dsimp only
        rw [trim_dropWhile, trim_rdropWhile]
        cases keyOf (trim before) with
        | none => rfl
        | some k => rfl

/-! ## The assignments of a line -/

/-- The assignments a line performs, piece by piece. -/
def readings (line : List UChar) : List (Key × List UChar) :=
  (fgetsFrom lineSize [] line).filterMap fun piece => assignment (cString piece)

theorem flatMap_readings (file : List UChar) : (lines 10 file).flatMap readings =
    (fgetsFrom lineSize [] file).filterMap fun piece => assignment (cString piece) := by
  rw [fgetsFrom_lines, List.filterMap_flatMap]
  rfl

/-- **The loop performs the assignments of the lines.** -/
theorem foldl_loadLine (atoi : List UChar → UInt) (cfg : GatewayConfig) (file : List UChar) :
    (fgetsFrom lineSize [] file).foldl (loadLine atoi) cfg =
      ((lines 10 file).flatMap readings).foldl (perform atoi) cfg := by
  rw [flatMap_readings, List.foldl_filterMap]
  congr 1
  funext cfg piece
  rw [loadLine_eq]
  cases assignment (cString piece) <;> rfl

end Config

end WaterGateway
