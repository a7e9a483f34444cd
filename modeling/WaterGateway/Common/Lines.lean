import Mathlib.Data.List.Basic
import Mathlib.Data.List.Pairwise

/-!
# The lines of a text

A text cut behind each separator. A line keeps its separator, so the lines
of a text make the text again, and a list of lines is that of its text
(`lines_flatten`). Only the last line may do without one.
-/

namespace WaterGateway

namespace Lines

variable {α : Type*} [DecidableEq α] {sep : α} {line text : List α} {ls ls' : List (List α)}

/-- The lines of a text. -/
def lines (sep : α) : List α → List (List α)
  | [] => []
  | c :: text =>
    if c = sep then [c] :: lines sep text
    else
      match lines sep text with
      | [] => [[c]]
      | line :: ls => (c :: line) :: ls

/-- A line: it is not empty, and has no separator but at its end. -/
structure IsLine (sep : α) (line : List α) : Prop where
  ne_nil : line ≠ []
  inner : sep ∉ line.dropLast

/-- A line that has its separator. -/
def Ended (sep : α) (line : List α) : Prop := ∃ front, line = front ++ [sep]

/-- **The lines of some text**: each but the last has its separator. -/
structure AreLines (sep : α) (ls : List (List α)) : Prop where
  line : ∀ line ∈ ls, IsLine sep line
  ended : ls.Pairwise fun line _ => Ended sep line

omit [DecidableEq α] in
theorem AreLines.sublist (h : AreLines sep ls) (hsub : ls'.Sublist ls) : AreLines sep ls' where
  line := fun line hline => h.line line (hsub.subset hline)
  ended := h.ended.sublist hsub

omit [DecidableEq α] in
/-- A line without its separator is the last. -/
theorem AreLines.eq_concat (h : AreLines sep ls) (hmem : line ∈ ls) (hend : ¬ Ended sep line) :
    ∃ front, ls = front ++ [line] := by
  obtain ⟨front, back, rfl⟩ := List.append_of_mem hmem
  cases back with
  | nil => exact ⟨front, rfl⟩
  | cons next back =>
    have hpair := List.pairwise_cons.1 (List.pairwise_append.1 h.ended).2.1
    exact absurd (hpair.1 next List.mem_cons_self) hend

/-- A line with its separator stands before the lines of the rest. -/
theorem lines_ended_append (h : sep ∉ line) (text : List α) :
    lines sep (line ++ sep :: text) = (line ++ [sep]) :: lines sep text := by
  induction line with
  | nil => rw [List.nil_append, lines, if_pos rfl, List.nil_append]
  | cons c line ih =>
    obtain ⟨hc, hline⟩ := not_or.1 (fun hmem => h (List.mem_cons.2 hmem))
    rw [List.cons_append, lines, if_neg (Ne.symm hc), ih hline]
    rfl

/-- A text without a separator is one line. -/
theorem lines_of_notMem (hne : text ≠ []) (h : sep ∉ text) : lines sep text = [text] := by
  induction text with
  | nil => exact absurd rfl hne
  | cons c text ih =>
    obtain ⟨hc, htext⟩ := not_or.1 (fun hmem => h (List.mem_cons.2 hmem))
    rw [lines, if_neg (Ne.symm hc)]
    cases text with
    | nil => rfl
    | cons d text => rw [ih (List.cons_ne_nil d text) htext]

omit [DecidableEq α] in
theorem IsLine.notMem_front {front : List α} (h : IsLine sep (front ++ [sep])) : sep ∉ front := by
  have hinner := h.inner
  rwa [List.dropLast_concat] at hinner

/-- **The lines of the text that some lines make are these lines.** -/
theorem lines_flatten (h : AreLines sep ls) : lines sep ls.flatten = ls := by
  induction ls with
  | nil => rfl
  | cons line ls ih =>
    obtain ⟨hended, hrest⟩ := List.pairwise_cons.1 h.ended
    have hline : IsLine sep line := h.line line List.mem_cons_self
    have hls : lines sep ls.flatten = ls :=
      ih ⟨fun line' hmem => h.line line' (List.mem_cons_of_mem _ hmem), hrest⟩
    by_cases hend : Ended sep line
    · obtain ⟨front, rfl⟩ := hend
      rw [List.flatten_cons, List.append_assoc, List.singleton_append,
        lines_ended_append hline.notMem_front, hls]
    · -- a line without its separator is the last
      have hnil : ls = [] := List.eq_nil_iff_forall_not_mem.2 fun line' hmem =>
        hend (hended line' hmem)
      have hnone : sep ∉ line := by
        intro hmem
        rw [← List.dropLast_append_getLast hline.ne_nil, List.mem_append,
          List.mem_singleton] at hmem
        rcases hmem with hmem | heq
        · exact hline.inner hmem
        · exact hend ⟨line.dropLast, by rw [heq, List.dropLast_append_getLast]⟩
      rw [hnil, List.flatten_cons, List.flatten_nil, List.append_nil,
        lines_of_notMem hline.ne_nil hnone]

/-- **A text is made of its lines.** -/
theorem flatten_lines (sep : α) (text : List α) : (lines sep text).flatten = text := by
  induction text with
  | nil => rfl
  | cons c text ih =>
    unfold lines
    split
    · rw [List.flatten_cons, ih, List.singleton_append]
    · split
      · next hnil =>
        rw [hnil] at ih
        rw [← ih]
        rfl
      · next line ls hcons =>
        rw [hcons, List.flatten_cons] at ih
        rw [List.flatten_cons, List.cons_append, ih]

theorem areLines_lines (sep : α) (text : List α) : AreLines sep (lines sep text) := by
  induction text with
  | nil => exact ⟨fun _ hmem => (nomatch hmem), List.Pairwise.nil⟩
  | cons c text ih =>
    obtain ⟨hlines, hended⟩ := ih
    unfold lines
    split
    · next hc =>
      subst hc
      refine ⟨fun line hmem => ?_, List.pairwise_cons.2 ⟨fun _ _ => ⟨[], rfl⟩, hended⟩⟩
      rcases List.mem_cons.1 hmem with rfl | hmem
      · exact ⟨List.cons_ne_nil _ _, List.not_mem_nil⟩
      · exact hlines line hmem
    · next hc =>
      split
      · next hnil =>
        refine ⟨fun line hmem => ?_, List.pairwise_singleton _ _⟩
        rw [List.mem_singleton.1 hmem]
        exact ⟨List.cons_ne_nil _ _, List.not_mem_nil⟩
      · next line ls hcons =>
        rw [hcons] at hlines hended
        obtain ⟨hhead, htail⟩ := List.pairwise_cons.1 hended
        have hline : IsLine sep line := hlines line List.mem_cons_self
        refine ⟨fun line' hmem => ?_, List.pairwise_cons.2 ⟨fun line' hmem => ?_, htail⟩⟩
        · rcases List.mem_cons.1 hmem with rfl | hmem
          · refine ⟨List.cons_ne_nil _ _, ?_⟩
            rw [List.dropLast_cons_of_ne_nil hline.ne_nil, List.mem_cons]
            rintro (heq | hmem)
            · exact hc heq.symm
            · exact hline.inner hmem
          · exact hlines line' (List.mem_cons_of_mem _ hmem)
        · obtain ⟨front, rfl⟩ := hhead line' hmem
          exact ⟨c :: front, rfl⟩

/-- A text whose lines are filtered has the lines that are left. -/
theorem lines_filter (sep : α) (text : List α) (p : List α → Bool) :
    lines sep ((lines sep text).filter p).flatten = (lines sep text).filter p :=
  lines_flatten ((areLines_lines sep text).sublist List.filter_sublist)

/-! ## Complete lines -/

/-- A text cut at its separators: what stands before each of them, and what
stands behind the last. -/
def cut (sep : α) : List α → List (List α) × List α
  | [] => ([], [])
  | c :: text =>
    if c = sep then ([] :: (cut sep text).1, (cut sep text).2)
    else
      match cut sep text with
      | ([], tail) => ([], c :: tail)
      | (line :: ls, tail) => ((c :: line) :: ls, tail)

theorem cut_of_notMem (h : sep ∉ text) : cut sep text = ([], text) := by
  induction text with
  | nil => rfl
  | cons c text ih =>
    obtain ⟨hc, htext⟩ := not_or.1 (fun hmem => h (List.mem_cons.2 hmem))
    rw [cut, if_neg (Ne.symm hc), ih htext]

theorem cut_ended_append (h : sep ∉ line) (text : List α) :
    cut sep (line ++ sep :: text) = (line :: (cut sep text).1, (cut sep text).2) := by
  induction line with
  | nil => rw [List.nil_append, cut, if_pos rfl]
  | cons c line ih =>
    obtain ⟨hc, hline⟩ := not_or.1 (fun hmem => h (List.mem_cons.2 hmem))
    rw [List.cons_append, cut, if_neg (Ne.symm hc), ih hline]

theorem takeWhile_ended (h : sep ∉ line) (text : List α) :
    (line ++ sep :: text).takeWhile (fun c => c ≠ sep) = line := by
  have hne : ∀ c ∈ line, decide (c ≠ sep) = true := fun c hc => by
    rw [decide_eq_true_eq]
    rintro rfl
    exact h hc
  rw [List.takeWhile_append_of_pos hne, List.takeWhile_cons_of_neg (by simp), List.append_nil]

theorem dropWhile_ended (h : sep ∉ line) (text : List α) :
    (line ++ sep :: text).dropWhile (fun c => c ≠ sep) = sep :: text := by
  have happend := List.takeWhile_append_dropWhile (p := fun c => decide (c ≠ sep))
    (l := line ++ sep :: text)
  rw [takeWhile_ended h] at happend
  exact List.append_cancel_left happend

/-- A text with a separator, at its first one. -/
theorem exists_first_sep (h : sep ∈ text) :
    ∃ line rest, sep ∉ line ∧ text = line ++ sep :: rest := by
  induction text with
  | nil => exact absurd h List.not_mem_nil
  | cons c text ih =>
    by_cases hc : c = sep
    · subst hc
      exact ⟨[], text, List.not_mem_nil, rfl⟩
    · obtain ⟨line, rest, hline, rfl⟩ := ih ((List.mem_cons.1 h).resolve_left (Ne.symm hc))
      refine ⟨c :: line, rest, fun hmem => ?_, rfl⟩
      rcases List.mem_cons.1 hmem with heq | hmem
      · exact hc heq.symm
      · exact hline hmem

/-- **Induction on the complete lines**: a text without a separator, or a
line before a text. -/
theorem cut_induction {P : List α → Prop} (htail : ∀ text, sep ∉ text → P text)
    (hline : ∀ line rest, sep ∉ line → P rest → P (line ++ sep :: rest)) (text : List α) :
    P text := by
  induction hn : text.length using Nat.strongRecOn generalizing text with
  | ind n ih =>
    by_cases h : sep ∈ text
    · obtain ⟨line, rest, hnot, rfl⟩ := exists_first_sep h
      refine hline line rest hnot (ih rest.length ?_ rest rfl)
      rw [List.length_append, List.length_cons] at hn
      omega
    · exact htail text h

/-- There is no separator left. -/
theorem notMem_cut_snd (sep : α) (text : List α) : sep ∉ (cut sep text).2 := by
  induction text using cut_induction with
  | htail text h =>
    rw [cut_of_notMem h]
    exact h
  | hline line rest h ih =>
    rw [cut_ended_append h]
    exact ih

/-- **A text that comes in two parts** is cut as the whole is. -/
theorem cut_append (sep : α) (a b : List α) :
    cut sep (a ++ b) =
      ((cut sep a).1 ++ (cut sep ((cut sep a).2 ++ b)).1, (cut sep ((cut sep a).2 ++ b)).2) := by
  induction a using cut_induction with
  | htail a h => rw [cut_of_notMem h, List.nil_append]
  | hline line rest h ih =>
    rw [List.append_assoc, List.cons_append, cut_ended_append h, cut_ended_append h, ih,
      List.cons_append]

/-- **Lines that are put one behind another** are the complete lines. -/
theorem cut_joined {ls : List (List α)} {tail : List α} (hls : ∀ line ∈ ls, sep ∉ line)
    (htail : sep ∉ tail) :
    cut sep ((ls.flatMap fun line => line ++ [sep]) ++ tail) = (ls, tail) := by
  induction ls with
  | nil => rw [List.flatMap_nil, List.nil_append, cut_of_notMem htail]
  | cons line ls ih =>
    obtain ⟨hline, hls⟩ := List.forall_mem_cons.1 hls
    rw [List.flatMap_cons, List.append_assoc, List.append_assoc, List.singleton_append,
      cut_ended_append hline, ih hls]

end Lines

end WaterGateway
