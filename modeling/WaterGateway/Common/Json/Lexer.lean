import WaterGateway.Common.Json.Model
import Mathlib.Tactic.IntervalCases

/-!
# The lexer of JSON

What it makes of a word, of a clean string and of the members of an object
of numbers; that a string it reads is never longer than its text, and
shorter where the text is not clean; and that white space is no text.
-/

namespace WaterGateway

namespace Json

variable {lax : Bool} {w cs cps : List ℕ} {c : ℕ} {s : Scalar} {m m' : Mode}
variable {ts : List Token}

/-! ## What the lexer does -/

theorem start_of_not_delim (h : isDelim c = false) : start c = (.word [c], []) := by
  simp only [isDelim, Bool.or_eq_false_iff, Option.isSome_eq_false_iff,
    Option.isNone_iff_eq_none, decide_eq_false_iff_not] at h
  obtain ⟨⟨hspace, hpunct⟩, hquote⟩ := h
  simp [start, hspace, hpunct, hquote]

theorem run_word (hw : ∀ c ∈ cs, isDelim c = false) :
    Transducer.run (lexStep lax) (.word w) cs = some (.word (w ++ cs), []) := by
  induction cs generalizing w with
  | nil => rw [List.append_nil, Transducer.run_nil]
  | cons c cs ih =>
    obtain ⟨hc, hcs⟩ := List.forall_mem_cons.1 hw
    have hmove : lexStep lax (.word w) c = some (.word (w ++ [c]), []) := by simp [lexStep, hc]
    rw [Transducer.run_cons_of_move hmove, ih hcs, Transducer.emit_nil, List.append_assoc,
      List.singleton_append]

/-- **A word becomes a token** where a delimiter follows. -/
theorem run_scalar (hne : w ≠ []) (hw : ∀ c ∈ w, isDelim c = false)
    (hs : scalarOf lax w = some s) (hc : isDelim c = true) :
    Transducer.run (lexStep lax) .ground (w ++ c :: cs) =
      Transducer.emit [.scalar s] (Transducer.run (lexStep lax) .ground (c :: cs)) := by
  obtain ⟨a, w, rfl⟩ := List.exists_cons_of_ne_nil hne
  obtain ⟨ha, hw⟩ := List.forall_mem_cons.1 hw
  have hmove : lexStep lax .ground a = some (.word [a], []) :=
    congrArg some (start_of_not_delim ha)
  have hend : lexStep lax (.word (a :: w)) c = some ((start c).1, .scalar s :: (start c).2) := by
    rw [lexStep, if_pos hc, hs, Option.map_some]
  have hground : lexStep lax .ground c = some ((start c).1, (start c).2) := rfl
  rw [List.cons_append, Transducer.run_cons_of_move hmove, Transducer.emit_nil,
    Transducer.run_append_of_run (run_word hw), Transducer.emit_nil, List.singleton_append,
    Transducer.run_cons_of_move hend, Transducer.run_cons_of_move hground, Transducer.emit_emit,
    List.singleton_append]

/-- A character that stands for itself in a string. -/
def clean (c : ℕ) : Bool := decide (32 ≤ c) && c != 34 && c != 92

theorem clean_iff : clean c = true ↔ 32 ≤ c ∧ c ≠ 34 ∧ c ≠ 92 := by
  simp [clean, and_assoc]

theorem lexStep_clean {acc : List ℕ} (h : clean c = true) :
    lexStep lax (.inStr acc) c = some (.inStr (acc ++ [c]), []) := by
  obtain ⟨hle, hquote, hback⟩ := clean_iff.1 h
  rw [lexStep, if_neg hquote, if_neg hback, if_neg (by omega)]

/-- **A clean string is read as it is.** -/
theorem run_clean {acc : List ℕ} (h : ∀ c ∈ cs, clean c = true) :
    Transducer.run (lexStep lax) (.inStr acc) cs = some (.inStr (acc ++ cs), []) := by
  induction cs generalizing acc with
  | nil => rw [List.append_nil, Transducer.run_nil]
  | cons c cs ih =>
    obtain ⟨hc, hcs⟩ := List.forall_mem_cons.1 h
    rw [Transducer.run_cons_of_move (lexStep_clean hc), ih hcs, Transducer.emit_nil,
      List.append_assoc, List.singleton_append]

/-! ## Strings are no longer than their text -/

/-- The string that is being read. -/
def Mode.acc : Mode → List ℕ
  | .ground | .word _ => []
  | .inStr acc | .esc acc | .uni acc _ _ => acc

theorem length_addUnit (acc : List ℕ) (u : ℕ) : (addUnit acc u).length ≤ acc.length + 1 := by
  unfold addUnit
  split
  · split
    · simp only [List.length_append, List.length_dropLast, List.length_singleton]
      omega
    · simp
  · simp

theorem start_acc (c : ℕ) : (start c).1.acc = [] ∧ ∀ x, .scalar (.str x) ∉ (start c).2 := by
  unfold start
  split
  · exact ⟨rfl, fun x => List.not_mem_nil⟩
  · split
    · next t ht =>
      refine ⟨rfl, fun x hx => ?_⟩
      rw [← List.mem_singleton.1 hx] at ht
      unfold punct at ht
      split at ht <;> cases ht
    · split
      · exact ⟨rfl, fun x => List.not_mem_nil⟩
      · exact ⟨rfl, fun x => List.not_mem_nil⟩

theorem scalarOf_ne_str (hs : scalarOf lax w = some s) (x : List ℕ) : s ≠ .str x := by
  rintro rfl
  unfold scalarOf at hs
  split_ifs at hs <;> cases hs

/-- **A step of the lexer** adds one character to the string at most, and a
string that it ends is the one that was being read. -/
theorem lexStep_acc (h : lexStep lax m c = some (m', ts)) :
    m'.acc.length ≤ m.acc.length + 1 ∧ ∀ x, .scalar (.str x) ∈ ts → x = m.acc := by
  obtain ⟨hstart, hnone⟩ := start_acc c
  cases m with
  | ground =>
    rw [show start c = (m', ts) from Option.some.inj h] at hstart hnone
    exact ⟨by simp [hstart], fun x hx => absurd hx (hnone x)⟩
  | word w =>
    rw [lexStep] at h
    split at h
    · -- the delimiter ends the word and is read as between tokens
      obtain ⟨s, hs, heq⟩ := Option.map_eq_some_iff.1 h
      cases heq
      refine ⟨by simp [hstart], fun x hx => ?_⟩
      rcases List.mem_cons.1 hx with heq | hx
      · exact absurd (Token.scalar.inj heq).symm (scalarOf_ne_str hs x)
      · exact absurd hx (hnone x)
    · cases h
      exact ⟨Nat.zero_le _, fun x hx => by cases hx⟩
  | inStr acc =>
    rw [lexStep] at h
    split_ifs at h
    · cases h
      refine ⟨Nat.zero_le _, fun x hx => ?_⟩
      exact Scalar.str.inj (Token.scalar.inj (List.mem_singleton.1 hx))
    · cases h
      exact ⟨Nat.le_succ _, fun x hx => by cases hx⟩
    · cases h
      exact ⟨by simp [Mode.acc], fun x hx => by cases hx⟩
  | esc acc =>
    rw [lexStep] at h
    split at h
    · cases h
      exact ⟨Nat.le_succ _, fun x hx => by cases hx⟩
    · obtain ⟨x, -, heq⟩ := Option.map_eq_some_iff.1 h
      cases heq
      exact ⟨by simp [Mode.acc], fun x hx => by cases hx⟩
  | uni acc n value =>
    obtain ⟨u, -, heq⟩ := Option.map_eq_some_iff.1 h
    split at heq
    · cases heq
      exact ⟨length_addUnit acc _, fun x hx => by cases hx⟩
    · cases heq
      exact ⟨Nat.le_succ _, fun x hx => by cases hx⟩

/-- All strings are shorter than what has been read. -/
structure Shortened (cs : List ℕ) (m : Mode) (ts : List Token) : Prop where
  ended : ∀ x, .scalar (.str x) ∈ ts → x.length < cs.length
  acc : m.acc.length < cs.length

/-- **Behind an opening quote**: what has been read is clean and the string
so far, or it gives shorter strings only. -/
theorem run_inStr (h : Transducer.run (lexStep lax) (.inStr []) cs = some (m, ts)) :
    (m = .inStr cs ∧ ts = [] ∧ ∀ c ∈ cs, clean c = true) ∨ Shortened cs m ts := by
  refine Transducer.run_induction
    (P := fun cs m ts => (m = .inStr cs ∧ ts = [] ∧ ∀ c ∈ cs, clean c = true) ∨
      Shortened cs m ts) (Or.inl ⟨rfl, rfl, fun c hc => by cases hc⟩) ?_ h
  intro cs m ts c m' ts' hcs hmove
  obtain ⟨hacc, hended⟩ := lexStep_acc hmove
  have hlen : (cs ++ [c]).length = cs.length + 1 := by simp
  rcases hcs with ⟨rfl, rfl, hclean⟩ | hshort
  · cases hc : clean c with
    | true =>
      rw [lexStep_clean hc] at hmove
      cases hmove
      refine Or.inl ⟨rfl, rfl, fun a ha => ?_⟩
      rcases List.mem_append.1 ha with ha | ha
      · exact hclean a ha
      · rw [List.mem_singleton.1 ha, hc]
    | false =>
      refine Or.inr ⟨fun x hx => ?_, ?_⟩
      · rw [hended x hx, hlen]
        exact Nat.lt_succ_self _
      · -- the character was a quote or a backslash: any other is refused
        rw [hlen]
        rw [lexStep] at hmove
        split_ifs at hmove with hquote hback hlow
        · cases hmove
          exact Nat.succ_pos _
        · cases hmove
          exact Nat.lt_succ_self _
        · rw [clean_iff.2 ⟨by omega, hquote, hback⟩] at hc
          cases hc
  · refine Or.inr ⟨fun x hx => ?_, ?_⟩
    · rw [hlen]
      rcases List.mem_append.1 hx with hx | hx
      · have hold := hshort.ended x hx
        omega
      · rw [hended x hx]
        have hold := hshort.acc
        omega
    · have hold := hshort.acc
      omega

/-! ## Numbers as words -/

theorem exec_digits {q : Numeral} (hq : ∀ c, isDigit c = true → numStep q c = some q)
    (hw : ∀ c ∈ w, isDigit c = true) : Run.exec numStep q w = some q := by
  induction w with
  | nil => rfl
  | cons c w ih =>
    obtain ⟨hc, hw⟩ := List.forall_mem_cons.1 hw
    rw [Run.exec_cons, hq c hc, Option.bind_some, ih hw]

theorem exec_digits_int (hw : ∀ c ∈ w, isDigit c = true) :
    Run.exec numStep .int w = some .int :=
  exec_digits (fun _ hc => if_pos hc) hw

theorem exec_digits_frac (hw : ∀ c ∈ w, isDigit c = true) :
    Run.exec numStep .frac w = some .frac :=
  exec_digits (fun _ hc => if_pos hc) hw

/-- The characters of a number are no delimiters. -/
theorem numStep_not_delim {q q' : Numeral} (h : numStep q c = some q') : isDelim c = false := by
  -- every character that the grammar takes is one of these
  have hchar : c = 43 ∨ c = 45 ∨ c = 46 ∨ c = 69 ∨ c = 101 ∨ (48 ≤ c ∧ c ≤ 57) := by
    by_contra hnone
    have hdigit : isDigit c = false := by
      simp only [isDigit, Bool.and_eq_false_iff, decide_eq_false_iff_not]
      omega
    have hne : c ≠ 43 ∧ c ≠ 45 ∧ c ≠ 46 ∧ c ≠ 48 ∧ c ≠ 69 ∧ c ≠ 101 := by omega
    cases q <;> simp [numStep, hdigit, hne] at h
  rcases hchar with rfl | rfl | rfl | rfl | rfl | ⟨hle, hge⟩
  · rfl
  · rfl
  · rfl
  · rfl
  · rfl
  · interval_cases c <;> rfl

theorem not_delim_of_isNumber (h : isNumber w = true) : ∀ c ∈ w, isDelim c = false := by
  obtain ⟨q, hq, -⟩ := (Option.any_eq_true _ _).1 h
  intro c hc
  obtain ⟨before, after, rfl⟩ := List.append_of_mem hc
  obtain ⟨q₁, -, hrest⟩ := Run.exec_append_eq_some.1 hq
  obtain ⟨q₂, hstep, -⟩ := Run.exec_cons_eq_some.1 hrest
  exact numStep_not_delim hstep

theorem scalarOf_number (h : isNumber w = true) : scalarOf lax w = some (.num w) := by
  have hne : ∀ name : List ℕ, isNumber name = false → w ≠ name := by
    rintro name hname rfl
    rw [h] at hname
    cases hname
  rw [scalarOf, if_neg (hne _ (by decide +kernel)), if_neg (hne _ (by decide +kernel)),
    if_neg (hne _ (by decide +kernel)), if_pos h]

/-! ## Objects of numbers -/

/-- A member whose value is a number, as it is written behind another. -/
def memberText (f : List ℕ × List ℕ) : List ℕ := 44 :: 34 :: (f.1 ++ 34 :: 58 :: f.2)

def memberTokens (f : List ℕ × List ℕ) : List Token :=
  [.comma, .scalar (.str f.1), .colon, .scalar (.num f.2)]

/-- The name can stand as it is, and the word is a number. -/
structure NumberMember (f : List ℕ × List ℕ) : Prop where
  name : ∀ c ∈ f.1, clean c = true
  number : isNumber f.2 = true

/-- **Members of numbers are read**, up to the end of the object. -/
theorem run_members {fs : List (List ℕ × List ℕ)} (h : ∀ f ∈ fs, NumberMember f) :
    Transducer.run (lexStep lax) .ground (fs.flatMap memberText ++ [125, 32]) =
      some (.ground, fs.flatMap memberTokens ++ [.rbrace]) := by
  induction fs with
  | nil => rfl
  | cons f fs ih =>
    obtain ⟨hf, hfs⟩ := List.forall_mem_cons.1 h
    -- what follows the number is a comma or the brace
    obtain ⟨c, cs, hrest, hc⟩ : ∃ c cs, fs.flatMap memberText ++ [125, 32] = c :: cs ∧
        isDelim c = true := by
      cases fs with
      | nil => exact ⟨125, [32], rfl, rfl⟩
      | cons g fs => exact ⟨44, _, rfl, rfl⟩
    have hne : f.2 ≠ [] := by
      intro hnil
      have hnum := hf.number
      rw [hnil] at hnum
      cases hnum
    have hname : Transducer.run (lexStep lax) (.inStr []) (f.1 ++ 34 :: 58 :: (f.2 ++ c :: cs)) =
        Transducer.emit [.scalar (.str f.1), .colon]
          (Transducer.run (lexStep lax) .ground (f.2 ++ c :: cs)) := by
      have hquote : lexStep lax (.inStr f.1) 34 = some (.ground, [.scalar (.str f.1)]) := rfl
      have hcolon : lexStep lax .ground 58 = some (.ground, [.colon]) := rfl
      rw [Transducer.run_append_of_run (run_clean hf.name), List.nil_append, Transducer.emit_nil,
        Transducer.run_cons_of_move hquote, Transducer.run_cons_of_move hcolon,
        Transducer.emit_emit, List.singleton_append]
    have hcomma : lexStep lax .ground 44 = some (.ground, [.comma]) := rfl
    have hopen : lexStep lax .ground 34 = some (.inStr [], []) := rfl
    have htext : memberText f ++ c :: cs = 44 :: 34 :: (f.1 ++ 34 :: 58 :: (f.2 ++ c :: cs)) := by
      simp [memberText]
    rw [List.flatMap_cons, List.append_assoc, hrest, htext, Transducer.run_cons_of_move hcomma,
      Transducer.run_cons_of_move hopen, Transducer.emit_nil, hname,
      run_scalar hne (not_delim_of_isNumber hf.number) (scalarOf_number hf.number) hc, ← hrest,
      ih hfs]
    rfl

/-! ## Lax readers -/

theorem scalarOf_lax (h : scalarOf lax w = some s) : scalarOf true w = some s := by
  cases lax with
  | true => exact h
  | false =>
    unfold scalarOf at h ⊢
    simp only [Bool.false_eq_true, false_and, if_false] at h
    split at h
    · next hnull => rwa [if_pos hnull]
    next hnull =>
    rw [if_neg hnull]
    split at h
    · next htrue => rwa [if_pos htrue]
    next htrue =>
    rw [if_neg htrue]
    split at h
    · next hfalse => rwa [if_pos hfalse]
    next hfalse =>
    rw [if_neg hfalse]
    split at h
    · next hnumber => rwa [if_pos hnumber]
    · cases h

theorem lexStep_lax {r : Mode × List Token} (h : lexStep lax m c = some r) :
    lexStep true m c = some r := by
  cases m with
  | word w =>
    simp only [lexStep] at h ⊢
    split at h
    · next hc =>
      obtain ⟨s, hs, rfl⟩ := Option.map_eq_some_iff.1 h
      rw [if_pos hc, scalarOf_lax hs, Option.map_some]
    · next hc => rw [if_neg hc, h]
  | ground => exact h
  | inStr acc => exact h
  | esc acc => exact h
  | uni acc n value => exact h

/-- **A lax reader reads what a strict one does**, and alike. -/
theorem loads_lax {v : Value} (h : loads lax cps = some v) : loads true cps = some v := by
  obtain ⟨ts, hlex, hparse⟩ := Option.bind_eq_some_iff.1 h
  have hlex' : lex true cps = some ts := by
    unfold lex at hlex ⊢
    split at hlex
    · next hrun =>
      rw [Transducer.run_mono (fun _ _ _ => lexStep_lax) hrun]
      exact hlex
    · cases hlex
  rw [loads, hlex', Option.bind_some, hparse]

/-! ## White space -/

/-- A character that is white space, for JSON or elsewhere. -/
def Blank (c : ℕ) : Prop := c = 32 ∨ (9 ≤ c ∧ c ≤ 13)

theorem Blank.cases (h : Blank c) : isSpace c = true ∨ c = 11 ∨ c = 12 := by
  have hspace : c = 32 ∨ c = 9 ∨ c = 10 ∨ c = 13 ∨ c = 11 ∨ c = 12 := by
    unfold Blank at h
    omega
  simpa [isSpace, or_assoc] using hspace

/-- A word of white space stands for nothing. -/
theorem scalarOf_blank (hne : w ≠ []) (hw : ∀ c ∈ w, Blank c) : scalarOf lax w = none := by
  obtain ⟨c, w, rfl⟩ := List.exists_cons_of_ne_nil hne
  have hc : c ≤ 32 := by
    have hblank := hw c List.mem_cons_self
    unfold Blank at hblank
    omega
  have hname : ∀ name : List ℕ, (∀ x ∈ name.head?, 32 < x) → c :: w ≠ name := by
    rintro name hhead rfl
    exact absurd (hhead c rfl) (by omega)
  have hnumber : isNumber (c :: w) = false := by
    have hstart : numStep .start c = none := by
      have hdigit : isDigit c = false := by
        simp only [isDigit, Bool.and_eq_false_iff, decide_eq_false_iff_not]
        omega
      rw [numStep, if_neg (by omega), if_neg (by omega), hdigit, if_neg (by decide)]
    rw [isNumber, Run.exec_cons, hstart]
    rfl
  rw [scalarOf, if_neg (hname _ (by decide)), if_neg (hname _ (by decide)),
    if_neg (hname _ (by decide)), hnumber, if_neg (by decide), if_neg]
  rintro ⟨-, h | h | h⟩
  · exact hname _ (by decide) h
  · exact hname _ (by decide) h
  · exact hname _ (by decide) h

/-- White space that has begun a word does not end it well. -/
theorem run_blank_word (hne : w ≠ []) (hw : ∀ c ∈ w, Blank c) (hcs : ∀ c ∈ cs, Blank c) :
    Transducer.run (lexStep lax) (.word w) (cs ++ [32]) = none := by
  have hend : ∀ {c w}, w ≠ [] → (∀ c ∈ w, Blank c) → isDelim c = true →
      lexStep lax (.word w) c = none := by
    intro c w hne hw hc
    rw [lexStep, if_pos hc, scalarOf_blank hne hw, Option.map_none]
  induction cs generalizing w with
  | nil => rw [List.nil_append, Transducer.run_singleton, hend hne hw (by rfl)]
  | cons c cs ih =>
    obtain ⟨hc, hcs⟩ := List.forall_mem_cons.1 hcs
    rw [List.cons_append, Transducer.run_cons]
    cases hdelim : isDelim c with
    | true => rw [hend hne hw hdelim, Option.bind_none]
    | false =>
      have hword : ∀ x ∈ w ++ [c], Blank x := by
        intro x hx
        rcases List.mem_append.1 hx with hx | hx
        · exact hw x hx
        · rwa [List.mem_singleton.1 hx]
      rw [lexStep, hdelim, if_neg (by decide), Option.bind_some, Transducer.emit_nil,
        ih (by simp) hword hcs]

/-- White space has no tokens, if it can be read at all. -/
theorem run_blank {r : Mode × List Token} (hcs : ∀ c ∈ cs, Blank c)
    (h : Transducer.run (lexStep lax) .ground (cs ++ [32]) = some r) : r = (.ground, []) := by
  induction cs with
  | nil =>
    cases h
    rfl
  | cons c cs ih =>
    obtain ⟨hc, hcs⟩ := List.forall_mem_cons.1 hcs
    rcases hc.cases with hspace | hother
    · have hmove : lexStep lax .ground c = some (.ground, []) := by
        rw [lexStep, start, if_pos hspace]
      rw [List.cons_append, Transducer.run_cons_of_move hmove, Transducer.emit_nil] at h
      exact ih hcs h
    · have hmove : lexStep lax .ground c = some (.word [c], []) := by
        rcases hother with rfl | rfl
        · rfl
        · rfl
      have hword : ∀ x ∈ [c], Blank x := fun x hx => by rwa [List.mem_singleton.1 hx]
      rw [List.cons_append, Transducer.run_cons_of_move hmove, Transducer.emit_nil,
        run_blank_word (List.cons_ne_nil _ _) hword hcs] at h
      cases h

/-- **White space is no JSON text.** -/
theorem loads_blank (h : ∀ c ∈ cps, Blank c) : loads lax cps = none := by
  rw [loads, lex]
  split
  · next ts hrun =>
    cases run_blank h hrun
    rfl
  · rfl

end Json

end WaterGateway
