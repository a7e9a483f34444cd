import WaterGateway.Config.Keys
import Mathlib.Data.List.Nodup

/-!
# Comments

A line that does not fit the buffer is read as several. Its later pieces
have lost the front of the line, so one of them can assign a key of its
own, also if the line is a comment. `inert_iff` says for exactly which
files the lines are records and the comments inert; those of short lines
are among them.
-/

namespace WaterGateway

namespace Config

open Lines LastWrite

variable {line text front before after piece : List UChar} {k : Key}
  {pre post : List (List UChar)}

/-! ## Texts -/

/-- The pieces of a file make it again. -/
theorem flatten_fgetsFrom (size : ℕ) (acc file : List UChar) :
    (fgetsFrom size acc file).flatten = acc ++ file := by
  induction file generalizing acc with
  | nil =>
    unfold fgetsFrom
    split
    · next hnil => rw [hnil]; rfl
    · simp
  | cons c file ih =>
    unfold fgetsFrom
    split
    · rw [List.flatten_cons, ih, List.nil_append, List.append_assoc, List.singleton_append]
    · rw [ih, List.append_assoc, List.singleton_append]

/-- A text without an equals sign may stand in front. -/
theorem strchr_append_left {c : UChar} (hfront : c ∉ front)
    (h : strchr c text = some (before, after)) :
    strchr c (front ++ text) = some (front ++ before, after) := by
  obtain ⟨rfl, hbefore⟩ := strchr_eq_some.1 h
  refine strchr_eq_some.2 ⟨by rw [List.append_assoc], ?_⟩
  rw [List.mem_append, not_or]
  exact ⟨hfront, hbefore⟩

/-- A buffer has the first equals sign of its string. -/
theorem strchr_of_cString {c : UChar} (h : strchr c (cString piece) = some (before, after))
    (rest : List UChar) : ∃ after', strchr c (piece ++ rest) = some (before, after') := by
  obtain ⟨tail, htail⟩ : cString piece <+: piece := List.takeWhile_prefix _
  refine ⟨after ++ (tail ++ rest), ?_⟩
  rw [← htail, List.append_assoc]
  exact strchr_append h _

/-- A text is blank, or has a first byte that is not. -/
theorem blank_or_exists (text : List UChar) : (∀ c ∈ text, isspace c = true) ∨
    ∃ blank c rest, text = blank ++ c :: rest ∧ (∀ b ∈ blank, isspace b = true) ∧
      isspace c = false := by
  cases hdrop : text.dropWhile isspace with
  | nil => exact Or.inl (List.dropWhile_eq_nil_iff.1 hdrop)
  | cons c rest =>
    refine Or.inr ⟨text.takeWhile isspace, c, rest, ?_, fun b hb => List.mem_takeWhile_imp hb, ?_⟩
    · rw [← hdrop, List.takeWhile_append_dropWhile]
    · have hstop := List.head?_dropWhile_not isspace text
      rw [hdrop] at hstop
      simpa using hstop

/-- A text from its first byte that is not blank. -/
theorem trim_eq_cons {blank : List UChar} {c : UChar} (hblank : ∀ b ∈ blank, isspace b = true)
    (hc : isspace c = false) (rest : List UChar) :
    trim (blank ++ c :: rest) = c :: rest.rdropWhile isspace := by
  rw [trim, List.dropWhile_append_of_pos hblank, List.dropWhile_cons_of_neg (by simp [hc])]
  exact rdropWhile_append_cons hc [] rest

/-- **Text in front of a text shows**, if it is not blank. -/
theorem blank_of_trim_append (hne : trim text ≠ []) (h : trim (front ++ text) = trim text) :
    ∀ c ∈ front, isspace c = true := by
  rcases blank_or_exists front with hblank | ⟨blank, c, rest, rfl, hblank, hc⟩
  · exact hblank
  exfalso
  rcases blank_or_exists text with hblank' | ⟨blank', d, rest', rfl, hblank', hd⟩
  · apply hne
    rw [← List.nil_append text, trim_append_blank hblank']
    rfl
  · rw [List.append_assoc, List.cons_append, trim_eq_cons hblank hc, ← List.append_assoc,
      rdropWhile_append_cons hd, trim_eq_cons hblank' hd] at h
    have hlength := congrArg List.length h
    simp only [List.length_cons, List.length_append] at hlength
    omega

/-! ## Keys -/

/-- No two keys have one name. -/
theorem nodup_names : (keys.map Key.name).Nodup := by decide +kernel

theorem mem_keys (k : Key) : k ∈ keys := by
  cases k <;> simp [keys]

/-- The chain of `strcmp`s finds the key of a name. -/
theorem keyOf_eq_some {key : List UChar} : keyOf key = some k ↔ key = k.name := by
  constructor
  · intro h
    simpa using List.find?_some h
  · rintro rfl
    obtain ⟨k', hk'⟩ : ∃ k', keyOf k.name = some k' :=
      Option.isSome_iff_exists.1 (List.find?_isSome.2 ⟨k, mem_keys k, decide_eq_true rfl⟩)
    have hname : k.name = k'.name := by simpa using List.find?_some hk'
    rw [hk', List.inj_on_of_nodup_map nodup_names (mem_keys k) (mem_keys k') hname]

/-- A name is not a comment. -/
theorem name_eq_cons (k : Key) : ∃ c rest, k.name = c :: rest ∧ c ≠ 35 ∧ c ≠ 59 := by
  cases k <;> exact ⟨_, _, rfl, by decide, by decide⟩

/-- **A comment has no key** before its first equals sign. -/
theorem isComment_eq_false (hchr : strchr 61 text = some (before, after))
    (hkey : keyOf (trim before) = some k) : isComment text = false := by
  obtain ⟨c, rest, hname, hhash, hsemicolon⟩ := name_eq_cons k
  obtain ⟨rfl, -⟩ := strchr_eq_some.1 hchr
  obtain ⟨blank, hblank⟩ := List.rdropWhile_prefix isspace (before.dropWhile isspace)
  have htrim : trim (before ++ 61 :: after) =
      c :: (rest ++ blank ++ 61 :: after.rdropWhile isspace) := by
    rw [trim_append_equal, ← hblank, ← trim, keyOf_eq_some.1 hkey, hname]
    simp
  rw [isComment_eq_of_trim htrim]
  exact decide_eq_false (not_or.2 ⟨hhash, hsemicolon⟩)

/-! ## A line is one record -/

/-- **A line is one record**: it performs at most one assignment, to the key
before its first equals sign. -/
structure OneRecord (line : List UChar) : Prop where
  once : (readings line).length ≤ 1
  key : ∀ a ∈ readings line, ∃ before after, strchr 61 line = some (before, after) ∧
    keyOf (trim before) = some a.1

/-- A piece may assign a key if it has not lost anything: the pieces before
it are blank. Or if they have the name of the same key before their first
equals sign, cut in two, so that they do not assign it themselves. -/
def Keeps (k : Key) (pre post : List (List UChar)) : Prop :=
  (∀ c ∈ pre.flatten, isspace c = true) ∨
    (∃ before after, strchr 61 pre.flatten = some (before, after) ∧ trim before = k.name) ∧
      ∀ piece ∈ pre ++ post, assignment (cString piece) = none

/-- **No piece of a line assigns a key of its own.** -/
def NoStray (line : List UChar) : Prop :=
  ∀ pre piece post a, fgetsFrom lineSize [] line = pre ++ piece :: post →
    assignment (cString piece) = some a → Keeps a.1 pre post

/-- A list with at most one element that a partial function is defined at. -/
theorem length_filterMap_le_one {α β : Type*} {f : α → Option β} {l : List α}
    (h : ∀ pre a post b, l = pre ++ a :: post → f a = some b → ∀ a' ∈ pre, f a' = none) :
    (l.filterMap f).length ≤ 1 := by
  induction l using List.reverseRecOn with
  | nil => exact Nat.zero_le 1
  | append_singleton l a ih =>
    rw [List.filterMap_append, List.length_append]
    cases ha : f a with
    | none =>
      rw [List.filterMap_cons_none ha, List.filterMap_nil, List.length_nil, Nat.add_zero]
      refine ih fun pre a' post b heq hb => h pre a' (post ++ [a]) b ?_ hb
      rw [heq, List.append_assoc, List.cons_append]
    | some b =>
      rw [List.filterMap_eq_nil_iff.2 (h l a [] b rfl ha), List.filterMap_cons, ha]
      exact Nat.le_refl 1

/-- A line from the pieces around one. -/
theorem line_of_cut (hcut : fgetsFrom lineSize [] line = pre ++ piece :: post) :
    line = pre.flatten ++ (piece ++ post.flatten) := by
  rw [← List.nil_append line, ← flatten_fgetsFrom lineSize [] line, hcut, List.flatten_append,
    List.flatten_cons]

/-- The assignments of a line around one of them. -/
theorem readings_of_cut {a : Key × List UChar}
    (hcut : fgetsFrom lineSize [] line = pre ++ piece :: post)
    (ha : assignment (cString piece) = some a) :
    readings line = pre.filterMap (fun piece => assignment (cString piece)) ++
      a :: post.filterMap fun piece => assignment (cString piece) := by
  rw [readings, hcut, List.filterMap_append, List.filterMap_cons, ha]

/-- A line that performs one assignment at most has nothing but one piece
that assigns. -/
theorem assignment_eq_none (honce : (readings line).length ≤ 1) {a : Key × List UChar}
    (hcut : fgetsFrom lineSize [] line = pre ++ piece :: post)
    (ha : assignment (cString piece) = some a) :
    ∀ other ∈ pre ++ post, assignment (cString other) = none := by
  rw [readings_of_cut hcut ha, List.length_append, List.length_cons] at honce
  refine List.filterMap_eq_nil_iff.1 (List.length_eq_zero_iff.1 ?_)
  rw [List.filterMap_append, List.length_append]
  omega

theorem noStray_of_oneRecord (h : OneRecord line) : NoStray line := by
  intro pre piece post a hcut ha
  obtain ⟨before, after, hchr, hkey, -⟩ := exists_of_assignment ha
  obtain ⟨after', hrest⟩ := strchr_of_cString hchr post.flatten
  obtain ⟨before', after'', hchr', hkey'⟩ :=
    h.key a (readings_of_cut hcut ha ▸ List.mem_append_right _ List.mem_cons_self)
  rw [line_of_cut hcut] at hchr'
  by_cases hequal : (61 : UChar) ∈ pre.flatten
  · -- the first equals sign is lost, and the key before it is that of the piece
    cases hlost : strchr 61 pre.flatten with
    | none => exact absurd hequal (strchr_eq_none.1 hlost)
    | some p =>
      obtain ⟨lost, behind⟩ := p
      rw [strchr_append hlost] at hchr'
      cases hchr'
      exact Or.inr ⟨⟨before', behind, hlost, keyOf_eq_some.1 hkey'⟩,
        assignment_eq_none h.once hcut ha⟩
  · rw [strchr_append_left hequal hrest] at hchr'
    cases hchr'
    have hname := keyOf_eq_some.1 hkey
    refine Or.inl (blank_of_trim_append ?_ ((keyOf_eq_some.1 hkey').trans hname.symm))
    obtain ⟨c, rest, hcons, -⟩ := name_eq_cons a.1
    rw [hname, hcons]
    exact List.cons_ne_nil c rest

theorem oneRecord_of_noStray (h : NoStray line) : OneRecord line where
  once := by
    refine length_filterMap_le_one fun pre piece post a hcut ha other hother => ?_
    rcases h pre piece post a hcut ha with hblank | ⟨-, hnone⟩
    · -- a blank piece has no equals sign
      refine Option.eq_none_iff_forall_ne_some.2 fun b hb => ?_
      obtain ⟨before, after, hchr, -⟩ := exists_of_assignment hb
      obtain ⟨after', hchr'⟩ := strchr_of_cString hchr []
      have hmem : (61 : UChar) ∈ other := by
        rw [← List.append_nil other, (strchr_eq_some.1 hchr').1]
        exact List.mem_append_right _ List.mem_cons_self
      have hspace := hblank 61 (List.mem_flatten_of_mem hother hmem)
      exact absurd hspace Bool.false_ne_true
    · exact hnone other (List.mem_append_left post hother)
  key := by
    intro a hmem
    obtain ⟨piece, hpiece, ha⟩ := List.mem_filterMap.1 hmem
    obtain ⟨pre, post, hcut⟩ := List.append_of_mem hpiece
    rw [line_of_cut hcut]
    rcases h pre piece post a hcut ha with hblank | ⟨⟨before, after, hchr, hname⟩, -⟩
    · obtain ⟨before, after, hchr, hkey, -⟩ := exists_of_assignment ha
      obtain ⟨after', hrest⟩ := strchr_of_cString hchr post.flatten
      have hequal : (61 : UChar) ∉ pre.flatten := fun hmem =>
        absurd (hblank 61 hmem) Bool.false_ne_true
      exact ⟨_, _, strchr_append_left hequal hrest, by rwa [trim_blank_append hblank]⟩
    · exact ⟨_, _, strchr_append hchr _, keyOf_eq_some.2 hname⟩

/-- **A line is one record** if no piece of it assigns a key of its own. -/
theorem oneRecord_iff : OneRecord line ↔ NoStray line :=
  ⟨noStray_of_oneRecord, oneRecord_of_noStray⟩

/-- A comment that is one record assigns nothing. -/
theorem readings_of_isComment (h : OneRecord line) (hcomment : isComment line = true) :
    readings line = [] := by
  refine List.eq_nil_iff_forall_not_mem.2 fun a ha => ?_
  obtain ⟨before, after, hchr, hkey⟩ := h.key a ha
  exact absurd hcomment (by simp [isComment_eq_false hchr hkey])

/-! ## Comments are inert -/

/-- A file without its comments. -/
def uncommented (file : List UChar) : List UChar :=
  ((lines 10 file).filter fun line => !isComment line).flatten

/-- **Comments are inert.** -/
def CommentsInert (atoi : List UChar → UInt) (file : List UChar) : Prop :=
  configLoad atoi (some (uncommented file)) = configLoad atoi (some file)

/-- A comment that ends the file without a newline assigns a key only the
setting it has without it. -/
def HarmlessTail (atoi : List UChar → UInt) (file : List UChar) : Prop :=
  ∀ ls line, lines 10 file = ls ++ [line] → ¬ Ended 10 line → isComment line = true →
    ∀ k value, lastValue k (readings line) = some value →
      repair k (stored atoi k value) = setting atoi (ls.flatMap readings) k

variable {atoi : List UChar → UInt} {file : List UChar} {ls : List (List UChar)}

/-- Lines that assign nothing may be left out. -/
theorem flatMap_filter_of_nil (h : ∀ line ∈ ls, isComment line = true → readings line = []) :
    (ls.filter fun line => !isComment line).flatMap readings = ls.flatMap readings := by
  induction ls with
  | nil => rfl
  | cons line ls ih =>
    have hrest := ih fun line' hmem => h line' (List.mem_cons_of_mem line hmem)
    by_cases hcomment : isComment line = true
    · rw [List.filter_cons_of_neg (by simp [hcomment]), hrest, List.flatMap_cons,
        h line List.mem_cons_self hcomment, List.nil_append]
    · rw [List.filter_cons_of_pos (by simpa using hcomment), List.flatMap_cons, hrest,
        List.flatMap_cons]

theorem commentsInert_of_nil
    (h : ∀ line ∈ lines 10 file, isComment line = true → readings line = []) :
    CommentsInert atoi file := by
  refine configLoad_eq_iff.2 fun k => ?_
  rw [uncommented, lines_filter, flatMap_filter_of_nil h]

/-- A comment at the end of a file counts for the keys it assigns. -/
theorem commentsInert_concat_iff {last : List UChar} (hlines : lines 10 file = ls ++ [last])
    (hls : ∀ line ∈ ls, isComment line = true → readings line = [])
    (hlast : isComment last = true) : CommentsInert atoi file ↔
      ∀ k value, lastValue k (readings last) = some value →
        repair k (stored atoi k value) = setting atoi (ls.flatMap readings) k := by
  have hleft : (lines 10 file).filter (fun line => !isComment line) =
      ls.filter fun line => !isComment line := by
    rw [hlines, List.filter_append, List.filter_cons_of_neg (by simp [hlast]), List.filter_nil,
      List.append_nil]
  have hall : (lines 10 file).flatMap readings = ls.flatMap readings ++ readings last := by
    rw [hlines, List.flatMap_append, List.flatMap_singleton]
  rw [CommentsInert, configLoad_eq_iff, uncommented, lines_filter, hleft, hall,
    flatMap_filter_of_nil hls]
  refine forall_congr' fun k => ?_
  rw [setting_append]
  constructor
  · intro h value hvalue
    rw [h, hvalue, Option.elim_some]
  · intro h
    cases hvalue : lastValue k (readings last) with
    | none => rfl
    | some value => exact (h value hvalue).symm

/-- **Where the lines are records**, comments are inert up to one that ends
the file without a newline. -/
theorem commentsInert_iff (hone : ∀ line ∈ lines 10 file, Ended 10 line → OneRecord line) :
    CommentsInert atoi file ↔ HarmlessTail atoi file := by
  have hrecord : ∀ line ∈ lines 10 file, Ended 10 line → isComment line = true →
      readings line = [] := fun line hmem hended =>
    readings_of_isComment (hone line hmem hended)
  by_cases htail : ∃ ls last, lines 10 file = ls ++ [last] ∧ ¬ Ended 10 last ∧
      isComment last = true
  · obtain ⟨ls, last, hlines, hended, hcomment⟩ := htail
    have hls : ∀ line ∈ ls, isComment line = true → readings line = [] := by
      intro line hmem
      have hpair := (areLines_lines 10 file).ended
      rw [hlines, List.pairwise_append] at hpair
      refine hrecord line ?_ (hpair.2.2 line hmem last (List.mem_singleton_self last))
      rw [hlines]
      exact List.mem_append_left _ hmem
    rw [commentsInert_concat_iff hlines hls hcomment]
    constructor
    · intro h ls' last' hlines' _ _
      obtain ⟨rfl, hsame⟩ := List.append_inj' (hlines.symm.trans hlines') rfl
      cases hsame
      exact h
    · intro h
      exact h ls last hlines hended hcomment
  · -- all comments have their newline
    refine iff_of_true (commentsInert_of_nil fun line hmem hcomment => ?_)
      fun ls last hlines hended hcomment => absurd ⟨ls, last, hlines, hended, hcomment⟩ htail
    refine hrecord line hmem ?_ hcomment
    by_contra hended
    obtain ⟨front, hlines⟩ := (areLines_lines 10 file).eq_concat hmem hended
    exact htail ⟨front, line, hlines, hended, hcomment⟩

/-- **Comments are inert and a line is one record**, exactly where no piece
of a line assigns a key of its own, and a comment that ends the file
without a newline assigns nothing new. -/
theorem inert_iff (atoi : List UChar → UInt) (file : List UChar) :
    (CommentsInert atoi file ∧ ∀ line ∈ lines 10 file, Ended 10 line → OneRecord line) ↔
      (∀ line ∈ lines 10 file, Ended 10 line → NoStray line) ∧ HarmlessTail atoi file := by
  have hrecord : (∀ line ∈ lines 10 file, Ended 10 line → OneRecord line) ↔
      ∀ line ∈ lines 10 file, Ended 10 line → NoStray line :=
    forall_congr' fun line => forall_congr' fun _ => forall_congr' fun _ => oneRecord_iff
  rw [← hrecord]
  constructor
  · rintro ⟨hinert, hone⟩
    exact ⟨hone, (commentsInert_iff hone).1 hinert⟩
  · rintro ⟨hone, htail⟩
    exact ⟨(commentsInert_iff hone).2 htail, hone⟩

/-- **Short lines are records.** -/
theorem inert_of_shortLines (h : ShortLines file) :
    CommentsInert atoi file ∧ ∀ line ∈ lines 10 file, OneRecord line := by
  have hone : ∀ line ∈ lines 10 file, OneRecord line := by
    refine fun line hline => oneRecord_of_noStray fun pre piece post a hcut _ => Or.inl ?_
    -- the line is its only piece
    rw [fgetsFrom_line h hline] at hcut
    obtain ⟨rfl, -⟩ | ⟨-, hnil⟩ := List.append_eq_singleton_iff.1 hcut.symm
    · exact fun c hc => absurd hc List.not_mem_nil
    · exact absurd hnil (List.cons_ne_nil _ _)
  exact ⟨commentsInert_of_nil fun line hline => readings_of_isComment (hone line hline), hone⟩

/-- A long comment sets the database. -/
theorem long_comment :
    ¬ ∀ atoi file, (0 : UChar) ∉ file → CommentsInert atoi file ∧
      ∀ line ∈ lines 10 file, Ended 10 line → OneRecord line := by
  intro h
  have hinert := (h (fun _ => 0)
    (35 :: List.replicate 254 120 ++ bytes "db_path=x\n") (by decide +kernel)).1
  have hdb := congrArg (fun p => p.1.dbPath) hinert
  revert hdb
  decide +kernel

end Config

end WaterGateway
