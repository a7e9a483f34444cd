import WaterGateway.Common.Json.Parser
import WaterGateway.Common.Utf8
import WaterGateway.Config.Model
import WaterGateway.Uploader.Json

/-!
# Which lines can be decoded

The device is put between the quotes of its member as it is. So a line is
UTF-8 and a JSON object that gives the device back exactly when the device
is UTF-8 without quotes, backslashes and control characters.
-/

namespace WaterGateway

namespace Uploader

open Json Utf8

/-! ## The numbers -/

theorem decimal_of_lt {n : ℕ} (h : n < 10) : codes (decimal n) = [48 + n] := by
  have hall : ∀ n < 10, codes (decimal n) = [48 + n] := by decide +kernel
  exact hall n h

theorem decimal_of_le {n : ℕ} (h : 10 ≤ n) :
    codes (decimal n) = codes (decimal (n / 10)) ++ codes (decimal (n % 10)) := by
  rw [decimal, Nat.toDigits_of_base_le (by decide) h, decimal, decimal,
    Nat.toDigits_of_lt_base (Nat.mod_lt n (by decide)), List.map_append, codes, List.map_append]
  rfl

theorem isDigit_decimal {n c : ℕ} (h : c ∈ codes (decimal n)) : isDigit c = true := by
  obtain ⟨b, hb, rfl⟩ := List.mem_map.1 h
  obtain ⟨hle, hge⟩ := toNat_decimal hb
  simp [isDigit, hle, hge]

/-- **A numeral has no leading zero.** -/
theorem exec_decimal_pos {q : Numeral} {n : ℕ}
    (hq : ∀ c, isDigit c = true → c ≠ 48 → numStep q c = some .int) (h : 0 < n) :
    Run.exec numStep q (codes (decimal n)) = some .int := by
  induction n using Nat.strong_induction_on with
  | _ n ih =>
    rcases Nat.lt_or_ge n 10 with hlt | hge
    · have hdigit : isDigit (48 + n) = true :=
        isDigit_decimal (n := n) (by simp [decimal_of_lt hlt])
      rw [decimal_of_lt hlt, Run.exec_cons, hq _ hdigit (by omega), Option.bind_some,
        Run.exec_nil]
    · -- all but the last digit are those of `n / 10`, which is positive
      rw [decimal_of_le hge, Run.exec_append, ih (n / 10) (by omega) (by omega), Option.bind_some]
      exact exec_digits_int fun c hc => isDigit_decimal hc

/-- A numeral, at the start or behind a minus. -/
theorem exec_decimal {q : Numeral} (hq : q = .start ∨ q = .minus) (n : ℕ) :
    Run.exec numStep q (codes (decimal n)) = some (if n = 0 then .zero else .int) := by
  split
  · next h =>
    subst h
    rcases hq with rfl | rfl
    · decide +kernel
    · decide +kernel
  · next h =>
    refine exec_decimal_pos (fun c hc hne => ?_) (Nat.pos_of_ne_zero h)
    have hminus : c ≠ 45 := by
      rintro rfl
      cases hc
    rcases hq with rfl | rfl
    · simp [numStep, hc, hne, hminus]
    · simp [numStep, hc, hne]

theorem isNumber_decimal (n : ℕ) : isNumber (codes (decimal n)) = true := by
  rw [isNumber, exec_decimal (Or.inl rfl), Option.any_some]
  split <;> rfl

/-- **`%d` and `%lld` print numbers.** -/
theorem isNumber_signedDecimal (x : ℤ) : isNumber (codes (signedDecimal x)) = true := by
  unfold signedDecimal
  split
  · have hminus : Run.exec numStep .start (codes (bytes "-")) = some .minus := by decide +kernel
    rw [isNumber, codes_append, Run.exec_append, hminus, Option.bind_some,
      exec_decimal (Or.inr rfl), Option.any_some]
    split <;> rfl
  · exact isNumber_decimal _

/-- Behind the sign `%.2f` prints a numeral, a point and two digits. -/
theorem exec_magnitude2 {x : Single} {q : Numeral} (hq : q = .start ∨ q = .minus)
    (h : x.finite = true) : Run.exec numStep q (codes (magnitude2 x)) = some .frac := by
  obtain ⟨hnan, hinf⟩ : x.isNaN = false ∧ x.isInf = false := by simpa [Single.finite] using h
  have hpoint : ∀ n : ℕ, Run.exec numStep (if n = 0 then .zero else .int) (codes (bytes ".")) =
      some .point := by
    intro n
    split
    · decide +kernel
    · decide +kernel
  have hdigit : ∀ n < 10, Run.exec numStep .point (codes (decimal n)) = some .frac := by
    intro n hn
    have hd : isDigit (48 + n) = true := isDigit_decimal (n := n) (by simp [decimal_of_lt hn])
    rw [decimal_of_lt hn, Run.exec_cons, numStep, if_pos hd, Option.bind_some, Run.exec_nil]
  rw [magnitude2, hnan, hinf]
  simp only [Bool.false_eq_true, if_false, codes_append, Run.exec_append, exec_decimal hq,
    Option.bind_some, hpoint]
  rw [hdigit _ (by omega), Option.bind_some]
  exact exec_digits_frac fun c hc => isDigit_decimal hc

/-- **`%.2f` prints a number** for a finite value. -/
theorem isNumber_fixed2 {x : Single} (h : x.finite = true) :
    isNumber (codes (fixed2 x)) = true := by
  unfold fixed2
  split
  · have hminus : Run.exec numStep .start (codes (bytes "-")) = some .minus := by decide +kernel
    rw [isNumber, codes_append, Run.exec_append, hminus, Option.bind_some,
      exec_magnitude2 (Or.inr rfl) h]
    rfl
  · rw [isNumber, exec_magnitude2 (Or.inl rfl) h]
    rfl

/-! ## The line -/

/-- The members behind the device. -/
def fields (sample : WaterSample) : List (List ℕ × List ℕ) :=
  [(text "timestamp_ms", codes (signedDecimal sample.timestampMs.toInt)),
    (text "ph", codes (fixed2 sample.ph)),
    (text "temperature", codes (fixed2 sample.temperature)),
    (text "turbidity", codes (fixed2 sample.turbidity)),
    (text "conductivity", codes (signedDecimal (toInt sample.conductivity))),
    (text "sensor_status", codes (decimal sample.sensorStatus.toNat)),
    (text "alarm_status", codes (decimal sample.alarmStatus.toNat)),
    (text "sequence", codes (decimal sample.sequence.toNat))]

/-- **The text behind the device**: its closing quote, and the members. -/
theorem codes_members (sample : WaterSample) :
    codes (members sample) = 34 :: ((fields sample).flatMap memberText ++ [125]) := by
  have hfirst : codes (bytes "\",\"timestamp_ms\":") =
      34 :: 44 :: 34 :: (text "timestamp_ms" ++ [34, 58]) := by decide +kernel
  have hhead : codes (bytes ",\"ph\":") = 44 :: 34 :: (text "ph" ++ [34, 58]) ∧
      codes (bytes ",\"temperature\":") = 44 :: 34 :: (text "temperature" ++ [34, 58]) ∧
      codes (bytes ",\"turbidity\":") = 44 :: 34 :: (text "turbidity" ++ [34, 58]) ∧
      codes (bytes ",\"conductivity\":") = 44 :: 34 :: (text "conductivity" ++ [34, 58]) ∧
      codes (bytes ",\"sensor_status\":") = 44 :: 34 :: (text "sensor_status" ++ [34, 58]) ∧
      codes (bytes ",\"alarm_status\":") = 44 :: 34 :: (text "alarm_status" ++ [34, 58]) ∧
      codes (bytes ",\"sequence\":") = 44 :: 34 :: (text "sequence" ++ [34, 58]) := by
    decide +kernel
  have hbrace : codes (bytes "\x7d") = [125] := by decide +kernel
  simp only [members, codes_append, hfirst, hhead, hbrace, fields, memberText, List.flatMap_cons,
    List.flatMap_nil, List.append_assoc, List.cons_append, List.nil_append]

/-- The names of the members stand as they are, and are not the device's. -/
theorem clean_fields (sample : WaterSample) :
    ∀ f ∈ fields sample, (∀ c ∈ f.1, clean c = true) ∧ f.1 ≠ text "device_id" := by
  have hnames : ∀ name ∈ (fields sample).map Prod.fst,
      (∀ c ∈ name, clean c = true) ∧ name ≠ text "device_id" := by
    simp only [fields, List.map_cons, List.map_nil]
    decide +kernel
  exact fun f hf => hnames f.1 (List.mem_map_of_mem hf)

theorem numberMember_fields {sample : WaterSample} (h : sample.FiniteReadings) :
    ∀ f ∈ fields sample, NumberMember f := by
  intro f hf
  refine ⟨(clean_fields sample f hf).1, ?_⟩
  simp only [fields, List.mem_cons, List.not_mem_nil, or_false] at hf
  rcases hf with rfl | rfl | rfl | rfl | rfl | rfl | rfl | rfl
  · exact isNumber_signedDecimal _
  · exact isNumber_fixed2 h.ph
  · exact isNumber_fixed2 h.temperature
  · exact isNumber_fixed2 h.turbidity
  · exact isNumber_signedDecimal _
  · exact isNumber_decimal _
  · exact isNumber_decimal _
  · exact isNumber_decimal _

/-- The line without its newline. -/
def lineBody (deviceId : List UChar) (sample : WaterSample) : List UChar :=
  bytes "\x7b\"device_id\":\"" ++ (deviceId ++ members sample)

variable {lax : Bool} {deviceId : List UChar} {sample : WaterSample} {cps cs acc : List ℕ}
variable {m m' : Mode} {ts : List Token}

theorem uploaderBuildJson_eq :
    uploaderBuildJson deviceId sample = lineBody deviceId sample ++ [newline] := by
  rw [uploaderBuildJson, lineBody, List.append_assoc (bytes _)]

/-- **The text of a line** is UTF-8 exactly when the device is. -/
theorem decode_lineBody :
    decode (lineBody deviceId sample) = some cs ↔ ∃ cps, decode deviceId = some cps ∧
      cs = codes (bytes "\x7b\"device_id\":\"") ++ (cps ++ codes (members sample)) := by
  have hopen : Ascii (bytes "\x7b\"device_id\":\"") := by decide +kernel
  have hprintable : Ascii printable := by decide +kernel
  have hmembers : Ascii (members sample) := fun b hb => hprintable b (members_subset sample hb)
  have hne : members sample ≠ [] := List.append_ne_nil_of_right_ne_nil _ (by decide +kernel)
  rw [lineBody, decode_ascii_append hopen]
  simp only [decode_append_of_ascii hmembers hne]
  constructor
  · rintro ⟨_, ⟨cps, h₁, rfl⟩, rfl⟩
    exact ⟨cps, h₁, rfl⟩
  · rintro ⟨cps, h₁, rfl⟩
    exact ⟨_, ⟨cps, h₁, rfl⟩, rfl⟩

/-- The tokens of the members. -/
def lineTokens (sample : WaterSample) : List Token :=
  (fields sample).flatMap memberTokens ++ [.rbrace]

/-- From within a string the members are read. -/
theorem run_lineTokens (h : sample.FiniteReadings) :
    Transducer.run (lexStep lax) (.inStr acc) (codes (members sample) ++ [32]) =
      some (.ground, .scalar (.str acc) :: lineTokens sample) := by
  have hquote : lexStep lax (.inStr acc) 34 = some (.ground, [.scalar (.str acc)]) := rfl
  rw [codes_members, List.cons_append, List.append_assoc, List.singleton_append,
    Transducer.run_cons_of_move hquote, run_members (numberMember_fields h), Transducer.emit_some]
  rfl

/-- A name that is no word of JSON, behind a quote that does not end a
string. -/
theorem run_timestamp_ms (hm : ∀ acc, m ≠ .inStr acc) :
    Transducer.run (lexStep lax) m (34 :: 44 :: 34 :: (text "timestamp_ms" ++ [34])) = none := by
  have hword : Transducer.run (lexStep lax) .ground (text "timestamp_ms" ++ [34]) = none := by
    cases lax <;> decide +kernel
  have hstr : ∀ acc, Transducer.run (lexStep lax) (.inStr acc)
      (44 :: 34 :: (text "timestamp_ms" ++ [34])) = none := by
    intro acc
    have hcomma : lexStep lax (.inStr acc) 44 = some (.inStr (acc ++ [44]), []) :=
      lexStep_clean rfl
    have hquote : lexStep lax (.inStr (acc ++ [44])) 34 =
        some (.ground, [.scalar (.str (acc ++ [44]))]) := rfl
    rw [Transducer.run_cons_of_move hcomma, Transducer.run_cons_of_move hquote, hword,
      Transducer.emit_none, Transducer.emit_none]
  cases m with
  | ground =>
    have hopen : lexStep lax .ground 34 = some (.inStr [], []) := rfl
    rw [Transducer.run_cons_of_move hopen, hstr, Transducer.emit_none]
  | word w =>
    rw [Transducer.run_cons, lexStep, if_pos (by rfl)]
    cases scalarOf lax w with
    | none => rfl
    | some s =>
      rw [Option.map_some, Option.bind_some, show (start 34).1 = .inStr [] from rfl, hstr,
        Transducer.emit_none]
  | inStr acc => exact absurd rfl (hm acc)
  | esc acc =>
    have hescaped : lexStep lax (.esc acc) 34 = some (.inStr (acc ++ [34]), []) := rfl
    rw [Transducer.run_cons_of_move hescaped, hstr, Transducer.emit_none]
  | uni acc n value => rfl

/-- **The members can only be read from within a string.** -/
theorem inStr_of_run {o : List Token}
    (h : Transducer.run (lexStep lax) m (codes (members sample) ++ [32]) = some (m', o)) :
    ∃ acc, m = .inStr acc := by
  by_contra hm
  obtain ⟨rest, hrest⟩ : ∃ rest, codes (members sample) ++ [32] =
      34 :: 44 :: 34 :: (text "timestamp_ms" ++ [34]) ++ rest := by
    rw [codes_members, fields, List.flatMap_cons, memberText]
    simp only [List.cons_append, List.append_assoc, List.nil_append]
    exact ⟨_, rfl⟩
  rw [hrest] at h
  obtain ⟨t, o₁, -, hrun, -, -⟩ := Transducer.run_append_eq_some.1 h
  rw [run_timestamp_ms fun acc heq => hm ⟨acc, heq⟩] at hrun
  cases hrun

/-! ## The reading of a line -/

/-- **The tokens of a line**: the device's text is read behind a quote, and
must leave the lexer within a string. -/
theorem lex_line (h : sample.FiniteReadings) :
    lex lax (codes (bytes "\x7b\"device_id\":\"") ++ (cps ++ codes (members sample))) = some ts ↔
      ∃ acc ts₁, Transducer.run (lexStep lax) (.inStr []) cps = some (.inStr acc, ts₁) ∧
        ts = [.lbrace, .scalar (.str (text "device_id")), .colon] ++
          (ts₁ ++ .scalar (.str acc) :: lineTokens sample) := by
  have hopen : Transducer.run (lexStep lax) .ground (codes (bytes "\x7b\"device_id\":\"")) =
      some (.inStr [], [.lbrace, .scalar (.str (text "device_id")), .colon]) := by
    cases lax <;> decide +kernel
  unfold lex
  rw [List.append_assoc, List.append_assoc, Transducer.run_append_of_run hopen]
  constructor
  · intro hlex
    split at hlex
    · next ts' hrun =>
      cases hlex
      obtain ⟨ts₀, hrest, rfl⟩ := Transducer.emit_eq_some.1 hrun
      obtain ⟨m, ts₁, ts₂, h₁, h₂, rfl⟩ := Transducer.run_append_eq_some.1 hrest
      obtain ⟨acc, rfl⟩ := inStr_of_run h₂
      rw [run_lineTokens h] at h₂
      cases h₂
      exact ⟨acc, ts₁, h₁, rfl⟩
    · cases hlex
  · rintro ⟨acc, ts₁, h₁, rfl⟩
    rw [Transducer.run_append_of_run h₁, run_lineTokens h, Transducer.emit_some,
      Transducer.emit_some]

/-- **The line can be decoded**: it ends in its only newline, and before it
stands a JSON object in UTF-8 whose `device_id` is the device. -/
def Decodable (lax : Bool) (deviceId : List UChar) (sample : WaterSample) : Prop :=
  ∃ body, uploaderBuildJson deviceId sample = body ++ [newline] ∧ newline ∉ body ∧
    ∃ cs ms cps, decode body = some cs ∧ loads lax cs = some (.obj ms) ∧
      lookup (text "device_id") ms = some (.scalar (.str cps)) ∧ decode deviceId = some cps

/-- UTF-8, and each character can stand as it is in a string of JSON. -/
def cleanId (deviceId : List UChar) : Bool :=
  match decode deviceId with
  | some cps => cps.all clean
  | none => false

theorem cleanId_iff : cleanId deviceId = true ↔
    ∃ cps, decode deviceId = some cps ∧ ∀ c ∈ cps, clean c = true := by
  unfold cleanId
  cases decode deviceId with
  | none => simp
  | some cps => simp

/-- The members of a line with a clean device. -/
def lineMembers (cps : List ℕ) (sample : WaterSample) : List (List ℕ × Value) :=
  (text "device_id", .scalar (.str cps)) :: (fields sample).map fun f => (f.1, .scalar (.num f.2))

theorem loads_line (h : sample.FiniteReadings) (hcps : ∀ c ∈ cps, clean c = true) :
    loads lax (codes (bytes "\x7b\"device_id\":\"") ++ (cps ++ codes (members sample))) =
      some (.obj (lineMembers cps sample)) := by
  have hrun : Transducer.run (lexStep lax) (.inStr []) cps = some (.inStr cps, []) :=
    run_clean hcps
  rw [loads, (lex_line h).2 ⟨cps, [], hrun, rfl⟩, Option.bind_some, lineTokens, lineMembers]
  simp only [List.cons_append, List.nil_append]
  exact parse_object _ _ _

/-- A clean device has no newline. -/
theorem newline_notMem_of_clean (hdecode : decode deviceId = some cps)
    (hcps : ∀ c ∈ cps, clean c = true) : newline ∉ deviceId := by
  intro hmem
  have hnewline : newline.toNat ∈ cps := toNat_mem_of_decode hdecode hmem (by decide)
  exact absurd (hcps _ hnewline) (by decide)

theorem decodable_of_clean (h : sample.FiniteReadings) (hdecode : decode deviceId = some cps)
    (hcps : ∀ c ∈ cps, clean c = true) : Decodable lax deviceId sample := by
  have hnewline : newline ∉ lineBody deviceId sample := by
    have hdrop : newline ∉ (uploaderBuildJson deviceId sample).dropLast :=
      newline_notMem_dropLast (newline_notMem_of_clean hdecode hcps)
    rwa [uploaderBuildJson_eq, List.dropLast_concat] at hdrop
  have hlookup : lookup (text "device_id") (lineMembers cps sample) =
      some (.scalar (.str cps)) := by
    rw [lineMembers]
    refine lookup_cons_of_ne fun a ha => ?_
    obtain ⟨f, hf, rfl⟩ := List.mem_map.1 ha
    exact (clean_fields sample f hf).2
  exact ⟨lineBody deviceId sample, uploaderBuildJson_eq, hnewline, _, _, cps,
    decode_lineBody.2 ⟨cps, hdecode, rfl⟩, loads_line h hcps, hlookup, hdecode⟩

/-- **A string of the line is clean**, or comes from a device that is not
and is shorter. -/
theorem clean_or_shorter {ts₁ : List Token} {x : List ℕ}
    (hx : .scalar (.str x) ∈ [.lbrace, .scalar (.str (text "device_id")), .colon] ++
      (ts₁ ++ .scalar (.str acc) :: lineTokens sample)) (hshort : Shortened cps (.inStr acc) ts₁) :
    (∀ c ∈ x, clean c = true) ∨ x.length < cps.length := by
  simp only [List.cons_append, List.nil_append, List.mem_cons, List.mem_append, reduceCtorEq,
    false_or, Token.scalar.injEq, Scalar.str.injEq] at hx
  rcases hx with rfl | hx | rfl | hx
  · exact Or.inl (by decide +kernel)
  · exact Or.inr (hshort.ended x hx)
  · exact Or.inr hshort.acc
  · simp only [lineTokens, List.mem_append, List.mem_flatMap, memberTokens, List.mem_cons,
      reduceCtorEq, false_or, Token.scalar.injEq, Scalar.str.injEq, List.not_mem_nil, or_false]
      at hx
    obtain ⟨f, hf, rfl⟩ := hx
    exact Or.inl (clean_fields sample f hf).1

/-- **A line that can be decoded has a clean device.** -/
theorem clean_of_decodable (h : sample.FiniteReadings) (hdec : Decodable lax deviceId sample) :
    cleanId deviceId = true := by
  obtain ⟨body, hbody, -, cs, ms, cps, hcs, hloads, hlookup, hdecode⟩ := hdec
  rw [uploaderBuildJson_eq] at hbody
  obtain rfl : lineBody deviceId sample = body := List.append_cancel_right hbody
  obtain ⟨cps', hdecode', rfl⟩ := decode_lineBody.1 hcs
  obtain rfl : cps = cps' := Option.some.inj (hdecode.symm.trans hdecode')
  obtain ⟨ts, hlex, hparse⟩ := Option.bind_eq_some_iff.1 hloads
  obtain ⟨acc, ts₁, hrun, rfl⟩ := (lex_line h).1 hlex
  rcases run_inStr hrun with ⟨-, -, hclean⟩ | hshort
  · exact cleanId_iff.2 ⟨cps, hdecode, hclean⟩
  · have htoken := members_from hparse _ (mem_of_lookup hlookup) _ rfl
    rcases clean_or_shorter htoken hshort with hclean | hlt
    · exact cleanId_iff.2 ⟨cps, hdecode, hclean⟩
    · exact absurd hlt (Nat.lt_irrefl _)

/-- **A line can be decoded exactly when its device is clean.** -/
theorem decodable_iff_clean (h : sample.FiniteReadings) :
    Decodable lax deviceId sample ↔ cleanId deviceId = true := by
  constructor
  · exact clean_of_decodable h
  · intro hclean
    obtain ⟨cps, hdecode, hcps⟩ := cleanId_iff.1 hclean
    exact decodable_of_clean h hdecode hcps

/-! ## The devices of a configuration -/

/-- The device a configuration file gives. -/
def configuredId (atoi : List UChar → UInt) (file : List UChar) : List UChar :=
  (Config.configLoad atoi (some file)).1.deviceId

/-- **The newline of a line is its only one**, whatever the file says. -/
theorem newline_notMem_configured (atoi : List UChar → UInt) (file : List UChar)
    (sample : WaterSample) :
    newline ∉ (uploaderBuildJson (configuredId atoi file) sample).dropLast :=
  newline_notMem_dropLast (Config.storable_configLoad atoi (some file)).newline

/-- **A line can be decoded exactly when the configured device is clean**,
by a reader that keeps to the grammar and by a lax one. -/
theorem configured_decodable_iff (lax : Bool) (atoi : List UChar → UInt) (file : List UChar)
    (h : sample.FiniteReadings) :
    Decodable lax (configuredId atoi file) sample ↔ cleanId (configuredId atoi file) = true :=
  decodable_iff_clean h

/-- The readings of the test sensor. -/
def testSample : WaterSample := ⟨0, ⟨0x40E3D70A⟩, ⟨0x41CC0000⟩, ⟨0x42060000⟩, ⟨0x444D0000⟩, 0, 0, 1⟩

theorem finiteReadings_testSample : testSample.FiniteReadings :=
  ⟨by decide, by decide, by decide, by decide⟩

/-- A name of letters and digits. -/
theorem configured_decodable_iff_gw :
    Decodable true (configuredId (fun _ => 0) (bytes "device_id=gw-001\n")) testSample ↔
      cleanId (configuredId (fun _ => 0) (bytes "device_id=gw-001\n")) = true :=
  configured_decodable_iff true _ _ finiteReadings_testSample

/-- The file gives a name with a quote. -/
def quotedId : List UChar := configuredId (fun _ => 0) (bytes "device_id=a\"b\n")

/-- The file gives 62 letters and an `é`, of which the field keeps the first
byte. -/
def cutId : List UChar :=
  configuredId (fun _ => 0) (bytes "device_id=" ++ List.replicate 62 97 ++ [0xC3, 0xA9, 10])

/-- **A quote in the name, or a character cut in two**: no reader can decode
the lines. -/
theorem not_decodable_quoted :
    (¬ Decodable false quotedId testSample ∧ ¬ Decodable true quotedId testSample) ∧
    (¬ Decodable false cutId testSample ∧ ¬ Decodable true cutId testSample) := by
  have hquoted : cleanId quotedId = false := by decide +kernel
  have hcut : cleanId cutId = false := by decide +kernel
  simp only [decodable_iff_clean finiteReadings_testSample, hquoted, hcut, Bool.false_eq_true,
    not_false_eq_true, and_self]

end Uploader

end WaterGateway
