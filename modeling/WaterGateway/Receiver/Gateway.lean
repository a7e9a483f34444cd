import WaterGateway.Receiver.Resync
import WaterGateway.Uploader.Decodable

/-!
# From the uploader to the receiver

What the uploader puts on a connection, from a device with a clean name, is
counted sample by sample, in whatever pieces it arrives; a last line that
is cut short is not.
-/

namespace WaterGateway

namespace Receiver

open Json Lines Utf8 Uploader

variable {lax : Bool} {py : Python} {c : Counters} {deviceId : List UChar} {cps : List ℕ}
variable {sample : WaterSample} {name : List ℕ} {v : Value}

theorem names_lineMembers (cps : List ℕ) (sample : WaterSample) :
    (lineMembers cps sample).map Prod.fst = uploaderFields.map text := by
  rw [lineMembers, List.map_cons, List.map_map]
  rfl

/-- A fixed-point numeral is no `int`. -/
theorem isInt_fixed2 {x : Single} (h : x.finite = true) : isInt (codes (fixed2 x)) = false := by
  obtain ⟨hnan, hinf⟩ : x.isNaN = false ∧ x.isInf = false := by simpa [Single.finite] using h
  have hpoint : 46 ∈ codes (fixed2 x) := by
    rw [fixed2, magnitude2, hnan, hinf]
    have hdot : 46 ∈ codes (bytes ".") := by decide +kernel
    split <;> simp [codes_append, hdot]
  rw [isInt, List.all_eq_false]
  exact ⟨46, hpoint, by decide⟩

/-- The members that are printed with two decimals are such numerals. -/
theorem numeric_of_mem (h : sample.FiniteReadings) (hmem : (name, v) ∈ lineMembers cps sample)
    (hname : name ∈ [text "ph", text "temperature", text "turbidity"]) : Numeric v := by
  have hfixed : ∀ x : Single, x.finite = true → Numeric (.scalar (.num (codes (fixed2 x)))) := by
    intro x hx
    rw [Numeric, intOverflows, isInt_fixed2 hx, Bool.false_and]
  simp only [lineMembers, fields, List.map_cons, List.map_nil, List.mem_cons, Prod.mk.injEq,
    List.not_mem_nil, or_false] at hmem
  rcases hmem with ⟨rfl, rfl⟩ | ⟨rfl, rfl⟩ | ⟨rfl, rfl⟩ | ⟨rfl, rfl⟩ | ⟨rfl, rfl⟩ | ⟨rfl, rfl⟩ |
    ⟨rfl, rfl⟩ | ⟨rfl, rfl⟩ | ⟨rfl, rfl⟩
  · exact absurd hname (by decide +kernel)
  · exact absurd hname (by decide +kernel)
  · exact hfixed _ h.ph
  · exact hfixed _ h.temperature
  · exact hfixed _ h.turbidity
  · exact absurd hname (by decide +kernel)
  · exact absurd hname (by decide +kernel)
  · exact absurd hname (by decide +kernel)
  · exact absurd hname (by decide +kernel)

theorem isSome_lookup_lineMembers {field : String} (h : field ∈ uploaderFields) :
    (lookup (text field) (lineMembers cps sample)).isSome = true := by
  refine isSome_lookup ?_
  rw [names_lineMembers]
  exact List.mem_map_of_mem h

/-- **A message of the gateway can be printed.** -/
theorem printable_lineMembers (h : sample.FiniteReadings)
    (hpy : py.encodes (lineMembers cps sample) = true) : Printable py (lineMembers cps sample) := by
  have hnames : ∀ f ∈ printed, f.1 ∈ uploaderFields := by decide
  have hdecimals : ∀ f ∈ printed, f.2 = true →
      text f.1 ∈ [text "ph", text "temperature", text "turbidity"] := by decide +kernel
  refine ⟨fun f hf => ?_, hpy⟩
  have hpresent : (lookup (text f.1) (lineMembers cps sample)).isSome = true :=
    isSome_lookup_lineMembers (hnames f hf)
  obtain ⟨v, hv⟩ := Option.isSome_iff_exists.1 hpresent
  exact ⟨v, hv, fun htwo => numeric_of_mem h (mem_of_lookup hv) (hdecimals f hf htwo)⟩

/-- The text of a line, from a device with this name. -/
def lineText (cps : List ℕ) (sample : WaterSample) : List ℕ :=
  codes (bytes "\x7b\"device_id\":\"") ++ (cps ++ codes (members sample))

/-- The interpreter takes the line. -/
structure Takes (py : Python) (cps : List ℕ) (sample : WaterSample) : Prop where
  limits : py.limits (lineText cps sample) = none
  encodes : py.encodes (lineMembers cps sample) = true

/-- A device whose name can stand as it is. -/
structure CleanDevice (deviceId : List UChar) (cps : List ℕ) : Prop where
  decoded : decode deviceId = some cps
  clean : ∀ c ∈ cps, clean c = true

theorem objectOf_lineBody (hdevice : CleanDevice deviceId cps) (h : sample.FiniteReadings) :
    objectOf lax (lineBody deviceId sample) = some (lineMembers cps sample) :=
  objectOf_eq_some.2 ⟨lineText cps sample, decode_lineBody.2 ⟨cps, hdevice.decoded, rfl⟩,
    loads_line h hdevice.clean⟩

/-- **A line of the gateway is a message.** -/
theorem messageOf_lineBody (hdevice : CleanDevice deviceId cps) (h : sample.FiniteReadings) :
    messageOf lax (lineBody deviceId sample) = some (lineMembers cps sample) := by
  refine messageOf_eq_some.2 ⟨objectOf_lineBody hdevice h, ?_⟩
  rw [complete, List.all_eq_true]
  exact fun name hname => isSome_lookup_lineMembers hname

theorem harmless_lineBody (hdevice : CleanDevice deviceId cps) (h : sample.FiniteReadings)
    (hpy : Takes py cps sample) : Harmless lax py (lineBody deviceId sample) := by
  have hmessage : messageOf lax (lineBody deviceId sample) = some (lineMembers cps sample) :=
    messageOf_lineBody hdevice h
  obtain ⟨-, hcomplete⟩ := messageOf_eq_some.1 hmessage
  exact Or.inr ⟨lineText cps sample, decode_lineBody.2 ⟨cps, hdevice.decoded, rfl⟩, hpy.limits,
    Or.inr ⟨_, loads_line h hdevice.clean, hcomplete, printable_lineMembers h hpy.encodes⟩⟩

/-- **What the gateway sends is counted**: whole lines on a connection and
one that is cut short, in whatever pieces they arrive. -/
theorem receiver_counts_samples {samples : List WaterSample} {tail : List UChar} {rs : List Recv}
    (hdevice : CleanDevice deviceId cps) (hfinite : ∀ sample ∈ samples, sample.FiniteReadings)
    (hpy : ∀ sample ∈ samples, Takes py cps sample) (htail : Uploader.newline ∉ tail)
    (hrs : received rs = samples.flatMap (uploaderBuildJson deviceId) ++ tail) :
    ∃ c', receiver py c [rs] = .ok c' ∧
      c'.counted = c.counted ++ samples.map (lineMembers cps) := by
  have hlines : completeLines rs = samples.map (lineBody deviceId) := by
    have hjoin : samples.flatMap (uploaderBuildJson deviceId) =
        (samples.map (lineBody deviceId)).flatMap fun line => line ++ [newline] := by
      rw [List.flatMap_map]
      exact List.flatMap_congr fun sample _ => uploaderBuildJson_eq
    rw [completeLines, hrs, hjoin, cut_joined]
    · intro line hline
      obtain ⟨sample, -, rfl⟩ := List.mem_map.1 hline
      have hdrop : Uploader.newline ∉ (uploaderBuildJson deviceId sample).dropLast :=
        newline_notMem_dropLast (newline_notMem_of_clean hdevice.decoded hdevice.clean)
      rwa [uploaderBuildJson_eq, List.dropLast_concat] at hdrop
    · exact htail
  have hmessages : messages true [rs] = samples.map (lineMembers cps) := by
    have hline : ∀ sample ∈ samples, (messageOf true ∘ lineBody deviceId) sample =
        (some ∘ lineMembers cps) sample :=
      fun sample hsample => messageOf_lineBody hdevice (hfinite sample hsample)
    rw [messages, List.flatMap_singleton, hlines, List.filterMap_map, List.filterMap_congr hline,
      List.filterMap_eq_map]
  have hharmless : ∀ line ∈ [rs].flatMap completeLines, Harmless true py line := by
    intro line hline
    rw [List.flatMap_singleton, hlines] at hline
    obtain ⟨sample, hsample, rfl⟩ := List.mem_map.1 hline
    exact harmless_lineBody hdevice (hfinite sample hsample) (hpy sample hsample)
  obtain ⟨c', hrun, hcounts⟩ := resynchronises_of_harmless (c := c) hharmless
  exact ⟨c', hrun, by rw [hcounts.counted, hmessages]⟩

end Receiver

end WaterGateway
