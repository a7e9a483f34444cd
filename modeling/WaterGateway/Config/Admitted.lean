import WaterGateway.Config.Keys

/-!
# What the consumers of the configuration can represent

The periods are multiplied by 1000 in 32 bits before they reach `usleep`,
the port is cut to 16 bits before `htons`, and the two limits of the
upload go into its query. `config_load` checks the lower bound of one of
these five numbers only, so whether all are admitted is up to the values a
file gives last (`admitted_iff`).
-/

namespace WaterGateway

namespace Config

open LastWrite

/-! ## The consumers -/

/-- `(unsigned int)ms * 1000U`, the argument of `usleep` in `main.c` and in
`uploader.c`. -/
def usleepArg (ms : ℤ) : UInt := BitVec.ofInt 32 ms * 1000

/-- `sleep_ms` of `main.c`: the microseconds it sleeps, if it does. -/
def sleepMs (ms : ℤ) : Option UInt := if ms ≤ 0 then none else some (usleepArg ms)

/-- `(unsigned short)port`, the argument of `htons` in `uploader_connect`. -/
def portArg (port : ℤ) : UShort := BitVec.ofInt 16 port

/-- **Every consumer gets the number that was configured.** -/
structure Admitted (cfg : GatewayConfig) : Prop where
  sample_pos : 0 < cfg.samplePeriodMs
  sample_exact : ∃ us, sleepMs cfg.samplePeriodMs = some us ∧
    (us.toNat : ℤ) = cfg.samplePeriodMs * 1000
  upload_pos : 0 < cfg.uploadPeriodMs
  upload_exact : ((usleepArg cfg.uploadPeriodMs).toNat : ℤ) = cfg.uploadPeriodMs * 1000
  port_range : 1 ≤ cfg.uploadServerPort ∧ cfg.uploadServerPort ≤ 65535
  port_exact : ((portArg cfg.uploadServerPort).toNat : ℤ) = cfg.uploadServerPort
  batch_pos : 1 ≤ cfg.uploadBatchMax
  retry_pos : 1 ≤ cfg.uploadRetryMax

/-- **The numbers a file has to give.** A period from 4294968 on wraps;
a sample period below 1 is put right by `config_load` itself. -/
def InRange : Key → ℤ → Prop
  | .samplePeriodMs, x => x ≤ 4294967
  | .uploadPeriodMs, x => 1 ≤ x ∧ x ≤ 4294967
  | .uploadServerPort, x => 1 ≤ x ∧ x ≤ 65535
  | .uploadBatchMax, x | .uploadRetryMax, x => 1 ≤ x
  | _, _ => True

/-- The value a file gives a key last. -/
def given (k : Key) (file : List UChar) : Option (List UChar) :=
  lastValue k ((Lines.lines 10 file).flatMap readings)

variable {cfg : GatewayConfig} {ms port : ℤ}

theorem sleepMs_of_pos (h : 0 < ms) : sleepMs ms = some (usleepArg ms) := if_neg (by omega)

/-- The product does not wrap below 2³² microseconds. -/
theorem usleepArg_exact_iff (h : 0 < ms) :
    ((usleepArg ms).toNat : ℤ) = ms * 1000 ↔ ms ≤ 4294967 := by
  have htoNat : (usleepArg ms).toNat = (ms % 4294967296).toNat * 1000 % 4294967296 := by
    rw [usleepArg, BitVec.toNat_mul, BitVec.toNat_ofInt]
    rfl
  rw [htoNat]
  omega

theorem portArg_exact (h : 0 ≤ port) (hle : port ≤ 65535) : ((portArg port).toNat : ℤ) = port := by
  have htoNat : (portArg port).toNat = (port % 65536).toNat := BitVec.toNat_ofInt _
  rw [htoNat]
  omega

/-- The range of a field, behind the checks. -/
def Admits : Key → Setting → Prop
  | .samplePeriodMs, .int x => 1 ≤ x ∧ x ≤ 4294967
  | k, .int x => InRange k x
  | _, .string _ => True

/-- **The consumers ask for ranges**, field by field. -/
theorem admitted_iff_forall_admits : Admitted cfg ↔ ∀ k : Key, Admits k (k.get cfg) := by
  constructor
  · intro h k
    cases k with
    | samplePeriodMs =>
      obtain ⟨us, hus, hexact⟩ := h.sample_exact
      rw [sleepMs_of_pos h.sample_pos] at hus
      obtain rfl := Option.some.inj hus
      exact ⟨h.sample_pos, (usleepArg_exact_iff h.sample_pos).1 hexact⟩
    | uploadPeriodMs => exact ⟨h.upload_pos, (usleepArg_exact_iff h.upload_pos).1 h.upload_exact⟩
    | uploadServerPort => exact h.port_range
    | uploadBatchMax => exact h.batch_pos
    | uploadRetryMax => exact h.retry_pos
    | _ => trivial
  · intro h
    obtain ⟨hsample, hsample'⟩ := h .samplePeriodMs
    obtain ⟨hupload, hupload'⟩ := h .uploadPeriodMs
    obtain ⟨hport, hport'⟩ := h .uploadServerPort
    have hpos : 0 < cfg.samplePeriodMs := hsample
    exact
      { sample_pos := hpos
        sample_exact := ⟨_, sleepMs_of_pos hpos, (usleepArg_exact_iff hpos).2 hsample'⟩
        upload_pos := hupload
        upload_exact := (usleepArg_exact_iff hupload).2 hupload'
        port_range := ⟨hport, hport'⟩
        port_exact := portArg_exact (by omega) hport'
        batch_pos := h .uploadBatchMax
        retry_pos := h .uploadRetryMax }

/-- **The defaults are in range.** -/
theorem admitted_configSetDefault : Admitted configSetDefault := by
  rw [admitted_iff_forall_admits]
  intro k
  cases k <;> simp [Key.get, Admits, InRange, configSetDefault]

/-- What the checks leave of a value is in the range of its field if and
only if the value was in its own. -/
theorem admits_repair_iff (atoi : List UChar → UInt) (k : Key) (value : List UChar) :
    Admits k (repair k (stored atoi k value)) ↔ InRange k (atoi value).toInt := by
  cases k with
  | samplePeriodMs =>
    simp only [stored, Key.size, repair, Admits, InRange]
    split_ifs <;> omega
  | _ => simp only [stored, Key.size, repair, Admits, InRange]

/-- **When a file is admitted**: the value it gives each of the five keys
last, if any, is in range. -/
theorem admitted_iff (atoi : List UChar → UInt) (file : List UChar) :
    (configLoad atoi (some file)).2 = 0 ∧
      (Admitted (configLoad atoi (some file)).1 ↔
        ∀ k value, given k file = some value → InRange k (atoi value).toInt) := by
  refine ⟨rfl, ?_⟩
  rw [admitted_iff_forall_admits]
  refine forall_congr' fun k => ?_
  rw [get_configLoad]
  cases hgiven : given k file with
  | none =>
    rw [setting_of_none hgiven]
    simp [admitted_iff_forall_admits.1 admitted_configSetDefault k]
  | some value =>
    have hlast : lastValue k ((Lines.lines 10 file).flatMap readings) = some value := hgiven
    rw [setting, hlast, Option.elim_some, admits_repair_iff]
    simp

/-- A sampling period of 72 minutes that sleeps 704 microseconds, a port
that is another one, and an upload that selects no row. -/
theorem admitted_wraps :
    let atoi : List UChar → UInt := fun str =>
      str.foldl (fun n c => n * 10 + (c.setWidth 32 - 48)) 0
    let cfg := configLoad atoi
      (some (bytes "sample_period_ms=4294968\nupload_server_port=70000\nupload_batch_max=0\n"))
    cfg.2 = 0 ∧ cfg.1.samplePeriodMs = 4294968 ∧ sleepMs cfg.1.samplePeriodMs = some 704 ∧
      portArg cfg.1.uploadServerPort = 4464 ∧ cfg.1.uploadBatchMax = 0 ∧ ¬ Admitted cfg.1 := by
  intro atoi cfg
  -- the file is read once
  have hcfg : (cfg.1.samplePeriodMs, cfg.1.uploadServerPort, cfg.1.uploadBatchMax) =
      (4294968, 70000, 0) := by decide +kernel
  obtain ⟨hperiod, hrest⟩ := Prod.mk.inj hcfg
  obtain ⟨hport, hbatch⟩ := Prod.mk.inj hrest
  refine ⟨rfl, hperiod, ?_, ?_, hbatch, fun h => ?_⟩
  · rw [hperiod]
    decide
  · rw [hport]
    decide
  · exact absurd (hbatch ▸ h.batch_pos) (by decide)

end Config

end WaterGateway
