import WaterGateway.Common.LastWrite
import WaterGateway.Config.Lines

/-!
# The configuration by its keys

`gateway_config_t` has a field for every key, and an assignment changes the
field of its key only. So the configuration behind any assignments is known
key by key, from the last value each key was given.
-/

namespace WaterGateway

namespace Config

open LastWrite

/-- What a field holds. -/
inductive Setting
  | string (str : List UChar)
  | int (x : ℤ)
  deriving DecidableEq

/-- The size of the field of a key, if it is a string. -/
def Key.size : Key → Option ℕ
  | .deviceId => some 64
  | .logLevel | .uploadProtocol => some 16
  | .serialDevice | .alarmDevice | .uploadServerHost => some 128
  | .dbPath | .logFile => some 256
  | _ => none

/-- The field of a key. -/
def Key.get (cfg : GatewayConfig) : Key → Setting
  | .deviceId => .string cfg.deviceId
  | .samplePeriodMs => .int cfg.samplePeriodMs
  | .logLevel => .string cfg.logLevel
  | .serialDevice => .string cfg.serialDevice
  | .baudrate => .int cfg.baudrate
  | .modbusSlaveAddr => .int cfg.modbusSlaveAddr
  | .dbPath => .string cfg.dbPath
  | .maxCacheCount => .int cfg.maxCacheCount
  | .uploadEnabled => .int cfg.uploadEnabled
  | .uploadProtocol => .string cfg.uploadProtocol
  | .uploadServerHost => .string cfg.uploadServerHost
  | .uploadServerPort => .int cfg.uploadServerPort
  | .uploadPeriodMs => .int cfg.uploadPeriodMs
  | .uploadBatchMax => .int cfg.uploadBatchMax
  | .uploadRetryMax => .int cfg.uploadRetryMax
  | .logFile => .string cfg.logFile
  | .alarmDevice => .string cfg.alarmDevice

/-- What is stored for a value. -/
def stored (atoi : List UChar → UInt) (k : Key) (value : List UChar) : Setting :=
  match k.size with
  | some size => .string (copyString size value)
  | none => .int (atoi value).toInt

/-- What the checks behind the loop make of a setting. -/
def repair : Key → Setting → Setting
  | .samplePeriodMs, .int x => .int (if x ≤ 0 then 1000 else x)
  | .baudrate, .int x => .int (if x ≤ 0 then 9600 else x)
  | .modbusSlaveAddr, .int x => .int (if x < 1 ∨ x > 247 then 1 else x)
  | .maxCacheCount, .int x => .int (if x ≤ 0 then 100000 else x)
  | _, setting => setting

variable {atoi : List UChar → UInt} {cfg cfg' : GatewayConfig} {k : Key}

/-- **A configuration is its fields.** -/
theorem ext_get (h : ∀ k : Key, k.get cfg = k.get cfg') : cfg = cfg' := by
  have hstring : ∀ {str str' : List UChar}, Setting.string str = .string str' → str = str' :=
    fun heq => Setting.string.inj heq
  have hint : ∀ {x y : ℤ}, Setting.int x = .int y → x = y := fun heq => Setting.int.inj heq
  obtain ⟨⟩ := cfg
  obtain ⟨⟩ := cfg'
  rw [GatewayConfig.mk.injEq]
  exact ⟨hstring (h .deviceId), hint (h .samplePeriodMs), hstring (h .logLevel),
    hstring (h .serialDevice), hint (h .baudrate), hint (h .modbusSlaveAddr), hstring (h .dbPath),
    hint (h .maxCacheCount), hint (h .uploadEnabled), hstring (h .uploadProtocol),
    hstring (h .alarmDevice), hstring (h .logFile), hstring (h .uploadServerHost),
    hint (h .uploadServerPort), hint (h .uploadPeriodMs), hint (h .uploadBatchMax),
    hint (h .uploadRetryMax)⟩

/-- **An assignment changes the field of its key**, and no other. -/
theorem get_perform (atoi : List UChar → UInt) (cfg : GatewayConfig) (a : Key × List UChar)
    (k : Key) : k.get (perform atoi cfg a) = if a.1 = k then stored atoi k a.2 else k.get cfg := by
  obtain ⟨k', value⟩ := a
  cases k' <;> cases k <;> rfl

/-- **The checks go field by field.** -/
theorem get_validate (cfg : GatewayConfig) (k : Key) :
    k.get (validate cfg) = repair k (k.get cfg) := by
  cases k <;> rfl

/-- The setting of a key behind some assignments. -/
def setting (atoi : List UChar → UInt) (as : List (Key × List UChar)) (k : Key) : Setting :=
  repair k ((lastValue k as).elim (k.get configSetDefault) (stored atoi k))

/-- **The configuration of a file**, key by key. -/
theorem get_configLoad (atoi : List UChar → UInt) (file : List UChar) (k : Key) :
    k.get (configLoad atoi (some file)).1 =
      setting atoi ((Lines.lines 10 file).flatMap readings) k := by
  rw [configLoad, get_validate, foldl_loadLine, setting]
  congr 1
  exact get_foldl (get_perform atoi) configSetDefault k _

/-- A key that no assignment names has its default. -/
theorem setting_of_none {as : List (Key × List UChar)} (h : lastValue k as = none) :
    setting atoi as k = k.get configSetDefault := by
  rw [setting, h, Option.elim_none, ← get_validate, validate_configSetDefault]

/-- Later assignments decide the keys they name. -/
theorem setting_append (as bs : List (Key × List UChar)) (k : Key) :
    setting atoi (as ++ bs) k =
      (lastValue k bs).elim (setting atoi as k) fun value => repair k (stored atoi k value) := by
  rw [setting, lastValue_append]
  cases lastValue k bs <;> rfl

/-- **Files with the same settings** have the same configuration. -/
theorem configLoad_eq_iff {file file' : List UChar} :
    configLoad atoi (some file) = configLoad atoi (some file') ↔
      ∀ k, setting atoi ((Lines.lines 10 file).flatMap readings) k =
        setting atoi ((Lines.lines 10 file').flatMap readings) k := by
  constructor
  · intro h k
    rw [← get_configLoad, h, get_configLoad]
  · intro h
    refine Prod.ext (ext_get fun k => ?_) rfl
    rw [get_configLoad, get_configLoad, h k]

end Config

end WaterGateway
