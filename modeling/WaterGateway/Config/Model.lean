import WaterGateway.Common.Word
import Mathlib.Data.List.DropRight

/-!
# The configuration

`config_load` of `config.c`, from the bytes of the file to the structure it
fills. `fgets` cuts the file into pieces, at newlines and where its buffer
is full; everything behind it reads a piece as a C string, which ends at
the first NUL. `atoi` is a parameter.
-/

namespace WaterGateway

namespace Config

/-- `gateway_config_t`. -/
structure GatewayConfig where
  deviceId : List UChar
  samplePeriodMs : ℤ
  logLevel : List UChar
  serialDevice : List UChar
  baudrate : ℤ
  modbusSlaveAddr : ℤ
  dbPath : List UChar
  maxCacheCount : ℤ
  uploadEnabled : ℤ
  uploadProtocol : List UChar
  alarmDevice : List UChar
  logFile : List UChar
  uploadServerHost : List UChar
  uploadServerPort : ℤ
  uploadPeriodMs : ℤ
  uploadBatchMax : ℤ
  uploadRetryMax : ℤ
  deriving DecidableEq

/-! ## Strings -/

/-- The C string in a buffer. -/
def cString (buf : List UChar) : List UChar := buf.takeWhile fun c => c ≠ 0

/-- `isspace`, in the `"C"` locale. -/
def isspace (c : UChar) : Bool := c = 32 ∨ (9 ≤ c.toNat ∧ c.toNat ≤ 13)

/-- `trim`. -/
def trim (str : List UChar) : List UChar := (str.dropWhile isspace).rdropWhile isspace

/-- `copy_string`: what is in `dst` afterwards, for a `dst_size` that is not
zero. -/
def copyString (dstSize : ℕ) (src : List UChar) : List UChar := src.take (dstSize - 1)

/-- `strchr`: what stands before the character and behind it. -/
def strchr (c : UChar) (str : List UChar) : Option (List UChar × List UChar) :=
  match str.dropWhile fun b => b ≠ c with
  | [] => none
  | _ :: after => some (str.takeWhile fun b => b ≠ c, after)

/-- The pieces `fgets` returns one after another, into a buffer of `size`
bytes; `line` is what it has read of the next one. -/
def fgetsFrom (size : ℕ) : List UChar → List UChar → List (List UChar)
  | line, [] => if line = [] then [] else [line]
  | line, c :: file =>
    if c = 10 ∨ line.length + 2 = size then (line ++ [c]) :: fgetsFrom size [] file
    else fgetsFrom size (line ++ [c]) file

/-- `sizeof(line)`. -/
def lineSize : ℕ := 256

/-! ## Keys -/

/-- The keys of the file. -/
inductive Key
  | deviceId
  | samplePeriodMs
  | logLevel
  | serialDevice
  | baudrate
  | modbusSlaveAddr
  | dbPath
  | maxCacheCount
  | uploadEnabled
  | uploadProtocol
  | uploadServerHost
  | uploadServerPort
  | uploadPeriodMs
  | uploadBatchMax
  | uploadRetryMax
  | logFile
  | alarmDevice
  deriving DecidableEq

def Key.name : Key → List UChar
  | .deviceId => bytes "device_id"
  | .samplePeriodMs => bytes "sample_period_ms"
  | .logLevel => bytes "log_level"
  | .serialDevice => bytes "serial_device"
  | .baudrate => bytes "baudrate"
  | .modbusSlaveAddr => bytes "modbus_slave_addr"
  | .dbPath => bytes "db_path"
  | .maxCacheCount => bytes "max_cache_count"
  | .uploadEnabled => bytes "upload_enabled"
  | .uploadProtocol => bytes "upload_protocol"
  | .uploadServerHost => bytes "upload_server_host"
  | .uploadServerPort => bytes "upload_server_port"
  | .uploadPeriodMs => bytes "upload_period_ms"
  | .uploadBatchMax => bytes "upload_batch_max"
  | .uploadRetryMax => bytes "upload_retry_max"
  | .logFile => bytes "log_file"
  | .alarmDevice => bytes "alarm_device"

/-- The order in which `config_load` compares with them. -/
def keys : List Key :=
  [.deviceId, .samplePeriodMs, .logLevel, .serialDevice, .baudrate, .modbusSlaveAddr, .dbPath,
    .maxCacheCount, .uploadEnabled, .uploadProtocol, .uploadServerHost, .uploadServerPort,
    .uploadPeriodMs, .uploadBatchMax, .uploadRetryMax, .logFile, .alarmDevice]

/-- The chain of `strcmp`s. -/
def keyOf (key : List UChar) : Option Key := keys.find? fun k => key = k.name

/-- `config_set_default`. -/
def configSetDefault : GatewayConfig where
  deviceId := copyString 64 (bytes "water_gateway_001")
  samplePeriodMs := 1000
  logLevel := copyString 16 (bytes "info")
  serialDevice := copyString 128 (bytes "/dev/ttyUSB0")
  baudrate := 9600
  modbusSlaveAddr := 1
  dbPath := copyString 256 (bytes "water_gateway.db")
  maxCacheCount := 100000
  uploadEnabled := 1
  uploadProtocol := copyString 16 (bytes "tcp")
  logFile := copyString 256 (bytes "stdout")
  alarmDevice := copyString 128 (bytes "/dev/newchrled")
  uploadServerHost := copyString 128 (bytes "192.168.2.150")
  uploadServerPort := 18800
  uploadPeriodMs := 5000
  uploadBatchMax := 20
  uploadRetryMax := 3

section Load

variable (atoi : List UChar → UInt)

/-- The assignment a key stands for. -/
def assign (cfg : GatewayConfig) (value : List UChar) : Key → GatewayConfig
  | .deviceId => { cfg with deviceId := copyString 64 value }
  | .samplePeriodMs => { cfg with samplePeriodMs := (atoi value).toInt }
  | .logLevel => { cfg with logLevel := copyString 16 value }
  | .serialDevice => { cfg with serialDevice := copyString 128 value }
  | .baudrate => { cfg with baudrate := (atoi value).toInt }
  | .modbusSlaveAddr => { cfg with modbusSlaveAddr := (atoi value).toInt }
  | .dbPath => { cfg with dbPath := copyString 256 value }
  | .maxCacheCount => { cfg with maxCacheCount := (atoi value).toInt }
  | .uploadEnabled => { cfg with uploadEnabled := (atoi value).toInt }
  | .uploadProtocol => { cfg with uploadProtocol := copyString 16 value }
  | .uploadServerHost => { cfg with uploadServerHost := copyString 128 value }
  | .uploadServerPort => { cfg with uploadServerPort := (atoi value).toInt }
  | .uploadPeriodMs => { cfg with uploadPeriodMs := (atoi value).toInt }
  | .uploadBatchMax => { cfg with uploadBatchMax := (atoi value).toInt }
  | .uploadRetryMax => { cfg with uploadRetryMax := (atoi value).toInt }
  | .logFile => { cfg with logFile := copyString 256 value }
  | .alarmDevice => { cfg with alarmDevice := copyString 128 value }

/-- One round of the loop of `config_load`. -/
def loadLine (cfg : GatewayConfig) (line : List UChar) : GatewayConfig :=
  match trim (cString line) with
  | [] => cfg
  | c :: key =>
    if c = 35 ∨ c = 59 then cfg  -- '#' and ';'
    else
      match strchr 61 (c :: key) with  -- '='
      | none => cfg
      | some (key, value) =>
        match keyOf (trim key) with
        | none => cfg
        | some k => assign atoi cfg (trim value) k

/-- The checks behind the loop. -/
def validate (cfg : GatewayConfig) : GatewayConfig :=
  { cfg with
    samplePeriodMs := if cfg.samplePeriodMs ≤ 0 then 1000 else cfg.samplePeriodMs
    baudrate := if cfg.baudrate ≤ 0 then 9600 else cfg.baudrate
    modbusSlaveAddr :=
      if cfg.modbusSlaveAddr < 1 ∨ cfg.modbusSlaveAddr > 247 then 1 else cfg.modbusSlaveAddr
    maxCacheCount := if cfg.maxCacheCount ≤ 0 then 100000 else cfg.maxCacheCount }

/-- `config_load`, of a file that cannot be opened (`none`) or of its bytes:
the structure, and what it returns. -/
def configLoad : Option (List UChar) → GatewayConfig × ℤ
  | none => (configSetDefault, -1)
  | some file =>
    (validate ((fgetsFrom lineSize [] file).foldl (loadLine atoi) configSetDefault), 0)

end Load

/-- **The defaults pass the checks.** -/
theorem validate_configSetDefault : validate configSetDefault = configSetDefault := rfl

/-! ## The device -/

/-- A string that a field of 64 bytes can hold, of one line. -/
structure Storable (str : List UChar) : Prop where
  length : str.length ≤ 63
  newline : (10 : UChar) ∉ str
  nul : (0 : UChar) ∉ str

/-- A piece has a newline at its end only. -/
theorem newline_notMem_piece {size : ℕ} {line file piece : List UChar}
    (hline : (10 : UChar) ∉ line) (h : piece ∈ fgetsFrom size line file) :
    (10 : UChar) ∉ piece.dropLast := by
  induction file generalizing line with
  | nil =>
    unfold fgetsFrom at h
    split at h
    · cases h
    · rw [List.mem_singleton.1 h]
      exact fun hmem => hline (List.dropLast_subset _ hmem)
  | cons c file ih =>
    unfold fgetsFrom at h
    split at h
    · rcases List.mem_cons.1 h with rfl | h
      · rwa [List.dropLast_concat]
      · exact ih List.not_mem_nil h
    · next hmore =>
      refine ih ?_ h
      rw [List.mem_append, List.mem_singleton]
      rintro (hmem | rfl)
      · exact hline hmem
      · exact hmore (Or.inl rfl)

theorem trim_subset (str : List UChar) : trim str ⊆ str :=
  List.Subset.trans (List.rdropWhile_prefix _ _).subset (List.dropWhile_sublist _).subset

/-- A newline at the end is trimmed. -/
theorem newline_notMem_trim {str : List UChar} (h : (10 : UChar) ∉ str.dropLast) :
    (10 : UChar) ∉ trim str := by
  intro hmem
  obtain ⟨rest, hrest⟩ := List.rdropWhile_prefix isspace (str.dropWhile isspace)
  obtain ⟨front, hfront⟩ := List.dropWhile_suffix isspace (l := str)
  have hne : trim str ≠ [] := List.ne_nil_of_mem hmem
  -- the last byte that is kept is no space, so the newline stands before it
  have hlast : isspace ((trim str).getLast hne) = false := by
    rw [← Bool.not_eq_true]
    exact List.rdropWhile_last_not isspace (str.dropWhile isspace) hne
  have hkept : (10 : UChar) ∈ (trim str).dropLast := by
    rw [← List.dropLast_append_getLast hne, List.mem_append, List.mem_singleton] at hmem
    rcases hmem with hmem | heq
    · exact hmem
    · rw [← heq] at hlast
      cases hlast
  have hstr : str = front ++ ((trim str).dropLast ++ ([(trim str).getLast hne] ++ rest)) := by
    rw [← List.append_assoc (trim str).dropLast, List.dropLast_append_getLast, trim, hrest, hfront]
  apply h
  rw [hstr, ← List.append_assoc, List.dropLast_append_of_ne_nil (by simp)]
  exact List.mem_append_left _ (List.mem_append_right _ hkept)

/-- The C string of a piece has a newline at its end only, too. -/
theorem newline_notMem_cString {buf : List UChar} (h : (10 : UChar) ∉ buf.dropLast) :
    (10 : UChar) ∉ (cString buf).dropLast := by
  obtain ⟨rest, hrest⟩ : cString buf <+: buf := List.takeWhile_prefix _
  intro hmem
  apply h
  rw [← hrest]
  cases rest with
  | nil => rwa [List.append_nil]
  | cons c rest =>
    rw [List.dropLast_append_of_ne_nil (List.cons_ne_nil c rest)]
    exact List.mem_append_left _ (List.dropLast_subset _ hmem)

theorem strchr_subset {c : UChar} {str before after : List UChar}
    (h : strchr c str = some (before, after)) : after ⊆ str := by
  unfold strchr at h
  split at h
  · cases h
  · next b rest hdrop =>
    cases h
    exact List.Subset.trans (List.subset_cons_self b _)
      (hdrop ▸ (List.dropWhile_sublist _).subset)

theorem deviceId_assign (atoi : List UChar → UInt) (cfg : GatewayConfig) (value : List UChar)
    (k : Key) : (assign atoi cfg value k).deviceId = cfg.deviceId ∨
      (assign atoi cfg value k).deviceId = copyString 64 value := by
  cases k with
  | deviceId => exact Or.inr rfl
  | _ => exact Or.inl rfl

theorem storable_loadLine {atoi : List UChar → UInt} {cfg : GatewayConfig} {line : List UChar}
    (hcfg : Storable cfg.deviceId) (hline : (10 : UChar) ∉ line.dropLast) :
    Storable (loadLine atoi cfg line).deviceId := by
  have hnewline : (10 : UChar) ∉ trim (cString line) :=
    newline_notMem_trim (newline_notMem_cString hline)
  have hnul : (0 : UChar) ∉ cString line := fun hmem => by
    simpa using List.mem_takeWhile_imp hmem
  unfold loadLine
  split
  · exact hcfg
  · next c key hkey =>
    rw [← hkey]
    split
    · exact hcfg
    split
    · exact hcfg
    · next key value hchr =>
      -- the value is a part of the trimmed line
      have hvalue : value ⊆ trim (cString line) := strchr_subset hchr
      split
      · exact hcfg
      · next k _ =>
        rcases deviceId_assign atoi cfg (trim value) k with heq | heq
        · rwa [heq]
        · rw [heq]
          have hcopy : copyString 64 (trim value) ⊆ trim (cString line) :=
            List.Subset.trans (List.take_subset _ _) (List.Subset.trans (trim_subset _) hvalue)
          exact ⟨(List.length_take_le _ _), fun hmem => hnewline (hcopy hmem),
            fun hmem => hnul (trim_subset _ (hcopy hmem))⟩

/-- **The device that is stored** fits its field and is one line. -/
theorem storable_configLoad (atoi : List UChar → UInt) (file : Option (List UChar)) :
    Storable (configLoad atoi file).1.deviceId := by
  have hdefault : Storable configSetDefault.deviceId :=
    ⟨by decide +kernel, by decide +kernel, by decide +kernel⟩
  cases file with
  | none => exact hdefault
  | some file =>
    exact List.foldlRecOn (motive := fun cfg => Storable (validate cfg).deviceId)
      (fgetsFrom lineSize [] file) (loadLine atoi) hdefault
      (fun cfg hcfg piece hpiece => storable_loadLine hcfg
        (newline_notMem_piece List.not_mem_nil hpiece))

/-- Comments, blanks and the last assignment of a key. -/
example : (configLoad (fun _ => 0)
    (some (bytes "# x\n device_id = a b \r\n\ndevice_id=c=d"))).1.deviceId = bytes "c=d" := by
  decide +kernel

end Config

end WaterGateway
