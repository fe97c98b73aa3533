import Freezeit.ControlState
import Freezeit.ManagerLog
import Mathlib.Algebra.Group.Int.Defs

/-! # The state that the manager and the control loop share

    `ReadOnlyState`, its defaults, and the byte codecs of the app
    configuration. -/

namespace Freezeit

/-- What goes over a socket or into a file. -/
abbrev Bytes : Type := List UInt8

/-- The bytes of a text. -/
def utf8Bytes (text : String) : Bytes := text.toList.flatMap String.utf8EncodeChar

/-- The state behind the mutex. The server changes it in requests, the control loop in its
    cycles, and each of them reads what the other wrote. -/
structure ReadOnlyState where
  moduleId                : String
  moduleName              : String
  version                 : String
  versionCode             : Nat
  author                  : String
  clusterNum              : Nat
  managerLog              : ManagerLog
  changelog               : String
  settings                : Bytes
  xpLog                   : String
  appConfig               : List ManagerAppConfigRecord
  configRevision          : Nat
  appConfigSourceTokens   : SortedMap Nat String
  freezeStatus            : List ManagerFreezeStatusRecord
  moduleEnv               : String
  workMode                : String
  androidVersion          : String
  kernelVersion           : String
  extMemoryMib            : Nat
  daemonHealth            : String
  hookHealth              : String
  healthReportJson        : String
  capabilityReportJson    : String
  compatibilityReportJson : String
  operationLogJson        : String
  selfCheckJson           : String
  controlAllowed          : Bool
  verifiedTargets         : List (String × Nat)
  hookConfigSynced        : Bool
  settingsPath            : Option String
  appConfigPath           : Option String
  appLabelPath            : Option String
  uidTimePath             : String
  uidTimeTotals           : SortedMap Nat Int
  authorizedManagerUids   : SortedSet Nat

/-! ## Defaults -/

/-- The settings are 256 bytes; byte 0 is their version. -/
def legacyDefaultSettings : Bytes :=
  ((List.replicate 256 0).set 0 8 |>.set 2 10 |>.set 3 4 |>.set 4 20 |>.set 5 0 |>.set 6 2
    |>.set 10 1 |>.set 13 1 |>.set 16 1 |>.set 17 1 |>.set 19 1)

theorem length_legacyDefaultSettings : legacyDefaultSettings.length = 256 := by
  unfold legacyDefaultSettings
  simp only [List.length_set, List.length_replicate]

/-- The state before anything is loaded. -/
def ReadOnlyState.default : ReadOnlyState where
  moduleId                := "freezeit"
  moduleName              := "Freezeit"
  version                 := "0.1.0-rust"
  versionCode             := 1
  author                  := "jark006"
  clusterNum              := 0
  managerLog              := .default
  changelog               := ""
  settings                := legacyDefaultSettings
  xpLog                   := "hook health unknown\n"
  appConfig               := []
  configRevision          := 0
  appConfigSourceTokens   := ∅
  freezeStatus            := []
  moduleEnv               := "Magisk"
  workMode                := "Rust daemon degraded"
  androidVersion          := "Unknown"
  kernelVersion           := "Unknown"
  extMemoryMib            := 0
  daemonHealth            := "degraded"
  hookHealth              := "unknown"
  healthReportJson        := "\x7b\"status\":\"degraded\"\x7d"
  capabilityReportJson    := "\x7b\"capabilities\":[]\x7d"
  compatibilityReportJson := "\x7b\"capabilities\":[]\x7d"
  operationLogJson        := "\x7b\"operations\":[]\x7d"
  selfCheckJson           := "\x7b\"controlAllowed\":false\x7d"
  controlAllowed          := false
  verifiedTargets         := []
  hookConfigSynced        := false
  settingsPath            := none
  appConfigPath           := none
  appLabelPath            := none
  uidTimePath             := "/proc/uid_cputime/show_uid_stat"
  uidTimeTotals           := ∅
  authorizedManagerUids   := ∅

/-- A copy; only the buffers of the log tell it from the original. -/
def ReadOnlyState.clone (state : ReadOnlyState) : ReadOnlyState :=
  { state with managerLog := state.managerLog.clone }

/-- A block of the right length and version is kept as it is. Anything else is cut or
    filled up with the defaults and given the version. -/
def normalizeSettings (settings : Option Bytes) : Bytes :=
  match settings with
  | none       => legacyDefaultSettings
  | some bytes =>
    if bytes.length = 256 ∧ bytes.head? = some 8 then bytes
    else (bytes.take 256 ++ legacyDefaultSettings.drop bytes.length).set 0 8

/-! ## The app configuration as bytes -/

/-- `u32::to_le_bytes`. -/
def u32LeBytes (n : Nat) : Bytes :=
  [.ofNat n, .ofNat (n / 2 ^ 8), .ofNat (n / 2 ^ 16), .ofNat (n / 2 ^ 24)]

/-- `i32::to_le_bytes`: the two's complement. -/
def i32LeBytes (n : Int) : Bytes := u32LeBytes (n % 2 ^ 32).toNat

/-- `u32::from_le_bytes`. -/
def u32FromLeBytes (a b c d : UInt8) : Nat :=
  a.toNat + b.toNat * 2 ^ 8 + c.toNat * 2 ^ 16 + d.toNat * 2 ^ 24

def i32FromLeBytes (a b c d : UInt8) : Int :=
  let n : Nat := u32FromLeBytes a b c d
  if n < 2 ^ 31 then n else (n : Int) - 2 ^ 32

/-- Three words, as `decodeAppConfig` reads them. -/
def encodeAppConfigRecord (record : ManagerAppConfigRecord) : Bytes :=
  u32LeBytes record.uid ++ i32LeBytes record.mode ++ i32LeBytes (if record.permissive then 1 else 0)

def encodeAppConfig (records : List ManagerAppConfigRecord) : Bytes :=
  records.flatMap encodeAppConfigRecord

/-- The records of a payload; an incomplete one at the end is an error. -/
def decodeAppConfig : Bytes → Except DaemonError (List ManagerAppConfigRecord)
  | [] => .ok []
  | u₀ :: u₁ :: u₂ :: u₃ :: m₀ :: m₁ :: m₂ :: m₃ :: p₀ :: p₁ :: p₂ :: p₃ :: rest =>
    (decodeAppConfig rest).map fun records =>
      ⟨u32FromLeBytes u₀ u₁ u₂ u₃, i32FromLeBytes m₀ m₁ m₂ m₃,
        i32FromLeBytes p₀ p₁ p₂ p₃ ≠ 0⟩ :: records
  | _ => .error (.protocol "app config payload length is not a multiple of 12")

def u32Max : Nat := 2 ^ 32 - 1

/-- Taken apart and put together again, a number is itself modulo `2 ^ 32`. -/
theorem u32FromLeBytes_ofNat (n : Nat) :
    u32FromLeBytes (.ofNat n) (.ofNat (n / 2 ^ 8)) (.ofNat (n / 2 ^ 16)) (.ofNat (n / 2 ^ 24))
      = n % 2 ^ 32 := by
  simp only [u32FromLeBytes, UInt8.toNat_ofNat']
  omega

/-- The bounds of the record's `u32` and `i32`. -/
@[mk_iff]
structure ManagerAppConfigRecord.InRange (record : ManagerAppConfigRecord) : Prop where
  uid  : record.uid < 2 ^ 32
  mode : -2 ^ 31 ≤ record.mode ∧ record.mode < 2 ^ 31

/-- A list of records is read back from its bytes. -/
theorem decodeAppConfig_encodeAppConfig {records : List ManagerAppConfigRecord}
    (h : ∀ record ∈ records, record.InRange) :
    decodeAppConfig (encodeAppConfig records) = .ok records := by
  induction records with
  | nil => rfl
  | cons record records ih =>
    obtain ⟨huid, hmode⟩ := h record List.mem_cons_self
    have hrest := ih fun r hr => h r (List.mem_cons_of_mem _ hr)
    have hrecord : encodeAppConfig (record :: records)
        = encodeAppConfigRecord record ++ encodeAppConfig records := List.flatMap_cons
    rw [hrecord]
    simp only [encodeAppConfigRecord, u32LeBytes, i32LeBytes, List.cons_append, List.nil_append,
      decodeAppConfig, hrest, i32FromLeBytes, u32FromLeBytes_ofNat]
    obtain ⟨uid, mode, permissive⟩ := record
    have hmodeBack : (if (mode % 2 ^ 32).toNat % 2 ^ 32 < 2 ^ 31
        then (((mode % 2 ^ 32).toNat % 2 ^ 32 : Nat) : Int)
        else (((mode % 2 ^ 32).toNat % 2 ^ 32 : Nat) : Int) - 2 ^ 32) = mode := by
      dsimp only at hmode
      split <;> omega
    have huidBack : uid % 2 ^ 32 = uid := Nat.mod_eq_of_lt huid
    rw [hmodeBack, huidBack]
    cases permissive <;> rfl

/-! ## The configuration that the hook gets -/

def legacyXposedMaxUid : Nat := 99999

/-- `{:05}`. -/
def padFive (n : Nat) : String :=
  let digits := toString n
  String.ofList (List.replicate (5 - digits.length) '0') ++ digits

/-- The token by which the hook knows an app. A uid that needs more than five digits has
    none, and the configuration is then not encoded at all. -/
def managedToken (record : ManagerAppConfigRecord) : Except DaemonError String :=
  if record.uid > legacyXposedMaxUid then
    .error (.protocol s!"uid {record.uid} exceeds the legacy hook five-digit UID format")
  else .ok (padFive record.uid ++ "uid" ++ toString record.uid)

/-- A line of the payload; an empty one is a blank. -/
def payloadLine (tokens : List String) : String :=
  if tokens.isEmpty then " " else " ".intercalate tokens

/-- Three lines: the settings, the apps to control, and those among them that are
    permissive. The modes 40 and 50 are not sent. -/
def encodeXposedConfigPayload (settings appConfigPayload : Bytes) : Except DaemonError Bytes := do
  let records ← decodeAppConfig appConfigPayload
  let selected := records.filter fun record => record.mode ≠ 40 && record.mode ≠ 50
  let managed ← selected.mapM managedToken
  let permissive := (selected.filter (·.permissive)).map fun record => toString record.uid
  let settingsLine := " ".intercalate (settings.map fun value => toString value.toNat)
  return utf8Bytes (settingsLine ++ "\n" ++ payloadLine managed ++ "\n" ++ payloadLine permissive)

/-- The payload of a state's configuration. -/
def currentXposedPayload (state : ReadOnlyState) : Except DaemonError Bytes :=
  encodeXposedConfigPayload state.settings (encodeAppConfig state.appConfig)

end Freezeit
