import Freezeit.Lib.FileSystem
import Freezeit.PolicyFile

/-! # The requests of the manager

    `handle_manager_command`: what each request does to the state, to the
    configuration files and to the hook.  A handler returns its response and
    the state it leaves, also when it fails. -/

namespace Freezeit

open Prog

/-! ## What a request calls -/

/-- A configuration file, and the temporary file that replaces it. -/
inductive ConfigFile where
  | target (path : String)
  | temporary (path : String)
  deriving DecidableEq, Repr

/-- The commands of the manager app. -/
inductive ManagerCommand where
  | getPropInfo | getChangelog | getLog | getAppCfg | getRealTimeInfo | getSettings | getUidTime
  | getXpLog | getFreezeStatus | setAppCfg | setAppLabel | setSettingsVar | clearLog | getProcState
  | getHealthReport | getCapabilityReport | getCompatibilityBaseline | getOperationLogJson
  | runSelfCheck
  deriving DecidableEq, Repr

/-- One request. -/
structure ManagerFrame where
  command : ManagerCommand
  payload : Bytes
  deriving DecidableEq, Repr

/-- The severity filter of a log view. -/
inductive LogView where
  | info | warn | error | critical | debug
  deriving DecidableEq, Repr

/-- What the handling of a request asks of the system. -/
inductive ManagerQuery where
  | file (op : FileOp ConfigFile Bytes)
  /-- Flush the directory that holds the file. -/
  | syncParent (path : String)
  /-- Send the configuration to the hook. -/
  | setAppConfig (payload : Bytes)
  | now
  | readUidTime (path : String)
  | realtimeInfo (payload settings : Bytes)
  /-- The text of the log in the local time zone. -/
  | renderLog (log : ManagerLog) (view : LogView)
  deriving DecidableEq

/-- The answers to these queries. -/
@[reducible] def ManagerQuery.Answer : ManagerQuery → Type
  | .file op          => op.Answer IoError
  | .syncParent _     => Except IoError Unit
  | .setAppConfig _   => Except DaemonError Bool
  | .now              => Nat
  | .readUidTime _    => Except IoError String
  | .realtimeInfo _ _ => Except DaemonError Bytes
  | .renderLog _ _    => String

/-- Programs that ask them. -/
abbrev Manager (α : Type) : Type := Prog ManagerQuery ManagerQuery.Answer α

/-- A query with its answer. -/
abbrev ManagerCall : Type := Event ManagerQuery ManagerQuery.Answer

/-- The queries of a run with their answers, in order. -/
abbrev ManagerTrace : Type := List ManagerCall

/-- To ask one query. -/
def managerCall (query : ManagerQuery) : Manager query.Answer := Prog.ask query

/-- One operation on a file. -/
def fileCall (op : FileOp ConfigFile Bytes) : Manager (op.Answer IoError) := managerCall (.file op)

/-- What a handler ends with: its response and the state. -/
abbrev Reply : Type := Except DaemonError Bytes × ReadOnlyState

/-! ## Files -/

/-- The components of a path, without the current directory. -/
def pathComponents (path : String) : List (List Char) :=
  (Text.splitChars (· = '/') path.toList).filter fun piece => piece ≠ [] && piece ≠ ['.']

/-- `Path::file_name`. -/
def pathFileName (path : String) : Option String :=
  ((pathComponents path).getLast?.filter (· ≠ ['.', '.'])).map String.ofList

/-- `Path::parent` is there. -/
def pathHasParent (path : String) : Bool :=
  !(pathComponents path).isEmpty
    || (Text.splitChars (· = '/') path.toList).head? = some ['.']

/-- The directory of a file is flushed. -/
def syncParent (path : String) : Manager (Except DaemonError Unit) := do
  if !pathHasParent path then return .error (.config "persistence path has no parent directory")
  else return (← managerCall (.syncParent path)).mapError .io

/-- Write the payload beside the file and rename it over the file. -/
def atomicWrite (path : String) (payload : Bytes) : Manager (Except DaemonError Unit) := do
  if (pathFileName path).isNone then
    return .error (.config "persistence path has no valid file name")
  else
    match ← fileCall (.truncate (.temporary path)) with
    | .error error => return .error (.io error)
    | .ok () =>
      match ← fileCall (.write (.temporary path) payload) with
      | .error error => return .error (.io error)
      | .ok () =>
        match ← fileCall (.sync (.temporary path)) with
        | .error error => return .error (.io error)
        | .ok () =>
          match ← fileCall (.rename (.temporary path) (.target path)) with
          | .error error => return .error (.io error)
          | .ok () => syncParent path

/-- The file is read back and holds what was to be written; an error counts as no. -/
def persistedBytesMatch (path : String) (expected : Bytes) : Manager Bool := do
  match ← fileCall (.read (.target path)) with
  | .ok persisted => return persisted = expected
  | .error _      => return false

/-- The file, if there is one. -/
def readExistingFile (path : Option String) : Manager (Except DaemonError (Option Bytes)) := do
  match path with
  | none => return .error (.config "persistence path is not configured")
  | some path =>
    match ← fileCall (.read (.target path)) with
    | .ok bytes    => return .ok (some bytes)
    | .error error => return if error.kind = .notFound then .ok none else .error (.io error)

/-- The file is put back as it was, which may mean that it is removed. -/
def restoreFile (path : Option String) (previous : Option Bytes) :
    Manager (Except DaemonError Unit) := do
  match path with
  | none => return .error (.config "persistence path is not configured")
  | some path =>
    match previous with
    | some bytes => atomicWrite path bytes
    | none =>
      match ← fileCall (.remove (.target path)) with
      | .ok ()       => syncParent path
      | .error error => return if error.kind = .notFound then .ok () else .error (.io error)

/-! ## The shared state -/

/-- A message is logged at the present time. -/
def appendLegacyLogMessage (state : ReadOnlyState) (message : String) : Manager ReadOnlyState := do
  let timestampMs ← managerCall .now
  return { state with managerLog := state.managerLog.push (.legacyText timestampMs message) }

/-- `wrapping_add` on the revision. -/
def advanceConfigRevision (state : ReadOnlyState) : ReadOnlyState :=
  { state with configRevision := (state.configRevision + 1) % 2 ^ 64 }

/-- New settings in memory; the revision advances only if they differ. -/
def commitSettings (state : ReadOnlyState) (settings : Bytes) : ReadOnlyState :=
  if state.settings = settings then { state with settings := settings }
  else advanceConfigRevision { state with settings := settings }

/-- A new policy in memory; the revision advances only if the records differ. -/
def commitAppConfig (state : ReadOnlyState) (records : List ManagerAppConfigRecord)
    (sourceTokens : SortedMap Nat String) : ReadOnlyState :=
  let committed : ReadOnlyState :=
    { state with appConfig := records, appConfigSourceTokens := sourceTokens }
  if state.appConfig = records then committed else advanceConfigRevision committed

/-- The hook has to be given the configuration again. -/
def unsync (state : ReadOnlyState) : ReadOnlyState := { state with hookConfigSynced := false }

/-! ## SetAppCfg -/

/-- The policy is on disk, or it is there but was not confirmed to stay. -/
inductive AppConfigPersistenceOutcome where
  | durable (sourceTokens : SortedMap Nat String)
  | committedButUnconfirmed (sourceTokens : SortedMap Nat String)

/-- The policy is written, unless it is the one that the file holds. -/
def persistAppConfig (state : ReadOnlyState)
    (previousRecords records : List ManagerAppConfigRecord) (previousFile : Option Bytes) :
    Manager (Except DaemonError AppConfigPersistenceOutcome) := do
  match state.appConfigPath with
  | none => return .error (.config "app config persistence path is not configured")
  | some path =>
    if previousFile.isSome ∧ records = previousRecords then
      return .ok (.durable (retainedSourceTokens state previousRecords))
    else
      match renderAppConfig state previousRecords records previousFile with
      | .error error => return .error error
      | .ok (text, sourceTokens) =>
        let payload := utf8Bytes text
        let kept := sourceTokens.retain fun uid _ => (recordsByUid records).contains uid
        match ← atomicWrite path payload with
        | .ok () => return .ok (.durable kept)
        | .error error =>
          if ← persistedBytesMatch path payload then return .ok (.committedButUnconfirmed kept)
          else return .error error

/-- The old file is restored and the old configuration is sent; both are tried. -/
def rollbackFailedAppConfigUpdate (state : ReadOnlyState) (previousFile : Option Bytes)
    (previousXposedPayload : Bytes) : Manager (Except DaemonError Unit × ReadOnlyState) := do
  let state := unsync state
  let diskResult ← restoreFile state.appConfigPath previousFile
  let hookResult ← managerCall (.setAppConfig previousXposedPayload)
  match diskResult with
  | .error diskError =>
    let detail :=
      match hookResult with
      | .ok true => s!"disk restore failed: {diskError}"
      | .ok false =>
        s!"disk restore failed: {diskError}; hook restore rejected the previous config"
      | .error hookError =>
        s!"disk restore failed: {diskError}; hook restore failed: {hookError}"
    return (.error (.system detail), state)
  | .ok () =>
    match hookResult with
    | .ok true => return (.ok (), state)
    | .ok false | .error _ =>
      return (.ok (), ← appendLegacyLogMessage state "配置回滚：Xposed未确认旧配置，将在后台重试")

/-- What changed is logged, if anything did. -/
def logConfigChange (state : ReadOnlyState) (records : List ManagerAppConfigRecord) :
    Manager ReadOnlyState :=
  match formatConfigChangeLog state.appConfig records with
  | some message => appendLegacyLogMessage state message
  | none         => pure state

/-- The hook's answer to the new configuration. -/
def finishAppConfig (state : ReadOnlyState) (records : List ManagerAppConfigRecord)
    (sourceTokens : SortedMap Nat String) (previousFile : Option Bytes)
    (previousXposedPayload xposedPayload : Bytes) : Manager Reply := do
  match ← managerCall (.setAppConfig xposedPayload) with
  | .ok true =>
    let state ← logConfigChange state records
    return (.ok (utf8Bytes "success"),
      { commitAppConfig state records sourceTokens with hookConfigSynced := true })
  | .ok false =>
    match ← rollbackFailedAppConfigUpdate state previousFile previousXposedPayload with
    | (.error error, state) =>
      let state ← appendLegacyLogMessage state s!"配置更新失败，回滚未完成：{error}"
      return (.error error, state)
    | (.ok (), state) =>
      let state ← appendLegacyLogMessage state "配置更新失败：Xposed拒绝新的应用配置"
      return (.ok (utf8Bytes "failure"), state)
  | .error error =>
    match ← rollbackFailedAppConfigUpdate state previousFile previousXposedPayload with
    | (.ok (), state) => return (.error error, state)
    | (.error rollbackError, state) =>
      return (.error (.system
        s!"xposed config update failed: {error}; rollback failed: {rollbackError}"), state)

/-- `set_app_config_with_persistence_writer`. -/
def setAppConfig (state : ReadOnlyState) (payload : Bytes) : Manager Reply := do
  let previousRecords := state.appConfig
  match encodeXposedConfigPayload state.settings (encodeAppConfig previousRecords) with
  | .error error => return (.error error, state)
  | .ok previousXposedPayload =>
    match decodeAppConfig payload with
    | .error error => return (.error error, state)
    | .ok requestedRecords =>
      let records := mergeAppConfigRecords previousRecords requestedRecords
      match encodeXposedConfigPayload state.settings (encodeAppConfig records) with
      | .error error => return (.error error, state)
      | .ok xposedPayload =>
        match ← readExistingFile state.appConfigPath with
        | .error error => return (.error error, state)
        | .ok previousFile =>
          match ← persistAppConfig state previousRecords records previousFile with
          | .error error => return (.error error, unsync state)
          | .ok (.committedButUnconfirmed sourceTokens) =>
            let state ← appendLegacyLogMessage
              (unsync (commitAppConfig state records sourceTokens))
              "配置写入未确认完成，但磁盘已更新；Xposed配置将在后台重新同步"
            return (.ok (utf8Bytes "failure"), state)
          | .ok (.durable sourceTokens) =>
            finishAppConfig state records sourceTokens previousFile previousXposedPayload
              xposedPayload

/-! ## SetSettingsVar -/

/-- The complaint about a setting, if there is one. -/
def settingError (index value : Nat) : Option String :=
  if index = 2 ∧ ¬ (1 ≤ value ∧ value ≤ 60) then some s!"超时冻结参数错误, 欲设为:{value}"
  else if index = 3 ∧ value > 5 then some s!"定时解冻参数错误 欲设为:{value}"
  else if index = 4 ∧ ¬ (3 ≤ value ∧ value ≤ 120) then some s!"超时杀死参数错误, 欲设为:{value}"
  else if index = 5 ∧ value > 2 then some s!"冻结模式参数错误, 欲设为:{value}"
  else if index = 6 ∧ value > 3 then some s!"定时压制参数错误, 欲设为:{value}"
  else if index = 30 ∧ value > 4 then some s!"日志级别无效, 正常范围:0..4, 欲设为:{value}"
  else if (10 ≤ index ∧ index ≤ 29) ∧ value ≠ 0 ∧ value ≠ 1 then
    some s!"开关值错误, 正常范围:0/1, 欲设为:{value}"
  else if (2 ≤ index ∧ index ≤ 6) ∨ (10 ≤ index ∧ index ≤ 30) then none
  else some s!"设置项不存在, [{index}]:[{value}]"

/-- The settings with one of them changed. -/
def updatedSettings (settings : Bytes) (index : Nat) (value : UInt8) : Bytes :=
  (if settings.length = 256 then settings else normalizeSettings (some settings)).set index value

/-- `set_settings_var_with_writer`: the text of the response, and the state. -/
def setSettingsVar (state : ReadOnlyState) (payload : Bytes) : Manager (String × ReadOnlyState) := do
  match payload with
  | [index, value] =>
    match settingError index.toNat value.toNat with
    | some error => return (error, state)
    | none =>
      let settings := updatedSettings state.settings index.toNat value
      match state.settingsPath with
      | none =>
        return (s!"写入设置文件失败, [{index.toNat}]:{value.toNat}: persistence path missing",
          unsync state)
      | some path =>
        match ← atomicWrite path settings with
        | .ok () => return ("success", commitSettings state settings)
        | .error error =>
          let persisted ← persistedBytesMatch path settings
          let state := if persisted then commitSettings state settings else state
          return (s!"写入设置文件失败, [{index.toNat}]:{value.toNat}: {error}", unsync state)
  | _ => return (s!"数据长度不正确, 正常:2, 收到:{payload.length}", state)

/-! ## The other requests -/

/-- A field on one line. -/
def sanitizeLegacyLogField (value : String) : String :=
  String.ofList (value.toList.map fun c => if c = '\n' ∨ c = '\r' ∨ c = '\t' then ' ' else c)

/-- The label of a line: what stands after the uid. -/
def labelOfLine (line : String) : Option String :=
  let label := (Text.trim line).toList.dropWhile fun c => !Text.isWhitespace c
  let label := Text.trim (String.ofList label)
  if label.isEmpty then none else some label

/-- The labels of a request, one a line. -/
def decodeAppLabelPayload (payload : Bytes) : List String :=
  (Text.lines (Utf8.decodeLossy payload)).filterMap labelOfLine

/-- The message about new labels. -/
def formatLabelUpdateLog (labels : List String) : String :=
  if labels.isEmpty then "更新 0 款应用名称"
  else
    let labelText := " ".intercalate (labels.map fun label => s!"[{sanitizeLegacyLogField label}]")
    s!"更新 {labels.length} 款应用名称:\n\n{labelText}"

/-- The labels are written to their file and logged. -/
def setAppLabel (state : ReadOnlyState) (payload : Bytes) : Manager Reply := do
  match state.appLabelPath with
  | none => return (.error (.config "app label persistence path is not configured"), state)
  | some path =>
    match ← atomicWrite path payload with
    | .error error => return (.error error, state)
    | .ok () =>
      let message := formatLabelUpdateLog (decodeAppLabelPayload payload)
      return (.ok (utf8Bytes "success"), ← appendLegacyLogMessage state message)

def legacyFreezeStatusName (state : Int) : String :=
  if state = 0 then "后台运行"
  else if state = 1 then "前台"
  else if state = 2 then "等待冻结"
  else if state = 3 then "已冻结"
  else "未知"

/-- The table that `GetProcState` appends to the log, one row for each app. A negative
    count of seconds or of processes is shown as zero. -/
def procStateSummary (records : List ManagerFreezeStatusRecord) : String :=
  if records.isEmpty then "进程冻结状态:\n\n PID | MiB |  状 态  | 进 程\n后台很干净，一个黑名单应用都没有"
  else
    let rows := records.map fun record =>
      let foreground := if record.foreground then "前台" else "后台"
      s!"{record.uid} | {foreground} | "
        ++ s!"{legacyFreezeStatusName record.state} | {max record.seconds 0} | "
        ++ s!"{max record.processCount 0}"
    "进程冻结状态:\n\n UID | 前台 | 状态 | 秒 | 进程\n" ++ "\n".intercalate rows

/-- Five words for each app: uid, foreground, state, seconds and processes. -/
def encodeFreezeStatus (records : List ManagerFreezeStatusRecord) : Bytes :=
  records.flatMap fun record =>
    u32LeBytes record.uid ++ i32LeBytes (if record.foreground then 1 else 0)
      ++ i32LeBytes record.state ++ i32LeBytes (max record.seconds 0)
      ++ i32LeBytes (max record.processCount 0)

/-- An empty configuration is answered by one record that stands for no app. -/
def encodeAppConfigForManager (records : List ManagerAppConfigRecord) : Bytes :=
  if records.isEmpty then encodeAppConfig [⟨u32Max, 50, false⟩] else encodeAppConfig records

/-- `saturating_add` and `saturating_sub` of a `bits`-bit integer. -/
def saturate (bits : Nat) (n : Int) : Int := max (-(2 ^ (bits - 1))) (min n (2 ^ (bits - 1) - 1))

/-- `<uid>: <user> <system>` in microseconds; the sum saturates in 64 bits and is then cut
    to the milliseconds that fit in a signed 32-bit word. -/
def parseUidCpuTimeLine (line : String) : Option (Nat × Int) := do
  let (uidText, timesText) ← Text.splitOnce ':' line
  let uid ← Text.parseUnsigned (2 ^ 32) (Text.trim uidText)
  match Text.splitWhitespace timesText with
  | userText :: systemText :: _ =>
    let user ← Text.parseSigned 64 userText
    let system ← Text.parseSigned 64 systemText
    let totalMs := (saturate 64 (user + system)).tdiv 1000
    return (uid, max 0 (min totalMs (2 ^ 31 - 1)))
  | _ => none

/-- The totals with each reading, and the rows of uid, increase and total. -/
def uidTimeRows : List (Nat × Int) → SortedMap Nat Int →
    List (Nat × Int × Int) × SortedMap Nat Int
  | [], totals => ([], totals)
  | (uid, totalMs) :: rest, totals =>
    let deltaMs := saturate 32 (totalMs - (totals.get? uid).getD 0)
    let (rows, totals) := uidTimeRows rest (totals.insert uid totalMs)
    ((uid, deltaMs, totalMs) :: rows, totals)

/-- The rows of the managed apps whose time is known, by falling total. The totals of apps
    that are no longer managed are dropped. -/
def encodeUidTime (state : ReadOnlyState) : Manager Reply := do
  let text := (← managerCall (.readUidTime state.uidTimePath)).toOption.getD ""
  let managedUids := (state.appConfig.filter fun record =>
    record.uid ≠ u32Max && record.mode ≠ 40 && record.mode ≠ 50).map ManagerAppConfigRecord.uid
  if managedUids.isEmpty then return (.ok [], { state with uidTimeTotals := ∅ })
  else
    let readings := (((Text.lines text).filterMap parseUidCpuTimeLine).filter
      fun (uid, totalMs) => managedUids.contains uid && totalMs > 0)
    let (rows, totals) := uidTimeRows readings state.uidTimeTotals
    let sorted := rows.insertionSort fun a b => a.2.2 > b.2.2 ∨ a.2.2 = b.2.2 ∧ a.1 ≤ b.1
    let payload := sorted.flatMap fun (uid, deltaMs, totalMs) =>
      u32LeBytes uid ++ i32LeBytes deltaMs ++ i32LeBytes totalMs
    return (.ok payload,
      { state with uidTimeTotals := totals.retain fun uid _ => managedUids.contains uid })

/-- `decode_log_view`; the second part says that the value was unknown. -/
def decodeLogView (value : UInt8) : LogView × Bool :=
  if value = 0 then (.info, false)
  else if value = 1 then (.debug, false)
  else if value = 2 then (.warn, false)
  else if value = 3 then (.error, false)
  else if value = 4 then (.critical, false)
  else (.info, true)

def logLevelSettingIndex : Nat := 30

/-- The fields of `GetPropInfo` in their fixed order, one a line. -/
def propInfo (state : ReadOnlyState) : String :=
  "\n".intercalate [state.moduleId, state.moduleName, state.version, toString state.versionCode,
    state.author, toString state.clusterNum, state.moduleEnv, state.workMode, state.androidVersion,
    state.kernelVersion, toString state.extMemoryMib, state.daemonHealth, state.hookHealth]

/-- `handle_read_only_command`. -/
def handleReadOnlyCommand (command : ManagerCommand) (state : ReadOnlyState) :
    Manager (Except DaemonError Bytes) := do
  match command with
  | .getPropInfo  => return .ok (utf8Bytes (propInfo state))
  | .getChangelog => return .ok (utf8Bytes state.changelog)
  | .getLog =>
    let view := (decodeLogView (state.settings[logLevelSettingIndex]?.getD 0)).1
    return .ok (utf8Bytes (← managerCall (.renderLog state.managerLog view)))
  | .getSettings => return .ok state.settings
  | .getXpLog    => return .ok (utf8Bytes state.xpLog)
  | .getAppCfg   => return .ok (encodeAppConfigForManager state.appConfig)
  | .getUidTime  => return .ok []
  | .setAppCfg | .setAppLabel | .setSettingsVar =>
    return .error (.protocol "write command requires mutable manager state")
  | .getHealthReport          => return .ok (utf8Bytes state.healthReportJson)
  | .getCapabilityReport      => return .ok (utf8Bytes state.capabilityReportJson)
  | .getCompatibilityBaseline => return .ok (utf8Bytes state.compatibilityReportJson)
  | .getOperationLogJson      => return .ok (utf8Bytes state.operationLogJson)
  | .runSelfCheck             => return .ok (utf8Bytes state.selfCheckJson)
  | .getRealTimeInfo          => return .error (.protocol
      "manager command GetRealTimeInfo is not implemented in the compatibility handler")
  | .getFreezeStatus          => return .error (.protocol
      "manager command GetFreezeStatus is not implemented in the compatibility handler")
  | .clearLog                 => return .error (.protocol
      "manager command ClearLog is not implemented in the compatibility handler")
  | .getProcState             => return .error (.protocol
      "manager command GetProcState is not implemented in the compatibility handler")

/-- A change of the settings is logged, and one that succeeded also makes the hook's copy
    of the configuration out of date. -/
def logSettingsResponse (state : ReadOnlyState) (response : String) : Manager ReadOnlyState :=
  if response = "success" then appendLegacyLogMessage (unsync state) "⚙️设置成功"
  else appendLegacyLogMessage state s!"🔧设置失败，{response}"

/-- `handle_manager_command`. -/
def handleManagerCommand (frame : ManagerFrame) (state : ReadOnlyState) : Manager Reply := do
  match frame.command with
  | .setAppCfg   => setAppConfig state frame.payload
  | .setAppLabel => setAppLabel state frame.payload
  | .setSettingsVar =>
    let (response, state) ← setSettingsVar state frame.payload
    return (.ok (utf8Bytes response), ← logSettingsResponse state response)
  | .getRealTimeInfo =>
    return (← managerCall (.realtimeInfo frame.payload state.settings), state)
  | .getUidTime      => encodeUidTime state
  | .getFreezeStatus => return (.ok (encodeFreezeStatus state.freezeStatus), state)
  | .clearLog =>
    let nowMs ← managerCall .now
    return (.ok (utf8Bytes "\n"), { state with managerLog := state.managerLog.clear nowMs })
  | .getProcState =>
    let state ← appendLegacyLogMessage state (procStateSummary state.freezeStatus)
    let text ← managerCall (.renderLog state.managerLog .info)
    return (.ok (utf8Bytes text), state)
  | command => return (← handleReadOnlyCommand command state, state)

/-- The requests that change what the control loop acts on. -/
def isPolicyMutationCommand : ManagerCommand → Bool
  | .setAppCfg | .setSettingsVar => true
  | _                            => false

end Freezeit
