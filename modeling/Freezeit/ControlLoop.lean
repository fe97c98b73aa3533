import Freezeit.HookHealth
import Freezeit.LivePass
import Freezeit.ManagerRequests

/-! # The control loop around a pass

    What the loop of `spawn_control_loop` does to the shared state before and
    after its control pass: the health cycle of the hook, and the results of
    the pass.  Each function here runs under one lock, or under none. -/

namespace Freezeit

open Prog

/-! ## What the loop calls -/

/-- The commands that the hook knows. -/
inductive XposedCommand where
  | getForeground | getScreen | getXpLog | setConfig | setWakeupLock | breakNetwork | updatePending
  | getHookHealth | getRuntimeAppStates | getSystemFreezerHints
  deriving DecidableEq, Repr

/-- The `Debug` text of a command. -/
def XposedCommand.debugText : XposedCommand → String
  | .getForeground         => "GetForeground"
  | .getScreen             => "GetScreen"
  | .getXpLog              => "GetXpLog"
  | .setConfig             => "SetConfig"
  | .setWakeupLock         => "SetWakeupLock"
  | .breakNetwork          => "BreakNetwork"
  | .updatePending         => "UpdatePending"
  | .getHookHealth         => "GetHookHealth"
  | .getRuntimeAppStates   => "GetRuntimeAppStates"
  | .getSystemFreezerHints => "GetSystemFreezerHints"

/-- What the diagnostics of the device come to. -/
structure RuntimeDiagnostics where
  capabilityReportJson    : String
  healthReportJson        : String
  selfCheckJson           : String
  compatibilityReportJson : String
  controlAllowed          : Bool

/-- What the control loop asks of the hook and of the system, apart from the pass. -/
inductive LoopQuery where
  /-- `xposed_bridge::set_config`. -/
  | setConfig (payload : Bytes)
  | queryHookHealth
  /-- `xposed_bridge::request_bytes`. -/
  | request (command : XposedCommand) (payload : Bytes)
  | now
  /-- The capabilities and the environment, with what is read of the state for them. -/
  | runtimeDiagnostics (verifiedTargets : List (String × Nat)) (hookReady : Bool)
      (settingsPath appConfigPath : Option String)
  deriving DecidableEq

/-- The answers to these queries. -/
@[reducible] def LoopQuery.Answer : LoopQuery → Type
  | .setConfig _                  => Except DaemonError Bool
  | .queryHookHealth              => Except DaemonError String
  | .request _ _                  => Except DaemonError Bytes
  | .now                          => Nat
  | .runtimeDiagnostics _ _ _ _   => RuntimeDiagnostics

/-- Programs that ask them. -/
abbrev Loop (α : Type) : Type := Prog LoopQuery LoopQuery.Answer α

/-- A query with its answer. -/
abbrev LoopCall : Type := Event LoopQuery LoopQuery.Answer

/-- The queries of a run with their answers, in order. -/
abbrev LoopTrace : Type := List LoopCall

/-- To ask one query. -/
def loopCall (query : LoopQuery) : Loop query.Answer := Prog.ask query

/-- Log once, at the present time. -/
def pushOnceNow (state : ReadOnlyState) (record : Nat → LogRecord) : Loop ReadOnlyState := do
  let nowMs ← loopCall .now
  return { state with managerLog := state.managerLog.pushOnce (record nowMs) }

/-! ## The health cycle of the hook -/

/-- What is to be sent to the hook, with the revision that it was made from. -/
structure HookHealthWork where
  needsConfigSync : Bool
  xposedPayload   : Option Bytes
  configRevision  : Nat
  deriving DecidableEq, Repr

/-- The configuration is prepared anew in every cycle. -/
def prepareHookHealthWork (state : ReadOnlyState) : HookHealthWork :=
  ⟨true, (currentXposedPayload state).toOption, state.configRevision⟩

/-- What the hook answered. -/
structure HookHealthResult where
  syncResult   : Option (Except DaemonError Bool)
  healthResult : Except DaemonError String

/-- The configuration is sent if there is a need and a payload. -/
def sendConfig (work : HookHealthWork) : Loop (Option (Except DaemonError Bool)) := do
  if work.needsConfigSync then
    match work.xposedPayload with
    | some payload => return some (← loopCall (.setConfig payload))
    | none =>
      return some (.error (.protocol "failed to encode xposed config payload for sync"))
  else return none

/-- The configuration is sent, then the health is asked for; no state is held meanwhile. -/
def executeHookHealthWork (work : HookHealthWork) : Loop HookHealthResult := do
  let syncResult ← sendConfig work
  let healthResult ← loopCall .queryHookHealth
  return ⟨syncResult, healthResult⟩

/-- What was sent is what would be sent now. -/
def xposedConfigMatchesCurrentState (state : ReadOnlyState) (expected : Option Bytes) : Bool :=
  match expected with
  | none => false
  | some expected =>
    match currentXposedPayload state with
    | .ok current => current = expected
    | .error _    => false

/-- The configuration that was sent is still the current one. -/
def syncIsCurrent (state : ReadOnlyState) (work : HookHealthWork) (synced : Bool) : Bool :=
  synced && work.configRevision = state.configRevision
    && xposedConfigMatchesCurrentState state work.xposedPayload

/-- The message for a configuration that was taken. -/
def syncedMessage (state : ReadOnlyState) : String :=
  s!"hook config synced: managed_apps={state.appConfig.length} settings={state.settings.length}"

/-- The first part of `apply_hook_health_result`. -/
def applySyncResult (state : ReadOnlyState) (work : HookHealthWork) :
    Option (Except DaemonError Bool) → Loop ReadOnlyState
  | none => pure state
  | some (.ok synced) =>
    let current := syncIsCurrent state work synced
    let state := { state with hookConfigSynced := current }
    pushOnceNow state fun nowMs =>
      if current then .diagnostic .debug nowMs (syncedMessage state)
      else if synced then .fault .warn nowMs "discarded stale hook config sync result"
      else .fault .warn nowMs "hook config sync rejected"
  | some (.error error) =>
    pushOnceNow (unsync state) fun nowMs => .fault .warn nowMs s!"hook config sync failed: {error}"

/-- Its second part; a hook that is not ready has to get the configuration again. -/
def applyHealthStatus (state : ReadOnlyState) (healthResult : Except DaemonError String) :
    ReadOnlyState :=
  let status :=
    match healthResult with
    | .ok payload  => classifyHookHealthPayload payload
    | .error error => classifyBridgeError error
  let xpLog :=
    match healthResult with
    | .ok payload => payload
    | .error _    => s!"hook bridge {status.healthLabel}"
  let hookReady := healthResult.toOption.isSome && status.isReadyForControl
  { state with
    hookHealth       := status.healthLabel
    xpLog            := xpLog
    hookConfigSynced := hookReady && state.hookConfigSynced }

/-- The reports are made anew, and with them the permission to control. -/
def refreshRuntimeDiagnostics (state : ReadOnlyState) : Loop ReadOnlyState := do
  let diagnostics ← loopCall (.runtimeDiagnostics state.verifiedTargets
    (state.hookHealth = "active") state.settingsPath state.appConfigPath)
  return { state with
    capabilityReportJson    := diagnostics.capabilityReportJson
    healthReportJson        := diagnostics.healthReportJson
    selfCheckJson           := diagnostics.selfCheckJson
    compatibilityReportJson := diagnostics.compatibilityReportJson
    controlAllowed          := diagnostics.controlAllowed }

/-- The result of the cycle is put in the shared state. -/
def applyHookHealthResult (state : ReadOnlyState) (work : HookHealthWork)
    (result : HookHealthResult) : Loop ReadOnlyState := do
  let state ← applySyncResult { state with daemonHealth := "active" } work result.syncResult
  refreshRuntimeDiagnostics (applyHealthStatus state result.healthResult)

/-- What the startup does before the threads. -/
def syncLoadedConfigToHook (state : ReadOnlyState) :
    Loop (Except DaemonError Bool × ReadOnlyState) := do
  match currentXposedPayload state with
  | .error error => return (.error error, state)
  | .ok payload =>
    match ← loopCall (.setConfig payload) with
    | .error error => return (.error error, state)
    | .ok synced =>
      let state := { state with hookConfigSynced := synced }
      let state ← pushOnceNow state fun nowMs =>
        if synced then .diagnostic .debug nowMs (syncedMessage state)
        else .fault .warn nowMs "hook config sync rejected"
      return (.ok synced, state)

/-! ## After the pass -/

/-- What is taken out of the runtime state under its lock. -/
structure CycleReport where
  pendingUids      : List Nat
  networkUids      : List Nat
  operationLogJson : String
  operations       : List ControlOperation

/-- What the pass left for the end of the cycle. -/
def takeCycleReport (s : RuntimeControlState) : CycleReport × RuntimeControlState :=
  let (networkUids, s) := s.takeNetworkRestrictionUids
  (⟨s.pendingFreezeUids, networkUids, s.operationLog.toJson, s.operationLog.records⟩, s)

/-- What the hook did not take. -/
structure HookRuntimeSyncOutcome where
  pendingError      : Option String
  failedNetworkUids : List Nat

/-- Four bytes for each uid. -/
def encodeUidPayload (uids : List Nat) : Bytes := uids.flatMap u32LeBytes

/-- The reply of the hook says that it succeeded. -/
def requireXposedSuccess (command : XposedCommand) : Bytes → Except DaemonError Unit
  | a :: b :: c :: d :: _ =>
    if i32FromLeBytes a b c d = 2 then .ok ()
    else .error (.system s!"xposed {command.debugText} rejected request")
  | _ => .error (.protocol s!"xposed {command.debugText} response header is incomplete")

/-- A request whose response says success. -/
def requestSuccess (command : XposedCommand) (payload : Bytes) : Loop (Except DaemonError Unit) := do
  match ← loopCall (.request command payload) with
  | .error error => return .error error
  | .ok response => return requireXposedSuccess command response

/-- The uids whose network was not broken. -/
def breakNetworks : List Nat → Loop (List Nat)
  | [] => pure []
  | uid :: uids => do
    let result ← requestSuccess .breakNetwork (u32LeBytes uid)
    let failed ← breakNetworks uids
    match result with
    | .ok ()   => return failed
    | .error _ => return uid :: failed

/-- The pending set is sent, then one request for each uid whose network is cut off. -/
def syncHookRuntimeState (pendingUids networkUids : List Nat) : Loop HookRuntimeSyncOutcome := do
  let pendingError :=
    match ← requestSuccess .updatePending (encodeUidPayload pendingUids) with
    | .ok ()       => none
    | .error error => some (toString error)
  return ⟨pendingError, ← breakNetworks networkUids⟩

/-- Without a working hook every network request waits for the next cycle. -/
def syncCycle (hookHealth : String) (report : CycleReport) : Loop HookRuntimeSyncOutcome :=
  if hookHealth = "active" then syncHookRuntimeState report.pendingUids report.networkUids
  else pure ⟨none, report.networkUids⟩

/-- The uids that failed are put back. -/
def requeueNetworkRestrictionUids (s : RuntimeControlState) (uids : List Nat) :
    RuntimeControlState :=
  uids.foldl RuntimeControlState.requeueNetworkRestrictionUid s

/-- The operations are pushed to the log one after the other. -/
def pushOperations (log : ManagerLog) (operations : List ControlOperation) : ManagerLog :=
  operations.foldl (fun log operation => log.push (.operation operation)) log

/-- A failure to send the pending set is logged once. -/
def logPendingError (state : ReadOnlyState) : Option String → Loop ReadOnlyState
  | none => pure state
  | some error => pushOnceNow state fun nowMs =>
      .fault .warn nowMs s!"hook pending UID sync failed: {error}"

/-- Failed network requests are logged once. -/
def logFailedNetworkUids (state : ReadOnlyState) (uids : List Nat) : Loop ReadOnlyState :=
  if uids.isEmpty then pure state
  else pushOnceNow state fun nowMs => .fault .warn nowMs
    s!"hook network break failed for UIDs {uids}; queued for retry"

/-- The last section of a cycle under the lock of the shared state. -/
def finishCycle (state : ReadOnlyState) (report : CycleReport) (outcome : HookRuntimeSyncOutcome)
    (freezeStatus : List ManagerFreezeStatusRecord) : Loop ReadOnlyState := do
  let state := { state with
    operationLogJson := report.operationLogJson
    managerLog       := pushOperations state.managerLog report.operations }
  let state ← logPendingError state outcome.pendingError
  let state ← logFailedNetworkUids state outcome.failedNetworkUids
  return { state with freezeStatus := freezeStatus }

end Freezeit
