import Freezeit.FreezerBackend
import Freezeit.Transactions

/-! # The control pass

    `run_control_pass_with_sampling_and_terminate` and `thaw_all_frozen`.  The
    loop body of the pass is split at its early exits: each function below is
    one stretch of it, in the order of the source. -/

namespace Freezeit

/-- The arguments of a pass that are not callbacks. -/
structure PassInput where
  appConfig      : List ManagerAppConfigRecord
  settings       : List UInt8
  foregroundUids : List Nat
  timestampMs    : Nat

/-! ## Settings -/

/-- `settings.get(index).copied().unwrap_or(0)`. -/
def settingAt (settings : List UInt8) (index : Nat) : Nat := (settings[index]?.getD 0).toNat

/-- After how long a frozen app is woken up, if ever. -/
def managerWakeupIntervalMs (settings : List UInt8) : Option Nat :=
  match settingAt settings 3 with
  | 1 => some (5 * 60000)
  | 2 => some (15 * 60000)
  | 3 => some (30 * 60000)
  | 4 => some (60 * 60000)
  | 5 => some (120 * 60000)
  | _ => none

/-- For how long it is left awake. -/
def managerWakeupDurationMs (settings : List UInt8) : Nat := settingAt settings 2 * 1000

/-- The freeze delay of a record, which depends on its mode. -/
def managerPolicyDelayMs (record : ManagerAppConfigRecord) (settings : List UInt8) : Nat :=
  if record.mode = 10 then settingAt settings 4 * 1000
  else if record.mode = 20 ∨ record.mode = 21 ∨ record.mode = 30 ∨ record.mode = 31 then
    settingAt settings 2 * 1000
  else 0

/-- The app has been frozen for the whole interval. -/
def periodicWakeupDue (s : RuntimeControlState) (identity : RuntimeIdentity)
    (settings : List UInt8) (timestampMs : Nat) : Bool :=
  match managerWakeupIntervalMs settings with
  | none => false
  | some intervalMs =>
    match s.frozenSinceMs.get? identity with
    | none => false
    | some frozenSinceMs => timestampMs ≥ saturatingAdd frozenSinceMs intervalMs

/-- Whether the pass audits, with the time of the next audit. In the first quarter of an
    hour there is one every minute, later as the setting says. -/
def refreezeAuditDue (s : RuntimeControlState) (settings : List UInt8) (timestampMs : Nat) :
    Bool × RuntimeControlState :=
  let startedAt := s.auditStartedAtMs.getD timestampMs
  let s := { s with auditStartedAtMs := some startedAt }
  let elapsed := timestampMs - startedAt
  let intervalMs : Option Nat :=
    if elapsed < 15 * 60000 then some 60000
    else
      match settingAt settings 6 with
      | 1 => some (30 * 60000)
      | 2 => some (60 * 60000)
      | 3 => some (120 * 60000)
      | _ => none
  match intervalMs with
  | none => (false, { s with nextRefreezeAuditAtMs := none })
  | some intervalMs =>
    let next := s.nextRefreezeAuditAtMs.getD (startedAt + 60000)
    if timestampMs < next then (false, { s with nextRefreezeAuditAtMs := some next })
    else (true, { s with nextRefreezeAuditAtMs := some (timestampMs + intervalMs) })

/-- Only the times of the audit change. -/
theorem refreezeAuditDue_eq (s : RuntimeControlState) (settings : List UInt8) (timestampMs : Nat) :
    ∃ startedAt next, (refreezeAuditDue s settings timestampMs).2 =
      { s with auditStartedAtMs := startedAt, nextRefreezeAuditAtMs := next } := by
  unfold refreezeAuditDue
  dsimp only
  split
  · exact ⟨_, _, rfl⟩
  · split
    · exact ⟨_, _, rfl⟩
    · exact ⟨_, _, rfl⟩

@[simp] theorem refreezeAuditDue_frozenApps (s : RuntimeControlState) (settings : List UInt8)
    (timestampMs : Nat) : (refreezeAuditDue s settings timestampMs).2.frozenApps = s.frozenApps := by
  obtain ⟨startedAt, next, h⟩ := refreezeAuditDue_eq s settings timestampMs
  rw [h]

@[simp] theorem refreezeAuditDue_frozenOwnership (s : RuntimeControlState)
    (settings : List UInt8) (timestampMs : Nat) :
    (refreezeAuditDue s settings timestampMs).2.frozenOwnership = s.frozenOwnership := by
  obtain ⟨startedAt, next, h⟩ := refreezeAuditDue_eq s settings timestampMs
  rw [h]

/-! ## Backends and policies of a record -/

/-- The three ways to control an app. -/
inductive RequestedControlBackend where
  | terminate | signal | freezer
  deriving DecidableEq, Repr

/-- The way that mode and settings ask for. -/
def requestedControlBackend (record : ManagerAppConfigRecord) (settings : List UInt8) :
    RequestedControlBackend :=
  if record.mode = 10 then .terminate
  else if record.mode = 20 ∨ record.mode = 21 then .signal
  else if (record.mode = 30 ∨ record.mode = 31) ∧ settings[5]? = some 2 then .signal
  else .freezer

/-- The modes in which the network is cut off too. -/
def modeHasNetworkRestriction (mode : Int) : Bool := mode = 21 || mode = 31

/-- The name of the generic freezer, which depends on whether all processes have a cgroup. -/
def backendName (processes : List RuntimeProcess) : String :=
  if !processes.isEmpty && processes.all fun process => process.cgroupFreezePath.isSome then
    "cgroup.freeze"
  else "signal-control-pass"

/-- The name of a way of control in reports. -/
def RequestedControlBackend.operationBackend (backend : RequestedControlBackend)
    (processes : List RuntimeProcess) : String :=
  match backend with
  | .terminate => "signal.kill"
  | .signal    => "signal.stop"
  | .freezer   => backendName processes

/-- The name of the way in which an app is thawed, which depends on its owner. -/
def FrozenOwnership.unfreezeBackend (ownership : FrozenOwnership)
    (processes : List RuntimeProcess) : String :=
  match ownership with
  | .signalOnly                      => "signal.cont"
  | .cgroupBinder | .residualUnknown => backendName processes

/-- What the freezer is told of the system. -/
def backendEnvironment (processes : List RuntimeProcess) (binderAvailable : Bool) :
    BackendEnvironment where
  cgroupAvailable      :=
    !processes.isEmpty && processes.all fun process => process.cgroupFreezePath.isSome
  binderAvailable      := binderAvailable
  networkAvailable     := true
  wakelockAvailable    := true
  screenStateAvailable := true
  hookFresh            := true

/-- The app of a record, with the reason for which it is protected. -/
def managedAppFromRecord (packageName : String) (uid : Nat) : ManagedApp :=
  let isSystemApp : Bool := uid % 100000 < 10000
  { packageName      := packageName
    userId           := 0
    uid              := uid
    label            := packageName
    isSystemApp      := isSystemApp
    protectedReason  := (protectedReasonFor packageName isSystemApp).or
      (if isSystemApp then some .systemCritical else none)
    policyId         := "manager-v1"
    lastSeenBaseline := "runtime" }

/-- The policy of a record. -/
def policyFromRecord (record : ManagerAppConfigRecord) : FreezePolicy :=
  let mode : FreezeMode :=
    if record.mode = 10 then .terminate
    else if record.mode = 20 ∨ record.mode = 30 then .freeze
    else if record.mode = 21 ∨ record.mode = 31 then .freezeWithRestrictions
    else if record.mode = 40 ∨ record.mode = 50 then .protectedMode
    else .free
  { mode                     := mode
    delayMs                  := 0
    foregroundStrategy       := if record.permissive then .permissive else .strict
    allowNetworkRestriction  := modeHasNetworkRestriction record.mode
    allowWakelockRestriction := false
    fallbackStrategy         := [.signal, .skip]
    updatedAtMs              := 0 }

def operationFromFallback (action : DecisionAction) : ControlAction × OperationResult :=
  match action with
  | .freeze                    => (.freeze, .success)
  | .postpone                  => (.postpone, .postponed)
  | .alternateFreezer | .signal => (.fallback, .skipped)
  | .terminate                 => (.terminate, .failed)
  | .skip                      => (.skip, .skipped)

/-! ## Operations -/

def operationDetails (processes : List RuntimeProcess) : String :=
  let details := s!"process_count={processes.length}"
  let evidence := processes.filterMap fun process =>
    process.binderState.map fun state => s!"pid{process.pid}:{state}"
  if evidence.isEmpty then details
  else details ++ " idle_evidence=" ++ "|".intercalate evidence

/-- `{:?}` of a pid list. -/
def debugPids (pids : List Int) : String := "[" ++ ", ".intercalate (pids.map toString) ++ "]"

/-- An operation on the listed processes; its id and time are stamped when it
    is pushed. -/
def operationOn (packageName : String) (uid : Nat) (processes : List RuntimeProcess)
    (action : ControlAction) (backend reason : String) (result : OperationResult)
    (details : String) : ControlOperation where
  operationId := 0
  timestampMs := 0
  packageName := packageName
  uid         := uid
  pidList     := processes.map RuntimeProcess.pid
  action      := action
  backend     := backend
  reason      := reason
  result      := result
  details     := details

/-- The record of a thaw, with the reason it had or the failures it met. -/
def unfreezeOperation (identity : RuntimeIdentity) (processes : List RuntimeProcess)
    (ownership : FrozenOwnership) (outcome : UnfreezeOutcome) (succeededReason failedReason : String) :
    ControlOperation :=
  operationOn identity.packageName identity.uid processes .unfreeze
    (ownership.unfreezeBackend processes)
    (if outcome.failures.isEmpty then succeededReason else failedReason)
    (if outcome.failures.isEmpty then .success
      else if outcome.applied = 0 then .failed else .partially)
    (operationDetails processes)

/-! ## Thawing tracked identities -/

def thawFrozenIdentities (timestampMs : Nat) (reason : String) :
    List RuntimeIdentity → RuntimeControlState → List String →
      Control (Except DaemonError Unit × RuntimeControlState)
  | [], s, failures =>
    pure (if failures.isEmpty then .ok () else .error (.system ("; ".intercalate failures)), s)
  | identity :: rest, s, failures => do
    match ← discoverProcesses s!"uid{identity.uid}" identity.uid with
    -- A failed discovery is reported, and the app stays tracked for the next pass.
    | .error error =>
      let message := s!"{reason}; process discovery failed: {error}"
      let operation := operationOn identity.packageName identity.uid [] .unfreeze "recovery"
        message .failed "process_count=0"
      thawFrozenIdentities timestampMs reason rest (s.pushOperation operation timestampMs)
        (failures ++ [message])
    -- There is nothing left to thaw.
    | .ok [] => thawFrozenIdentities timestampMs reason rest (s.clearFrozen identity) failures
    | .ok (first :: others) =>
      let processes := first :: others
      let ownership := s.frozenOwnershipOf identity
      let outcome ← unfreezeIdentityProcesses identity.packageName processes ownership
      -- An app of which one process could not be thawed stays tracked too.
      let s := if outcome.failures.isEmpty then s.clearFrozen identity else s
      let operation := unfreezeOperation identity processes ownership outcome reason
        (reason ++ "; " ++ "; ".intercalate outcome.failures)
      thawFrozenIdentities timestampMs reason rest (s.pushOperation operation timestampMs)
        (failures ++ outcome.failures)

namespace RuntimeControlState

/-- The identities that own a freeze without being tracked as frozen. -/
def detachedIdentities (s : RuntimeControlState) : List RuntimeIdentity :=
  s.frozenOwnership.keys.filter fun i => i ∉ s.frozenApps

/-- `clear_detached_ownership` on each identity of a list. -/
def clearDetached (s : RuntimeControlState) (identities : List RuntimeIdentity) :
    RuntimeControlState :=
  identities.foldl clearDetachedOwnership s

def thawAllFrozen (s : RuntimeControlState) (timestampMs : Nat) :
    Control (Except DaemonError Unit × RuntimeControlState) := do
  let (result, s) ← thawFrozenIdentities timestampMs "control disabled" s.frozenApps.keys s []
  -- What was frozen without being tracked is only forgotten, without a thaw.
  let s := s.clearDetached s.detachedIdentities
  return (result,
    { s with
      pendingFreezes             := ∅
      networkRestrictionRequests := ∅
      blockedProcessSignatures   := ∅
      downloadDeferral           := .default })

/-- The branch for a uid without processes. -/
def clearExited (s : RuntimeControlState) (uid : Nat) : RuntimeControlState :=
  let s := s.clearTransientControlStateForUid uid
  let tracked := ((s.frozenApps.keys ++ s.frozenOwnership.keys).filter (·.uid = uid)).foldl
    (fun identities i => identities.insert i ()) (∅ : SortedSet RuntimeIdentity)
  tracked.keys.foldl clearFrozen s

/-- Only the ownership of detached identities changes. -/
theorem clearDetached_eq (s : RuntimeControlState) (identities : List RuntimeIdentity) :
    s.clearDetached identities =
      { s with
        frozenOwnership := (identities.filter (· ∉ s.frozenApps)).foldl .erase s.frozenOwnership } := by
  induction identities generalizing s with
  | nil => rfl
  | cons i rest ih =>
    have hrest := ih (s.clearDetachedOwnership i)
    rw [clearDetachedOwnership_frozenApps] at hrest
    rw [clearDetached, List.foldl_cons, ← clearDetached, hrest]
    by_cases hi : i ∈ s.frozenApps <;> simp [clearDetachedOwnership, hi]

@[simp] theorem clearDetached_frozenApps (s : RuntimeControlState)
    (identities : List RuntimeIdentity) : (s.clearDetached identities).frozenApps = s.frozenApps := by
  rw [clearDetached_eq]

/-- A detached identity loses its ownership, everything else is kept. -/
theorem clearDetached_get? (s : RuntimeControlState) (identities : List RuntimeIdentity)
    (i : RuntimeIdentity) :
    (s.clearDetached identities).frozenOwnership.get? i =
      if i ∈ identities ∧ i ∉ s.frozenApps then none else s.frozenOwnership.get? i := by
  rw [clearDetached_eq]
  simp [SortedMap.get?_foldl_erase]

theorem clearFrozenAll_eq (s : RuntimeControlState) (identities : List RuntimeIdentity) :
    identities.foldl clearFrozen s =
      { s with
        frozenApps      := identities.foldl .erase s.frozenApps
        frozenSinceMs   := identities.foldl .erase s.frozenSinceMs
        frozenOwnership := identities.foldl .erase s.frozenOwnership } := by
  induction identities generalizing s with
  | nil => rfl
  | cons i rest ih => rw [List.foldl_cons, ih]; rfl

/-- The identities that `clearExited` clears. -/
theorem mem_exited {s : RuntimeControlState} {uid : Nat} {i : RuntimeIdentity} :
    i ∈ (((s.frozenApps.keys ++ s.frozenOwnership.keys).filter (·.uid = uid)).foldl
      (fun identities i => identities.insert i ()) (∅ : SortedSet RuntimeIdentity)).keys ↔
      i.uid = uid ∧ (i ∈ s.frozenApps ∨ i ∈ s.frozenOwnership) := by
  rw [SortedMap.mem_keys, SortedMap.mem_foldl_insert]
  simp only [List.mem_filter, List.mem_append, SortedMap.mem_keys, decide_eq_true_eq,
    SortedMap.not_mem_empty, or_false]
  exact And.comm

theorem mem_clearExited_frozenApps {s : RuntimeControlState} {uid : Nat} {i : RuntimeIdentity} :
    i ∈ (s.clearExited uid).frozenApps ↔ i ∈ s.frozenApps ∧ i.uid ≠ uid := by
  unfold clearExited
  dsimp only
  rw [clearFrozenAll_eq]
  dsimp only
  rw [SortedMap.mem_foldl_erase, mem_exited]
  simp only [clearTransientControlStateForUid_frozenApps]
  tauto

theorem clearExited_get? (s : RuntimeControlState) (uid : Nat) (i : RuntimeIdentity) :
    (s.clearExited uid).frozenOwnership.get? i =
      if i.uid = uid then none else s.frozenOwnership.get? i := by
  unfold clearExited
  dsimp only
  rw [clearFrozenAll_eq]
  dsimp only
  rw [SortedMap.get?_foldl_erase]
  simp only [mem_exited, clearTransientControlStateForUid_frozenApps,
    clearTransientControlStateForUid_frozenOwnership]
  by_cases huid : i.uid = uid
  · by_cases howned : i ∈ s.frozenOwnership
    · simp [huid, howned]
    · simp [huid, SortedMap.not_mem_iff_get?.mp howned]
  · simp [huid]

/-- `if mode_has_network_restriction(record.mode) { … insert(record.uid); }` -/
@[simps]
def requestNetworkRestriction (s : RuntimeControlState) (record : ManagerAppConfigRecord) :
    RuntimeControlState :=
  { s with
    networkRestrictionRequests :=
      if modeHasNetworkRestriction record.mode then s.networkRestrictionRequests.insert record.uid ()
      else s.networkRestrictionRequests }

end RuntimeControlState

/-! ## One record of the configuration -/

def minPackageName (first : RuntimeProcess) (rest : List RuntimeProcess) : String :=
  rest.foldl (fun name process => min name process.packageName) first.packageName

/-- The copy of a process that a freeze works on. -/
def RuntimeProcess.pendingFreeze (process : RuntimeProcess) : RuntimeProcess :=
  { process with controlState := .pendingFreeze }

@[simp] theorem RuntimeProcess.pendingFreeze_key (process : RuntimeProcess) :
    process.pendingFreeze.key = process.key := rfl

/-- What the loop body has at hand once the processes of a record are listed. -/
structure RecordContext where
  input       : PassInput
  record      : ManagerAppConfigRecord
  packageName : String
  processes   : List RuntimeProcess

namespace RecordContext

def identity (ctx : RecordContext) : RuntimeIdentity := ⟨ctx.packageName, ctx.record.uid⟩

def app (ctx : RecordContext) : ManagedApp := managedAppFromRecord ctx.packageName ctx.record.uid

def policy (ctx : RecordContext) : FreezePolicy := policyFromRecord ctx.record

/-- `policy.is_control_allowed_for(&app)`. -/
def allowed (ctx : RecordContext) : Bool := ctx.policy.isControlAllowedFor ctx.app

def pendingProcesses (ctx : RecordContext) : List RuntimeProcess :=
  ctx.processes.map RuntimeProcess.pendingFreeze

/-- The order of the `process_signature` tuples. -/
def signatureLe (a b : Int × String × Option Nat) : Bool :=
  a.1 < b.1 || a.1 = b.1 && (a.2.1 < b.2.1 || a.2.1 = b.2.1 &&
    match a.2.2, b.2.2 with
    | none, _        => true
    | some _, none   => false
    | some x, some y => x ≤ y)

def signature (ctx : RecordContext) : ProcessSignature :=
  (ctx.processes.map fun process =>
    (process.pid, process.packageName, process.startTimeTicks)).insertionSort
      fun a b => signatureLe a b = true

/-! ### Early exits -/

/-- The branch for a protected package or a mode without a control method. -/
def releaseProtected (ctx : RecordContext) (s : RuntimeControlState) :
    Control (Except DaemonError Unit × RuntimeControlState) := do
  let uid := ctx.record.uid
  let s := s.clearTransientControlStateForUid uid
  let (_, s) ← thawFrozenIdentities ctx.input.timestampMs
    "policy or protected package blocks control" (s.frozenApps.keys.filter (·.uid = uid)) s []
  return (.ok (), s.clearDetached (s.detachedIdentities.filter (·.uid = uid)))

def thawForeground (ctx : RecordContext) (s : RuntimeControlState) :
    Control (Except DaemonError Unit × RuntimeControlState) := do
  let s := s.removePending ctx.identity
  if ctx.identity ∈ s.frozenApps then
    let ownership := s.frozenOwnershipOf ctx.identity
    let outcome ← unfreezeIdentityProcesses ctx.packageName ctx.processes ownership
    let s := if outcome.failures.isEmpty then s.clearFrozen ctx.identity else s
    let operation := unfreezeOperation ctx.identity ctx.processes ownership outcome
      "foreground uid active" ("; ".intercalate outcome.failures)
    return (.ok (), s.pushOperation operation ctx.input.timestampMs)
  else return (.ok (), s)

def wakeUp (ctx : RecordContext) (s : RuntimeControlState) :
    Control (Except DaemonError Unit × RuntimeControlState) := do
  let settings := ctx.input.settings
  let ownership := s.frozenOwnershipOf ctx.identity
  let outcome ← unfreezeIdentityProcesses ctx.packageName ctx.processes ownership
  let s :=
    if outcome.failures.isEmpty then
      (s.clearFrozen ctx.identity).insertPending ctx.identity
        (saturatingAdd ctx.input.timestampMs (managerWakeupDurationMs settings))
    else s
  let intervalMs := (managerWakeupIntervalMs settings).getD 0
  let durationMs := managerWakeupDurationMs settings
  let operation := unfreezeOperation ctx.identity ctx.processes ownership outcome
    s!"periodic wakeup after {intervalMs}ms; refreeze in {durationMs}ms"
    ("periodic wakeup failed; " ++ "; ".intercalate outcome.failures)
  return (.ok (), s.pushOperation operation ctx.input.timestampMs)

/-- The freeze delay of the record: the state to stop with, or `none` to go on. -/
def postponeForDelay (ctx : RecordContext) (abnormalThaw : Bool) (s : RuntimeControlState) :
    Option RuntimeControlState :=
  let delayMs := managerPolicyDelayMs ctx.record ctx.input.settings
  if !abnormalThaw && delayMs > 0 then
    match s.pendingFreezes.get? ctx.identity with
    | some dueAtMs => if ctx.input.timestampMs < dueAtMs then some s else none
    | none =>
      let operation := operationOn ctx.packageName ctx.record.uid ctx.processes .postpone
        (backendName ctx.processes) s!"pending freeze delay {delayMs}ms" .postponed
        (operationDetails ctx.processes)
      some (((s.insertPending ctx.identity (ctx.input.timestampMs + delayMs)).pushOperation
        operation ctx.input.timestampMs).dropStaleSince ctx.identity)
  else none

/-- Put the freeze off because of download activity or a failed sample. -/
def postponeDownload (ctx : RecordContext) (sampled : Bool) (s : RuntimeControlState) :
    RuntimeControlState :=
  let retryMs := if sampled then initialSampleDelayMs else downloadRetryDelayMs
  let s' := s.insertPending ctx.identity (ctx.input.timestampMs + retryMs)
  let operation := operationOn ctx.packageName ctx.record.uid ctx.processes .postpone
    (backendName ctx.processes)
    (if sampled then "download activity sampling/threshold"
      else "download sampling failed; fail-safe postpone")
    .postponed (operationDetails ctx.processes)
  let s' :=
    if s.pendingFreezes.contains ctx.identity then s'
    else s'.pushOperation operation ctx.input.timestampMs
  s'.dropStaleSince ctx.identity

def sampleValue : Except DaemonError (Option Nat) → UidRxSample
  | .ok (some value) => .value value
  | .ok none         => .missing
  | .error _         => .failed

/-- The download deferral: whether the freeze is put off, and the state. -/
def deferDownload (ctx : RecordContext) (s : RuntimeControlState) :
    Control (Bool × RuntimeControlState) := do
  let uid := ctx.record.uid
  let timestampMs := ctx.input.timestampMs
  if !isCandidatePackage ctx.packageName then
    let (_, deferral) := s.downloadDeferral.evaluate uid ctx.packageName .missing timestampMs
    return (false, s.setDownloadDeferral deferral)
  else
    let sample ← sampleRxBytes uid ctx.packageName
    let (action, deferral) :=
      s.downloadDeferral.evaluate uid ctx.packageName (sampleValue sample) timestampMs
    let s := s.setDownloadDeferral deferral
    if action = .postpone then return (true, ctx.postponeDownload sample.isOk s)
    else return (false, s)

/-! ### The decision and its outcomes -/

def decide (ctx : RecordContext) (binderAvailable : Bool) : FreezeDecision :=
  let environment := backendEnvironment ctx.pendingProcesses binderAvailable
  if !ctx.allowed then ⟨.skip, "policy or protected package blocks control"⟩
  else
    match requestedControlBackend ctx.record ctx.input.settings with
    | .terminate => ⟨.terminate, "SIGKILL selected by manager policy"⟩
    | .signal    => ⟨.signal,
        if ctx.record.mode = 20 ∨ ctx.record.mode = 21 then "SIGSTOP selected by manager policy"
        else "global SIGSTOP selected for freezer policy"⟩
    | .freezer   => canFreeze environment ctx.app ctx.policy ctx.pendingProcesses

/-- The operation at the end of the loop body. -/
def finish (ctx : RecordContext) (abnormalThaw : Bool) (decision : FreezeDecision)
    (action : ControlAction) (result : OperationResult) (s : RuntimeControlState) :
    RuntimeControlState :=
  let backend :=
    if decision.action = .signal then "signal.stop"
    else (requestedControlBackend ctx.record ctx.input.settings).operationBackend
      ctx.pendingProcesses
  let reason :=
    if abnormalThaw then "abnormal thaw audit; " ++ decision.reason else decision.reason
  (s.dropStaleSince ctx.identity).pushOperation
    (operationOn ctx.packageName ctx.record.uid ctx.pendingProcesses action backend reason result
      (operationDetails ctx.pendingProcesses)) ctx.input.timestampMs

/-- Remember the signature of a process list that was refused for its mixed packages. -/
@[simps]
def blockShared (ctx : RecordContext) (failure : String) (s : RuntimeControlState) :
    RuntimeControlState :=
  { s with
    blockedProcessSignatures :=
      if Text.contains failure "shared uid contains multiple package identities" then
        s.blockedProcessSignatures.insert ctx.identity ctx.signature
      else s.blockedProcessSignatures }

/-- Track the identity after a step that may have left processes frozen. -/
def trackResidual (ctx : RecordContext) (residual : Bool) (s : RuntimeControlState) :
    RuntimeControlState :=
  if residual then s.trackFrozen ctx.identity ctx.input.timestampMs .residualUnknown else s

/-- Tracking residual processes tracks the app of the record, or nobody. -/
theorem mem_trackResidual {ctx : RecordContext} {residual : Bool} {s : RuntimeControlState}
    {i : RuntimeIdentity} :
    i ∈ (ctx.trackResidual residual s).frozenApps ↔
      (residual = true ∧ i = ctx.identity) ∨ i ∈ s.frozenApps := by
  cases residual <;> simp [trackResidual]

@[simp] theorem trackResidual_pendingFreezes (ctx : RecordContext) (residual : Bool)
    (s : RuntimeControlState) : (ctx.trackResidual residual s).pendingFreezes = s.pendingFreezes := by
  cases residual <;> rfl

@[simp] theorem trackResidual_operationLog (ctx : RecordContext) (residual : Bool)
    (s : RuntimeControlState) : (ctx.trackResidual residual s).operationLog = s.operationLog := by
  cases residual <;> rfl

@[simp] theorem trackResidual_nextOperationId (ctx : RecordContext) (residual : Bool)
    (s : RuntimeControlState) :
    (ctx.trackResidual residual s).nextOperationId = s.nextOperationId := by
  cases residual <;> rfl

/-- The SIGSTOP fallback after a failed freezer transaction: what the operation
    reports, and the state. -/
def fallbackToSignal (ctx : RecordContext) (s : RuntimeControlState) :
    Control ((ControlAction × OperationResult × String × String) × RuntimeControlState) := do
  let outcome ← applySignalStopFreezeTransaction ctx.pendingProcesses .never
    fun _ => pure (.ok false)
  let transaction := outcome.transaction
  match transaction.failure with
  | none =>
    let s := s.trackFrozen ctx.identity ctx.input.timestampMs outcome.frozenOwnership
    return ((.freeze, .success, "signal.stop", s!"signal_applied={transaction.applied}"),
      s.requestNetworkRestriction ctx.record)
  | some failure =>
    return ((.fallback, if transaction.rollbackFailures = 0 then .failed else .partially,
        "signal.stop",
        s!"signal_failure={failure} signal_applied={transaction.applied} "
          ++ s!"signal_rolled_back={transaction.rolledBack} "
          ++ s!"signal_rollback_failures={transaction.rollbackFailures}"),
      ctx.trackResidual (transaction.rollbackFailures > 0) s)

/-- The failed freezer transaction: block, track, fall back and report. -/
def freezeFailed (ctx : RecordContext) (freezeOutcome : FreezeTransactionOutcome)
    (failure : String) (s : RuntimeControlState) :
    Control (Except DaemonError Unit × RuntimeControlState) := do
  -- Tracking comes first: whatever the fallback does, the app is thawed some day.
  let s := ctx.trackResidual freezeOutcome.residualPossible (ctx.blockShared failure s)
  let fallback := fallbackAfterFreezeApplyError ctx.policy (.system failure)
  let ((action, result, backend, details), s) ←
    match fallback.action with
    | .signal => ctx.fallbackToSignal s
    | other =>
      let (action, result) := operationFromFallback other
      pure ((action, result, backendName ctx.pendingProcesses, ""), s)
  let s :=
    if result = .success ∧ action = .freeze then s.requestNetworkRestriction ctx.record else s
  let operation := operationOn ctx.packageName ctx.record.uid ctx.pendingProcesses action backend
    (s!"{fallback.reason}; primary_transaction={failure}; "
      ++ s!"primary_rolled_back={freezeOutcome.rolledBack}/{freezeOutcome.applied} "
      ++ s!"rollback_failures={freezeOutcome.rollbackFailures}")
    result (operationDetails ctx.pendingProcesses ++ " " ++ details)
  return (.ok (), ((s.removePending ctx.identity).pushOperation operation
    ctx.input.timestampMs).dropStaleSince ctx.identity)

/-- The pids of the rescan that the frozen list did not have. -/
def newPids (ctx : RecordContext) (postFreezeProcesses : List RuntimeProcess) : List Int :=
  (postFreezeProcesses.filter fun process =>
    process.uid = ctx.record.uid
      && !(ctx.pendingProcesses.map RuntimeProcess.pid).contains process.pid).map RuntimeProcess.pid

/-- New processes appeared during the freeze: thaw everything again. -/
def rollBackRescan (ctx : RecordContext) (decision : FreezeDecision)
    (postFreezeProcesses : List RuntimeProcess) (s : RuntimeControlState) :
    Control (Except DaemonError Unit × RuntimeControlState) := do
  let rollback ← unfreezeIdentityProcesses ctx.packageName postFreezeProcesses .cgroupBinder
  let s :=
    if rollback.failures.isEmpty then s.clearFrozen ctx.identity else ctx.trackResidual true s
  let failures :=
    if rollback.failures.isEmpty then "none" else "; ".intercalate rollback.failures
  let operation := operationOn ctx.packageName ctx.record.uid postFreezeProcesses .freeze
    (backendName postFreezeProcesses)
    s!"{decision.reason}; new same-uid process appeared after freeze" .partially
    (s!"{operationDetails postFreezeProcesses} "
      ++ s!"new_pids={debugPids (ctx.newPids postFreezeProcesses)} "
      ++ s!"rollback_applied={rollback.applied} rollback_failures={failures}")
  return (.ok (), ((s.removePending ctx.identity).pushOperation operation
    ctx.input.timestampMs).dropStaleSince ctx.identity)

/-- The generic freezer: freeze, look again, and thaw if somebody new has come. -/
def applyFreeze (ctx : RecordContext) (abnormalThaw : Bool) (decision : FreezeDecision)
    (s : RuntimeControlState) : Control (Except DaemonError Unit × RuntimeControlState) := do
  let freezeOutcome ← applyFreezeTransaction ctx.pendingProcesses freezeProcess unfreezeProcess
  match freezeOutcome.failure with
  | some failure => ctx.freezeFailed freezeOutcome failure s
  | none =>
    -- The app may have started a process while it was being frozen.
    match ← discoverProcesses s!"uid{ctx.record.uid}" ctx.record.uid with
    | .error error => return (.error error, s)
    | .ok postFreezeProcesses =>
      if (ctx.newPids postFreezeProcesses).isEmpty then
        let s := s.trackFrozen ctx.identity ctx.input.timestampMs .cgroupBinder
        let s := (s.requestNetworkRestriction ctx.record).removePending ctx.identity
        return (.ok (), ctx.finish abnormalThaw decision .freeze .success s)
      else ctx.rollBackRescan decision postFreezeProcesses s

/-- SIGSTOP, with a promotion in the ledger where nothing else holds the app. -/
def applySignal (ctx : RecordContext) (abnormalThaw : Bool) (decision : FreezeDecision)
    (s : RuntimeControlState) : Control (Except DaemonError Unit × RuntimeControlState) := do
  -- This is decided before any process is stopped.
  let ledgerPromotion ← signalStopLedgerPromotion s ctx.identity ctx.pendingProcesses
  let outcome ← applySignalStopFreezeTransaction ctx.pendingProcesses ledgerPromotion
    promoteSignalStopForControl
  let transaction := outcome.transaction
  match transaction.failure with
  | some failure =>
    let s := ctx.trackResidual (transaction.rollbackFailures > 0) (ctx.blockShared failure s)
    let operation := operationOn ctx.packageName ctx.record.uid ctx.pendingProcesses .freeze
      "signal.stop" s!"{decision.reason}; {failure}"
      (if transaction.rollbackFailures = 0 then .failed else .partially)
      (s!"{operationDetails ctx.pendingProcesses} signaled={transaction.applied} "
        ++ s!"rolled_back={transaction.rolledBack} "
        ++ s!"rollback_failures={transaction.rollbackFailures}")
    return (.ok (), ((s.pushOperation operation ctx.input.timestampMs).removePending
      ctx.identity).dropStaleSince ctx.identity)
  | none =>
    let s := s.trackFrozen ctx.identity ctx.input.timestampMs outcome.frozenOwnership
    let s := (s.requestNetworkRestriction ctx.record).removePending ctx.identity
    return (.ok (), ctx.finish abnormalThaw decision .freeze .success s)

/-- SIGKILL. -/
def applyTerminate (ctx : RecordContext) (abnormalThaw : Bool) (decision : FreezeDecision)
    (s : RuntimeControlState) : Control (Except DaemonError Unit × RuntimeControlState) := do
  let outcome ← applyTerminateTransaction ctx.pendingProcesses
  match outcome.failure with
  | some failure =>
    let operation := operationOn ctx.packageName ctx.record.uid ctx.pendingProcesses .terminate
      "signal.kill" s!"{decision.reason}; {failure}"
      (if outcome.applied = 0 then .failed else .partially)
      s!"{operationDetails ctx.pendingProcesses} sigkill_applied={outcome.applied}"
    -- Neither the timer nor the tracking changes, so the next pass tries again.
    return (.ok (), s.pushOperation operation ctx.input.timestampMs)
  | none =>
    let s := (s.removePending ctx.identity).clearFrozen ctx.identity
    return (.ok (), ctx.finish abnormalThaw decision .terminate .success s)

/-- The decision and what is done about it. -/
def applyDecision (ctx : RecordContext) (abnormalThaw : Bool) (s : RuntimeControlState) :
    Control (Except DaemonError Unit × RuntimeControlState) := do
  let decision := ctx.decide (← binderAvailable)
  match decision.action with
  | .freeze           => ctx.applyFreeze abnormalThaw decision s
  | .signal           => ctx.applySignal abnormalThaw decision s
  | .terminate        => ctx.applyTerminate abnormalThaw decision s
  | .postpone         => return (.ok (), ctx.finish abnormalThaw decision .postpone .postponed s)
  | .alternateFreezer => return (.ok (), ctx.finish abnormalThaw decision .fallback .failed s)
  | .skip             => return (.ok (), ctx.finish abnormalThaw decision .skip .skipped s)

/-! ### The loop body -/

/-- An untracked app in the background. -/
def controlBackground (ctx : RecordContext) (abnormalThaw : Bool) (s : RuntimeControlState) :
    Control (Except DaemonError Unit × RuntimeControlState) := do
  match ctx.postponeForDelay abnormalThaw s with
  | some s => return (.ok (), s)
  | none =>
    let (postponed, s) ← ctx.deferDownload s
    if postponed then return (.ok (), s)
    else ctx.applyDecision abnormalThaw s

/-- A tracked app is woken up, kept, or untracked by the audit to be frozen
    again; an untracked one goes on to be frozen. -/
def controlUnblocked (ctx : RecordContext) (auditDue : Bool) (s : RuntimeControlState) :
    Control (Except DaemonError Unit × RuntimeControlState) :=
  if ctx.input.foregroundUids.contains ctx.record.uid then ctx.thawForeground s
  else if ctx.identity ∈ s.frozenApps then
    if periodicWakeupDue s ctx.identity ctx.input.settings ctx.input.timestampMs then ctx.wakeUp s
    -- Only an audit looks whether a frozen app is running again.
    else if !auditDue || !(ctx.processes.any fun process => process.controlState = .running) then
      pure (.ok (), s)
    else ctx.controlBackground true (s.markAbnormalThawForRefreeze ctx.identity)
  else ctx.controlBackground false s

/-- The loop body once the processes are listed: a protected app is released, a blocked
    one is left alone until its processes change. -/
def controlProcesses (ctx : RecordContext) (auditDue : Bool) (s : RuntimeControlState) :
    Control (Except DaemonError Unit × RuntimeControlState) :=
  if !ctx.allowed then ctx.releaseProtected s
  else
    match s.blockedProcessSignatures.get? ctx.identity with
    | some blocked =>
      if blocked = ctx.signature then pure (.ok (), s)
      else ctx.controlUnblocked auditDue (s.removeBlocked ctx.identity)
    | none => ctx.controlUnblocked auditDue s

end RecordContext

/-- The loop body for one record. -/
def controlRecord (input : PassInput) (auditDue : Bool) (record : ManagerAppConfigRecord)
    (s : RuntimeControlState) : Control (Except DaemonError Unit × RuntimeControlState) := do
  if !isControlPolicyMode record.mode then return (.ok (), s)
  match ← discoverProcesses s!"uid{record.uid}" record.uid with
  -- A uid that cannot be listed ends the pass.
  | .error error => return (.error error, s)
  | .ok [] => return (.ok (), s.clearExited record.uid)
  | .ok (first :: rest) =>
    RecordContext.controlProcesses ⟨input, record, minPackageName first rest, first :: rest⟩
      auditDue s

/-- The loop over the records; an error ends it. -/
def controlRecords (input : PassInput) (auditDue : Bool) :
    List ManagerAppConfigRecord → RuntimeControlState →
      Control (Except DaemonError Unit × RuntimeControlState)
  | [], s => pure (.ok (), s)
  | record :: rest, s => do
    match ← controlRecord input auditDue record s with
    | (.error error, s) => return (.error error, s)
    | (.ok (), s) => controlRecords input auditDue rest s

/-! ## The pass -/

/-- The uids with a record in a control mode. -/
def controlledUids (appConfig : List ManagerAppConfigRecord) : SortedSet Nat :=
  ((appConfig.filter fun record => isControlPolicyMode record.mode).map
    ManagerAppConfigRecord.uid).foldl (fun uids uid => uids.insert uid ()) ∅

/-- Forget what is kept about uids that no record controls any more. -/
def RuntimeControlState.retainControlled (s : RuntimeControlState) (controlled : SortedSet Nat) :
    RuntimeControlState :=
  let staleUids := ((s.pendingFreezes.keys ++ s.frozenApps.keys ++ s.frozenOwnership.keys).map
    RuntimeIdentity.uid).filter fun uid => uid ∉ controlled
  { s with
    pendingFreezes             := s.pendingFreezes.retain fun i _ => controlled.contains i.uid
    blockedProcessSignatures   :=
      s.blockedProcessSignatures.retain fun i _ => controlled.contains i.uid
    networkRestrictionRequests :=
      s.networkRestrictionRequests.retain fun uid _ => controlled.contains uid
    statusSinceMs              := s.statusSinceMs.retain fun uid _ => controlled.contains uid
    downloadDeferral           := staleUids.foldl DownloadDeferral.clearUid s.downloadDeferral }

/-- The part of the pass before its loop: thaw what is no longer controlled. -/
def releaseStale (input : PassInput) (s : RuntimeControlState) : Control RuntimeControlState := do
  let controlled := controlledUids input.appConfig
  let staleIdentities := s.frozenApps.keys.filter fun i => i.uid ∉ controlled
  -- Failures were reported as operations, and they do not end the pass.
  let (_, s) ← thawFrozenIdentities input.timestampMs "control policy removed" staleIdentities
    (s.retainControlled controlled) []
  return s.clearDetached (s.detachedIdentities.filter fun i => i.uid ∉ controlled)

/-- `run_control_pass_with_sampling_and_terminate`. -/
def runControlPass (input : PassInput) (s : RuntimeControlState) :
    Control (Except DaemonError Unit × RuntimeControlState) := do
  let s ← releaseStale input s
  let (auditDue, s) := refreezeAuditDue s input.settings input.timestampMs
  controlRecords input auditDue input.appConfig s

end Freezeit
