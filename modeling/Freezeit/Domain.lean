import Mathlib.Order.Lattice
import Mathlib.Data.Prod.Lex
import Mathlib.Data.String.Basic

/-! # Domain types of the daemon

    Errors, operations, policies and runtime processes.  Timestamps and
    counters are naturals, process ids integers. -/

namespace Freezeit

/-! ## Errors -/

/-- The kinds of error that the code tells apart. -/
inductive IoErrorKind where
  | notFound
  | permissionDenied
  | other
  deriving DecidableEq, Repr

/-- An error of the system with its message. -/
structure IoError where
  kind    : IoErrorKind
  message : String
  deriving DecidableEq, Repr

/-- The errors of the daemon. -/
inductive DaemonError where
  | config (message : String)
  | io (error : IoError)
  | protocol (message : String)
  | system (message : String)
  deriving DecidableEq, Repr

/-- The `Display` text of an error. -/
def DaemonError.display : DaemonError → String
  | .config message   => s!"config error: {message}"
  | .io error         => s!"io error: {error.message}"
  | .protocol message => s!"protocol error: {message}"
  | .system message   => s!"system error: {message}"

instance : ToString DaemonError := ⟨DaemonError.display⟩

/-! ## Operations -/

/-- What an operation did. -/
inductive ControlAction where
  | freeze | unfreeze | terminate | postpone | fallback | skip | recover
  deriving DecidableEq, Repr

/-- How an operation ended. -/
inductive OperationResult where
  | success | partially | failed | skipped | postponed
  deriving DecidableEq, Repr

/-- One operation as it is reported. -/
structure ControlOperation where
  operationId : Nat
  timestampMs : Nat
  packageName : String
  uid         : Nat
  pidList     : List Int
  action      : ControlAction
  backend     : String
  reason      : String
  result      : OperationResult
  details     : String
  deriving DecidableEq, Repr

/-! ## Policies -/

/-- Why an app is not controlled. -/
inductive ProtectedReason where
  | manager | launcher | inputMethod | rootManager | hookManager | systemCritical | userProtected
  deriving DecidableEq, Repr

/-- An app as the backend sees it. -/
structure ManagedApp where
  packageName      : String
  userId           : Nat
  uid              : Nat
  label            : String
  isSystemApp      : Bool
  protectedReason  : Option ProtectedReason
  policyId         : String
  lastSeenBaseline : String
  deriving DecidableEq, Repr

/-- There is some reason not to control the app. -/
def ManagedApp.isProtected (app : ManagedApp) : Bool := app.protectedReason.isSome

/-- What a policy asks for. -/
inductive FreezeMode where
  | protectedMode | free | freeze | freezeWithRestrictions | signalStop | terminate
  deriving DecidableEq, Repr

/-- How it is done. -/
inductive ControlMethod where
  | cgroupBinderFreeze | signalStop | terminate
  deriving DecidableEq, Repr

/-- What is restricted beside the processes. -/
structure RestrictionRequests where
  networkBreak        : Bool
  wakelockRestriction : Bool
  deriving DecidableEq, Repr

/-- Which process states count as foreground. -/
inductive ForegroundStrategy where
  | strict | permissive
  deriving DecidableEq, Repr

/-- What is tried when a freeze fails. -/
inductive FallbackAction where
  | postpone | alternateFreezer | signal | terminate | skip
  deriving DecidableEq, Repr

/-- The one variant, `Selected`, of the freeze policy. -/
structure FreezePolicy where
  mode                     : FreezeMode
  delayMs                  : Nat
  foregroundStrategy       : ForegroundStrategy
  allowNetworkRestriction  : Bool
  allowWakelockRestriction : Bool
  fallbackStrategy         : List FallbackAction
  updatedAtMs              : Nat
  deriving DecidableEq, Repr

namespace FreezePolicy

/-- The method of a policy, if it asks for control at all. -/
def controlMethod (policy : FreezePolicy) : Option ControlMethod :=
  match policy.mode with
  | .freeze | .freezeWithRestrictions => some .cgroupBinderFreeze
  | .signalStop                       => some .signalStop
  | .terminate                        => some .terminate
  | .protectedMode | .free            => none

/-- Whether a policy may control an app. -/
def isControlAllowedFor (policy : FreezePolicy) (app : ManagedApp) : Bool :=
  if app.isSystemApp || app.isProtected then false
  else policy.controlMethod.isSome

/-- The restrictions that a policy permits. -/
def requestedRestrictions (policy : FreezePolicy) : RestrictionRequests where
  networkBreak        := policy.allowNetworkRestriction
  wakelockRestriction := policy.allowWakelockRestriction

end FreezePolicy

/-! ## Protected packages -/

/-- The packages that are protected by their role on the device. -/
structure ProtectedPackageContext where
  launcherPackages    : List String
  inputMethodPackages : List String
  rootManagerPackages : List String
  hookManagerPackages : List String

/-- Nothing is known of the roles. -/
def ProtectedPackageContext.default : ProtectedPackageContext := ⟨[], [], [], []⟩

/-- The reason for which a package is protected, the first one that applies. -/
def protectedReasonForWithContext (packageName : String) (isSystemApp : Bool)
    (context : ProtectedPackageContext) : Option ProtectedReason :=
  if packageName ∈ context.launcherPackages then some .launcher
  else if packageName ∈ context.inputMethodPackages then some .inputMethod
  else if packageName ∈ context.rootManagerPackages then some .rootManager
  else if packageName ∈ context.hookManagerPackages then some .hookManager
  else if packageName = "io.github.jark006.freezeit" then some .manager
  else if packageName = "com.topjohnwu.magisk"
      ∨ packageName = "io.github.huskydg.magisk" then some .rootManager
  else if packageName = "org.lsposed.manager"
      ∨ packageName = "io.github.lsposed.manager" then some .hookManager
  else if packageName = "android" ∨ packageName = "com.android.systemui"
      ∨ packageName = "com.android.phone" then some .systemCritical
  else if isSystemApp then some .systemCritical
  else none

/-- The same without knowledge of the roles. -/
def protectedReasonFor (packageName : String) (isSystemApp : Bool) : Option ProtectedReason :=
  protectedReasonForWithContext packageName isSystemApp .default

/-! ## Runtime processes -/

/-- How important the system considers a process. -/
inductive ProcessState where
  | foreground | visible | service | cached | empty | unknown
  deriving DecidableEq, Repr

/-- Whether a process runs. -/
inductive ControlState where
  | running | pendingFreeze | frozen | unfreezing | unknown
  deriving DecidableEq, Repr

/-- A process as discovery finds it. -/
structure RuntimeProcess where
  pid              : Int
  uid              : Nat
  packageName      : String
  processName      : String
  procState        : ProcessState
  controlState     : ControlState
  cgroupFreezePath : Option String
  binderState      : Option String
  startTimeTicks   : Option Nat
  lastSeenAtMs     : Nat
  deriving DecidableEq, Repr

/-- What tells one process from another over time: a pid is reused, a pid
    together with its start time is not. -/
structure ProcessKey where
  pid            : Int
  uid            : Nat
  startTimeTicks : Option Nat
  deriving DecidableEq, Repr

/-- What tells a process from another one that has its pid later. -/
def RuntimeProcess.key (process : RuntimeProcess) : ProcessKey :=
  ⟨process.pid, process.uid, process.startTimeTicks⟩

/-! ## Configuration records -/

/-- One record of the policy. -/
structure ManagerAppConfigRecord where
  uid        : Nat
  mode       : Int
  permissive : Bool
  deriving DecidableEq, Repr

/-- One row of the status that the manager app shows. -/
structure ManagerFreezeStatusRecord where
  uid          : Nat
  foreground   : Bool
  state        : Int
  seconds      : Int
  processCount : Int
  deriving DecidableEq, Repr

/-- An app as the control state tracks it.  Identities are ordered by package
    name and then by uid. -/
structure RuntimeIdentity where
  packageName : String
  uid         : Nat
  deriving DecidableEq, Repr

/-- Identities are told apart by package name and uid. -/
theorem RuntimeIdentity.toLex_injective :
    Function.Injective fun i : RuntimeIdentity => toLex (i.packageName, i.uid) := by
  rintro ⟨p, u⟩ ⟨q, v⟩ h
  have hpair : (p, u) = (q, v) := h
  cases hpair
  rfl

instance : LinearOrder RuntimeIdentity :=
  LinearOrder.lift' (fun i => toLex (i.packageName, i.uid)) RuntimeIdentity.toLex_injective

end Freezeit
