import Freezeit.Domain
import Freezeit.Lib.Text
import Mathlib.Tactic.SplitIfs

/-! # The freezer backend's decision

    `SystemAwareCgroupBinderBackend`: whether a background app may be frozen
    now, and by which means. -/

namespace Freezeit

/-- What the backend decides to do. -/
inductive DecisionAction where
  | freeze | postpone | alternateFreezer | signal | terminate | skip
  deriving DecidableEq, Repr

/-- A decision with its reason. -/
structure FreezeDecision where
  action : DecisionAction
  reason : String
  deriving DecidableEq, Repr

/-- What the decision may depend on beside the processes. -/
structure BackendEnvironment where
  cgroupAvailable      : Bool
  binderAvailable      : Bool
  networkAvailable     : Bool
  wakelockAvailable    : Bool
  screenStateAvailable : Bool
  hookFresh            : Bool
  deriving DecidableEq, Repr

/-! ## Idle evidence -/

/-- Binder evidence that stands for a transaction in flight. -/
def activeBinderState (state : String) : Bool :=
  let normalized := Text.asciiLower state
  Text.contains normalized "binder_queue active"
    || Text.contains normalized "busy"
    || Text.contains normalized "sync_txn"
    || Text.contains normalized "txns_pending"
    || Text.contains normalized "binder_pending"

/-- Does the process carry evidence that it is active? -/
def RuntimeProcess.isActive (process : RuntimeProcess) : Bool :=
  match process.binderState with
  | none       => false
  | some state => activeBinderState state

/-- The reason to wait, when a process that is about to be frozen is active. -/
def idleBlocker (processes : List RuntimeProcess) : Option String :=
  let blocked := processes.find? fun process =>
    process.controlState = .pendingFreeze && process.isActive
  blocked.map fun process =>
    let state := process.binderState.getD "unavailable"
    "pending freeze idle evidence is not satisfied by binder transaction state for pid "
      ++ s!"{process.pid}: {state}"

/-! ## Fallbacks -/

/-- What the policy does instead of a freeze. -/
def fallbackDecision (policy : FreezePolicy) (reason : String) : FreezeDecision :=
  let action : DecisionAction :=
    match policy.fallbackStrategy.head?.getD .skip with
    | .postpone         => .postpone
    | .alternateFreezer => .alternateFreezer
    | .signal           => .signal
    | .terminate        => .terminate
    | .skip             => .skip
  ⟨action, reason⟩

/-- The error says that permission is missing. -/
def isPermissionDenied : DaemonError → Bool
  | .io error => error.kind = .permissionDenied
  | _         => false

/-- What the policy does after a freeze that failed. -/
def fallbackAfterFreezeApplyError (policy : FreezePolicy) (error : DaemonError) :
    FreezeDecision :=
  let reason :=
    if isPermissionDenied error then
      s!"permission denied while applying cgroup.freeze: {error}"
    else s!"freezer apply failed: {error}"
  fallbackDecision policy reason

/-! ## The decision -/

/-- The decision of the generic freezer, check by check. -/
def canFreeze (environment : BackendEnvironment) (app : ManagedApp) (policy : FreezePolicy)
    (processes : List RuntimeProcess) : FreezeDecision :=
  if !policy.isControlAllowedFor app then
    ⟨.skip, "policy or protected package blocks control"⟩
  else if processes.isEmpty then
    ⟨.skip, "no runtime processes"⟩
  else if processes.any fun process =>
      process.procState = .foreground || process.procState = .visible
        || process.procState = .unknown then
    ⟨.postpone, "foreground, visible, or unknown process state"⟩
  else if !environment.hookFresh || !environment.screenStateAvailable then
    ⟨.postpone, "fresh hook and screen-state evidence required"⟩
  else
    match idleBlocker processes with
    | some reason => ⟨.postpone, reason⟩
    | none =>
      let requested := policy.requestedRestrictions
      if requested.networkBreak && !environment.networkAvailable then
        ⟨.postpone, "network restriction requested but backend is unavailable"⟩
      else if requested.wakelockRestriction && !environment.wakelockAvailable then
        ⟨.postpone, "wakelock restriction requested but backend is unavailable"⟩
      else if policy.mode = .terminate then
        ⟨.terminate, "terminate policy selected"⟩
      else if policy.mode = .signalStop then
        ⟨.signal, "signal-stop policy selected"⟩
      else if environment.cgroupAvailable && environment.binderAvailable then
        ⟨.freeze, "cgroup and binder freezer available"⟩
      else if environment.cgroupAvailable && !environment.binderAvailable then
        fallbackDecision policy ("cgroup freezer available but binder freezer unavailable; "
          ++ "freeze_process requires binder")
      else fallbackDecision policy "preferred freezer unavailable"

/-! ### What the decision depends on -/

/-- Neither a freeze nor a fallback is decided while a process is active. -/
theorem canFreeze_idle {environment : BackendEnvironment} {app : ManagedApp}
    {policy : FreezePolicy} {processes : List RuntimeProcess}
    (hpostpone : (canFreeze environment app policy processes).action ≠ .postpone)
    (hskip : (canFreeze environment app policy processes).action ≠ .skip) :
    idleBlocker processes = none := by
  cases hblocker : idleBlocker processes with
  | none => rfl
  | some reason =>
    unfold canFreeze at hpostpone hskip
    rw [hblocker] at hpostpone hskip
    dsimp only at hpostpone hskip
    split_ifs at hpostpone hskip
    all_goals first
      | exact absurd rfl hpostpone
      | exact absurd rfl hskip

/-- A policy that falls back to SIGSTOP is killed only if that is its mode. -/
theorem canFreeze_ne_terminate {environment : BackendEnvironment} {app : ManagedApp}
    {policy : FreezePolicy} {processes : List RuntimeProcess} (hmode : policy.mode ≠ .terminate)
    (hfallback : policy.fallbackStrategy = [.signal, .skip]) :
    (canFreeze environment app policy processes).action ≠ .terminate := by
  have hstrategy : ∀ reason, (fallbackDecision policy reason).action = .signal := by
    intro reason
    unfold fallbackDecision
    rw [hfallback]
    rfl
  unfold canFreeze
  dsimp only
  cases idleBlocker processes with
  | some reason =>
    split_ifs
    all_goals simp
  | none =>
    dsimp only
    rw [if_neg hmode]
    split_ifs
    all_goals simp [hstrategy]

end Freezeit
