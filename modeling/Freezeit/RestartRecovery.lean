import Freezeit.ControlPass
import Freezeit.Procfs

/-! # Recovery after a daemon restart

    `recover_stopped_managed_processes_after_restart`: processes that the
    previous daemon left stopped are resumed before the server starts. -/

namespace Freezeit

open Prog

/-- What `cgroup.freeze` reads as. -/
inductive CgroupFreezeState where
  | thawed | frozen
  deriving DecidableEq, Repr

/-! ## What recovery asks its environment -/

/-- What recovery asks of the system for one process after another. -/
inductive RecoveryQuery where
  | readProc
  | readStat (pid : Int)
  | readLedger
  | readFreezeState (path : String)
  | validateProcess (process : RuntimeProcess)
  | thawCgroup (path : String)
  | unfreezeBinder (process : RuntimeProcess)
  | resumeSignal (process : RuntimeProcess)
  deriving DecidableEq, Repr

/-- The answers to these queries. -/
@[reducible] def RecoveryQuery.Answer : RecoveryQuery → Type
  | .readProc          => ProcReading
  | .readStat _        => Except IoError String
  | .readLedger        => LedgerReading
  | .readFreezeState _ => Except DaemonError CgroupFreezeState
  | .validateProcess _ => Except DaemonError Bool
  | .thawCgroup _      => Except DaemonError Unit
  | .unfreezeBinder _  => Except DaemonError Unit
  | .resumeSignal _    => Except DaemonError Unit

abbrev Recovery (α : Type) : Type := Prog RecoveryQuery RecoveryQuery.Answer α

abbrev RecoveryCall : Type := Event RecoveryQuery RecoveryQuery.Answer

abbrev RecoveryTrace : Type := List RecoveryCall

/-- To ask one query. -/
def recoveryCall (query : RecoveryQuery) : Recovery query.Answer := Prog.ask query

/-! ## One process -/

/-- What was done to a process, with the failures on the way. -/
structure RestartRecoveryOutcome where
  cgroupThawed  : Bool
  signalResumed : Bool
  failures      : List String
  deriving DecidableEq, Repr

namespace RestartRecoveryOutcome

def default : RestartRecoveryOutcome := ⟨false, false, []⟩

def fail (outcome : RestartRecoveryOutcome) (failure : String) : RestartRecoveryOutcome :=
  { outcome with failures := outcome.failures ++ [failure] }

end RestartRecoveryOutcome

/-- A process is checked again before each thing that is done to it, since its pid may
    have been given to another one meanwhile. -/
def restartIdentityIsCurrent (process : RuntimeProcess) (phase : String) :
    Recovery (Except String Unit) := do
  match ← recoveryCall (.validateProcess process) with
  | .ok true     => return .ok ()
  | .ok false    => return .error s!"identity validation failed {phase} for pid {process.pid}"
  | .error error =>
    return .error s!"identity validation failed {phase} for pid {process.pid}: {error}"

/-- The last part of `recover_process_after_restart`: SIGCONT for an owned stop. -/
def resumeOwnedStop (process : RuntimeProcess) (signalStopOwnership : Option SignalStopOwnership)
    (outcome : RestartRecoveryOutcome) : Recovery RestartRecoveryOutcome := do
  if signalStopOwnership.isNone then return outcome
  match ← restartIdentityIsCurrent process "immediately before SIGCONT" with
  | .error failure => return outcome.fail failure
  | .ok () =>
    match ← recoveryCall (.resumeSignal process) with
    | .ok ()       => return { outcome with signalResumed := true }
    | .error error => return outcome.fail s!"SIGCONT failed for pid {process.pid}: {error}"

/-- The part before it: the cgroup and Binder cleanup of a process with a freezer. -/
def cleanUpFreezer (process : RuntimeProcess) (cgroupPath : String)
    (signalStopOwnership : Option SignalStopOwnership) : Recovery RestartRecoveryOutcome := do
  let outcome := RestartRecoveryOutcome.default
  match ← restartIdentityIsCurrent process "before cgroup thaw" with
  | .error failure => return outcome.fail failure
  | .ok () =>
    let thaw ← recoveryCall (.thawCgroup cgroupPath)
    let outcome : RestartRecoveryOutcome :=
      match thaw with
      | .ok ()       => { outcome with cgroupThawed := true }
      | .error error => outcome.fail s!"cgroup thaw failed for pid {process.pid}: {error}"
    match ← restartIdentityIsCurrent process "before binder unfreeze" with
    | .error failure => return outcome.fail failure
    | .ok () =>
      let unfreeze ← recoveryCall (.unfreezeBinder process)
      let outcome : RestartRecoveryOutcome :=
        match unfreeze with
        | .ok ()       => outcome
        | .error error => outcome.fail s!"binder unfreeze failed for pid {process.pid}: {error}"
      resumeOwnedStop process signalStopOwnership outcome

/-- A stop that only SIGSTOP made needs no thaw, as long as the cgroup is seen thawed. Any
    other process with a freezer file is thawed first. -/
def recoverProcessAfterRestart (process : RuntimeProcess)
    (signalStopOwnership : Option SignalStopOwnership)
    (observedCgroupState : Option CgroupFreezeState) : Recovery RestartRecoveryOutcome :=
  let signalOnlyRecovery : Bool :=
    signalStopOwnership = some .signalOnly && observedCgroupState = some .thawed
  match process.cgroupFreezePath with
  | some cgroupPath =>
    if signalOnlyRecovery then resumeOwnedStop process signalStopOwnership .default
    else cleanUpFreezer process cgroupPath signalStopOwnership
  | none => resumeOwnedStop process signalStopOwnership .default

/-! ## All processes of the managed uids -/

/-- `freezeit_signal_stop_ownership`: the ledger is read for stopped processes only. -/
def freezeitSignalStopOwnership (statText : String) : Recovery (Option SignalStopOwnership) :=
  match stoppedIdentity statText with
  | none          => pure none
  | some identity => do
    let ledger ← recoveryCall .readLedger
    return (recordedSignalStopOwnershipFromLedger ledger identity).toOption.join

/-- What recovery reports of the whole start. -/
structure RestartRecoverySummary where
  cgroupThawed  : Nat
  signalResumed : Nat
  failed        : Nat
  deriving DecidableEq, Repr

/-- One process counts once in each column that it belongs to. -/
def RestartRecoverySummary.add (summary : RestartRecoverySummary)
    (outcome : RestartRecoveryOutcome) : RestartRecoverySummary where
  cgroupThawed  := summary.cgroupThawed + if outcome.cgroupThawed then 1 else 0
  signalResumed := summary.signalResumed + if outcome.signalResumed then 1 else 0
  failed        := summary.failed + if outcome.failures.isEmpty then 0 else 1

/-- The stop ownership of a process, when its stat file can be read. -/
def signalStopOwnershipOf (process : RuntimeProcess) : Recovery (Option SignalStopOwnership) := do
  match ← recoveryCall (.readStat process.pid) with
  | .ok statText => freezeitSignalStopOwnership statText
  | .error _     => return none

/-- A freezer file that cannot be read counts as one whose state is unknown. -/
def observedCgroupStateOf (process : RuntimeProcess) : Recovery (Option CgroupFreezeState) :=
  match process.cgroupFreezePath with
  | none      => pure none
  | some path => do
    let state ← recoveryCall (.readFreezeState path)
    return state.toOption

/-- The loop of recovery. A process with no freezer file and no stop of ours is left
    alone, and a failure at one process does not keep the others from being resumed. -/
def recoverProcesses : List RuntimeProcess → RestartRecoverySummary →
    Recovery RestartRecoverySummary
  | [], summary => pure summary
  | process :: rest, summary => do
    let signalStopOwnership ← signalStopOwnershipOf process
    let observedCgroupState ← observedCgroupStateOf process
    if process.cgroupFreezePath.isNone && signalStopOwnership.isNone then
      recoverProcesses rest summary
    else
      let outcome ← recoverProcessAfterRestart process signalStopOwnership observedCgroupState
      recoverProcesses rest (summary.add outcome)

/-- The result is the fault that is logged, if any. -/
def recoverStoppedManagedProcessesAfterRestart (appConfig : List ManagerAppConfigRecord) :
    Recovery (Option String) := do
  let managedUids := controlledUids appConfig
  if managedUids.isEmpty then return none
  let reading ← recoveryCall .readProc
  match discoverManagedUidProcesses reading managedUids with
  | .error error => return some s!"restart recovery: process discovery failed: {error}"
  | .ok processesByUid =>
    let summary ← recoverProcesses processesByUid.values.flatten ⟨0, 0, 0⟩
    if summary.cgroupThawed > 0 || summary.signalResumed > 0 || summary.failed > 0 then
      return some (s!"restart recovery: cgroup_thawed={summary.cgroupThawed} "
        ++ s!"sigcont_resumed={summary.signalResumed} failed={summary.failed}")
    else return none

end Freezeit
