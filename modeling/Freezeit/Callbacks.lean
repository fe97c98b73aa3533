import Freezeit.Domain
import Freezeit.Lib.Interaction

/-! # What the controller asks its environment

    A control pass is given callbacks to discover, validate, freeze, unfreeze,
    sample and terminate, and reads the binder capability and the SIGSTOP
    ledger.  Each of these is a call; the answers are the environment's. -/

namespace Freezeit

/-- Provenance of a SIGSTOP recorded in the persistent ledger. -/
inductive SignalStopOwnership where
  | signalOnly | residualUnknown
  deriving DecidableEq, Repr

/-- What the controller can ask. The first six are the callbacks of a pass; the others
    stand for files of the daemon. -/
inductive Query where
  | discoverProcesses (packageName : String) (uid : Nat)
  | freezeProcess (process : RuntimeProcess)
  | unfreezeProcess (process : RuntimeProcess)
  | validateProcess (process : RuntimeProcess)
  | sampleRxBytes (uid : Nat) (packageName : String)
  | terminateProcess (process : RuntimeProcess)
  /-- `discover_runtime_capabilities` lists `BinderFreezer` as available. -/
  | binderAvailable
  | recordedSignalStopOwnership (pid : Int) (startTimeTicks : Nat)
  | promoteSignalStop (pid : Int) (startTimeTicks : Nat)
  deriving DecidableEq, Repr

/-- The type of the answer depends on the query; nearly all of them can fail. -/
@[reducible] def Query.Answer : Query → Type
  | .discoverProcesses _ _           => Except DaemonError (List RuntimeProcess)
  | .freezeProcess _                 => Except DaemonError Unit
  | .unfreezeProcess _               => Except DaemonError Unit
  | .validateProcess _               => Except DaemonError Bool
  | .sampleRxBytes _ _               => Except DaemonError (Option Nat)
  | .terminateProcess _              => Except DaemonError Unit
  | .binderAvailable                 => Bool
  | .recordedSignalStopOwnership _ _ => Except DaemonError (Option SignalStopOwnership)
  | .promoteSignalStop _ _           => Except DaemonError Bool

/-- Programs of the controller. -/
abbrev Control (α : Type) : Type := Prog Query Query.Answer α

/-- To ask one query. -/
def callback (query : Query) : Control query.Answer := Prog.ask query

/-- A call of the controller with its answer. -/
abbrev Call : Type := Event Query Query.Answer

/-- The calls made so far, oldest first. -/
abbrev Trace : Type := List Call

def discoverProcesses (packageName : String) (uid : Nat) :
    Control (Except DaemonError (List RuntimeProcess)) :=
  callback (.discoverProcesses packageName uid)

def freezeProcess (process : RuntimeProcess) : Control (Except DaemonError Unit) :=
  callback (.freezeProcess process)

def unfreezeProcess (process : RuntimeProcess) : Control (Except DaemonError Unit) :=
  callback (.unfreezeProcess process)

def validateProcess (process : RuntimeProcess) : Control (Except DaemonError Bool) :=
  callback (.validateProcess process)

def sampleRxBytes (uid : Nat) (packageName : String) : Control (Except DaemonError (Option Nat)) :=
  callback (.sampleRxBytes uid packageName)

def terminateProcess (process : RuntimeProcess) : Control (Except DaemonError Unit) :=
  callback (.terminateProcess process)

def binderAvailable : Control Bool := callback .binderAvailable

/-- `recorded_signal_stop_ownership_for_control`. -/
def recordedSignalStopOwnershipForControl (pid : Int) (startTimeTicks : Nat) :
    Control (Except DaemonError (Option SignalStopOwnership)) :=
  callback (.recordedSignalStopOwnership pid startTimeTicks)

/-- `promote_signal_stop_for_control`: a process without a start time is not promoted. -/
def promoteSignalStopForControl (process : RuntimeProcess) : Control (Except DaemonError Bool) :=
  match process.startTimeTicks with
  | some startTimeTicks => callback (.promoteSignalStop process.pid startTimeTicks)
  | none                => pure (.ok false)

/-! ## Environments for runs

    An environment whose answers depend on the call alone.  By default every
    action succeeds, nothing is sampled and the ledger is empty. -/

/-- What such an environment answers to each kind of call. -/
structure StaticEnvironment where
  discover  : Nat → Except DaemonError (List RuntimeProcess)
  freeze    : RuntimeProcess → Except DaemonError Unit := fun _ => .ok ()
  unfreeze  : RuntimeProcess → Except DaemonError Unit := fun _ => .ok ()
  validate  : RuntimeProcess → Except DaemonError Bool := fun _ => .ok true
  sample    : Nat → Except DaemonError (Option Nat) := fun _ => .ok none
  terminate : RuntimeProcess → Except DaemonError Unit := fun _ => .ok ()
  binder    : Bool := true

/-- The answers, which do not depend on what was asked before. -/
def StaticEnvironment.answer (environment : StaticEnvironment) (_past : Trace) :
    (query : Query) → query.Answer
  | .discoverProcesses _ uid         => environment.discover uid
  | .freezeProcess process           => environment.freeze process
  | .unfreezeProcess process         => environment.unfreeze process
  | .validateProcess process         => environment.validate process
  | .sampleRxBytes uid _             => environment.sample uid
  | .terminateProcess process        => environment.terminate process
  | .binderAvailable                 => environment.binder
  | .recordedSignalStopOwnership _ _ => .ok none
  | .promoteSignalStop _ _           => .ok true

/-- A cached background process, as discovery lists it. -/
def backgroundProcess (packageName : String) (uid : Nat) (pid : Int) : RuntimeProcess where
  pid              := pid
  uid              := uid
  packageName      := packageName
  processName      := packageName
  procState        := .cached
  controlState     := .running
  cgroupFreezePath := some s!"/sys/fs/cgroup/uid_{uid}/pid_{pid}/cgroup.freeze"
  binderState      := none
  startTimeTicks   := some 4242
  lastSeenAtMs     := 0

end Freezeit
