import Freezeit.Callbacks
import Freezeit.ControlState

/-! # Thaw, freeze, SIGSTOP and terminate transactions

    The four batch operations on the processes of one app, over the calls of
    the environment. -/

namespace Freezeit

/-! ## Thawing the processes of an identity -/

/-- The process as the signal backend sees it: without its cgroup freezer. -/
def signalControlProcess (process : RuntimeProcess) : RuntimeProcess :=
  { process with cgroupFreezePath := none }

@[simp] theorem signalControlProcess_key (process : RuntimeProcess) :
    (signalControlProcess process).key = process.key := rfl

/-- How many processes were thawed, and why others were not. -/
structure UnfreezeOutcome where
  applied  : Nat
  failures : List String
  deriving DecidableEq, Repr

/-- One more failure. -/
def UnfreezeOutcome.fail (outcome : UnfreezeOutcome) (failure : String) : UnfreezeOutcome :=
  { outcome with failures := outcome.failures ++ [failure] }

/-- The process that the thaw plan of an ownership works on. -/
def FrozenOwnership.controlProcess (ownership : FrozenOwnership) (process : RuntimeProcess) :
    RuntimeProcess :=
  if ownership = .signalOnly then signalControlProcess process else process

@[simp] theorem FrozenOwnership.controlProcess_key (ownership : FrozenOwnership)
    (process : RuntimeProcess) : (ownership.controlProcess process).key = process.key := by
  unfold controlProcess
  split
  · rfl
  · rfl

/-- The processes one after the other; a failure does not stop the loop. -/
def unfreezeLoop (ownership : FrozenOwnership) :
    List RuntimeProcess → UnfreezeOutcome → Control UnfreezeOutcome
  | [], outcome => pure outcome
  | process :: rest, outcome => do
    let controlProcess := ownership.controlProcess process
    match ← validateProcess controlProcess with
    | .ok false =>
      unfreezeLoop ownership rest
        (outcome.fail s!"identity validation failed before unfreeze for pid {controlProcess.pid}")
    | .error error =>
      unfreezeLoop ownership rest (outcome.fail
        s!"identity validation failed before unfreeze for pid {controlProcess.pid}: {error}")
    | .ok true =>
      match ← unfreezeProcess controlProcess with
      | .ok () => unfreezeLoop ownership rest { outcome with applied := outcome.applied + 1 }
      | .error error =>
        unfreezeLoop ownership rest
          (outcome.fail s!"unfreeze failed for pid {controlProcess.pid}: {error}")

/-- The thaw of an app, which is refused if its processes are of several packages. -/
def unfreezeIdentityProcesses (expectedPackage : String) (processes : List RuntimeProcess)
    (ownership : FrozenOwnership) : Control UnfreezeOutcome :=
  if processes.any fun process => process.packageName ≠ expectedPackage then
    pure ⟨0, ["shared uid contains multiple package identities"]⟩
  else unfreezeLoop ownership processes ⟨0, []⟩

/-! ## Terminating -/

/-- How many processes were killed, and why the loop stopped. -/
structure TerminateTransactionOutcome where
  applied : Nat
  failure : Option String
  deriving DecidableEq, Repr

/-- The first loop: nothing is killed before every process is known to be the
    expected one. -/
def terminatePreflight (expectedPackage : Option String) :
    List RuntimeProcess → Control (Option String)
  | [] => pure none
  | process :: rest => do
    if some process.packageName ≠ expectedPackage then
      return some s!"shared uid contains multiple package identities; refusing pid {process.pid}"
    match ← validateProcess process with
    | .ok true => terminatePreflight expectedPackage rest
    | .ok false => return some s!"identity validation failed before SIGKILL for pid {process.pid}"
    | .error error =>
      return some s!"identity validation failed before SIGKILL for pid {process.pid}: {error}"

/-- The processes one after the other, up to the first failure. -/
def terminateLoop : List RuntimeProcess → Nat → Control TerminateTransactionOutcome
  | [], applied => pure ⟨applied, none⟩
  | process :: rest, applied => do
    match ← validateProcess process with
    | .ok false =>
      return ⟨applied,
        some s!"identity validation failed immediately before SIGKILL for pid {process.pid}"⟩
    | .error error =>
      return ⟨applied, some
        s!"identity validation failed immediately before SIGKILL for pid {process.pid}: {error}"⟩
    | .ok true =>
      match ← terminateProcess process with
      | .ok () => terminateLoop rest (applied + 1)
      | .error error => return ⟨applied, some s!"SIGKILL failed for pid {process.pid}: {error}"⟩

/-- All processes are validated before the first one is killed. -/
def applyTerminateTransaction (processes : List RuntimeProcess) :
    Control TerminateTransactionOutcome := do
  let expectedPackage := processes.head?.map RuntimeProcess.packageName
  match ← terminatePreflight expectedPackage processes with
  | some failure => return ⟨0, some failure⟩
  | none => terminateLoop processes 0

/-! ## Freezing -/

/-- How far a freeze got, and what came of its rollback. -/
structure FreezeTransactionOutcome where
  applied          : Nat
  rolledBack       : Nat
  rollbackFailures : Nat
  residualPossible : Bool
  failure          : Option String
  deriving DecidableEq, Repr

/-- The processes are of one package, and each of them is still the one that was found. -/
def freezePreflight (expectedPackage : Option String) :
    List RuntimeProcess → Control (Option String)
  | [] => pure none
  | process :: rest => do
    if some process.packageName ≠ expectedPackage then
      return some s!"shared uid contains multiple package identities; refusing pid {process.pid}"
    match ← validateProcess process with
    | .ok true => freezePreflight expectedPackage rest
    | .ok false => return some s!"identity validation failed for pid {process.pid}"
    | .error error => return some s!"identity validation failed for pid {process.pid}: {error}"

/-- The freezing loop: the processes frozen, in order, and the failure that
    ended it. -/
def freezeLoop (freeze : RuntimeProcess → Control (Except DaemonError Unit)) :
    List RuntimeProcess → List RuntimeProcess → Control (List RuntimeProcess × Option String)
  | [], signaled => pure (signaled, none)
  | process :: rest, signaled => do
    match ← validateProcess process with
    | .ok false => return (signaled, some s!"identity validation failed for pid {process.pid}")
    | .error error =>
      return (signaled, some s!"identity validation failed for pid {process.pid}: {error}")
    | .ok true =>
      match ← freeze process with
      | .ok () => freezeLoop freeze rest (signaled ++ [process])
      | .error error =>
        return (signaled, some s!"control apply failed for pid {process.pid}: {error}")

/-- Thaw what was frozen, in the order given, counting successes and failures. -/
def rollbackLoop (unfreeze : RuntimeProcess → Control (Except DaemonError Unit)) :
    List RuntimeProcess → Nat → Nat → Control (Nat × Nat)
  | [], rolledBack, rollbackFailures => pure (rolledBack, rollbackFailures)
  | process :: rest, rolledBack, rollbackFailures => do
    match ← validateProcess process with
    | .ok false | .error _ => rollbackLoop unfreeze rest rolledBack (rollbackFailures + 1)
    | .ok true =>
      match ← unfreeze process with
      | .ok () => rollbackLoop unfreeze rest (rolledBack + 1) rollbackFailures
      | .error _ => rollbackLoop unfreeze rest rolledBack (rollbackFailures + 1)

/-- All processes are validated before the first one is frozen; a failure after that thaws
    those that were frozen, in reverse order. -/
def applyFreezeTransaction (processes : List RuntimeProcess)
    (freeze unfreeze : RuntimeProcess → Control (Except DaemonError Unit)) :
    Control FreezeTransactionOutcome := do
  let expectedPackage := processes.head?.map RuntimeProcess.packageName
  match ← freezePreflight expectedPackage processes with
  | some failure => return ⟨0, 0, 0, false, some failure⟩
  | none =>
    let (signaled, failure) ← freezeLoop freeze processes []
    match failure with
    | none => return ⟨signaled.length, 0, 0, false, none⟩
    | some failure =>
      let (rolledBack, rollbackFailures) ← rollbackLoop unfreeze signaled.reverse 0 0
      return ⟨signaled.length, rolledBack, rollbackFailures, true, some failure⟩

/-! ## Stopping by signal -/

/-- Whether a SIGSTOP may be recorded as the only thing that holds the app. -/
inductive SignalStopLedgerPromotion where
  | never | afterCompletedDirectTransaction
  deriving DecidableEq, Repr

/-- How the transaction went, and whether all promotions are on disk. -/
structure SignalStopTransactionOutcome where
  transaction            : FreezeTransactionOutcome
  allPromotionsPersisted : Bool
  deriving DecidableEq, Repr

/-- The owner after a stop: only with all promotions on disk nothing else is suspected. -/
def SignalStopTransactionOutcome.frozenOwnership (outcome : SignalStopTransactionOutcome) :
    FrozenOwnership :=
  if outcome.allPromotionsPersisted then .signalOnly else .residualUnknown

/-- The loop of `signal_stop_ledger_promotion` over the processes. -/
def ledgerPromotionLoop : List RuntimeProcess → Control SignalStopLedgerPromotion
  | [] => pure .afterCompletedDirectTransaction
  | process :: rest => do
    match process.startTimeTicks with
    | none => return .never
    | some startTimeTicks =>
      match ← recordedSignalStopOwnershipForControl process.pid startTimeTicks with
      | .ok (some .residualUnknown) | .error _ => return .never
      | .ok none | .ok (some .signalOnly) => ledgerPromotionLoop rest

/-- No promotion if something else may hold the app, or a stop of it is recorded already. -/
def signalStopLedgerPromotion (state : RuntimeControlState) (identity : RuntimeIdentity)
    (processes : List RuntimeProcess) : Control SignalStopLedgerPromotion :=
  if state.hasUnresolvedFreezeOwnership identity then pure .never
  else ledgerPromotionLoop processes

/-- Promote every process; a failure does not end the loop. -/
def promotionLoop (promote : RuntimeProcess → Control (Except DaemonError Bool)) :
    List RuntimeProcess → Bool → Control Bool
  | [], allPromotionsPersisted => pure allPromotionsPersisted
  | process :: rest, allPromotionsPersisted => do
    match ← promote process with
    | .ok true => promotionLoop promote rest allPromotionsPersisted
    | .ok false | .error _ => promotionLoop promote rest false

/-- The transaction with SIGSTOP and SIGCONT, then the promotions. -/
def applySignalStopFreezeTransaction (processes : List RuntimeProcess)
    (promotion : SignalStopLedgerPromotion)
    (promote : RuntimeProcess → Control (Except DaemonError Bool)) :
    Control SignalStopTransactionOutcome := do
  let transaction ← applyFreezeTransaction processes
    (fun process => freezeProcess (signalControlProcess process))
    (fun process => unfreezeProcess (signalControlProcess process))
  if transaction.failure.isNone && promotion = .afterCompletedDirectTransaction then
    let allPromotionsPersisted ← promotionLoop promote processes true
    return ⟨transaction, allPromotionsPersisted⟩
  else return ⟨transaction, false⟩

end Freezeit
