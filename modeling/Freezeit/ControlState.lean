import Freezeit.DownloadDeferral
import Freezeit.OperationLog
import Mathlib.Data.List.Sort
import Mathlib.Tactic.Simps.Basic

/-! # The runtime control state

    `RuntimeControlState` and the methods that update it.  Five collections
    are keyed by the same identity; the field lemmas below say what each
    method does to each of them, so that later proofs do not unfold the
    methods. -/

namespace Freezeit

/-- How a tracked app was frozen, and so how it has to be thawed. -/
inductive FrozenOwnership where
  | signalOnly | cgroupBinder | residualUnknown
  deriving DecidableEq, Repr

/-- The processes of an app as a sorted list of pid, package and start time. -/
abbrev ProcessSignature : Type := List (Int × String × Option Nat)

/-- What the control loop remembers from pass to pass. -/
structure RuntimeControlState where
  operationLog               : OperationLog
  frozenApps                 : SortedSet RuntimeIdentity
  frozenSinceMs              : SortedMap RuntimeIdentity Nat
  frozenOwnership            : SortedMap RuntimeIdentity FrozenOwnership
  pendingFreezes             : SortedMap RuntimeIdentity Nat
  networkRestrictionRequests : SortedSet Nat
  nextOperationId            : Nat
  statusSinceMs              : SortedMap Nat (Int × Nat)
  blockedProcessSignatures   : SortedMap RuntimeIdentity ProcessSignature
  downloadDeferral           : DownloadDeferral
  auditStartedAtMs           : Option Nat
  nextRefreezeAuditAtMs      : Option Nat
  deriving DecidableEq

/-- The modes in which an app is controlled. -/
def isControlPolicyMode (mode : Int) : Bool :=
  mode = 10 || mode = 20 || mode = 21 || mode = 30 || mode = 31

/-- `u128::saturating_add`. -/
def saturatingAdd (a b : Nat) : Nat := min (a + b) (2 ^ 128 - 1)

/-- The largest number of 32 bits. -/
def i32Max : Nat := 2 ^ 31 - 1

namespace RuntimeControlState

/-- The state at startup. -/
def default : RuntimeControlState where
  operationLog               := .new 128
  frozenApps                 := ∅
  frozenSinceMs              := ∅
  frozenOwnership            := ∅
  pendingFreezes             := ∅
  networkRestrictionRequests := ∅
  nextOperationId            := 1
  statusSinceMs              := ∅
  blockedProcessSignatures   := ∅
  downloadDeferral           := .default
  auditStartedAtMs           := none
  nextRefreezeAuditAtMs      := none

/-! ## Tracking of frozen apps -/

/-- The ownership that `trackFrozen` records.  `residualUnknown` wins over
    whatever the new freeze reports, and a frozen app without an entry counts
    as `residualUnknown`. -/
def mergedOwnership (s : RuntimeControlState) (identity : RuntimeIdentity)
    (ownership : FrozenOwnership) : FrozenOwnership :=
  if s.frozenOwnership.get? identity = some .residualUnknown
      ∨ (identity ∈ s.frozenApps ∧ identity ∉ s.frozenOwnership) then .residualUnknown
  else ownership

/-- The app is frozen; the time is that of the first freeze. -/
@[simps]
def trackFrozen (s : RuntimeControlState) (identity : RuntimeIdentity) (timestampMs : Nat)
    (ownership : FrozenOwnership) : RuntimeControlState :=
  { s with
    frozenApps      := s.frozenApps.insert identity ()
    frozenSinceMs   :=
      if identity ∈ s.frozenSinceMs then s.frozenSinceMs
      else s.frozenSinceMs.insert identity timestampMs
    frozenOwnership := s.frozenOwnership.insert identity (s.mergedOwnership identity ownership) }

/-- The method `frozen_ownership`: an app without an entry is `residualUnknown`. -/
def frozenOwnershipOf (s : RuntimeControlState) (identity : RuntimeIdentity) : FrozenOwnership :=
  (s.frozenOwnership.get? identity).getD .residualUnknown

/-- Something other than a SIGSTOP may hold the app. -/
def hasUnresolvedFreezeOwnership (s : RuntimeControlState) (identity : RuntimeIdentity) : Bool :=
  s.frozenOwnership.get? identity = some .cgroupBinder
    || s.frozenOwnership.get? identity = some .residualUnknown
    || (s.frozenApps.contains identity && !s.frozenOwnership.contains identity)

/-- The app is no longer frozen, and nothing holds it. -/
@[simps]
def clearFrozen (s : RuntimeControlState) (identity : RuntimeIdentity) : RuntimeControlState :=
  { s with
    frozenApps      := s.frozenApps.erase identity
    frozenSinceMs   := s.frozenSinceMs.erase identity
    frozenOwnership := s.frozenOwnership.erase identity }

/-- A tracked app was found running: it is untracked, and its owner is kept for the next
    freeze. -/
@[simps]
def markAbnormalThawForRefreeze (s : RuntimeControlState) (identity : RuntimeIdentity) :
    RuntimeControlState :=
  let ownership : FrozenOwnership :=
    match s.frozenOwnershipOf identity with
    | .signalOnly                       => .signalOnly
    | .cgroupBinder | .residualUnknown  => .residualUnknown
  { s with
    frozenApps      := s.frozenApps.erase identity
    frozenSinceMs   := s.frozenSinceMs.erase identity
    frozenOwnership := s.frozenOwnership.insert identity ownership }

/-- An owner without a tracked app is dropped. -/
@[simps]
def clearDetachedOwnership (s : RuntimeControlState) (identity : RuntimeIdentity) :
    RuntimeControlState :=
  { s with
    frozenOwnership :=
      if identity ∈ s.frozenApps then s.frozenOwnership else s.frozenOwnership.erase identity }

/-- `if !frozen_apps.contains(&identity) { frozen_since_ms.remove(&identity); }` -/
@[simps]
def dropStaleSince (s : RuntimeControlState) (identity : RuntimeIdentity) : RuntimeControlState :=
  { s with
    frozenSinceMs :=
      if identity ∈ s.frozenApps then s.frozenSinceMs else s.frozenSinceMs.erase identity }

/-! ## Pending freezes, network requests and the other collections -/

/-- The uids with an app that waits to be frozen. -/
def pendingFreezeUids (s : RuntimeControlState) : List Nat :=
  (s.pendingFreezes.keys.foldl (fun uids i => uids.insert i.uid ()) (∅ : SortedSet Nat)).keys

/-- The queue of uids whose network is to be cut off, which is emptied. -/
def takeNetworkRestrictionUids (s : RuntimeControlState) : List Nat × RuntimeControlState :=
  (s.networkRestrictionRequests.keys, { s with networkRestrictionRequests := ∅ })

/-- A uid whose request failed is put back. -/
@[simps]
def requeueNetworkRestrictionUid (s : RuntimeControlState) (uid : Nat) : RuntimeControlState :=
  { s with networkRestrictionRequests := s.networkRestrictionRequests.insert uid () }

/-- An app begins to wait. -/
@[simps]
def insertPending (s : RuntimeControlState) (identity : RuntimeIdentity) (dueAtMs : Nat) :
    RuntimeControlState :=
  { s with pendingFreezes := s.pendingFreezes.insert identity dueAtMs }

/-- An app stops waiting. -/
@[simps]
def removePending (s : RuntimeControlState) (identity : RuntimeIdentity) : RuntimeControlState :=
  { s with pendingFreezes := s.pendingFreezes.erase identity }

/-- An app is no longer blocked. -/
@[simps]
def removeBlocked (s : RuntimeControlState) (identity : RuntimeIdentity) : RuntimeControlState :=
  { s with blockedProcessSignatures := s.blockedProcessSignatures.erase identity }

/-- The traffic samples are replaced. -/
@[simps]
def setDownloadDeferral (s : RuntimeControlState) (deferral : DownloadDeferral) :
    RuntimeControlState :=
  { s with downloadDeferral := deferral }

/-- Everything that is remembered of a uid, beside its ownership, is forgotten. -/
@[simps]
def clearTransientControlStateForUid (s : RuntimeControlState) (uid : Nat) : RuntimeControlState :=
  { s with
    pendingFreezes             := s.pendingFreezes.retain fun i _ => i.uid ≠ uid
    networkRestrictionRequests := s.networkRestrictionRequests.erase uid
    blockedProcessSignatures   := s.blockedProcessSignatures.retain fun i _ => i.uid ≠ uid
    downloadDeferral           := s.downloadDeferral.clearUid uid
    statusSinceMs              := s.statusSinceMs.erase uid }

/-- `stamp_operation` followed by `operation_log.push`. -/
@[simps]
def pushOperation (s : RuntimeControlState) (operation : ControlOperation) (timestampMs : Nat) :
    RuntimeControlState :=
  { s with
    operationLog    := s.operationLog.push
      { operation with operationId := s.nextOperationId, timestampMs := timestampMs }
    nextOperationId := s.nextOperationId + 1 }

/-! ## Freeze status rows -/

/-- The earliest due time of each uid with a pending freeze. -/
def pendingByUid (s : RuntimeControlState) : SortedMap Nat Nat :=
  s.pendingFreezes.entries.foldl
    (fun pending e =>
      match pending.get? e.1.uid with
      | some current => pending.insert e.1.uid (min current e.2)
      | none         => pending.insert e.1.uid e.2) ∅

/-- The state of an app that runs in the background. -/
def stateRunningBackground : Int := 0
/-- The state of an open app. -/
def stateForeground : Int := 1
/-- The state of an app that waits to be frozen. -/
def statePending : Int := 2
/-- The state of a frozen app. -/
def stateFrozen : Int := 3

/-- The order in which the manager app shows the states. -/
def freezeStatusRank (record : ManagerFreezeStatusRecord) : Nat :=
  if record.state = stateForeground then 0
  else if record.state = statePending then 1
  else if record.state = stateRunningBackground then 2
  else if record.state = stateFrozen then 3
  else 4

/-- `sort_by_key` on rank and uid; the sort is stable. -/
def sortFreezeStatus (records : List ManagerFreezeStatusRecord) : List ManagerFreezeStatusRecord :=
  records.insertionSort fun a b =>
    freezeStatusRank a < freezeStatusRank b
      ∨ freezeStatusRank a = freezeStatusRank b ∧ a.uid ≤ b.uid

/-- The loop of `freeze_status_records` over the configuration records.  It
    threads `status_since_ms` and collects the rows and the visible uids. -/
def freezeStatusLoop (pendingDue : SortedMap Nat Nat) (frozenUids : SortedSet Nat)
    (processesByUid : SortedMap Nat (List RuntimeProcess)) (foregroundUids : List Nat)
    (timestampMs : Nat) :
    List ManagerAppConfigRecord → SortedMap Nat (Int × Nat) →
      List ManagerFreezeStatusRecord × SortedSet Nat × SortedMap Nat (Int × Nat)
  | [], since => ([], ∅, since)
  | config :: rest, since =>
    let loop := freezeStatusLoop pendingDue frozenUids processesByUid foregroundUids timestampMs rest
    if !isControlPolicyMode config.mode then loop since
    else
      let processes := (processesByUid.get? config.uid).getD []
      let isForeground := foregroundUids.contains config.uid
      let isFrozen := frozenUids.contains config.uid
      if processes.isEmpty && !isForeground && (pendingDue.get? config.uid).isNone && !isFrozen then
        loop since
      else
        let state :=
          if isForeground then stateForeground
          else if (pendingDue.get? config.uid).isSome then statePending
          else if isFrozen then stateFrozen
          else stateRunningBackground
        let row := fun (seconds : Nat) => (⟨config.uid, isForeground, state, seconds,
          min processes.length i32Max⟩ : ManagerFreezeStatusRecord)
        match pendingDue.get? config.uid with
        | some dueAtMs =>
          let seconds := min ((dueAtMs - timestampMs + 999) / 1000) i32Max
          let (rows, visible, since') := loop since
          (row seconds :: rows, visible.insert config.uid (), since')
        | none =>
          let start :=
            match since.get? config.uid with
            | some (previousState, start) => if previousState = state then start else timestampMs
            | none => timestampMs
          let seconds := min ((timestampMs - start) / 1000) i32Max
          let (rows, visible, since') := loop (since.insert config.uid (state, start))
          (row seconds :: rows, visible.insert config.uid (), since')

/-- The status of all controlled apps, with the times since when it is what it is. -/
def freezeStatusRecords (s : RuntimeControlState) (appConfig : List ManagerAppConfigRecord)
    (processesByUid : SortedMap Nat (List RuntimeProcess)) (foregroundUids : List Nat)
    (timestampMs : Nat) : List ManagerFreezeStatusRecord × RuntimeControlState :=
  let frozenUids := s.frozenApps.keys.foldl (fun uids i => uids.insert i.uid ()) (∅ : SortedSet Nat)
  let (rows, visible, since) :=
    freezeStatusLoop s.pendingByUid frozenUids processesByUid foregroundUids timestampMs
      appConfig s.statusSinceMs
  (sortFreezeStatus rows,
    { s with statusSinceMs := since.retain fun uid _ => visible.contains uid })

end RuntimeControlState

end Freezeit
