import Freezeit.ControlLoop
import Freezeit.RequestEffects

/-! # The manager thread and the control thread

    `run_manager_server_forever`: the accept loop and the control loop share
    the state, the policy action gate and the hook.  A step of the server is a
    section under a lock, a call that a thread makes without one, or a change
    of the gate.

    * **The gate** is held by a policy mutation from before its copy of the
      state until after its write-back, and by the control loop for a whole
      cycle.
    * **The shared state** is read or written under its lock only, so such a
      section is one step; a policy mutation has two, and works on a copy in
      between.
    * **The hook** keeps the last configuration that it accepted. -/

namespace Freezeit

open Prog

/-! ## The hook -/

/-- What the hook has accepted, given its answer.  When no answer came the
    configuration may have been taken or not. -/
def HookTakes (payload : Bytes) (reply : Except DaemonError Bool)
    (accepted accepted' : Option Bytes) : Prop :=
  match reply with
  | .ok true  => accepted' = some payload
  | .ok false => accepted' = accepted
  | .error _  => accepted' = accepted ∨ accepted' = some payload

/-- The configuration that a call sends, and the answer. -/
def ManagerCall.config? : ManagerCall → Option (Bytes × Except DaemonError Bool)
  | ⟨.setAppConfig payload, reply⟩ => some (payload, reply)
  | _                              => none

/-- The configuration in a call to the hook, with the reply. -/
def LoopCall.config? : LoopCall → Option (Bytes × Except DaemonError Bool)
  | ⟨.setConfig payload, reply⟩ => some (payload, reply)
  | _                           => none

/-- What a call does to the hook. -/
def HookStep {E : Type} (config? : E → Option (Bytes × Except DaemonError Bool))
    (accepted : Option Bytes) (call : E) (accepted' : Option Bytes) : Prop :=
  match config? call with
  | some (payload, reply) => HookTakes payload reply accepted accepted'
  | none                  => accepted' = accepted

/-! ## The threads -/

/-- The two threads that share the state. -/
inductive Party where
  | manager | control
  deriving DecidableEq, Repr

/-- Where the accept loop is; it serves one request after the other. -/
inductive ManagerPhase where
  | accepting
  /-- The gate is locked for a policy mutation. -/
  | gated (frame : ManagerFrame)
  /-- The handler works on its copy: its calls so far, and what is left of it. -/
  | handling (frame : ManagerFrame) (calls : ManagerTrace) (rest : Manager Reply)
  /-- The copy is written back. -/
  | written

/-- What a live control pass ends with. -/
abbrev PassEnd : Type := Except DaemonError Unit × ReadOnlyState × RuntimeControlState

/-- Where the control loop is. -/
inductive ControlPhase where
  | sleeping
  | gated
  | prepared (work : HookHealthWork)
  | answered (work : HookHealthWork) (result : HookHealthResult)
  /-- The pass works on its snapshot: its calls so far, and what is left of it. -/
  | passing (snapshot : ReadOnlyState) (calls : LiveTrace) (rest : Live PassEnd)
  | passed (snapshot : ReadOnlyState) (report : CycleReport)
  | synced (snapshot : ReadOnlyState) (report : CycleReport) (outcome : HookRuntimeSyncOutcome)
  | requeued (snapshot : ReadOnlyState) (report : CycleReport) (outcome : HookRuntimeSyncOutcome)
  | finished

structure Server where
  shared   : ReadOnlyState
  runtime  : RuntimeControlState
  gate     : Option Party
  manager  : ManagerPhase
  control  : ControlPhase
  /-- The last configuration that the hook accepted. -/
  accepted : Option Bytes

/-! ## Steps -/

/-- A section that writes the shared state. -/
inductive Commit where
  | request (frame : ManagerFrame) (calls : ManagerTrace) (response : Except DaemonError Bytes)
  | hookHealth (work : HookHealthWork) (result : HookHealthResult) (calls : LoopTrace)
  | cycle (report : CycleReport) (outcome : HookRuntimeSyncOutcome)
      (freezeStatus : List ManagerFreezeStatusRecord) (calls : LoopTrace)

/-- What can be seen of a step: a call of one of the parties, or a commit. -/
inductive ServerLabel where
  | silent
  /-- A call of a policy mutation. -/
  | managerCall (call : ManagerCall)
  /-- A call of a control pass. -/
  | passCall (call : LiveCall)
  | commit (commit : Commit)

/-- The commit of a step. -/
def ServerLabel.commit? : ServerLabel → Option Commit
  | .commit written => some written
  | _               => none

/-- The steps of both threads in any order, as far as gate and lock permit. -/
inductive ServerStep : Server → ServerLabel → Server → Prop where
  -- The accept loop.
  | lockForRequest : ∀ {server : Server} (frame : ManagerFrame), server.gate = none →
      server.manager = .accepting → isPolicyMutationCommand frame.command = true →
      ServerStep server .silent { server with gate := some .manager, manager := .gated frame }
  | cloneState : ∀ {server : Server} {frame}, server.manager = .gated frame →
      ServerStep server .silent { server with
        manager := .handling frame [] (handleManagerCommand frame server.shared.clone) }
  | handlerCall : ∀ {server : Server} {frame calls rest call rest' accepted'},
      server.manager = .handling frame calls rest → Next rest call rest' →
      HookStep ManagerCall.config? server.accepted call accepted' →
      ServerStep server (.managerCall call) { server with
        manager  := .handling frame (calls ++ [call]) rest'
        accepted := accepted' }
  | writeBack : ∀ {server : Server} {frame calls response working},
      server.manager = .handling frame calls (.done (response, working)) →
      ServerStep server (.commit (.request frame calls response)) { server with
        shared  := working
        manager := .written }
  | unlockByRequest : ∀ {server : Server}, server.manager = .written →
      ServerStep server .silent { server with gate := none, manager := .accepting }
  | request : ∀ {server : Server} {calls response shared' accepted'} (frame : ManagerFrame),
      server.manager = .accepting → isPolicyMutationCommand frame.command = false →
      Exec (handleManagerCommand frame server.shared) calls (response, shared') →
      Steps (HookStep ManagerCall.config?) server.accepted calls accepted' →
      ServerStep server (.commit (.request frame calls response)) { server with
        shared   := shared'
        accepted := accepted' }
  -- The control loop.
  | lockForCycle : ∀ {server : Server}, server.gate = none → server.control = .sleeping →
      ServerStep server .silent { server with gate := some .control, control := .gated }
  | prepare : ∀ {server : Server}, server.control = .gated →
      ServerStep server .silent { server with
        control := .prepared (prepareHookHealthWork server.shared) }
  | send : ∀ {server : Server} {work calls result accepted'}, server.control = .prepared work →
      Exec (executeHookHealthWork work) calls result →
      Steps (HookStep LoopCall.config?) server.accepted calls accepted' →
      ServerStep server .silent { server with
        control  := .answered work result
        accepted := accepted' }
  | apply : ∀ {server : Server} {work result calls shared'},
      server.control = .answered work result →
      Exec (applyHookHealthResult server.shared work result) calls shared' →
      ServerStep server (.commit (.hookHealth work result calls)) { server with
        shared  := shared'
        control := .passing shared'.clone [] (runLiveControlPass shared'.clone server.runtime) }
  | passCall : ∀ {server : Server} {snapshot calls rest call rest'},
      server.control = .passing snapshot calls rest → Next rest call rest' →
      ServerStep server (.passCall call) { server with
        control := .passing snapshot (calls ++ [call]) rest' }
  | endPass : ∀ {server : Server} {snapshot calls result snapshot' runtime'},
      server.control = .passing snapshot calls (.done (result, snapshot', runtime')) →
      ServerStep server .silent { server with
        runtime := (takeCycleReport runtime').2
        control := .passed snapshot' (takeCycleReport runtime').1 }
  | sync : ∀ {server : Server} {snapshot report calls outcome accepted'},
      server.control = .passed snapshot report →
      Exec (syncCycle snapshot.hookHealth report) calls outcome →
      Steps (HookStep LoopCall.config?) server.accepted calls accepted' →
      ServerStep server .silent { server with
        control  := .synced snapshot report outcome
        accepted := accepted' }
  | requeue : ∀ {server : Server} {snapshot report outcome},
      server.control = .synced snapshot report outcome →
      ServerStep server .silent { server with
        runtime := requeueNetworkRestrictionUids server.runtime outcome.failedNetworkUids
        control := .requeued snapshot report outcome }
  | finish : ∀ {server : Server} {snapshot report outcome calls shared'},
      server.control = .requeued snapshot report outcome →
      Exec (finishCycle server.shared report outcome snapshot.freezeStatus) calls shared' →
      ServerStep server (.commit (.cycle report outcome snapshot.freezeStatus calls)) { server with
        shared  := shared'
        control := .finished }
  | unlockByCycle : ∀ {server : Server}, server.control = .finished →
      ServerStep server .silent { server with gate := none, control := .sleeping }

/-- Neither thread has begun. -/
structure Server.Idle (server : Server) : Prop where
  gate    : server.gate = none
  manager : server.manager = .accepting
  control : server.control = .sleeping

/-! ## The gate -/

/-- The thread that holds the gate is the one that is past locking it. -/
structure Server.Gated (server : Server) : Prop where
  manager : server.gate = some .manager ↔ server.manager ≠ .accepting
  control : server.gate = some .control ↔ server.control ≠ .sleeping

variable {server server' : Server} {label : ServerLabel} {labels : List ServerLabel}

/-- An idle server holds no gate. -/
theorem Server.Idle.gated (h : server.Idle) : server.Gated where
  manager := by simp [h.gate, h.manager]
  control := by simp [h.gate, h.control]

/-- While a mutation is under way the control loop sleeps. -/
theorem Server.Gated.sleeping (h : server.Gated) (hmanager : server.manager ≠ .accepting) :
    server.control = .sleeping := by
  have hgate := h.manager.mpr hmanager
  by_contra hcontrol
  have := h.control.mpr hcontrol
  rw [hgate] at this
  cases this

/-- While the control loop works no mutation is under way. -/
theorem Server.Gated.accepting (h : server.Gated) (hcontrol : server.control ≠ .sleeping) :
    server.manager = .accepting := by
  have hgate := h.control.mpr hcontrol
  by_contra hmanager
  have := h.manager.mpr hmanager
  rw [hgate] at this
  cases this

/-- Locking needs a free gate, and only its holder unlocks it. -/
theorem ServerStep.gated (h : ServerStep server label server') (hgated : server.Gated) :
    server'.Gated := by
  obtain ⟨hmanager, hcontrol⟩ := hgated
  -- The gate changes hands in four of the steps only; the others stay in their phase or go
  -- on to one that holds the same gate.
  cases h with
  | lockForRequest frame hgate haccepting _ =>
    rw [hgate] at hcontrol
    exact ⟨by simp, by simpa using hcontrol⟩
  | cloneState hphase =>
    rw [hphase] at hmanager
    exact ⟨by simpa using hmanager, hcontrol⟩
  | handlerCall hphase _ _ =>
    rw [hphase] at hmanager
    exact ⟨by simpa using hmanager, hcontrol⟩
  | writeBack hphase =>
    rw [hphase] at hmanager
    exact ⟨by simpa using hmanager, hcontrol⟩
  | unlockByRequest hphase =>
    have hgate : server.gate = some .manager := hmanager.mpr (by simp [hphase])
    rw [hgate] at hcontrol
    exact ⟨by simp, by simpa using hcontrol⟩
  | request frame _ _ _ _ => exact ⟨hmanager, hcontrol⟩
  | lockForCycle hgate _ =>
    rw [hgate] at hmanager
    exact ⟨by simpa using hmanager, by simp⟩
  | prepare hphase =>
    rw [hphase] at hcontrol
    exact ⟨hmanager, by simpa using hcontrol⟩
  | send hphase _ _ =>
    rw [hphase] at hcontrol
    exact ⟨hmanager, by simpa using hcontrol⟩
  | apply hphase _ =>
    rw [hphase] at hcontrol
    exact ⟨hmanager, by simpa using hcontrol⟩
  | passCall hphase _ =>
    rw [hphase] at hcontrol
    exact ⟨hmanager, by simpa using hcontrol⟩
  | endPass hphase =>
    rw [hphase] at hcontrol
    exact ⟨hmanager, by simpa using hcontrol⟩
  | sync hphase _ _ =>
    rw [hphase] at hcontrol
    exact ⟨hmanager, by simpa using hcontrol⟩
  | requeue hphase =>
    rw [hphase] at hcontrol
    exact ⟨hmanager, by simpa using hcontrol⟩
  | finish hphase _ =>
    rw [hphase] at hcontrol
    exact ⟨hmanager, by simpa using hcontrol⟩
  | unlockByCycle hphase =>
    have hgate : server.gate = some .control := hcontrol.mpr (by simp [hphase])
    rw [hgate] at hmanager
    exact ⟨by simpa using hmanager, by simp⟩

end Freezeit
