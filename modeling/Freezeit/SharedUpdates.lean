import Freezeit.HookSync

/-! # No update of the shared state is lost

    The sections that write the shared state take effect one after the other,
    each on what the one before it left, also those that worked on a copy.
    Each leaves alone what belongs to the other thread. -/

namespace Freezeit

open Prog

variable {server server' : Server} {label : ServerLabel} {labels : List ServerLabel}
  {state state' : ReadOnlyState}

/-! ## The sections as steps of the state -/

/-- What a request works on: a policy mutation on a copy. -/
def workingState (frame : ManagerFrame) (state : ReadOnlyState) : ReadOnlyState :=
  if isPolicyMutationCommand frame.command then state.clone else state

/-- The section did its work on the state before it, without anything in between. -/
def Commit.Performs (state : ReadOnlyState) (state' : ReadOnlyState) : Commit → Prop
  | .request frame calls response =>
    Exec (handleManagerCommand frame (workingState frame state)) calls (response, state')
  | .hookHealth work result calls => Exec (applyHookHealthResult state work result) calls state'
  | .cycle report outcome freezeStatus calls =>
    Exec (finishCycle state report outcome freezeStatus) calls state'

/-- The section overwrote nothing of the other thread, and dropped nothing from the log. -/
def Commit.Spares (state : ReadOnlyState) (state' : ReadOnlyState) : Commit → Prop
  | .request frame _ _ =>
    state'.controlPart = state.controlPart
      ∧ (frame.command ≠ .clearLog →
        Pushed (workingState frame state).managerLog state'.managerLog)
      ∧ (isPolicyMutationCommand frame.command = false → KeepsPolicy state state')
  | .hookHealth _ _ _ =>
    state'.managerPart = state.managerPart ∧ Pushed state.managerLog state'.managerLog
      ∧ state'.operationLogJson = state.operationLogJson ∧ state'.freezeStatus = state.freezeStatus
  | .cycle report _ freezeStatus _ => Finished state report freezeStatus state'

/-- One commit on the shared state: what it performs, and what it spares. -/
def CommitStep (state : ReadOnlyState) (commit : Commit) (state' : ReadOnlyState) : Prop :=
  commit.Performs state state' ∧ commit.Spares state state'

/-- A request starts from the control part of the shared state. -/
theorem controlPart_workingState (frame : ManagerFrame) (state : ReadOnlyState) :
    (workingState frame state).controlPart = state.controlPart := by
  unfold workingState
  split
  · rfl
  · rfl

/-- A request commits what the manager may write. -/
theorem commitStep_request {frame : ManagerFrame} {calls : ManagerTrace}
    {response : Except DaemonError Bytes}
    (h : Exec (handleManagerCommand frame (workingState frame state)) calls (response, state')) :
    CommitStep state (.request frame calls response) state' := by
  have heffect := handleManagerCommand_effect h
  refine ⟨h, ?_, heffect.pushed, ?_⟩
  · rw [← controlPart_workingState frame state]
    exact heffect.control
  · intro hpolicy
    have hkeeps := heffect.policy hpolicy
    unfold workingState at hkeeps
    rw [hpolicy] at hkeeps
    exact hkeeps

/-- Applying the result of a synchronisation spares what the manager writes. -/
theorem applySyncResult_spares {work : HookHealthWork}
    {syncResult : Option (Except DaemonError Bool)} {calls : LoopTrace}
    (h : Exec (applySyncResult state work syncResult) calls state') :
    state'.managerPart = state.managerPart ∧ Pushed state.managerLog state'.managerLog
      ∧ state'.operationLogJson = state.operationLogJson
      ∧ state'.freezeStatus = state.freezeStatus := by
  match syncResult with
  | none =>
    obtain ⟨-, rfl⟩ := exec_pure.mp h
    exact ⟨rfl, .refl _, rfl, rfl⟩
  | some (.ok synced) =>
    obtain ⟨nowMs, -, rfl⟩ := pushOnceNow_spec h
    exact ⟨rfl, pushed_pushOnce _ _, rfl, rfl⟩
  | some (.error error) =>
    obtain ⟨nowMs, -, rfl⟩ := pushOnceNow_spec h
    exact ⟨rfl, pushed_pushOnce _ _, rfl, rfl⟩

/-- The report of the hook's health is a commit of the control loop. -/
theorem commitStep_hookHealth {work : HookHealthWork} {result : HookHealthResult}
    {calls : LoopTrace} (h : Exec (applyHookHealthResult state work result) calls state') :
    CommitStep state (.hookHealth work result calls) state' := by
  refine ⟨h, ?_⟩
  obtain ⟨t₁, t₂, state₁, rfl, h₁, h₂⟩ := exec_bind.mp h
  obtain ⟨diagnostics, t₃, rfl, h₃⟩ := exec_ask_bind.mp h₂
  obtain ⟨-, rfl⟩ := exec_pure.mp h₃
  obtain ⟨hmanager, hpushed, hoperations, hstatus⟩ := applySyncResult_spares h₁
  refine ⟨?_, hpushed, hoperations, hstatus⟩
  -- The health status and the diagnostics are blanked in the manager's part.
  show state₁.managerPart = state.managerPart
  exact hmanager

/-- The end of a cycle is a commit of the control loop. -/
theorem commitStep_cycle {report : CycleReport} {outcome : HookRuntimeSyncOutcome}
    {freezeStatus : List ManagerFreezeStatusRecord} {calls : LoopTrace}
    (h : Exec (finishCycle state report outcome freezeStatus) calls state') :
    CommitStep state (.cycle report outcome freezeStatus calls) state' :=
  ⟨h, finishCycle_finished h⟩

/-! ## The invariant -/

/-- What a snapshot has in common with the committed state: the policy that a pass acts
    on, and what the control loop writes. -/
structure CommittedPolicy (shared snapshot : ReadOnlyState) : Prop where
  policy  : KeepsPolicy shared snapshot
  control : snapshot.controlPart = shared.controlPart

/-- What the clones that are under way know of the shared state. A mutation holds the gate
    and works on the state it has cloned; a pass works on the policy that is committed, since
    no mutation can run beside it. -/
structure Server.ShareInv (server : Server) : Prop where
  gated    : server.Gated
  mutation : ∀ {frame}, server.manager = .gated frame →
    isPolicyMutationCommand frame.command = true
  handling : ∀ {frame calls rest}, server.manager = .handling frame calls rest →
    isPolicyMutationCommand frame.command = true
      ∧ Steps Next (handleManagerCommand frame server.shared.clone) calls rest
  passing  : ∀ {snapshot calls rest}, server.control = .passing snapshot calls rest →
    CommittedPolicy server.shared snapshot
      ∧ Steps Next (runLiveControlPass snapshot server.runtime) calls rest

/-- To have the same policy is symmetric. -/
theorem KeepsPolicy.symm (h : KeepsPolicy state state') : KeepsPolicy state' state where
  config := {
    settings     := h.config.settings.symm
    appConfig    := h.config.appConfig.symm
    sourceTokens := h.config.sourceTokens.symm
    revision     := h.config.revision.symm }
  synced := h.synced.symm

/-- Between requests and cycles there is no clone. -/
theorem Server.Idle.shareInv (h : server.Idle) : server.ShareInv where
  gated    := h.gated
  mutation := by
    intro frame hphase
    rw [h.manager] at hphase
    cases hphase
  handling := by
    intro frame calls rest hphase
    rw [h.manager] at hphase
    cases hphase
  passing  := by
    intro snapshot calls rest hphase
    rw [h.control] at hphase
    cases hphase

/-- A server in which the control loop works on nothing. -/
theorem Server.ShareInv.of_manager (hgated : server.Gated) (hcontrol : server.control = .sleeping)
    (hmutation : ∀ {frame}, server.manager = .gated frame →
      isPolicyMutationCommand frame.command = true)
    (hhandling : ∀ {frame calls rest}, server.manager = .handling frame calls rest →
      isPolicyMutationCommand frame.command = true
        ∧ Steps Next (handleManagerCommand frame server.shared.clone) calls rest) :
    server.ShareInv where
  gated    := hgated
  mutation := hmutation
  handling := hhandling
  passing  := by
    intro snapshot calls rest hphase
    rw [hcontrol] at hphase
    cases hphase

/-- A server in which no policy mutation is at work. -/
theorem Server.ShareInv.of_control (hgated : server.Gated) (hmanager : server.manager = .accepting)
    (hpassing : ∀ {snapshot calls rest}, server.control = .passing snapshot calls rest →
      CommittedPolicy server.shared snapshot
        ∧ Steps Next (runLiveControlPass snapshot server.runtime) calls rest) :
    server.ShareInv where
  gated    := hgated
  mutation := by
    intro frame hphase
    rw [hmanager] at hphase
    cases hphase
  handling := by
    intro frame calls rest hphase
    rw [hmanager] at hphase
    cases hphase
  passing  := hpassing

/-- Every step of either party keeps this. -/
theorem ServerStep.shareInv (hinv : server.ShareInv) (h : ServerStep server label server') :
    server'.ShareInv := by
  have hgated' := h.gated hinv.gated
  have hsleeping : server.manager ≠ .accepting → server.control = .sleeping := hinv.gated.sleeping
  have haccepting : server.control ≠ .sleeping → server.manager = .accepting :=
    hinv.gated.accepting
  cases h with
  -- The gate was free, so the control loop sleeps.
  | lockForRequest frame hgate hmanager hpolicy =>
    have hcontrol : server.control = .sleeping := by
      by_contra hne
      have := hinv.gated.control.mpr hne
      rw [hgate] at this
      cases this
    refine .of_manager hgated' hcontrol ?_ nofun
    intro frame' hphase
    cases hphase
    exact hpolicy
  -- The clone is taken under the gate.
  | cloneState hphase =>
    refine .of_manager hgated' (hsleeping (by simp [hphase])) nofun ?_
    intro frame calls rest hnext
    cases hnext
    exact ⟨hinv.mutation hphase, .nil⟩
  | handlerCall hphase hnext _ =>
    refine .of_manager hgated' (hsleeping (by simp [hphase])) nofun ?_
    intro frame calls rest hafter
    cases hafter
    obtain ⟨hpolicy, hprog⟩ := hinv.handling hphase
    exact ⟨hpolicy, hprog.snoc hnext⟩
  | writeBack hphase => exact .of_manager hgated' (hsleeping (by simp [hphase])) nofun nofun
  | unlockByRequest hphase => exact .of_manager hgated' (hsleeping (by simp [hphase])) nofun nofun
  | request frame hmanager hpolicy hexec _ =>
    have heffect := handleManagerCommand_effect hexec
    refine .of_control hgated' hmanager ?_
    intro snapshot calls rest hphase
    obtain ⟨hcommitted, hprog⟩ := hinv.passing hphase
    -- Neither the policy nor what the control loop writes is touched meanwhile.
    have hkeeps := (heffect.policy hpolicy).symm.trans hcommitted.policy
    exact ⟨⟨hkeeps, hcommitted.control.trans heffect.control.symm⟩, hprog⟩
  | lockForCycle hgate hcontrol =>
    have hmanager : server.manager = .accepting := by
      by_contra hne
      have := hinv.gated.manager.mpr hne
      rw [hgate] at this
      cases this
    exact .of_control hgated' hmanager nofun
  | apply hphase hexec =>
    refine .of_control hgated' (haccepting (by simp [hphase])) ?_
    intro snapshot calls rest hafter
    cases hafter
    exact ⟨⟨.clone _, rfl⟩, .nil⟩
  | passCall hphase hnext =>
    refine .of_control hgated' (haccepting (by simp [hphase])) ?_
    intro snapshot calls rest hafter
    cases hafter
    obtain ⟨hcommitted, hprog⟩ := hinv.passing hphase
    exact ⟨hcommitted, hprog.snoc hnext⟩
  | prepare hphase | send hphase _ _ | endPass hphase | sync hphase _ _ | requeue hphase
  | finish hphase _ | unlockByCycle hphase =>
    exact .of_control hgated' (haccepting (by simp [hphase])) nofun

/-! ## Runs -/

/-- Only a commit changes the shared state. -/
theorem ServerStep.shared_of_silent (h : ServerStep server label server')
    (hlabel : label.commit? = none) : server'.shared = server.shared := by
  cases h with
  | writeBack | request | apply | finish => cases hlabel
  | _ => rfl

/-- And a commit changes it as it should, from the state that is there when it is made. -/
theorem ServerStep.commitStep {commit : Commit} (hinv : server.ShareInv)
    (h : ServerStep server label server') (hlabel : label.commit? = some commit) :
    CommitStep server.shared commit server'.shared := by
  cases h with
  | writeBack hphase =>
    cases hlabel
    obtain ⟨hpolicy, hprog⟩ := hinv.handling hphase
    have hexec := exec_of_path hprog (.done _)
    rw [List.append_nil] at hexec
    refine commitStep_request ?_
    unfold workingState
    rw [if_pos hpolicy]
    exact hexec
  | request frame _ hpolicy hexec _ =>
    cases hlabel
    refine commitStep_request ?_
    unfold workingState
    rw [hpolicy]
    exact hexec
  | apply _ hexec =>
    cases hlabel
    exact commitStep_hookHealth hexec
  | finish _ hexec =>
    cases hlabel
    exact commitStep_cycle hexec
  | _ => cases hlabel

/-- In every interleaving the shared state is what its sections make of it one
    after the other, none of which overwrites what is not its own; and a pass
    acts on a snapshot whose policy is the committed one. -/
theorem no_update_is_lost (hidle : server.Idle) (h : Steps ServerStep server labels server') :
    Steps CommitStep server.shared (labels.filterMap ServerLabel.commit?) server'.shared
      ∧ ∀ snapshot calls rest, server'.control = .passing snapshot calls rest →
        CommittedPolicy server'.shared snapshot
          ∧ Steps Next (runLiveControlPass snapshot server'.runtime) calls rest := by
  have hinv := h.invariant (I := Server.ShareInv) (fun _ _ _ hinv hstep => hstep.shareInv hinv)
    hidle.shareInv
  refine ⟨?_, fun snapshot calls rest hphase => hinv.passing hphase⟩
  exact h.refines (I := Server.ShareInv) (fun _ _ _ hinv hstep => hstep.shareInv hinv)
    (fun _ _ _ _ hstep hlabel => hstep.shared_of_silent hlabel)
    (fun _ _ _ _ hinv hstep hlabel => hstep.commitStep hinv hlabel) hidle.shareInv

/-! ### A run -/

/-- The work of the sample: the configuration has to be sent. -/
def sampleWork : HookHealthWork := prepareHookHealthWork startedServer.shared

/-- The hook takes it. -/
def sampleSent : LoopTrace × HookHealthResult :=
  run agreeingHook [] (executeHookHealthWork sampleWork)

/-- The result is applied. -/
def sampleApplied : LoopTrace × ReadOnlyState :=
  run agreeingHook [] (applyHookHealthResult startedServer.shared sampleWork sampleSent.2)

/-- A request that is no policy mutation, and so needs no gate. -/
def clearFrame : ManagerFrame := ⟨.clearLog, []⟩

/-- Its effect on the state as applied. -/
def sampleCleared : ManagerTrace × Reply :=
  run (configAnswer (.ok ()) (.ok [])) [] (handleManagerCommand clearFrame sampleApplied.2)

/-- The log is cleared while a pass begins. -/
def interruptedServer : Server :=
  { startedServer with
    shared  := sampleCleared.2.2
    gate    := some .control
    control := .passing sampleApplied.2.clone [] (runLiveControlPass sampleApplied.2.clone .default) }

/-- It is served in the middle of the cycle. -/
def interruptedLabels : List ServerLabel :=
  [.silent, .silent, .silent, .commit (.hookHealth sampleWork sampleSent.2 sampleApplied.1),
    .commit (.request clearFrame sampleCleared.1 sampleCleared.2.1)]

/-- The calls that the hook gets. -/
theorem sampleSent_calls : sampleSent.1 = [⟨.setConfig (utf8Bytes "8\n \n "), .ok true⟩]
    ++ [⟨.queryHookHealth, .ok "\x7b\"status\":\"active\"\x7d"⟩] := by rfl

/-- The server can take these steps. -/
theorem interruptedServer_run : Steps ServerStep startedServer interruptedLabels interruptedServer := by
  have hsent : Steps (HookStep LoopCall.config?) startedServer.accepted sampleSent.1
      startedServer.accepted := by
    rw [sampleSent_calls]
    exact (Steps.single_iff.mpr rfl).snoc rfl
  have hcleared : Steps (HookStep ManagerCall.config?) startedServer.accepted sampleCleared.1
      startedServer.accepted := Steps.single_iff.mpr rfl
  refine Steps.cons_iff.mpr ⟨_, .lockForCycle rfl rfl, ?_⟩
  refine Steps.cons_iff.mpr ⟨_, .prepare rfl, ?_⟩
  refine Steps.cons_iff.mpr ⟨_, .send rfl (exec_run agreeingHook [] _) hsent, ?_⟩
  refine Steps.cons_iff.mpr ⟨_, .apply rfl (exec_run agreeingHook [] _), ?_⟩
  exact Steps.single_iff.mpr (.request clearFrame rfl rfl
    (exec_run (configAnswer (.ok ()) (.ok [])) [] _) hcleared)

/-- Both commits are there afterwards, and the pass works on the committed policy. -/
theorem no_update_is_lost_sample :
    Steps CommitStep startedServer.shared (interruptedLabels.filterMap ServerLabel.commit?)
        interruptedServer.shared
      ∧ CommittedPolicy interruptedServer.shared sampleApplied.2.clone := by
  have hidle : startedServer.Idle := ⟨rfl, rfl, rfl⟩
  obtain ⟨hserial, hpolicy⟩ := no_update_is_lost hidle interruptedServer_run
  exact ⟨hserial, (hpolicy _ _ _ rfl).1⟩

end Freezeit
