import Freezeit.Server

/-! # The claim that the hook is synchronized

    `hook_config_synced` says that the hook has the current configuration.
    The claim is kept by whole policy mutations and by the health cycle; a
    mutation that is still at work has it on its copy only. -/

namespace Freezeit

open Prog

variable {server server' : Server} {label : ServerLabel} {labels : List ServerLabel}
  {state state₁ state' : ReadOnlyState} {accepted accepted' : Option Bytes}

/-- If the hook is claimed to be synchronized, it has the current configuration. -/
def SyncedSoundly (state : ReadOnlyState) (accepted : Option Bytes) : Prop :=
  state.hookConfigSynced = true →
    ∃ payload, currentXposedPayload state = .ok payload ∧ accepted = some payload

/-! ## Calls and the hook -/

/-- Calls that do not carry a configuration leave the hook with the one it had. -/
theorem hookPath_eq {E : Type} {config? : E → Option (Bytes × Except DaemonError Bool)}
    {calls : List E} (h : Steps (HookStep config?) accepted calls accepted')
    (hnone : ∀ call ∈ calls, config? call = none) : accepted' = accepted := by
  induction h with
  | nil => rfl
  | snoc _ hlast ih =>
    have hbefore := ih fun call hcall => hnone call (List.mem_append_left _ hcall)
    unfold HookStep at hlast
    rw [hnone _ (by simp)] at hlast
    exact hlast.trans hbefore

theorem config?_of_not_hookCall {call : ManagerCall} (h : ¬ HookCall call) :
    call.config? = none := by
  obtain ⟨query, answer⟩ := call
  cases query with
  | setAppConfig payload => exact absurd ⟨payload, rfl⟩ h
  | _ => rfl

/-- What would be sent to the hook depends on the policy only. -/
theorem KeepsPolicy.payload (h : KeepsPolicy state state') :
    currentXposedPayload state' = currentXposedPayload state := by
  unfold currentXposedPayload
  rw [h.config.settings, h.config.appConfig]

theorem KeepsPolicy.work (h : KeepsPolicy state state') :
    prepareHookHealthWork state' = prepareHookHealthWork state := by
  unfold prepareHookHealthWork
  rw [h.payload, h.config.revision]

/-- The claim stays true while policy and claim stay. -/
theorem SyncedSoundly.of_keeps (h : SyncedSoundly state accepted) (hkeeps : KeepsPolicy state state') :
    SyncedSoundly state' accepted := by
  intro hsynced
  rw [hkeeps.synced] at hsynced
  rw [hkeeps.payload]
  exact h hsynced

/-- Whatever a request did to the claim and to the hook, it keeps the claim true. -/
theorem Resynced.sound {calls : ManagerTrace} (h : Resynced state calls state')
    (hhook : Steps (HookStep ManagerCall.config?) accepted calls accepted')
    (hsound : SyncedSoundly state accepted) : SyncedSoundly state' accepted' := by
  -- Either the claim is withdrawn, or neither the policy nor the hook is touched, or the
  -- answer that is claimed comes from the last configuration that was sent.
  cases h with
  | unsynced hfalse =>
    intro htrue
    rw [hfalse] at htrue
    cases htrue
  | untouched hkeeps hnohook =>
    have heq := hookPath_eq hhook fun call hcall => config?_of_not_hookCall (hnohook call hcall)
    rw [heq]
    exact hsound.of_keeps hkeeps
  | taken hpayload hnohook =>
    intro _
    obtain ⟨before, after, -, htakes, hrest⟩ := hhook.at_step
    have heq := hookPath_eq hrest fun call hcall => config?_of_not_hookCall (hnohook call hcall)
    refine ⟨_, hpayload, ?_⟩
    rw [heq]
    exact htakes

/-! ## The health cycle -/

/-- Nothing was sent but the prepared configuration, and an answer of success
    means that the hook has it. -/
structure Sent (work : HookHealthWork) (result : HookHealthResult)
    (accepted accepted' : Option Bytes) : Prop where
  only  : accepted' = accepted ∨ ∃ payload, work.xposedPayload = some payload ∧ accepted' = some payload
  taken : result.syncResult = some (.ok true) →
    ∃ payload, work.xposedPayload = some payload ∧ accepted' = some payload

theorem HookTakes.only {payload : Bytes} {reply : Except DaemonError Bool}
    (h : HookTakes payload reply accepted accepted') :
    accepted' = accepted ∨ accepted' = some payload := by
  match reply with
  | .ok true  => exact .inr h
  | .ok false => exact .inl h
  | .error _  => exact h

/-- The threads are unlocked meanwhile: all that is known afterwards is what was sent and
    what the hook answered. -/
theorem executeHookHealthWork_sent {work : HookHealthWork} {calls : LoopTrace}
    {result : HookHealthResult} (h : Exec (executeHookHealthWork work) calls result)
    (hhook : Steps (HookStep LoopCall.config?) accepted calls accepted') :
    Sent work result accepted accepted' := by
  obtain ⟨t₁, t₂, syncResult, rfl, h₁, h₂⟩ := exec_bind.mp h
  obtain ⟨health, t₃, rfl, h₃⟩ := exec_ask_bind.mp h₂
  obtain ⟨rfl, rfl⟩ := exec_pure.mp h₃
  obtain ⟨middle, hsend, hquery⟩ := Steps.append_iff.mp hhook
  -- The health query changes nothing.
  obtain rfl : accepted' = middle := hookPath_eq hquery (by simp [LoopCall.config?])
  unfold sendConfig at h₁
  split at h₁
  · split at h₁
    · next payload hpayload =>
      obtain ⟨reply, t₄, rfl, h₄⟩ := exec_ask_bind.mp h₁
      obtain ⟨rfl, rfl⟩ := exec_pure.mp h₄
      have htakes : HookTakes payload reply accepted accepted' := Steps.single_iff.mp hsend
      refine ⟨htakes.only.imp_right fun heq => ⟨payload, hpayload, heq⟩, ?_⟩
      intro hok
      obtain rfl := Option.some.inj hok
      exact ⟨payload, hpayload, htakes⟩
    · obtain ⟨rfl, rfl⟩ := exec_pure.mp h₁
      exact ⟨.inl (Steps.nil_iff.mp hsend), nofun⟩
  · obtain ⟨rfl, rfl⟩ := exec_pure.mp h₁
    exact ⟨.inl (Steps.nil_iff.mp hsend), nofun⟩

/-- The log record is stamped with the time that was asked for. -/
theorem pushOnceNow_spec {record : Nat → LogRecord} {calls : LoopTrace}
    (h : Exec (pushOnceNow state record) calls state') : ∃ nowMs, calls = [⟨.now, nowMs⟩]
      ∧ state' = { state with managerLog := state.managerLog.pushOnce (record nowMs) } := by
  obtain ⟨nowMs, t₁, rfl, h₁⟩ := exec_ask_bind.mp h
  obtain ⟨rfl, rfl⟩ := exec_pure.mp h₁
  exact ⟨nowMs, rfl, rfl⟩

/-- A cycle applies its work. The flag is set only for a configuration that is still
    current, and an old flag stands only if the cycle had nothing to send. -/
structure Applied (state : ReadOnlyState) (work : HookHealthWork) (result : HookHealthResult)
    (state' : ReadOnlyState) : Prop where
  config : SameConfig state state'
  synced : state'.hookConfigSynced = true →
    result.syncResult = none ∧ state.hookConfigSynced = true
      ∨ result.syncResult = some (.ok true)
        ∧ xposedConfigMatchesCurrentState state work.xposedPayload = true

/-- The claim after the result: no result leaves it alone, success makes it if the
    configuration is still the current one, and everything else withdraws it. -/
theorem applySyncResult_applied {work : HookHealthWork}
    {syncResult : Option (Except DaemonError Bool)} {calls : LoopTrace}
    (h : Exec (applySyncResult state work syncResult) calls state') :
    SameConfig state state' ∧ (state'.hookConfigSynced = true →
      syncResult = none ∧ state.hookConfigSynced = true
        ∨ syncResult = some (.ok true)
          ∧ xposedConfigMatchesCurrentState state work.xposedPayload = true) := by
  -- A result that comes too late is compared with what would be sent now.
  match syncResult with
  | none =>
    obtain ⟨-, rfl⟩ := exec_pure.mp h
    exact ⟨.refl _, fun hsynced => .inl ⟨rfl, hsynced⟩⟩
  | some (.ok synced) =>
    obtain ⟨nowMs, -, rfl⟩ := pushOnceNow_spec h
    refine ⟨⟨rfl, rfl, rfl, rfl⟩, ?_⟩
    intro hcurrent
    have hcurrent : syncIsCurrent state work synced = true := hcurrent
    unfold syncIsCurrent at hcurrent
    simp only [Bool.and_eq_true] at hcurrent
    obtain ⟨⟨rfl, -⟩, hmatches⟩ := hcurrent
    exact .inr ⟨rfl, hmatches⟩
  | some (.error error) =>
    obtain ⟨nowMs, -, rfl⟩ := pushOnceNow_spec h
    exact ⟨⟨rfl, rfl, rfl, rfl⟩, nofun⟩

theorem applyHookHealthResult_applied {work : HookHealthWork} {result : HookHealthResult}
    {calls : LoopTrace} (h : Exec (applyHookHealthResult state work result) calls state') :
    Applied state work result state' := by
  obtain ⟨t₁, t₂, state₁, rfl, h₁, h₂⟩ := exec_bind.mp h
  obtain ⟨diagnostics, t₃, rfl, h₃⟩ := exec_ask_bind.mp h₂
  obtain ⟨-, rfl⟩ := exec_pure.mp h₃
  obtain ⟨hconfig, hsynced⟩ := applySyncResult_applied h₁
  refine ⟨⟨hconfig.settings, hconfig.appConfig, hconfig.sourceTokens, hconfig.revision⟩, ?_⟩
  intro hready
  have hready : (_ && state₁.hookConfigSynced) = true := hready
  rw [Bool.and_eq_true] at hready
  exact hsynced hready.2

/-- A match means that there is a current configuration, and that it is this one. -/
theorem currentXposedPayload_of_matches {expected : Option Bytes}
    (h : xposedConfigMatchesCurrentState state expected = true) :
    ∃ payload, expected = some payload ∧ currentXposedPayload state = .ok payload := by
  unfold xposedConfigMatchesCurrentState at h
  match expected with
  | none => cases h
  | some payload =>
    dsimp only at h
    split at h
    · next current hcurrent =>
      rw [decide_eq_true_iff] at h
      exact ⟨payload, rfl, by rw [hcurrent, h]⟩
    · cases h

/-- Sending the current configuration again keeps the claim true, whatever the answer. -/
theorem Sent.sound {result : HookHealthResult}
    (h : Sent (prepareHookHealthWork state) result accepted accepted')
    (hsound : SyncedSoundly state accepted) : SyncedSoundly state accepted' := by
  intro hsynced
  obtain ⟨payload, hpayload, haccepted⟩ := hsound hsynced
  rcases h.only with hsame | ⟨sent, hsent, htaken⟩
  · exact ⟨payload, hpayload, hsame.trans haccepted⟩
  · have hsent : (currentXposedPayload state).toOption = some sent := hsent
    rw [hpayload] at hsent
    obtain rfl := Option.some.inj hsent
    exact ⟨payload, hpayload, htaken⟩

/-- The claim that a result leads to is true, if the hook still has what was sent. -/
theorem Applied.sound {work : HookHealthWork} {result : HookHealthResult}
    (h : Applied state work result state') (hsound : SyncedSoundly state accepted)
    (htaken : result.syncResult = some (.ok true) →
      ∃ payload, work.xposedPayload = some payload ∧ accepted = some payload) :
    SyncedSoundly state' accepted := by
  have hpayload : currentXposedPayload state' = currentXposedPayload state := by
    unfold currentXposedPayload
    rw [h.config.settings, h.config.appConfig]
  intro hsynced
  rw [hpayload]
  rcases h.synced hsynced with ⟨-, hbefore⟩ | ⟨hok, hmatches⟩
  · exact hsound hbefore
  · obtain ⟨payload, hwork, hcurrent⟩ := currentXposedPayload_of_matches hmatches
    obtain ⟨sent, hsent, haccepted⟩ := htaken hok
    rw [hwork] at hsent
    obtain rfl := Option.some.inj hsent
    exact ⟨payload, hcurrent, haccepted⟩

/-! ## The rest of a cycle -/

theorem requestSuccess_calls {command : XposedCommand} {payload : Bytes} :
    Calls (fun call : LoopCall => call.config? = none) (requestSuccess command payload) := by
  refine calls_ask_bind (fun ans => rfl) fun ans => ?_
  split
  · exact calls_pure
  · exact calls_pure

theorem breakNetworks_calls (uids : List Nat) :
    Calls (fun call : LoopCall => call.config? = none) (breakNetworks uids) := by
  induction uids with
  | nil => exact calls_pure
  | cons uid uids ih =>
    refine calls_bind requestSuccess_calls fun result => calls_bind ih fun failed => ?_
    split
    · exact calls_pure
    · exact calls_pure

/-- The rest of a cycle talks to the hook, but sends it no configuration. -/
theorem syncCycle_calls (hookHealth : String) (report : CycleReport) :
    Calls (fun call : LoopCall => call.config? = none) (syncCycle hookHealth report) := by
  unfold syncCycle
  split
  · exact calls_bind requestSuccess_calls fun pending =>
      calls_bind (breakNetworks_calls _) fun failed => calls_pure
  · exact calls_pure

/-- The end of a cycle writes its results, and the log. -/
structure Finished (state : ReadOnlyState) (report : CycleReport)
    (freezeStatus : List ManagerFreezeStatusRecord) (state' : ReadOnlyState) : Prop where
  pushed : Pushed state.managerLog state'.managerLog
  rest   : state' = { state with
    managerLog       := state'.managerLog
    operationLogJson := report.operationLogJson
    freezeStatus     := freezeStatus }

theorem pushed_pushOperations (log : ManagerLog) (operations : List ControlOperation) :
    Pushed log (pushOperations log operations) := by
  refine ⟨operations.map .operation, ?_⟩
  unfold pushOperations
  rw [List.foldl_map]

theorem logPendingError_spec {error : Option String} {calls : LoopTrace}
    (h : Exec (logPendingError state error) calls state') :
    Pushed state.managerLog state'.managerLog
      ∧ state' = { state with managerLog := state'.managerLog } := by
  match error with
  | none =>
    obtain ⟨-, rfl⟩ := exec_pure.mp h
    exact ⟨.refl _, rfl⟩
  | some error =>
    obtain ⟨nowMs, -, rfl⟩ := pushOnceNow_spec h
    exact ⟨pushed_pushOnce _ _, rfl⟩

theorem logFailedNetworkUids_spec {uids : List Nat} {calls : LoopTrace}
    (h : Exec (logFailedNetworkUids state uids) calls state') :
    Pushed state.managerLog state'.managerLog
      ∧ state' = { state with managerLog := state'.managerLog } := by
  unfold logFailedNetworkUids at h
  split at h
  · obtain ⟨-, rfl⟩ := exec_pure.mp h
    exact ⟨.refl _, rfl⟩
  · obtain ⟨nowMs, -, rfl⟩ := pushOnceNow_spec h
    exact ⟨pushed_pushOnce _ _, rfl⟩

/-- What the end of a cycle writes: the results, the log, and no policy. -/
theorem finishCycle_finished {report : CycleReport} {outcome : HookRuntimeSyncOutcome}
    {freezeStatus : List ManagerFreezeStatusRecord} {calls : LoopTrace}
    (h : Exec (finishCycle state report outcome freezeStatus) calls state') :
    Finished state report freezeStatus state' := by
  obtain ⟨t₁, t₂, state₁, rfl, h₁, h₂⟩ := exec_bind.mp h
  obtain ⟨t₃, t₄, state₂, rfl, h₃, h₄⟩ := exec_bind.mp h₂
  obtain ⟨-, rfl⟩ := exec_pure.mp h₄
  obtain ⟨hpending, hrest₁⟩ := logPendingError_spec h₁
  obtain ⟨hfailed, hrest₂⟩ := logFailedNetworkUids_spec h₃
  refine ⟨((pushed_pushOperations _ _).trans hpending).trans hfailed, ?_⟩
  rw [hrest₁] at hrest₂
  rw [hrest₂]

theorem Finished.keeps {report : CycleReport} {freezeStatus : List ManagerFreezeStatusRecord}
    (h : Finished state report freezeStatus state') : KeepsPolicy state state' := by
  rw [h.rest]
  exact ⟨⟨rfl, rfl, rfl, rfl⟩, rfl⟩

/-! ## The invariant -/

/-- A policy mutation is between its copy of the state and its write-back. -/
def ManagerPhase.Mutating : ManagerPhase → Prop
  | .handling _ _ _ => True
  | _               => False

/-- The invariant of the interleaving. `sound` is the result itself and holds while no
    mutation is at work; the other fields carry it through the phases where the hook may
    already be ahead of the state: a mutation between its copy and its write-back
    (`handling`), a cycle that has prepared a configuration (`prepared`), and one whose
    configuration was answered (`answered`). -/
structure Server.HookInv (server : Server) : Prop where
  gated    : server.Gated
  sound    : ¬ server.manager.Mutating → SyncedSoundly server.shared server.accepted
  handling : ∀ {frame calls rest}, server.manager = .handling frame calls rest →
    ∃ state accepted, SyncedSoundly state accepted
      ∧ Steps Next (handleManagerCommand frame state) calls rest
      ∧ Steps (HookStep ManagerCall.config?) accepted calls server.accepted
  prepared : ∀ {work}, server.control = .prepared work →
    work = prepareHookHealthWork server.shared
  answered : ∀ {work result}, server.control = .answered work result →
    result.syncResult = some (.ok true) →
      ∃ payload, work.xposedPayload = some payload ∧ server.accepted = some payload

theorem KeepsPolicy.clone (state : ReadOnlyState) : KeepsPolicy state state.clone :=
  ⟨⟨rfl, rfl, rfl, rfl⟩, rfl⟩

/-- A server whose control loop waits for the gate, or sleeps. -/
theorem Server.HookInv.of_sleeping (hgated : server.Gated) (hcontrol : server.control = .sleeping)
    (hsound : ¬ server.manager.Mutating → SyncedSoundly server.shared server.accepted)
    (hhandling : ∀ {frame calls rest}, server.manager = .handling frame calls rest →
      ∃ state accepted, SyncedSoundly state accepted
        ∧ Steps Next (handleManagerCommand frame state) calls rest
        ∧ Steps (HookStep ManagerCall.config?) accepted calls server.accepted) :
    server.HookInv where
  gated    := hgated
  sound    := hsound
  handling := hhandling
  prepared := by
    intro work hwork
    rw [hcontrol] at hwork
    cases hwork
  answered := by
    intro work result hwork
    rw [hcontrol] at hwork
    cases hwork

/-- A server whose accept loop serves no policy mutation. -/
theorem Server.HookInv.of_accepting (hgated : server.Gated)
    (hmanager : server.manager = .accepting)
    (hsound : SyncedSoundly server.shared server.accepted)
    (hprepared : ∀ {work}, server.control = .prepared work →
      work = prepareHookHealthWork server.shared)
    (hanswered : ∀ {work result}, server.control = .answered work result →
      result.syncResult = some (.ok true) →
        ∃ payload, work.xposedPayload = some payload ∧ server.accepted = some payload) :
    server.HookInv where
  gated      := hgated
  sound _    := hsound
  handling   := by
    intro frame calls rest hphase
    rw [hmanager] at hphase
    cases hphase
  prepared   := hprepared
  answered   := hanswered

/-- Every step of either thread keeps the invariant. The gate decides which of its fields
    a step has to care about: a mutation runs while the control loop sleeps, and the control
    loop works while no mutation does. -/
theorem ServerStep.hookInv (hinv : server.HookInv) (h : ServerStep server label server') :
    server'.HookInv := by
  have hgated' := h.gated hinv.gated
  -- A step of the control loop is taken while no mutation is at work.
  have haccepting : server.control ≠ .sleeping →
      server.manager = .accepting ∧ SyncedSoundly server.shared server.accepted := by
    intro hcontrol
    have hmanager := hinv.gated.accepting hcontrol
    exact ⟨hmanager, hinv.sound (by simp [hmanager, ManagerPhase.Mutating])⟩
  cases h with
  | lockForRequest frame _ hmanager _ =>
    exact {
      gated    := hgated'
      sound    := fun _ => hinv.sound (by simp [hmanager, ManagerPhase.Mutating])
      handling := nofun
      prepared := hinv.prepared
      answered := hinv.answered }
  -- From here on the handler works on a copy, and the state that others see is left as it
  -- is: the copy is sound, and the calls of the handler are counted from it.
  | cloneState hphase =>
    refine .of_sleeping hgated' (hinv.gated.sleeping (by simp [hphase])) ?_ ?_
    · intro hidle
      exact absurd trivial hidle
    · intro frame calls rest hnext
      cases hnext
      have hsound := hinv.sound (by simp [hphase, ManagerPhase.Mutating])
      exact ⟨_, _, hsound.of_keeps (.clone _), .nil, .nil⟩
  | handlerCall hphase hnext hhook =>
    refine .of_sleeping hgated' (hinv.gated.sleeping (by simp [hphase])) ?_ ?_
    · intro hidle
      exact absurd trivial hidle
    · intro frame calls rest hafter
      cases hafter
      obtain ⟨state, accepted, hsound, hprog, htaken⟩ := hinv.handling hphase
      exact ⟨state, accepted, hsound, hprog.snoc hnext, htaken.snoc hhook⟩
  -- The handler has ended, so its calls are a whole run of the request from the copy.
  | writeBack hphase =>
    refine .of_sleeping hgated' (hinv.gated.sleeping (by simp [hphase])) ?_ nofun
    intro _
    obtain ⟨state, accepted, hsound, hprog, htaken⟩ := hinv.handling hphase
    have hexec := exec_of_path hprog (.done _)
    rw [List.append_nil] at hexec
    exact (handleManagerCommand_effect hexec).resynced.sound htaken hsound
  | unlockByRequest hphase =>
    refine .of_accepting hgated' rfl (hinv.sound (by simp [hphase, ManagerPhase.Mutating])) ?_ ?_
    · exact hinv.prepared
    · exact hinv.answered
  -- A request that is no mutation holds no gate. It may come between the sending of a
  -- configuration and its answer, so it has to keep both.
  | request frame hmanager hpolicy hexec hhook =>
    have heffect := handleManagerCommand_effect hexec
    have hkeeps := heffect.policy hpolicy
    have hsound := hinv.sound (by simp [hmanager, ManagerPhase.Mutating])
    have haccepted := hookPath_eq hhook fun call hcall =>
      config?_of_not_hookCall (heffect.hookCalls hpolicy call hcall)
    refine .of_accepting hgated' hmanager (heffect.resynced.sound hhook hsound) ?_ ?_
    · intro work hwork
      rw [hinv.prepared hwork]
      exact hkeeps.work.symm
    · intro work result hwork hok
      obtain ⟨payload, hpayload, htaken⟩ := hinv.answered hwork hok
      exact ⟨payload, hpayload, haccepted.trans htaken⟩
  | lockForCycle hgate hcontrol =>
    exact {
      gated    := hgated'
      sound    := hinv.sound
      handling := hinv.handling
      prepared := nofun
      answered := nofun }
  | prepare hphase =>
    obtain ⟨hmanager, hsound⟩ := haccepting (by simp [hphase])
    refine .of_accepting hgated' hmanager hsound ?_ nofun
    intro work hwork
    cases hwork
    rfl
  -- The configuration that is sent was prepared under the same gate.
  | send hphase hexec hhook =>
    obtain ⟨hmanager, hsound⟩ := haccepting (by simp [hphase])
    have hsent := executeHookHealthWork_sent hexec hhook
    obtain rfl := hinv.prepared hphase
    refine .of_accepting hgated' hmanager (hsent.sound hsound) nofun ?_
    intro work result hwork hok
    cases hwork
    exact hsent.taken hok
  | apply hphase hexec =>
    obtain ⟨hmanager, hsound⟩ := haccepting (by simp [hphase])
    have happlied := applyHookHealthResult_applied hexec
    exact .of_accepting hgated' hmanager (happlied.sound hsound (hinv.answered hphase)) nofun nofun
  | passCall hphase _ | endPass hphase | requeue hphase | unlockByCycle hphase =>
    obtain ⟨hmanager, hsound⟩ := haccepting (by simp [hphase])
    exact .of_accepting hgated' hmanager hsound nofun nofun
  -- What this sends to the hook is no configuration.
  | sync hphase hexec hhook =>
    obtain ⟨hmanager, hsound⟩ := haccepting (by simp [hphase])
    have haccepted := hookPath_eq hhook (syncCycle_calls _ _ _ _ hexec)
    rw [← haccepted] at hsound
    exact .of_accepting hgated' hmanager hsound nofun nofun
  | finish hphase hexec =>
    obtain ⟨hmanager, hsound⟩ := haccepting (by simp [hphase])
    have hkeeps := (finishCycle_finished hexec).keeps
    exact .of_accepting hgated' hmanager (hsound.of_keeps hkeeps) nofun nofun

/-! ## Runs of the server -/

/-- What the startup hands to the threads: the loaded configuration was sent to
    the hook, and what came after that only wrote to the log. -/
inductive Server.Starts (server : Server) : Prop where
  | intro : ∀ {loaded synced : ReadOnlyState} {calls : LoopTrace} {r accepted},
      loaded.hookConfigSynced = false →
      Exec (syncLoadedConfigToHook loaded) calls (r, synced) →
      Steps (HookStep LoopCall.config?) accepted calls server.accepted →
      KeepsPolicy synced server.shared → server.Idle → server.Starts

/-- The startup sends the loaded configuration before any thread runs, and claims nothing
    unless the hook took it. -/
theorem syncLoadedConfigToHook_sound {calls : LoopTrace} {r : Except DaemonError Bool}
    (h : Exec (syncLoadedConfigToHook state) calls (r, state'))
    (hhook : Steps (HookStep LoopCall.config?) accepted calls accepted')
    (hunsynced : state.hookConfigSynced = false) : SyncedSoundly state' accepted' := by
  unfold syncLoadedConfigToHook at h
  split at h
  -- There is no configuration to send.
  · obtain ⟨-, heq⟩ := exec_pure.mp h
    obtain ⟨-, rfl⟩ := Prod.mk.inj heq
    intro hsynced
    rw [hunsynced] at hsynced
    cases hsynced
  · next payload hpayload =>
    obtain ⟨reply, t₁, rfl, h₁⟩ := exec_ask_bind.mp h
    match reply with
    | .error error =>
      obtain ⟨-, heq⟩ := exec_pure.mp h₁
      obtain ⟨-, rfl⟩ := Prod.mk.inj heq
      intro hsynced
      rw [hunsynced] at hsynced
      cases hsynced
    | .ok synced =>
      obtain ⟨t₂, t₃, state₁, rfl, h₂, h₃⟩ := exec_bind.mp h₁
      obtain ⟨rfl, heq⟩ := exec_pure.mp h₃
      obtain ⟨-, rfl⟩ := Prod.mk.inj heq
      obtain ⟨nowMs, rfl, rfl⟩ := pushOnceNow_spec h₂
      obtain ⟨middle, htakes, hrest⟩ := Steps.cons_iff.mp hhook
      obtain rfl : accepted' = middle := hookPath_eq hrest (by simp [LoopCall.config?])
      intro hsynced
      obtain rfl : synced = true := hsynced
      exact ⟨payload, hpayload, htakes⟩

theorem Server.Starts.hookInv (h : server.Starts) : server.HookInv := by
  obtain ⟨hunsynced, hexec, hhook, hkeeps, hidle⟩ := h
  have hsound := (syncLoadedConfigToHook_sound hexec hhook hunsynced).of_keeps hkeeps
  refine .of_accepting hidle.gated hidle.manager hsound ?_ ?_
  · intro work hwork
    rw [hidle.control] at hwork
    cases hwork
  · intro work result hwork
    rw [hidle.control] at hwork
    cases hwork

/-- In every run of the two threads, and with any answers of the hook: whenever
    no policy mutation is at work on its copy, a hook that is claimed to be
    synchronized has accepted the current configuration last. -/
theorem hook_config_synced_is_sound (hstart : server.Starts)
    (h : Steps ServerStep server labels server') (hquiet : ¬ server'.manager.Mutating) :
    SyncedSoundly server'.shared server'.accepted := by
  have hinv := h.invariant (I := Server.HookInv) (fun _ _ _ hinv hstep => hstep.hookInv hinv)
    hstart.hookInv
  exact hinv.sound hquiet

/-! ### A run -/

/-- A policy mutation gets as far as its handler does. -/
theorem Server.Idle.handles {frame : ManagerFrame} {calls : ManagerTrace} {rest : Manager Reply}
    (hidle : server.Idle) (hpolicy : isPolicyMutationCommand frame.command = true)
    (hprog : Steps Next (handleManagerCommand frame server.shared.clone) calls rest)
    (hhook : Steps (HookStep ManagerCall.config?) server.accepted calls accepted') :
    Steps ServerStep server (.silent :: .silent :: calls.map .managerCall) { server with
      gate     := some .manager
      manager  := .handling frame calls rest
      accepted := accepted' } := by
  refine Steps.cons_iff.mpr ⟨_, .lockForRequest frame hidle.gate hidle.manager hpolicy, ?_⟩
  refine Steps.cons_iff.mpr ⟨_, .cloneState rfl, ?_⟩
  induction hprog generalizing accepted' with
  | nil =>
    obtain rfl := Steps.nil_iff.mp hhook
    exact .nil
  | snoc _ hnext ih =>
    obtain ⟨middle, hbefore, hlast⟩ := Steps.snoc_iff.mp hhook
    rw [List.map_append]
    exact (ih hbefore).snoc (.handlerCall rfl hnext hlast)

/-- And then to its end. -/
theorem Server.Idle.mutates {frame : ManagerFrame} {calls : ManagerTrace}
    {response : Except DaemonError Bytes} {working : ReadOnlyState}
    (hidle : server.Idle) (hpolicy : isPolicyMutationCommand frame.command = true)
    (hexec : Exec (handleManagerCommand frame server.shared.clone) calls (response, working))
    (hhook : Steps (HookStep ManagerCall.config?) server.accepted calls accepted') :
    Steps ServerStep server
      ((.silent :: .silent :: calls.map .managerCall)
        ++ [.commit (.request frame calls response)] ++ [.silent])
      { server with shared := working, accepted := accepted' } := by
  have hexec : Exec (handleManagerCommand frame server.shared.clone) (calls ++ [])
      (response, working) := by rw [List.append_nil]; exact hexec
  obtain ⟨rest, hprog, hdone⟩ := hexec.path
  cases hdone
  have hgate := hidle.gate
  have hmanager := hidle.manager
  have hend := ((hidle.handles hpolicy hprog hhook).snoc (.writeBack rfl)).snoc (.unlockByRequest rfl)
  dsimp only at hend
  rw [← hgate, ← hmanager] at hend
  exact hend

/-- The hook takes everything, and time stands still. -/
def agreeingHook (_past : LoopTrace) : (query : LoopQuery) → query.Answer
  | .setConfig _                => .ok true
  | .queryHookHealth            => .ok "\x7b\"status\":\"active\"\x7d"
  | .request _ _                => .ok (i32LeBytes 2)
  | .now                        => 0
  | .runtimeDiagnostics _ _ _ _ => ⟨"", "", "", "", true⟩

/-- The startup without any record. -/
def sampleStartup : LoopTrace × (Except DaemonError Bool × ReadOnlyState) :=
  run agreeingHook [] (syncLoadedConfigToHook emptyPolicyState)

/-- A server that has started on an empty configuration, which the hook has taken. -/
def startedServer : Server where
  shared   := sampleStartup.2.2
  runtime  := .default
  gate     := none
  manager  := .accepting
  control  := .sleeping
  accepted := some (utf8Bytes "8\n \n ")

theorem sampleStartup_calls :
    sampleStartup.1 = [⟨.setConfig (utf8Bytes "8\n \n "), .ok true⟩, ⟨.now, 0⟩] := by rfl

theorem startedServer_starts : startedServer.Starts := by
  have hsent : Steps (HookStep LoopCall.config?) none
      [⟨.setConfig (utf8Bytes "8\n \n "), .ok true⟩] startedServer.accepted :=
    Steps.single_iff.mpr rfl
  have hhook : Steps (HookStep LoopCall.config?) none sampleStartup.1 startedServer.accepted := by
    rw [sampleStartup_calls]
    exact hsent.snoc rfl
  have hexec : Exec (syncLoadedConfigToHook emptyPolicyState) sampleStartup.1 sampleStartup.2 :=
    exec_run _ _ _
  exact .intro rfl hexec hhook (.refl _) ⟨rfl, rfl, rfl⟩

/-- The sample request on the state of the started server. -/
def startedRequest : ManagerTrace × Reply :=
  run (configAnswer (.ok ()) (.ok [])) []
    (handleManagerCommand sampleFrame startedServer.shared.clone)

/-- What the hook is sent for the sample request. -/
def newPayload : Bytes := utf8Bytes "8\n10123uid10123\n "

theorem startedRequest_calls : startedRequest.1 = renamingCalls
    ++ [⟨.syncParent samplePolicyPath, .ok ()⟩] ++ [⟨.setAppConfig newPayload, .ok true⟩] := by
  rfl

theorem startedRequest_hook : Steps (HookStep ManagerCall.config?) startedServer.accepted
    startedRequest.1 (some newPayload) := by
  rw [startedRequest_calls]
  have hbefore : Steps (HookStep ManagerCall.config?) startedServer.accepted renamingCalls
      startedServer.accepted :=
    .snoc (.snoc (.snoc (.snoc (.snoc .nil rfl) rfl) rfl) rfl) rfl
  have hflushed : Steps (HookStep ManagerCall.config?) startedServer.accepted
      (renamingCalls ++ [⟨.syncParent samplePolicyPath, .ok ()⟩]) startedServer.accepted :=
    hbefore.snoc rfl
  exact hflushed.snoc rfl

/-- A whole mutation on the started server: the hook ends with the new configuration. -/
theorem hook_config_synced_is_sound_sample :
    SyncedSoundly startedRequest.2.2 (some newPayload) := by
  have hidle : startedServer.Idle := ⟨rfl, rfl, rfl⟩
  have hpolicy : isPolicyMutationCommand sampleFrame.command = true := rfl
  have hexec : Exec (handleManagerCommand sampleFrame startedServer.shared.clone)
      startedRequest.1 (startedRequest.2.1, startedRequest.2.2) := exec_run _ _ _
  have hrun := hidle.mutates hpolicy hexec startedRequest_hook
  have hsound := hook_config_synced_is_sound startedServer_starts hrun
    (by simp [startedServer, ManagerPhase.Mutating])
  exact hsound

/-- While a mutation is at work the hook may have its new configuration, and the
    shared state the old one with the old claim. -/
theorem hook_config_synced_lags_behind :
    ¬ ∀ (server server' : Server) (labels : List ServerLabel), server.Starts →
      Steps ServerStep server labels server' → SyncedSoundly server'.shared server'.accepted := by
  intro hclaim
  have hidle : startedServer.Idle := ⟨rfl, rfl, rfl⟩
  have hexec : Exec (handleManagerCommand sampleFrame startedServer.shared.clone)
      (startedRequest.1 ++ []) startedRequest.2 := by
    rw [List.append_nil]
    exact exec_run _ _ _
  obtain ⟨rest, hprog, -⟩ := hexec.path
  have hpolicy : isPolicyMutationCommand sampleFrame.command = true := rfl
  have hrun := hidle.handles hpolicy hprog startedRequest_hook
  obtain ⟨payload, hpayload, haccepted⟩ := hclaim _ _ _ startedServer_starts hrun rfl
  have hold : currentXposedPayload startedServer.shared = .ok (utf8Bytes "8\n \n ") := rfl
  obtain rfl := Except.ok.inj (hold.symm.trans hpayload)
  exact absurd (Option.some.inj haccepted) (by decide)

end Freezeit
