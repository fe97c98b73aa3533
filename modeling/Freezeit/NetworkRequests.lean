import Freezeit.ControlLoop
import Freezeit.Frames
import Freezeit.Lib.Transitions
import Freezeit.RecordBranches

/-! # Network requests

    The uids whose network the hook is to break.  The queue outlives the pass
    that filled it: a request that the hook refused is put back, and waits for
    the next cycle while the app may be thawed. -/

namespace Freezeit

open Prog

variable {ctx : RecordContext} {s s' : RuntimeControlState} {t : Trace}
  {r : Except DaemonError Unit}

/-- Every queued uid has an app that is tracked as frozen. -/
def QueuedAreFrozen (s : RuntimeControlState) : Prop :=
  ∀ uid ∈ s.networkRestrictionRequests, ∃ i ∈ s.frozenApps, i.uid = uid

/-- The queue and the tracked apps are all that matters. -/
theorem QueuedAreFrozen.of_eq (h : QueuedAreFrozen s) (happs : s'.frozenApps = s.frozenApps)
    (hqueue : s'.networkRestrictionRequests = s.networkRestrictionRequests) : QueuedAreFrozen s' := by
  unfold QueuedAreFrozen
  rw [happs, hqueue]
  exact h

/-! ## The queue in a decision -/

/-- A record adds no other uid than its own. -/
theorem mem_requestNetworkRestriction {record : ManagerAppConfigRecord} {uid : Nat}
    (h : uid ∈ (s.requestNetworkRestriction record).networkRestrictionRequests) :
    uid ∈ s.networkRestrictionRequests ∨ uid = record.uid := by
  rw [RuntimeControlState.requestNetworkRestriction_networkRestrictionRequests] at h
  split at h
  · exact (SortedMap.mem_insert.mp h).symm
  · exact .inl h

/-- Tracking residual processes leaves the queue alone. -/
theorem trackResidual_requests (residual : Bool) (s : RuntimeControlState) :
    (ctx.trackResidual residual s).networkRestrictionRequests = s.networkRestrictionRequests := by
  cases residual with
  | false => rfl
  | true  => rfl

/-- A request is queued only together with the tracking of the app. -/
theorem DecisionStep.queued {decision : FreezeDecision} (h : DecisionStep ctx decision s t r s')
    {uid : Nat} (huid : uid ∈ s'.networkRestrictionRequests) :
    uid ∈ s.networkRestrictionRequests ∨ uid = ctx.record.uid ∧ ctx.identity ∈ s'.frozenApps := by
  -- A uid is queued in the branches that track its app, and in the same step.
  cases h with
  | idle => exact .inl huid
  | fallbackStopped =>
    have htracked : ∀ s₀ : RuntimeControlState, ctx.identity
        ∈ (s₀.trackFrozen ctx.identity ctx.input.timestampMs .residualUnknown).frozenApps := by simp
    cases mem_requestNetworkRestriction huid with
    | inl hfirst =>
      cases mem_requestNetworkRestriction hfirst with
      | inl hold =>
        rw [RuntimeControlState.trackFrozen_networkRestrictionRequests,
          trackResidual_requests] at hold
        exact .inl hold
      | inr heq => exact .inr ⟨heq, htracked _⟩
    | inr heq => exact .inr ⟨heq, htracked _⟩
  | @fallbackFailed _ _ outcome stopped failure =>
    have hold : uid ∈ (ctx.trackResidual (stopped.rollbackFailures > 0)
        (ctx.trackResidual outcome.residualPossible
          (ctx.blockShared failure s))).networkRestrictionRequests := huid
    rw [trackResidual_requests, trackResidual_requests] at hold
    exact .inl hold
  | rescanFailed => exact .inl huid
  | frozen =>
    cases mem_requestNetworkRestriction huid with
    | inl hold => exact .inl hold
    | inr heq => exact .inr ⟨heq, by simp⟩
  | @rescanThawed _ _ _ _ rollback =>
    have hold : uid ∈ (if rollback.failures.isEmpty then s.clearFrozen ctx.identity
        else ctx.trackResidual true s).networkRestrictionRequests := huid
    split at hold
    · exact .inl hold
    · exact .inl hold
  | stopped =>
    cases mem_requestNetworkRestriction huid with
    | inl hold => exact .inl hold
    | inr heq => exact .inr ⟨heq, by simp⟩
  | @stopFailed _ _ outcome failure =>
    have hold : uid ∈ (ctx.trackResidual (outcome.rollbackFailures > 0)
        (ctx.blockShared failure s)).networkRestrictionRequests := huid
    rw [trackResidual_requests] at hold
    exact .inl hold
  | terminated => exact .inl huid
  | terminateFailed => exact .inl huid

/-- The decision leaves an untracked app untracked: nothing is frozen, the
    attempt is refused, or it is rolled back without a failure. -/
inductive LeavesUntracked (ctx : RecordContext) (decision : FreezeDecision) : Trace → Prop where
  | idle : decision.action ≠ .freeze → decision.action ≠ .signal → decision.action ≠ .terminate →
      LeavesUntracked ctx decision []
  | refused : ∀ {t₁ t₂ outcome stopped}, decision.action = .freeze →
      FreezeRun id ctx.pendingProcesses t₁ outcome → outcome.failure ≠ none →
      outcome.residualPossible = false → StopRun ctx.pendingProcesses t₂ stopped →
      stopped.failure ≠ none → stopped.rollbackFailures = 0 →
      LeavesUntracked ctx decision (t₁ ++ t₂)
  | rescanFailed : ∀ {t₁ outcome} (error : DaemonError), decision.action = .freeze →
      FreezeRun id ctx.pendingProcesses t₁ outcome → outcome.failure = none →
      LeavesUntracked ctx decision (t₁ ++ [listed ctx.record.uid (.error error)])
  | rescanThawed : ∀ {t₁ t₂ outcome post rollback}, decision.action = .freeze →
      FreezeRun id ctx.pendingProcesses t₁ outcome → outcome.failure = none →
      ctx.newPids post ≠ [] →
      Exec (unfreezeIdentityProcesses ctx.packageName post .cgroupBinder) t₂ rollback →
      rollback.failures = [] →
      LeavesUntracked ctx decision (t₁ ++ listed ctx.record.uid (.ok post) :: t₂)
  | stopFailed : ∀ {t₁ t₂ outcome}, decision.action = .signal → (∀ call ∈ t₁, LedgerCall call) →
      StopRun ctx.pendingProcesses t₂ outcome → outcome.failure ≠ none →
      outcome.rollbackFailures = 0 → LeavesUntracked ctx decision (t₁ ++ t₂)
  | terminated : ∀ {t outcome}, decision.action = .terminate →
      TerminateRun ctx.pendingProcesses t outcome → LeavesUntracked ctx decision t

theorem DecisionStep.tracked_or {decision : FreezeDecision}
    (h : DecisionStep ctx decision s t r s') :
    ctx.identity ∈ s'.frozenApps ∨ LeavesUntracked ctx decision t := by
  -- Each branch tracks the app or is one of the named ways to leave it untracked.
  cases h with
  | idle _ hfreeze hsignal hterminate => exact .inr (.idle hfreeze hsignal hterminate)
  | fallbackStopped => exact .inl (by simp)
  | @fallbackFailed _ _ outcome stopped failure failure' _ hd hrun hfailure hstop hstopFailure =>
    have happs : ∀ i, i ∈ (ctx.trackResidual (stopped.rollbackFailures > 0)
        (ctx.trackResidual outcome.residualPossible (ctx.blockShared failure s))).frozenApps ↔
        (decide (stopped.rollbackFailures > 0) = true ∧ i = ctx.identity)
          ∨ (outcome.residualPossible = true ∧ i = ctx.identity) ∨ i ∈ s.frozenApps := by
      intro i
      rw [RecordContext.mem_trackResidual, RecordContext.mem_trackResidual]
      rfl
    by_cases hresidual : outcome.residualPossible = true
    · exact .inl ((happs ctx.identity).mpr (.inr (.inl ⟨hresidual, rfl⟩)))
    · by_cases hrollback : stopped.rollbackFailures = 0
      · exact .inr (.refused hd hrun (by simp [hfailure]) (by simpa using hresidual) hstop
          (by simp [hstopFailure]) hrollback)
      · exact .inl ((happs ctx.identity).mpr (.inl ⟨by simpa using Nat.pos_of_ne_zero hrollback, rfl⟩))
  | rescanFailed error hd hrun hfailure => exact .inr (.rescanFailed error hd hrun hfailure)
  | frozen => exact .inl (by simp)
  | @rescanThawed _ _ _ _ rollback _ hd hrun hfailure hnew hthaw =>
    by_cases hfailures : rollback.failures = []
    · exact .inr (.rescanThawed hd hrun hfailure hnew hthaw hfailures)
    · rw [if_neg (by simpa using hfailures)]
      exact .inl (RecordContext.mem_trackResidual.mpr (.inl ⟨rfl, rfl⟩))
  | stopped => exact .inl (by simp)
  | @stopFailed _ _ outcome failure _ hd hledger hstop hfailure =>
    by_cases hrollback : outcome.rollbackFailures = 0
    · exact .inr (.stopFailed hd hledger hstop (by simp [hfailure]) hrollback)
    · exact .inl (RecordContext.mem_trackResidual.mpr
        (.inl ⟨by simpa using Nat.pos_of_ne_zero hrollback, rfl⟩))
  | terminated _ hd hrun => exact .inr (.terminated hd hrun)
  | terminateFailed _ hd hrun => exact .inr (.terminated hd hrun)

/-! ## The queue in a record -/

/-- The background branch queues no uid without tracking its app. -/
theorem BackgroundBranch.queued {abnormalThaw : Bool} (h : BackgroundBranch ctx abnormalThaw s t r s')
    {uid : Nat} (huid : uid ∈ s'.networkRestrictionRequests) :
    uid ∈ s.networkRestrictionRequests ∨ uid = ctx.record.uid ∧ ctx.identity ∈ s'.frozenApps := by
  cases h with
  | delayed hdelay =>
    obtain ⟨-, -, ⟨_, -, -, rfl⟩ | ⟨-, _, rfl⟩⟩ := postponeForDelay_eq_some hdelay
    · exact .inl huid
    · exact .inl huid
  | downloading =>
    obtain ⟨log, next, heq⟩ := postponeDownload_eq ctx _ _
    rw [heq] at huid
    exact .inl huid
  | quiet _ _ _ hdecision => exact hdecision.queued huid
  | unsampled _ _ hdecision => exact hdecision.queued huid

/-- The audit does not get the app frozen again. -/
inductive RefreezeGivesUp (ctx : RecordContext) : Trace → Prop where
  | downloading : ∀ (answer : Except DaemonError (Option Nat)), RefreezeGivesUp ctx [ctx.sampled answer]
  | quiet : ∀ {binder t} (answer : Except DaemonError (Option Nat)),
      LeavesUntracked ctx (ctx.decide binder) t →
      RefreezeGivesUp ctx (ctx.sampled answer :: ⟨.binderAvailable, binder⟩ :: t)
  | unsampled : ∀ {binder t}, LeavesUntracked ctx (ctx.decide binder) t →
      RefreezeGivesUp ctx (⟨.binderAvailable, binder⟩ :: t)

/-- If the audit has untracked the app, the background branch tracks it again or gives up. -/
theorem BackgroundBranch.tracked_or (h : BackgroundBranch ctx true s t r s') :
    ctx.identity ∈ s'.frozenApps ∨ RefreezeGivesUp ctx t := by
  cases h with
  | delayed hdelay =>
    have hnormal := (postponeForDelay_eq_some hdelay).1
    cases hnormal
  | @downloading answer => exact .inr (.downloading answer)
  | @quiet answer _ _ _ _ _ _ _ hdecision =>
    exact hdecision.tracked_or.imp_right (RefreezeGivesUp.quiet answer)
  | unsampled _ _ hdecision => exact hdecision.tracked_or.imp_right RefreezeGivesUp.unsampled

/-- The app is the only frozen one of its uid, and the uid is queued: after its release
    the queue would name a uid of which nothing is frozen. -/
structure QueuedAlone (ctx : RecordContext) (s : RuntimeControlState) : Prop where
  queued  : ctx.record.uid ∈ s.networkRestrictionRequests
  tracked : ctx.identity ∈ s.frozenApps
  alone   : ∀ i ∈ s.frozenApps, i.uid = ctx.record.uid → i = ctx.identity

/-- The app is thawed, because it is opened or due for a wakeup. -/
structure Thaws (ctx : RecordContext) (s : RuntimeControlState) (t : Trace) : Prop where
  wanted  : ctx.record.uid ∈ ctx.input.foregroundUids
    ∨ periodicWakeupDue s ctx.identity ctx.input.settings ctx.input.timestampMs = true
  uniform : ∀ p ∈ ctx.processes, p.packageName = ctx.packageName
  calls   : t = thawedCalls (s.frozenOwnershipOf ctx.identity).controlProcess
    (s.frozenOwnershipOf ctx.identity).controlProcess ctx.processes

/-- A record whose app is released while its uid is queued. -/
inductive ReleasesQueued (input : PassInput) (auditDue : Bool) (record : ManagerAppConfigRecord)
    (s : RuntimeControlState) : Trace → Prop where
  | thawed : ∀ {first rest t}, QueuedAlone (listedContext input record first rest) s →
      Thaws (listedContext input record first rest) s t →
      ReleasesQueued input auditDue record s (listed record.uid (.ok (first :: rest)) :: t)
  | untracked : ∀ {first rest t}, QueuedAlone (listedContext input record first rest) s →
      AuditUntracks (listedContext input record first rest) auditDue s →
      RefreezeGivesUp (listedContext input record first rest) t →
      ReleasesQueued input auditDue record s (listed record.uid (.ok (first :: rest)) :: t)

/-- A finished thaw has validated and thawed every process. -/
theorem unfreezeIdentityProcesses_calls {package : String} {ps : List RuntimeProcess}
    {ownership : FrozenOwnership} {outcome : UnfreezeOutcome}
    (h : Exec (unfreezeIdentityProcesses package ps ownership) t outcome)
    (hok : outcome.failures.isEmpty = true) :
    (∀ p ∈ ps, p.packageName = package)
      ∧ t = thawedCalls ownership.controlProcess ownership.controlProcess ps := by
  have hnil : outcome.failures = [] := List.isEmpty_iff.mp hok
  cases unfreezeIdentityProcesses_spec h with
  | inl hmixed => exact absurd hnil hmixed.2.2
  | inr hall => exact ⟨hall.1, hall.2.eq_thawedCalls (by rw [hnil]; rfl)⟩

/-- Unblocking leaves the queue alone. -/
theorem Unblocked.requests {s₀ : RuntimeControlState} (h : Unblocked ctx s s₀) :
    s₀.networkRestrictionRequests = s.networkRestrictionRequests := by
  cases h.2 with
  | inl heq => rw [heq]
  | inr heq => rw [heq]; rfl

/-- Unblocking leaves the owners alone. -/
theorem Unblocked.frozenOwnershipOf {s₀ : RuntimeControlState} (h : Unblocked ctx s s₀)
    (i : RuntimeIdentity) : s₀.frozenOwnershipOf i = s.frozenOwnershipOf i := by
  cases h.2 with
  | inl heq => rw [heq]
  | inr heq => rw [heq]; rfl

/-- The apps of the uid that stay tracked vouch for the queue. -/
theorem QueuedAreFrozen.of_step (ctx : RecordContext) (h : QueuedAreFrozen s)
    (hqueue : ∀ uid ∈ s'.networkRestrictionRequests, uid ∈ s.networkRestrictionRequests
      ∨ uid = ctx.record.uid ∧ ctx.identity ∈ s'.frozenApps)
    (hframe : ∀ i ∈ s.frozenApps, i ≠ ctx.identity → i ∈ s'.frozenApps)
    (hreleased : QueuedAlone ctx s → ctx.identity ∈ s'.frozenApps) : QueuedAreFrozen s' := by
  intro uid huid
  cases hqueue uid huid with
  | inr hnew => exact ⟨ctx.identity, hnew.2, hnew.1.symm⟩
  | inl hold =>
    obtain ⟨i, hi, hiuid⟩ := h uid hold
    by_cases hother : ∃ j ∈ s.frozenApps, j.uid = uid ∧ j ≠ ctx.identity
    · obtain ⟨j, hj, hjuid, hne⟩ := hother
      exact ⟨j, hframe j hj hne, hjuid⟩
    · have hidentity : ∀ j ∈ s.frozenApps, j.uid = uid → j = ctx.identity := by
        intro j hj hjuid
        by_contra hne
        exact hother ⟨j, hj, hjuid, hne⟩
      have hictx := hidentity i hi hiuid
      have huidctx : ctx.record.uid = uid := by
        rw [← hiuid, hictx]
        rfl
      refine ⟨ctx.identity, hreleased ⟨?_, ?_, ?_⟩, huidctx⟩
      · rw [huidctx]
        exact hold
      · rw [← hictx]
        exact hi
      · rw [huidctx]
        exact hidentity

/-- Uids leave the queue before their apps are released. -/
theorem QueuedAreFrozen.of_kept {P : Nat → Prop} (h : QueuedAreFrozen s)
    (hqueue : ∀ uid ∈ s'.networkRestrictionRequests, uid ∈ s.networkRestrictionRequests ∧ P uid)
    (hframe : ∀ i ∈ s.frozenApps, P i.uid → i ∈ s'.frozenApps) : QueuedAreFrozen s' := by
  intro uid huid
  obtain ⟨hold, hkept⟩ := hqueue uid huid
  obtain ⟨i, hi, hiuid⟩ := h uid hold
  refine ⟨i, hframe i hi ?_, hiuid⟩
  rw [hiuid]
  exact hkept

/-- Thaws of other apps leave the queue alone. -/
theorem ThawSteps.requests {identities : List RuntimeIdentity} (h : ThawSteps identities s t s') :
    s'.networkRestrictionRequests = s.networkRestrictionRequests := by
  obtain ⟨_, _, _, _, _, rfl, -⟩ := h.exists_eq
  rfl

/-- Dropping detached ownership leaves the queue alone. -/
theorem clearDetached_requests (s : RuntimeControlState) (identities : List RuntimeIdentity) :
    (s.clearDetached identities).networkRestrictionRequests = s.networkRestrictionRequests := by
  rw [RuntimeControlState.clearDetached_eq]

/-- An app that exited leaves the queue. -/
theorem clearExited_requests (s : RuntimeControlState) (uid : Nat) :
    (s.clearExited uid).networkRestrictionRequests = s.networkRestrictionRequests.erase uid := by
  unfold RuntimeControlState.clearExited
  dsimp only
  rw [RuntimeControlState.clearFrozenAll_eq]
  rfl

/-- A protected app leaves the queue, and the others stay tracked. -/
theorem releaseProtected_queued (h : Exec (ctx.releaseProtected s) t (r, s'))
    (hs : QueuedAreFrozen s) : QueuedAreFrozen s' := by
  have hframe : ∀ i ∈ s.frozenApps, i.uid ≠ ctx.record.uid → i ∈ s'.frozenApps :=
    fun i hi hne => (releaseProtected_frame h hne).tracked.mpr hi
  refine hs.of_kept (P := fun uid => uid ≠ ctx.record.uid) ?_ hframe
  obtain ⟨s₁, hsteps, rfl⟩ := releaseProtected_steps h
  intro uid huid
  rw [clearDetached_requests, hsteps.requests,
    RuntimeControlState.clearTransientControlStateForUid_networkRestrictionRequests] at huid
  exact (SortedMap.mem_erase.mp huid).symm

/-- A thaw untracks the app when it succeeds. -/
theorem QueuedAreFrozen.of_thaw (ctx : RecordContext) (thawed : Bool) (h : QueuedAreFrozen s)
    (happs : s'.frozenApps = if thawed then s.frozenApps.erase ctx.identity else s.frozenApps)
    (hqueue : s'.networkRestrictionRequests = s.networkRestrictionRequests)
    (hthawed : thawed = true → ¬ QueuedAlone ctx s) : QueuedAreFrozen s' := by
  cases thawed with
  | false => exact h.of_eq happs hqueue
  | true =>
    have hmem : ∀ i, i ∈ s'.frozenApps ↔ i ≠ ctx.identity ∧ i ∈ s.frozenApps := by
      intro i
      rw [happs]
      exact SortedMap.mem_erase
    refine h.of_step ctx ?_ ?_ ?_
    · intro uid huid
      rw [hqueue] at huid
      exact .inl huid
    · intro i hi hne
      exact (hmem i).mpr ⟨hne, hi⟩
    · intro halone
      exact absurd halone (hthawed rfl)

/-- A record keeps what is queued tracked, unless it thaws or gives up the only app of a
    queued uid. -/
theorem RecordBranch.queued {auditDue : Bool} (h : RecordBranch ctx auditDue s t r s')
    (hs : QueuedAreFrozen s) (hthawed : QueuedAlone ctx s → ¬ Thaws ctx s t)
    (huntracked : QueuedAlone ctx s → AuditUntracks ctx auditDue s → ¬ RefreezeGivesUp ctx t) :
    QueuedAreFrozen s' := by
  cases h with
  | protectedApp _ hexec => exact releaseProtected_queued hexec hs
  | blocked => exact hs
  | @foreground s₀ _ _ _ _ hcleared hfg hexec =>
    have hunblocked := hcleared.unblocked
    have hs₀ : QueuedAreFrozen s₀ := hs.of_eq hunblocked.frozenApps hunblocked.requests
    obtain ⟨-, ⟨-, -, rfl⟩ | ⟨-, outcome, operation, hthaw, rfl⟩⟩ := thawForeground_spec hexec
    · exact hs₀.of_eq rfl rfl
    · refine hs.of_thaw ctx outcome.failures.isEmpty ?_ ?_ ?_
      · rw [← hunblocked.frozenApps, RuntimeControlState.pushOperation_frozenApps]
        split
        · rfl
        · rfl
      · rw [← hunblocked.requests, RuntimeControlState.pushOperation_networkRestrictionRequests]
        split
        · rfl
        · rfl
      · intro hok halone
        obtain ⟨huniform, hcalls⟩ := unfreezeIdentityProcesses_calls hthaw hok
        rw [hunblocked.frozenOwnershipOf] at hcalls
        exact hthawed halone ⟨.inl hfg, huniform, hcalls⟩
  | @wakeup s₀ _ _ _ _ hcleared _ _ hdue hexec =>
    have hunblocked := hcleared.unblocked
    obtain ⟨-, outcome, operation, hthaw, rfl⟩ := wakeUp_spec hexec
    refine hs.of_thaw ctx outcome.failures.isEmpty ?_ ?_ ?_
    · rw [← hunblocked.frozenApps, RuntimeControlState.pushOperation_frozenApps]
      split
      · rfl
      · rfl
    · rw [← hunblocked.requests, RuntimeControlState.pushOperation_networkRestrictionRequests]
      split
      · rfl
      · rfl
    · intro hok halone
      obtain ⟨huniform, hcalls⟩ := unfreezeIdentityProcesses_calls hthaw hok
      rw [hunblocked.frozenOwnershipOf] at hcalls
      rw [hunblocked.periodicWakeupDue] at hdue
      exact hthawed halone ⟨.inr hdue, huniform, hcalls⟩
  | kept _ hcleared => exact hs.of_eq hcleared.unblocked.frozenApps hcleared.unblocked.requests
  -- The audit untracks the app for the time of the branch; what matters is whether it is
  -- tracked in the end.
  | @audited s₀ _ _ _ hcleared haudit hbranch =>
    have hunblocked := hcleared.unblocked
    refine hs.of_step ctx ?_ ?_ ?_
    · intro uid huid
      rw [← hunblocked.requests]
      exact hbranch.queued huid
    · intro i hi hne
      have hmarked := SameFor.markAbnormalThaw hne s₀
      exact ((hunblocked.frame i).trans (hmarked.trans (hbranch.frame hne))).tracked.mpr hi
    · intro halone
      cases hbranch.tracked_or with
      | inl htracked => exact htracked
      | inr hgivesUp => exact absurd hgivesUp (huntracked halone haudit)
  | background _ hcleared _ htracked hbranch =>
    have hunblocked := hcleared.unblocked
    refine hs.of_step ctx ?_ ?_ ?_
    · intro uid huid
      rw [← hunblocked.requests]
      exact hbranch.queued huid
    · intro i hi hne
      exact ((hunblocked.frame i).trans (hbranch.frame hne)).tracked.mpr hi
    · intro halone
      rw [hunblocked.frozenApps] at htracked
      exact absurd halone.tracked htracked

/-- The same for the record with its listing. -/
theorem RecordRun.queued {input : PassInput} {auditDue : Bool} {record : ManagerAppConfigRecord}
    (h : RecordRun input auditDue record s t r s') (hs : QueuedAreFrozen s)
    (hkept : ¬ ReleasesQueued input auditDue record s t) : QueuedAreFrozen s' := by
  cases h with
  | uncontrolled => exact hs
  | undiscovered => exact hs
  | exited =>
    refine hs.of_kept (P := fun uid => uid ≠ record.uid) ?_ ?_
    · intro uid huid
      rw [clearExited_requests] at huid
      exact (SortedMap.mem_erase.mp huid).symm
    · intro i hi hne
      exact RuntimeControlState.mem_clearExited_frozenApps.mpr ⟨hi, hne⟩
  | occupied first rest _ hbranch =>
    apply hbranch.queued hs
    · intro halone hthaws
      exact hkept (.thawed halone hthaws)
    · intro halone haudit hgivesUp
      exact hkept (.untracked halone haudit hgivesUp)

/-- What it takes for a queued app to be released. -/
theorem ReleasesQueued.cause {input : PassInput} {auditDue : Bool} {record : ManagerAppConfigRecord}
    (h : ReleasesQueued input auditDue record s t) :
    record.uid ∈ s.networkRestrictionRequests ∧ (record.uid ∈ input.foregroundUids
      ∨ (∃ i, periodicWakeupDue s i input.settings input.timestampMs = true) ∨ auditDue = true) := by
  cases h with
  | thawed halone hthaws =>
    refine ⟨halone.queued, ?_⟩
    cases hthaws.wanted with
    | inl hopened => exact .inl hopened
    | inr hdue => exact .inr (.inl ⟨_, hdue⟩)
  | untracked halone haudit => exact ⟨halone.queued, .inr (.inr haudit.due)⟩

/-! ## The queue in a pass -/

/-- The release clears the queue of the uids that it releases. -/
theorem releaseStale_queued {input : PassInput} (h : Exec (releaseStale input s) t s')
    (hs : QueuedAreFrozen s) : QueuedAreFrozen s' := by
  obtain ⟨s₁, hsteps, rfl⟩ := releaseStale_steps h
  refine hs.of_kept (P := fun uid => uid ∈ controlledUids input.appConfig) ?_ ?_
  · intro uid huid
    rw [clearDetached_requests, hsteps.requests] at huid
    have hretained := SortedMap.mem_retain_key.mp huid
    exact ⟨hretained.1, SortedMap.contains_iff_mem.mp hretained.2⟩
  · intro i hi hcontrolled
    rw [RuntimeControlState.clearDetached_frozenApps]
    have hnot : i ∉ s.frozenApps.keys.filter fun i => i.uid ∉ controlledUids input.appConfig := by
      intro hmem
      have hstale := of_decide_eq_true (List.mem_filter.mp hmem).2
      exact hstale hcontrolled
    exact (hsteps.frame hnot).tracked.mpr hi

/-- The step releases an app whose uid is queued. -/
def Moment.ReleasesQueued (m : Moment) : Prop :=
  ∃ input auditDue record, m.work = .record input auditDue record
    ∧ Freezeit.ReleasesQueued input auditDue record m.before m.calls

/-- The records of a pass keep what is queued tracked. -/
theorem RecordMoments.queued {input : PassInput} {auditDue : Bool}
    {records : List ManagerAppConfigRecord} {ms : List Moment}
    (h : RecordMoments input auditDue records s ms r s') (hs : QueuedAreFrozen s)
    (hkept : ∀ m ∈ ms, ¬ m.ReleasesQueued) : QueuedAreFrozen s' := by
  induction h with
  | nil => exact hs
  | failed hexec =>
    apply (controlRecord_run hexec).queued hs
    intro hreleases
    exact hkept _ List.mem_cons_self ⟨_, _, _, rfl, hreleases⟩
  | cons hexec _ ih =>
    refine ih ((controlRecord_run hexec).queued hs ?_) fun m hm => hkept m (List.mem_cons_of_mem _ hm)
    intro hreleases
    exact hkept _ List.mem_cons_self ⟨_, _, _, rfl, hreleases⟩

/-- A pass keeps what is queued tracked. -/
theorem PassMoments.queued {input : PassInput} {ms : List Moment}
    (h : PassMoments input s ms r s') (hs : QueuedAreFrozen s)
    (hkept : ∀ m ∈ ms, ¬ m.ReleasesQueued) : QueuedAreFrozen s' := by
  cases h with
  | @pass _ s₁ _ _ _ hrelease hrecords =>
    have hs₁ := releaseStale_queued hrelease hs
    obtain ⟨startedAt, next, haudit⟩ := refreezeAuditDue_eq s₁ input.settings input.timestampMs
    refine hrecords.queued (hs₁.of_eq ?_ ?_) fun m hm => hkept m (List.mem_cons_of_mem _ hm)
    · rw [haudit]
    · rw [haudit]

/-- When all apps are thawed the queue is emptied. -/
theorem thawAllFrozen_queued {timestampMs : Nat} (h : Exec (s.thawAllFrozen timestampMs) t (r, s')) :
    QueuedAreFrozen s' := by
  obtain ⟨s₁, -, rfl⟩ := thawAllFrozen_steps h
  intro uid huid
  exact absurd huid (SortedMap.not_mem_empty uid)

/-! ## Cycles of the control loop -/

/-- The steps of the pass, the state it leaves, and the uids that are put back
    because their network was not broken. -/
structure Cycle where
  moments  : List Moment
  passed   : RuntimeControlState
  requeued : List Nat

/-- What the cycle takes out of the queue. -/
def Cycle.taken (cycle : Cycle) : List Nat := cycle.passed.takeNetworkRestrictionUids.1

/-- The pass, and the queue afterwards.  Without control, everything is thawed
    in place of a pass. -/
inductive CycleStep (s : RuntimeControlState) : Cycle → RuntimeControlState → Prop where
  | pass : ∀ {ms r s'} (input : PassInput) (requeued : List Nat), PassMoments input s ms r s' →
      requeued ⊆ s'.takeNetworkRestrictionUids.1 →
      CycleStep s ⟨ms, s', requeued⟩
        (requeueNetworkRestrictionUids s'.takeNetworkRestrictionUids.2 requeued)
  | thawAll : ∀ {t r s'} (timestampMs : Nat) (requeued : List Nat),
      Exec (s.thawAllFrozen timestampMs) t (r, s') →
      requeued ⊆ s'.takeNetworkRestrictionUids.1 →
      CycleStep s ⟨[⟨s, .thawAll, t, s'⟩], s', requeued⟩
        (requeueNetworkRestrictionUids s'.takeNetworkRestrictionUids.2 requeued)

/-- Requeueing puts the uids back and does nothing else. -/
theorem requeueNetworkRestrictionUids_eq (s : RuntimeControlState) (uids : List Nat) :
    requeueNetworkRestrictionUids s uids =
      { s with
        networkRestrictionRequests :=
          uids.foldl (fun queue uid => queue.insert uid ()) s.networkRestrictionRequests } := by
  induction uids generalizing s with
  | nil => rfl
  | cons uid uids ih =>
    show requeueNetworkRestrictionUids (s.requeueNetworkRestrictionUid uid) uids = _
    rw [ih]
    rfl

/-- What is put back was frozen when it was taken. -/
theorem QueuedAreFrozen.requeue {uids : List Nat} (h : QueuedAreFrozen s)
    (hsubset : uids ⊆ s.takeNetworkRestrictionUids.1) :
    QueuedAreFrozen (requeueNetworkRestrictionUids s.takeNetworkRestrictionUids.2 uids) := by
  rw [requeueNetworkRestrictionUids_eq]
  intro uid huid
  cases SortedMap.mem_foldl_insert.mp huid with
  | inl hmem => exact h uid (SortedMap.mem_keys.mp (hsubset hmem))
  | inr hempty => exact absurd hempty (SortedMap.not_mem_empty uid)

/-- A cycle takes the queue after its pass, and puts back what failed: all of it is
    tracked at that time. -/
theorem CycleStep.queued {cycle : Cycle} (h : CycleStep s cycle s') (hs : QueuedAreFrozen s)
    (hkept : ∀ m ∈ cycle.moments, ¬ m.ReleasesQueued) :
    QueuedAreFrozen cycle.passed ∧ QueuedAreFrozen s' := by
  cases h with
  | pass input requeued hpass hsubset =>
    have hpassed := hpass.queued hs hkept
    exact ⟨hpassed, hpassed.requeue hsubset⟩
  | thawAll timestampMs requeued hexec hsubset =>
    have hpassed := thawAllFrozen_queued hexec
    exact ⟨hpassed, hpassed.requeue hsubset⟩

/-- The uids that a cycle takes are of apps that are frozen then, as long as no
    step releases an app whose uid is queued. -/
theorem taken_uids_are_frozen {cycles : List Cycle} (hrun : Steps CycleStep .default cycles s)
    (hkept : ∀ cycle ∈ cycles, ∀ m ∈ cycle.moments, ¬ m.ReleasesQueued) {cycle : Cycle}
    (hcycle : cycle ∈ cycles) {uid : Nat} (huid : uid ∈ cycle.taken) :
    ∃ i ∈ cycle.passed.frozenApps, i.uid = uid := by
  have hinv : (∀ cycle ∈ cycles, ∀ m ∈ cycle.moments, ¬ m.ReleasesQueued) →
      QueuedAreFrozen s ∧ ∀ cycle ∈ cycles, QueuedAreFrozen cycle.passed := by
    refine hrun.invariant_of_past (I := fun past s =>
      (∀ cycle ∈ past, ∀ m ∈ cycle.moments, ¬ m.ReleasesQueued) →
        QueuedAreFrozen s ∧ ∀ cycle ∈ past, QueuedAreFrozen cycle.passed) ?_ ?_
    · intro past s₁ last s₂ hpast hstep hall
      obtain ⟨hs₁, hcycles⟩ := hpast fun c hc => hall c (List.mem_append_left _ hc)
      obtain ⟨hlast, hs₂⟩ := hstep.queued hs₁ (hall last (List.mem_append_right _ List.mem_cons_self))
      refine ⟨hs₂, ?_⟩
      intro c hc
      cases List.mem_append.mp hc with
      | inl hc => exact hcycles c hc
      | inr hc =>
        rw [List.mem_singleton.mp hc]
        exact hlast
    · intro _
      refine ⟨?_, ?_⟩
      · intro uid huid
        exact absurd huid (SortedMap.not_mem_empty uid)
      · intro c hc
        cases hc
  exact (hinv hkept).2 cycle hcycle uid (SortedMap.mem_keys.mp huid)

/-! ## A request that the hook refuses once -/

/-- The state after a first cycle that freezes the sample app and whose request
    is put back. -/
def refusedOnce : RuntimeControlState :=
  requeueNetworkRestrictionUids
    (sampleEnvironment.passMoments (samplePass 21) .default).2.2.takeNetworkRestrictionUids.2 [10123]

/-- A cycle in which the app is frozen and the network request fails. -/
def refusedCycle : Cycle where
  moments  := (sampleEnvironment.passMoments (samplePass 21) .default).1
  passed   := (sampleEnvironment.passMoments (samplePass 21) .default).2.2
  requeued := [10123]

/-- It is a cycle from the initial state. -/
theorem refusedCycle_step : CycleStep .default refusedCycle refusedOnce :=
  .pass (samplePass 21) [10123] (sampleEnvironment.passMoments_spec _ _) (by decide)

/-- The next cycle, after one second. -/
def nextCycle (foregroundUids : List Nat) : PassInput :=
  { samplePass 21 with foregroundUids := foregroundUids, timestampMs := 2000 }

/-- The cycle after it. -/
def retryCycle (foregroundUids : List Nat) : Cycle where
  moments  := (sampleEnvironment.passMoments (nextCycle foregroundUids) refusedOnce).1
  passed   := (sampleEnvironment.passMoments (nextCycle foregroundUids) refusedOnce).2.2
  requeued := []

/-- Both are a run. -/
theorem retryCycle_run (foregroundUids : List Nat) :
    ∃ s, Steps CycleStep .default [refusedCycle, retryCycle foregroundUids] s :=
  ⟨_, Steps.snoc (.snoc .nil refusedCycle_step)
    (.pass (nextCycle foregroundUids) [] (sampleEnvironment.passMoments_spec _ _) (by simp))⟩

/-- In the second cycle the uid is taken once more, and its app is frozen. -/
theorem taken_uids_are_frozen_sample :
    10123 ∈ (retryCycle []).taken ∧ ∃ i ∈ (retryCycle []).passed.frozenApps, i.uid = 10123 := by
  obtain ⟨s, hrun⟩ := retryCycle_run []
  have htaken : 10123 ∈ (retryCycle []).taken := by decide
  refine ⟨htaken, taken_uids_are_frozen hrun ?_ (List.mem_cons_of_mem _ List.mem_cons_self) htaken⟩
  intro cycle hcycle m hm hreleases
  obtain ⟨input, auditDue, record, hwork, hreleases⟩ := hreleases
  have hcause := hreleases.cause
  cases List.mem_cons.mp hcycle with
  | inl heq =>
    -- The queue is empty in the first pass.
    have hempty : ∀ m ∈ refusedCycle.moments, m.before.networkRestrictionRequests = ∅ := by decide
    rw [heq] at hm
    rw [hempty m hm] at hcause
    exact absurd hcause.1 (SortedMap.not_mem_empty _)
  | inr hcycle =>
    rw [List.mem_singleton.mp hcycle] at hm
    have hmoments : (retryCycle []).moments
        = [(retryCycle []).moments[0], (retryCycle []).moments[1]] := rfl
    rw [hmoments] at hm
    cases List.mem_cons.mp hm with
    | inl heq =>
      rw [heq] at hwork
      cases hwork
    | inr hm =>
      rw [List.mem_singleton.mp hm] at hwork hcause
      cases hwork
      cases hcause.2 with
      | inl hopened => cases hopened
      | inr hother =>
        cases hother with
        | inl hwakeup =>
          obtain ⟨i, hdue⟩ := hwakeup
          cases hdue
        | inr haudit => cases haudit

/-- The app is opened before the request is repeated. -/
theorem opened_app_keeps_request :
    ¬ ∀ cycles s, Steps CycleStep .default cycles s → ∀ cycle ∈ cycles, ∀ uid ∈ cycle.taken,
      ∃ i ∈ cycle.passed.frozenApps, i.uid = uid := by
  intro hclaim
  obtain ⟨s, hrun⟩ := retryCycle_run [10123]
  obtain ⟨i, hi, -⟩ := hclaim _ s hrun _ (List.mem_cons_of_mem _ List.mem_cons_self) 10123 (by decide)
  have hnone : (retryCycle [10123]).passed.frozenApps = ∅ := by decide
  rw [hnone] at hi
  exact absurd hi (SortedMap.not_mem_empty i)

end Freezeit
