import Freezeit.Lib.Since
import Freezeit.RecordBranches

/-! # The freeze delay

    An app is frozen or killed only after its delay in the background.  The
    due time moves between passes: the foreground drops it, a wakeup and the
    download check set it anew. -/

namespace Freezeit

open Prog

variable {ctx : RecordContext} {s s' : RuntimeControlState} {t : Trace}
  {r : Except DaemonError Unit} {i : RuntimeIdentity}

/-! ## Steps for other apps -/

/-- The step leaves alone what decides when `i` is frozen: its timer, and the process list
    for which it was refused. -/
structure SameWait (i : RuntimeIdentity) (s s' : RuntimeControlState) : Prop where
  pending : s'.pendingFreezes.get? i = s.pendingFreezes.get? i
  blocked : s'.blockedProcessSignatures.get? i = s.blockedProcessSignatures.get? i

namespace SameWait

variable {s'' : RuntimeControlState}

theorem refl (i : RuntimeIdentity) (s : RuntimeControlState) : SameWait i s s := ⟨rfl, rfl⟩

theorem trans (h : SameWait i s s') (h' : SameWait i s' s'') : SameWait i s s'' :=
  ⟨h'.pending.trans h.pending, h'.blocked.trans h.blocked⟩

theorem of_eq (hp : s'.pendingFreezes = s.pendingFreezes)
    (hb : s'.blockedProcessSignatures = s.blockedProcessSignatures) : SameWait i s s' :=
  ⟨by rw [hp], by rw [hb]⟩

/-- An app keeps waiting as it did when another app begins to wait. -/
theorem insertPending {j : RuntimeIdentity} (h : i ≠ j) (s : RuntimeControlState) (dueAtMs : Nat) :
    SameWait i s (s.insertPending j dueAtMs) :=
  ⟨SortedMap.get?_insert_ne _ _ (Ne.symm h), rfl⟩

/-- An app keeps waiting as it did when another app stops waiting. -/
theorem removePending {j : RuntimeIdentity} (h : i ≠ j) (s : RuntimeControlState) :
    SameWait i s (s.removePending j) :=
  ⟨SortedMap.get?_erase_ne _ h, rfl⟩

/-- An app keeps waiting as it did when another app is unblocked. -/
theorem removeBlocked {j : RuntimeIdentity} (h : i ≠ j) (s : RuntimeControlState) :
    SameWait i s (s.removeBlocked j) :=
  ⟨rfl, SortedMap.get?_erase_ne _ h⟩

/-- Blocking concerns the app of the record alone. -/
theorem blockShared (h : i ≠ ctx.identity) (s : RuntimeControlState) (failure : String) :
    SameWait i s (ctx.blockShared failure s) := by
  refine ⟨rfl, ?_⟩
  rw [RecordContext.blockShared_blockedProcessSignatures]
  split
  · exact SortedMap.get?_insert_ne _ _ (Ne.symm h)
  · rfl

theorem trackResidual (ctx : RecordContext) (residual : Bool) (s : RuntimeControlState) :
    SameWait i s (ctx.trackResidual residual s) := by
  cases residual with
  | false => exact refl i s
  | true  => exact of_eq rfl rfl

end SameWait

/-- A decision moves the timers of its own app only. -/
theorem DecisionStep.sameWait {decision : FreezeDecision} (h : DecisionStep ctx decision s t r s')
    (hi : i ≠ ctx.identity) : SameWait i s s' := by
  have hremoved : ∀ s₀ : RuntimeControlState, SameWait i s₀ (s₀.removePending ctx.identity) :=
    fun s₀ => .removePending hi s₀
  -- In every branch what is set is the blocked signature, the timer or the ownership of
  -- the app itself.
  cases h with
  | idle => exact .of_eq rfl rfl
  | @fallbackStopped _ _ outcome _ failure =>
    have hresidual := (SameWait.blockShared hi s failure).trans
      (.trackResidual ctx outcome.residualPossible _)
    exact hresidual.trans ((hremoved _).trans (.of_eq rfl rfl))
  | @fallbackFailed _ _ outcome stopped failure =>
    have hresidual := (SameWait.blockShared hi s failure).trans
      (.trackResidual ctx outcome.residualPossible _)
    have hstopped := hresidual.trans (.trackResidual ctx (decide (stopped.rollbackFailures > 0)) _)
    exact hstopped.trans ((hremoved _).trans (.of_eq rfl rfl))
  | rescanFailed => exact .refl i s
  | frozen => exact (hremoved s).trans (.of_eq rfl rfl)
  | @rescanThawed _ _ _ _ rollback =>
    by_cases hfailures : rollback.failures.isEmpty = true
    · simp only [hfailures, if_true]
      exact (hremoved s).trans (.of_eq rfl rfl)
    · simp only [hfailures]
      exact (hremoved s).trans (.of_eq rfl rfl)
  | stopped => exact (hremoved s).trans (.of_eq rfl rfl)
  | @stopFailed _ _ outcome failure =>
    have hresidual := (SameWait.blockShared hi s failure).trans
      (.trackResidual ctx (decide (outcome.rollbackFailures > 0)) _)
    exact hresidual.trans ((hremoved _).trans (.of_eq rfl rfl))
  | terminated => exact (hremoved s).trans (.of_eq rfl rfl)
  | terminateFailed => exact .of_eq rfl rfl

/-- The background branch, which begins with a delay or a sample, moves the timers of its
    own app only. -/
theorem BackgroundBranch.sameWait {abnormalThaw : Bool}
    (h : BackgroundBranch ctx abnormalThaw s t r s') (hi : i ≠ ctx.identity) : SameWait i s s' := by
  have hdeferral : ∀ deferral, SameWait i s (s.setDownloadDeferral deferral) :=
    fun _ => .of_eq rfl rfl
  cases h with
  | delayed hdelay =>
    obtain ⟨-, -, ⟨_, -, -, rfl⟩ | ⟨-, _, rfl⟩⟩ := postponeForDelay_eq_some hdelay
    · exact .refl i _
    · exact (SameWait.insertPending hi s _).trans (.of_eq rfl rfl)
  | downloading =>
    obtain ⟨operations, next, heq⟩ := postponeDownload_eq ctx _ _
    rw [heq]
    exact (SameWait.insertPending hi s _).trans (.of_eq rfl rfl)
  | quiet _ _ _ hdecision => exact (hdeferral _).trans (hdecision.sameWait hi)
  | unsampled _ _ hdecision => exact (hdeferral _).trans (hdecision.sameWait hi)

/-- Clearing the old markers of an app leaves the timers of the others. -/
theorem Cleared.sameWait {s₀ : RuntimeControlState} (h : Cleared ctx s s₀) (hi : i ≠ ctx.identity) :
    SameWait i s s₀ := by
  cases h.unblocked.2 with
  | inl heq => rw [heq]; exact .refl i s
  | inr heq => rw [heq]; exact .removeBlocked hi s

/-- Thaws move no timers at all. -/
theorem ThawSteps.sameWait {identities : List RuntimeIdentity} (h : ThawSteps identities s t s') :
    SameWait i s s' := by
  obtain ⟨_, _, _, _, _, rfl, -⟩ := h.exists_eq
  exact .of_eq rfl rfl

/-- Dropped ownership of any app keeps the timers. -/
theorem SameWait.clearDetached (s : RuntimeControlState) (identities : List RuntimeIdentity) :
    SameWait i s (s.clearDetached identities) := by
  rw [RuntimeControlState.clearDetached_eq]
  exact .of_eq rfl rfl

/-- What is kept about a uid goes, and nothing else. -/
theorem clearTransient_get? {β : Type} {map : SortedMap RuntimeIdentity β} {uid : Nat} :
    (map.retain fun j _ => j.uid ≠ uid).get? i = if i.uid = uid then none else map.get? i := by
  rw [SortedMap.get?_retain]
  cases map.get? i with
  | none => simp
  | some value =>
    by_cases huid : i.uid = uid
    · simp [Option.filter, huid]
    · simp [Option.filter, huid]

/-- What is cleared for a uid concerns the apps of that uid. -/
theorem clearTransient_sameWait {uid : Nat} (hi : i.uid ≠ uid) (s : RuntimeControlState) :
    SameWait i s (s.clearTransientControlStateForUid uid) := by
  refine ⟨?_, ?_⟩
  · rw [RuntimeControlState.clearTransientControlStateForUid_pendingFreezes, clearTransient_get?,
      if_neg hi]
  · rw [RuntimeControlState.clearTransientControlStateForUid_blockedProcessSignatures,
      clearTransient_get?, if_neg hi]

/-- An app that exited keeps no timer beyond that. -/
theorem clearExited_sameWait (s : RuntimeControlState) (uid : Nat) :
    SameWait i (s.clearTransientControlStateForUid uid) (s.clearExited uid) := by
  unfold RuntimeControlState.clearExited
  dsimp only
  rw [RuntimeControlState.clearFrozenAll_eq]
  exact .of_eq rfl rfl

/-- A protected app is cleared, then thawed. -/
theorem releaseProtected_sameWait (h : Exec (ctx.releaseProtected s) t (r, s')) :
    SameWait i (s.clearTransientControlStateForUid ctx.record.uid) s' := by
  obtain ⟨s₁, hsteps, rfl⟩ := releaseProtected_steps h
  exact hsteps.sameWait.trans (.clearDetached _ _)

/-- A record moves the timers of its own app only, whichever branch it takes. -/
theorem RecordBranch.sameWait {auditDue : Bool} (h : RecordBranch ctx auditDue s t r s')
    (hi : i.uid ≠ ctx.record.uid) : SameWait i s s' := by
  have hne : i ≠ ctx.identity := by
    intro heq
    exact hi (by rw [heq]; rfl)
  cases h with
  | protectedApp _ hexec => exact (clearTransient_sameWait hi s).trans (releaseProtected_sameWait hexec)
  | blocked => exact .refl i s
  | @foreground s₀ _ _ _ _ hcleared _ hexec =>
    refine (hcleared.sameWait hne).trans ((SameWait.removePending hne s₀).trans ?_)
    obtain ⟨-, ⟨-, -, rfl⟩ | ⟨-, outcome, operation, -, rfl⟩⟩ := thawForeground_spec hexec
    · exact .refl i _
    · split
      · exact .of_eq rfl rfl
      · exact .of_eq rfl rfl
  | @wakeup s₀ _ _ _ _ hcleared _ _ _ hexec =>
    refine (hcleared.sameWait hne).trans ?_
    obtain ⟨-, outcome, operation, -, rfl⟩ := wakeUp_spec hexec
    split
    · exact (SameWait.insertPending hne s₀ _).trans (.of_eq rfl rfl)
    · exact .of_eq rfl rfl
  | kept _ hcleared => exact hcleared.sameWait hne
  | @audited s₀ _ _ _ hcleared _ hbranch =>
    have hmarked : SameWait i s₀ (s₀.markAbnormalThawForRefreeze ctx.identity) := .of_eq rfl rfl
    exact (hcleared.sameWait hne).trans (hmarked.trans (hbranch.sameWait hne))
  | background _ hcleared _ _ hbranch => exact (hcleared.sameWait hne).trans (hbranch.sameWait hne)

/-- The same for the record before its processes are listed. -/
theorem RecordRun.sameWait {input : PassInput} {auditDue : Bool} {record : ManagerAppConfigRecord}
    (h : RecordRun input auditDue record s t r s') (hi : i.uid ≠ record.uid) : SameWait i s s' := by
  cases h with
  | uncontrolled => exact .refl i s
  | undiscovered => exact .refl i s
  | exited => exact (clearTransient_sameWait hi s).trans (clearExited_sameWait s record.uid)
  | occupied _ _ _ hbranch => exact hbranch.sameWait hi

/-- A record in a control mode is among the uids that discovery looks for. -/
theorem mem_controlledUids {config : List ManagerAppConfigRecord} {record : ManagerAppConfigRecord}
    (h : record ∈ config) (hmode : isControlPolicyMode record.mode = true) :
    record.uid ∈ controlledUids config := by
  unfold controlledUids
  rw [SortedMap.mem_foldl_insert]
  exact .inl (List.mem_map_of_mem (List.mem_filter.mpr ⟨h, hmode⟩))

/-- The start of a pass leaves alone what is still controlled. -/
theorem releaseStale_sameWait {input : PassInput} (h : Exec (releaseStale input s) t s')
    (hcontrolled : i.uid ∈ controlledUids input.appConfig) : SameWait i s s' := by
  obtain ⟨s₁, hsteps, rfl⟩ := releaseStale_steps h
  have hretained : SameWait i s (s.retainControlled (controlledUids input.appConfig)) := by
    have hcontains := SortedMap.contains_iff_mem.mpr hcontrolled
    refine ⟨?_, ?_⟩
    · show (s.pendingFreezes.retain _).get? i = _
      rw [SortedMap.get?_retain]
      cases s.pendingFreezes.get? i with
      | none => rfl
      | some due => simp [Option.filter, hcontains]
    · show (s.blockedProcessSignatures.retain _).get? i = _
      rw [SortedMap.get?_retain]
      cases s.blockedProcessSignatures.get? i with
      | none => rfl
      | some signature => simp [Option.filter, hcontains]
  exact hretained.trans (hsteps.sameWait.trans (.clearDetached _ _))

/-! ## The due time in a step for the app itself -/

/-- A decision drops the due time, or leaves it for the next pass. -/
theorem DecisionStep.waits {decision : FreezeDecision} (h : DecisionStep ctx decision s t r s') :
    s'.pendingFreezes.get? ctx.identity = none
      ∨ s'.pendingFreezes = s.pendingFreezes
        ∧ s'.blockedProcessSignatures = s.blockedProcessSignatures := by
  have hremoved : ∀ s₀ : RuntimeControlState,
      (s₀.removePending ctx.identity).pendingFreezes.get? ctx.identity = none :=
    fun s₀ => SortedMap.get?_erase_self _ _
  cases h with
  | idle => exact .inr ⟨rfl, rfl⟩
  | fallbackStopped => exact .inl (hremoved _)
  | fallbackFailed => exact .inl (hremoved _)
  | rescanFailed => exact .inr ⟨rfl, rfl⟩
  | frozen => exact .inl (hremoved _)
  | rescanThawed => exact .inl (hremoved _)
  | stopped => exact .inl (hremoved _)
  | stopFailed => exact .inl (hremoved _)
  | terminated => exact .inl (hremoved s)
  | terminateFailed => exact .inr ⟨rfl, rfl⟩

/-- Only a freeze tracks an app. -/
theorem DecisionStep.tracked_of_killed {decision : FreezeDecision}
    (h : DecisionStep ctx decision s t r s') (hfreeze : decision.action ≠ .freeze)
    (hsignal : decision.action ≠ .signal) (hi : i ∈ s'.frozenApps) : i ∈ s.frozenApps := by
  cases h with
  | idle => exact hi
  | fallbackStopped _ hd => exact absurd hd hfreeze
  | fallbackFailed _ hd => exact absurd hd hfreeze
  | rescanFailed _ hd => exact absurd hd hfreeze
  | frozen _ hd => exact absurd hd hfreeze
  | rescanThawed _ hd => exact absurd hd hfreeze
  | stopped _ hd => exact absurd hd hsignal
  | stopFailed _ hd => exact absurd hd hsignal
  | terminated => exact (SortedMap.mem_erase.mp hi).2
  | terminateFailed => exact hi

/-- A record of mode 10 is killed or left alone; it is never frozen or stopped. -/
theorem decide_of_terminate (h : ctx.record.mode = 10) (binder : Bool) :
    (ctx.decide binder).action ≠ .freeze ∧ (ctx.decide binder).action ≠ .signal := by
  have hbackend : requestedControlBackend ctx.record ctx.input.settings = .terminate := by
    unfold requestedControlBackend
    rw [if_pos h]
  unfold RecordContext.decide
  rw [hbackend]
  dsimp only
  split
  · exact ⟨by decide, by decide⟩
  · exact ⟨by decide, by decide⟩

/-- So the background branch tracks no app of mode 10 that was not tracked before. -/
theorem BackgroundBranch.tracked_of_killed {abnormalThaw : Bool}
    (h : BackgroundBranch ctx abnormalThaw s t r s') (hmode : ctx.record.mode = 10)
    (hi : i ∈ s'.frozenApps) : i ∈ s.frozenApps := by
  cases h with
  | delayed hdelay =>
    obtain ⟨-, -, ⟨_, -, -, rfl⟩ | ⟨-, _, rfl⟩⟩ := postponeForDelay_eq_some hdelay
    · exact hi
    · exact hi
  | downloading =>
    obtain ⟨operations, next, heq⟩ := postponeDownload_eq ctx _ _
    rw [heq] at hi
    exact hi
  | @quiet _ binder _ _ _ _ _ _ hdecision =>
    obtain ⟨hfreeze, hsignal⟩ := decide_of_terminate hmode binder
    exact hdecision.tracked_of_killed hfreeze hsignal hi
  | @unsampled binder _ _ _ _ _ hdecision =>
    obtain ⟨hfreeze, hsignal⟩ := decide_of_terminate hmode binder
    exact hdecision.tracked_of_killed hfreeze hsignal hi

/-- A blocked app is not due, and an app that is killed is never tracked. -/
structure Quiet (record : ManagerAppConfigRecord) (i : RuntimeIdentity) (s : RuntimeControlState) :
    Prop where
  blocked : s.blockedProcessSignatures.get? i ≠ none → s.pendingFreezes.get? i = none
  killed  : record.mode = 10 → i ∉ s.frozenApps

/-- Clearing the markers of a uid keeps the timers that were set. -/
theorem Cleared.pendingFreezes {s₀ : RuntimeControlState} (h : Cleared ctx s s₀) :
    s₀.pendingFreezes = s.pendingFreezes := by
  cases h.unblocked.2 with
  | inl heq => rw [heq]
  | inr heq => rw [heq]; rfl

/-- If the background branch blocks the app, its timer is gone. -/
theorem BackgroundBranch.blocked {abnormalThaw : Bool}
    (h : BackgroundBranch ctx abnormalThaw s t r s')
    (hnone : s.blockedProcessSignatures.get? ctx.identity = none) :
    s'.blockedProcessSignatures.get? ctx.identity ≠ none →
      s'.pendingFreezes.get? ctx.identity = none := by
  have hdecided : ∀ {decision t r deferral}, DecisionStep ctx decision
      (s.setDownloadDeferral deferral) t r s' →
      s'.blockedProcessSignatures.get? ctx.identity ≠ none →
      s'.pendingFreezes.get? ctx.identity = none := by
    intro decision t r deferral hdecision hblocked
    cases hdecision.waits with
    | inl hdropped => exact hdropped
    | inr hsame =>
      rw [hsame.2] at hblocked
      exact absurd hnone hblocked
  cases h with
  | delayed hdelay =>
    intro hblocked
    obtain ⟨-, -, ⟨_, -, -, rfl⟩ | ⟨-, _, rfl⟩⟩ := postponeForDelay_eq_some hdelay
    · exact absurd hnone hblocked
    · exact absurd hnone hblocked
  | downloading =>
    intro hblocked
    obtain ⟨operations, next, heq⟩ := postponeDownload_eq ctx _ _
    rw [heq] at hblocked
    exact absurd hnone hblocked
  | quiet _ _ _ hdecision => exact hdecided hdecision
  | unsampled _ _ hdecision => exact hdecided hdecision

/-- A blocked app has no timer, and an app of mode 10 is not tracked: no record step
    breaks that. This is what lets the later proofs treat a new timer as set by the delay
    itself. -/
theorem RecordBranch.quiet {auditDue : Bool} (h : RecordBranch ctx auditDue s t r s')
    (hquiet : Quiet ctx.record ctx.identity s) : Quiet ctx.record ctx.identity s' := by
  have hof : ∀ {s₀ : RuntimeControlState}, Cleared ctx s s₀ → ctx.record.mode = 10 →
      ctx.identity ∉ s₀.frozenApps := by
    intro s₀ hcleared hmode
    rw [hcleared.unblocked.frozenApps]
    exact hquiet.killed hmode
  cases h with
  | protectedApp _ hexec =>
    have hwait : SameWait ctx.identity _ s' := releaseProtected_sameWait hexec
    refine ⟨?_, ?_⟩
    · intro _
      rw [hwait.pending, RuntimeControlState.clearTransientControlStateForUid_pendingFreezes,
        clearTransient_get?, if_pos (show ctx.identity.uid = ctx.record.uid from rfl)]
    · intro hmode htracked
      obtain ⟨s₁, hsteps, rfl⟩ := releaseProtected_steps hexec
      obtain ⟨apps, _, _, _, _, rfl, hsub⟩ := hsteps.exists_eq
      rw [RuntimeControlState.clearDetached_eq] at htracked
      exact hquiet.killed hmode (hsub _ htracked)
  | blocked => exact hquiet
  -- In the foreground the timer goes, and the app is thawed if it was tracked.
  | @foreground s₀ _ _ _ _ hcleared _ hexec =>
    have hremoved : (s₀.removePending ctx.identity).pendingFreezes.get? ctx.identity = none :=
      SortedMap.get?_erase_self _ _
    obtain ⟨-, ⟨-, -, rfl⟩ | ⟨-, outcome, operation, -, rfl⟩⟩ := thawForeground_spec hexec
    · refine ⟨fun _ => hremoved, ?_⟩
      intro hmode htracked
      exact hof hcleared hmode htracked
    · split
      · refine ⟨fun _ => hremoved, ?_⟩
        intro hmode htracked
        exact hof hcleared hmode (SortedMap.mem_erase.mp htracked).2
      · refine ⟨fun _ => hremoved, ?_⟩
        intro hmode htracked
        exact hof hcleared hmode htracked
  | @wakeup s₀ _ _ _ _ hcleared _ htracked _ hexec =>
    obtain ⟨-, outcome, operation, -, rfl⟩ := wakeUp_spec hexec
    split
    · exact ⟨fun hblocked => absurd hcleared.none hblocked,
        fun hmode => absurd htracked (hof hcleared hmode)⟩
    · exact ⟨fun hblocked => absurd hcleared.none hblocked,
        fun hmode => absurd htracked (hof hcleared hmode)⟩
  | kept _ hcleared =>
    exact ⟨fun hblocked => absurd hcleared.none hblocked, hof hcleared⟩
  -- The audit takes the app out of the tracked ones, so it was tracked.
  | audited hcleared haudit hbranch =>
    refine ⟨hbranch.blocked hcleared.none, ?_⟩
    intro hmode
    exact absurd haudit.tracked (hquiet.killed hmode)
  | background _ hcleared _ _ hbranch =>
    refine ⟨hbranch.blocked hcleared.none, ?_⟩
    intro hmode htracked
    exact hof hcleared hmode (hbranch.tracked_of_killed hmode htracked)

/-- In the background the due time is set, kept or dropped; it is set from the
    present, and a set one does not fall back. -/
theorem BackgroundBranch.due {abnormalThaw : Bool} (h : BackgroundBranch ctx abnormalThaw s t r s')
    {dueAtMs : Nat} (hdue : s'.pendingFreezes.get? ctx.identity = some dueAtMs) :
    (∃ old, s.pendingFreezes.get? ctx.identity = some old ∧ old ≤ dueAtMs)
      ∨ ctx.input.timestampMs + managerPolicyDelayMs ctx.record ctx.input.settings ≤ dueAtMs
      ∨ abnormalThaw = true := by
  have hdecided : ∀ {decision t r deferral}, DecisionStep ctx decision
      (s.setDownloadDeferral deferral) t r s' →
      ∃ old, s.pendingFreezes.get? ctx.identity = some old ∧ old ≤ dueAtMs := by
    intro decision t r deferral hdecision
    cases hdecision.waits with
    | inl hnone =>
      rw [hnone] at hdue
      cases hdue
    | inr hsame =>
      rw [hsame.1] at hdue
      exact ⟨dueAtMs, hdue, Nat.le_refl _⟩
  cases h with
  -- Either the timer that runs is kept, or it starts now.
  | delayed hdelay =>
    obtain ⟨-, -, ⟨_, -, -, rfl⟩ | ⟨-, _, rfl⟩⟩ := postponeForDelay_eq_some hdelay
    · exact .inl ⟨dueAtMs, hdue, Nat.le_refl _⟩
    · have hset := SortedMap.get?_insert_self s.pendingFreezes ctx.identity
        (ctx.input.timestampMs + managerPolicyDelayMs ctx.record ctx.input.settings)
      have heq := Option.some.inj (hset.symm.trans hdue)
      exact .inr (.inl (Nat.le_of_eq heq))
  -- A download puts the timer off further, so it lies after the delay that had ended.
  | @downloading answer hnone =>
    obtain ⟨operations, next, heq⟩ := postponeDownload_eq ctx answer.isOk
      (s.setDownloadDeferral (ctx.evaluated s answer).2)
    rw [heq] at hdue
    have hset := SortedMap.get?_insert_self s.pendingFreezes ctx.identity
      (ctx.input.timestampMs + if answer.isOk then initialSampleDelayMs else downloadRetryDelayMs)
    have hnew := Option.some.inj (hset.symm.trans hdue)
    have hlater : ctx.input.timestampMs ≤ dueAtMs := by
      rw [← hnew]
      exact Nat.le_add_right _ _
    rcases postponeForDelay_eq_none hnone with habnormal | hzero | ⟨old, hold, hle⟩
    · exact .inr (.inr habnormal)
    · refine .inr (.inl ?_)
      rw [hzero]
      exact hlater
    · exact .inl ⟨old, hold, Nat.le_trans hle hlater⟩
  | quiet _ _ _ hdecision => exact .inl (hdecided hdecision)
  | unsampled _ _ hdecision => exact .inl (hdecided hdecision)

/-- The time for which an app woken up is spared is no shorter than the freeze delay. -/
theorem managerPolicyDelayMs_le_wakeup {record : ManagerAppConfigRecord} {settings : List UInt8}
    (h : record.mode ≠ 10) : managerPolicyDelayMs record settings ≤ managerWakeupDurationMs settings := by
  unfold managerPolicyDelayMs managerWakeupDurationMs
  rw [if_neg h]
  split
  · exact Nat.le_refl _
  · exact Nat.zero_le _

/-- Saturating addition is monotone. -/
theorem saturatingAdd_le_saturatingAdd {a b c : Nat} (h : b ≤ c) :
    saturatingAdd a b ≤ saturatingAdd a c := by
  unfold saturatingAdd
  omega

/-- Where a timer after the record comes from: it is an old one that was not brought
    forward, it was set by a full delay from now, or the audit untracked the app. -/
theorem RecordBranch.due {auditDue : Bool} (h : RecordBranch ctx auditDue s t r s')
    (hquiet : Quiet ctx.record ctx.identity s) (hbackground : ctx.record.uid ∉ ctx.input.foregroundUids)
    {dueAtMs : Nat} (hdue : s'.pendingFreezes.get? ctx.identity = some dueAtMs) :
    (∃ old, s.pendingFreezes.get? ctx.identity = some old ∧ old ≤ dueAtMs)
      ∨ saturatingAdd ctx.input.timestampMs (managerPolicyDelayMs ctx.record ctx.input.settings)
        ≤ dueAtMs
      ∨ AuditUntracks ctx auditDue s := by
  cases h with
  | protectedApp _ hexec =>
    rw [(releaseProtected_sameWait hexec).pending,
      RuntimeControlState.clearTransientControlStateForUid_pendingFreezes, clearTransient_get?,
      if_pos (show ctx.identity.uid = ctx.record.uid from rfl)] at hdue
    cases hdue
  | blocked => exact .inl ⟨dueAtMs, hdue, Nat.le_refl _⟩
  | foreground _ _ hfg => exact absurd hfg hbackground
  -- A failed wakeup keeps the old timer, a successful one starts a longer one.
  | @wakeup s₀ _ _ _ _ hcleared _ htracked _ hexec =>
    obtain ⟨-, outcome, operation, -, rfl⟩ := wakeUp_spec hexec
    rw [RuntimeControlState.pushOperation_pendingFreezes] at hdue
    split at hdue
    · have hset := SortedMap.get?_insert_self s₀.pendingFreezes ctx.identity
        (saturatingAdd ctx.input.timestampMs (managerWakeupDurationMs ctx.input.settings))
      have hnew := Option.some.inj (hset.symm.trans hdue)
      have hmode : ctx.record.mode ≠ 10 := by
        intro hmode
        rw [hcleared.unblocked.frozenApps] at htracked
        exact hquiet.killed hmode htracked
      have hdelay : managerPolicyDelayMs ctx.record ctx.input.settings
          ≤ managerWakeupDurationMs ctx.input.settings := managerPolicyDelayMs_le_wakeup hmode
      refine .inr (.inl ?_)
      rw [← hnew]
      exact saturatingAdd_le_saturatingAdd hdelay
    · rw [hcleared.pendingFreezes] at hdue
      exact .inl ⟨dueAtMs, hdue, Nat.le_refl _⟩
  | kept _ hcleared =>
    rw [hcleared.pendingFreezes] at hdue
    exact .inl ⟨dueAtMs, hdue, Nat.le_refl _⟩
  | audited _ haudit => exact .inr (.inr haudit)
  | background _ hcleared _ _ hbranch =>
    have hcases := hbranch.due hdue
    rw [hcleared.pendingFreezes] at hcases
    rcases hcases with hold | hnew | habnormal
    · exact .inl hold
    · exact .inr (.inl (Nat.le_trans (Nat.min_le_left _ _) hnew))
    · cases habnormal

/-- The foreground leaves no due time. -/
theorem RecordBranch.opened {auditDue : Bool} (h : RecordBranch ctx auditDue s t r s')
    (hquiet : Quiet ctx.record ctx.identity s) (hfg : ctx.record.uid ∈ ctx.input.foregroundUids) :
    s'.pendingFreezes.get? ctx.identity = none := by
  cases h with
  | protectedApp _ hexec =>
    rw [(releaseProtected_sameWait hexec).pending,
      RuntimeControlState.clearTransientControlStateForUid_pendingFreezes, clearTransient_get?,
      if_pos (show ctx.identity.uid = ctx.record.uid from rfl)]
  | blocked _ hblocked =>
    apply hquiet.blocked
    rw [hblocked]
    simp
  | @foreground s₀ _ _ _ _ hcleared _ hexec =>
    have hremoved : (s₀.removePending ctx.identity).pendingFreezes.get? ctx.identity = none :=
      SortedMap.get?_erase_self _ _
    obtain ⟨-, ⟨-, -, rfl⟩ | ⟨-, outcome, operation, -, rfl⟩⟩ := thawForeground_spec hexec
    · exact hremoved
    · rw [RuntimeControlState.pushOperation_pendingFreezes]
      split
      · exact hremoved
      · exact hremoved
  | wakeup _ _ hbackground => exact absurd hfg hbackground
  | kept _ _ hbackground => exact absurd hfg hbackground
  | audited _ haudit => exact absurd hfg haudit.background
  | background _ _ hbackground => exact absurd hfg hbackground

/-! ## Listings within a step -/

/-- A thaw lists no processes. -/
theorem unfreezeIdentityProcesses_unlisted {package : String} {ps : List RuntimeProcess}
    {ownership : FrozenOwnership} {outcome : UnfreezeOutcome} {uid : Nat}
    {answer : Except DaemonError (List RuntimeProcess)}
    (h : Exec (unfreezeIdentityProcesses package ps ownership) t outcome) :
    listed uid answer ∉ t := by
  intro hmem
  cases unfreezeIdentityProcesses_spec h with
  | inl hrefused =>
    rw [hrefused.2.1] at hmem
    cases hmem
  | inr hthawed =>
    obtain ⟨p, -, hquery⟩ := hthawed.2.calls hmem
    cases hquery with
    | inl hquery => cases hquery
    | inr hquery => cases hquery

/-- A decision that lists the processes once more drops the timer of its app. -/
theorem DecisionStep.dropped_of_listed {decision : FreezeDecision}
    (h : DecisionStep ctx decision s t r s') {uid : Nat} {processes : List RuntimeProcess}
    (hlisted : listed uid (.ok processes) ∈ t) :
    s'.pendingFreezes.get? ctx.identity = none := by
  have hremoved : ∀ s₀ : RuntimeControlState,
      (s₀.removePending ctx.identity).pendingFreezes.get? ctx.identity = none :=
    fun s₀ => SortedMap.get?_erase_self _ _
  cases h with
  | idle => cases hlisted
  | fallbackStopped => exact hremoved _
  | fallbackFailed => exact hremoved _
  -- This branch ends in a failed listing, and nothing else in it lists processes.
  | rescanFailed error _ hfrozen =>
    cases List.mem_append.mp hlisted with
    | inl hmem =>
      obtain ⟨p, -, hquery | hquery | hquery⟩ := hfrozen.calls hmem
      · cases hquery
      · cases hquery
      · cases hquery
    | inr hmem =>
      have hanswer : some (uid, processes) = none :=
        congrArg (Call.listing none) (List.mem_singleton.mp hmem)
      cases hanswer
  | frozen => exact hremoved _
  | rescanThawed => exact hremoved _
  | stopped => exact hremoved _
  | stopFailed => exact hremoved _
  | terminated => exact hremoved s
  | terminateFailed _ _ hterminated =>
    obtain ⟨p, -, hquery⟩ | ⟨-, p, -, hquery⟩ := hterminated.calls hlisted
    · cases hquery
    · cases hquery

/-- The same for the background branch, since samples list nothing. -/
theorem BackgroundBranch.dropped_of_listed {abnormalThaw : Bool}
    (h : BackgroundBranch ctx abnormalThaw s t r s') {uid : Nat} {processes : List RuntimeProcess}
    (hlisted : listed uid (.ok processes) ∈ t) :
    s'.pendingFreezes.get? ctx.identity = none := by
  cases h with
  | delayed => cases hlisted
  | downloading => cases List.mem_singleton.mp hlisted
  | quiet _ _ _ hdecision =>
    cases hlisted with
    | tail _ hlisted =>
      cases hlisted with
      | tail _ hlisted => exact hdecision.dropped_of_listed hlisted
  | unsampled _ _ hdecision =>
    cases hlisted with
    | tail _ hlisted => exact hdecision.dropped_of_listed hlisted

/-- Only a freeze lists the processes again, and then the app waits no more. -/
theorem RecordBranch.dropped_of_listed {auditDue : Bool} (h : RecordBranch ctx auditDue s t r s')
    {uid : Nat} {processes : List RuntimeProcess} (hlisted : listed uid (.ok processes) ∈ t) :
    s'.pendingFreezes.get? ctx.identity = none := by
  cases h with
  | protectedApp _ hexec =>
    rw [(releaseProtected_sameWait hexec).pending,
      RuntimeControlState.clearTransientControlStateForUid_pendingFreezes, clearTransient_get?,
      if_pos (show ctx.identity.uid = ctx.record.uid from rfl)]
  | blocked => cases hlisted
  | foreground _ _ _ hexec =>
    obtain ⟨-, ⟨-, rfl, -⟩ | ⟨-, _, _, hthaw, -⟩⟩ := thawForeground_spec hexec
    · cases hlisted
    · exact absurd hlisted (unfreezeIdentityProcesses_unlisted hthaw)
  | wakeup _ _ _ _ _ hexec =>
    obtain ⟨-, _, _, hthaw, -⟩ := wakeUp_spec hexec
    exact absurd hlisted (unfreezeIdentityProcesses_unlisted hthaw)
  | kept => cases hlisted
  | audited _ _ hbranch => exact hbranch.dropped_of_listed hlisted
  | background _ _ _ _ hbranch => exact hbranch.dropped_of_listed hlisted

/-- A record only fails when discovery does. -/
theorem RecordRun.listed_of_error {input : PassInput} {auditDue : Bool}
    {record : ManagerAppConfigRecord} {error : DaemonError}
    (h : RecordRun input auditDue record s t (.error error) s') :
    ∃ uid error', listed uid (.error error') ∈ t := by
  -- Only the failed rescan ends a decision with an error.
  have hdecision : ∀ {ctx : RecordContext} {decision s t s'},
      DecisionStep ctx decision s t (.error error) s' →
      ∃ uid error', listed uid (.error error') ∈ t := by
    intro ctx decision s t s' hstep
    cases hstep with
    | rescanFailed => exact ⟨_, _, List.mem_append_right _ List.mem_cons_self⟩
  have hbackground : ∀ {ctx : RecordContext} {abnormalThaw s t s'},
      BackgroundBranch ctx abnormalThaw s t (.error error) s' →
      ∃ uid error', listed uid (.error error') ∈ t := by
    intro ctx abnormalThaw s t s' hbranch
    cases hbranch with
    | quiet _ _ _ hstep =>
      obtain ⟨uid, error', hmem⟩ := hdecision hstep
      exact ⟨uid, error', List.mem_cons_of_mem _ (List.mem_cons_of_mem _ hmem)⟩
    | unsampled _ _ hstep =>
      obtain ⟨uid, error', hmem⟩ := hdecision hstep
      exact ⟨uid, error', List.mem_cons_of_mem _ hmem⟩
  cases h with
  | undiscovered error' => exact ⟨_, _, List.mem_cons_self⟩
  | @occupied t _ _ first rest _ hbranch =>
    have hmem : ∃ uid error', listed uid (.error error') ∈ t := by
      cases hbranch with
      | foreground _ _ _ hexec => cases (thawForeground_spec hexec).1
      | wakeup _ _ _ _ _ hexec => cases (wakeUp_spec hexec).1
      | audited _ _ hbranch => exact hbackground hbranch
      | background _ _ _ _ hbranch => exact hbackground hbranch
    obtain ⟨uid, error', hmem⟩ := hmem
    exact ⟨uid, error', List.mem_cons_of_mem _ hmem⟩

/-- An app is frozen or killed when it is due, or by the audit. -/
theorem RecordBranch.acts_when_due {auditDue : Bool} (h : RecordBranch ctx auditDue s t r s')
    {call : Call} (hcall : call ∈ t) (hacts : ¬ call.Harmless)
    (hdelay : 0 < managerPolicyDelayMs ctx.record ctx.input.settings)
    (haudit : ¬ AuditUntracks ctx auditDue s) :
    ctx.record.uid ∉ ctx.input.foregroundUids
      ∧ ∃ dueAtMs, s.pendingFreezes.get? ctx.identity = some dueAtMs
        ∧ dueAtMs ≤ ctx.input.timestampMs := by
  obtain ⟨-, hbackground, s₀, hcleared, hrest⟩ := h.deciding hcall hacts
  refine ⟨hbackground, ?_⟩
  have hnone : ctx.postponeForDelay false s₀ = none →
      ∃ dueAtMs, s.pendingFreezes.get? ctx.identity = some dueAtMs
        ∧ dueAtMs ≤ ctx.input.timestampMs := by
    intro hpostpone
    rcases postponeForDelay_eq_none hpostpone with habnormal | hzero | hdue
    · cases habnormal
    · omega
    · rw [hcleared.pendingFreezes] at hdue
      exact hdue
  cases hrest with
  | inl haudited => exact absurd haudited.1 haudit
  | inr hbranch =>
    cases hbranch.2 with
    | delayed => cases hcall
    | downloading hpostpone => exact hnone hpostpone
    | quiet hpostpone => exact hnone hpostpone
    | unsampled hpostpone => exact hnone hpostpone

end Freezeit
