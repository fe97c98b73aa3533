import Freezeit.Runs

/-! # What a step leaves alone

    The steps for one app change the tracking and the ownership of that app's
    identity only. -/

namespace Freezeit

open Prog

/-- The step from `s` to `s'` did not change how `i` is tracked and owned. Most steps of a
    pass do this for every app but one. -/
structure SameFor (i : RuntimeIdentity) (s s' : RuntimeControlState) : Prop where
  tracked : i ∈ s'.frozenApps ↔ i ∈ s.frozenApps
  owned   : s'.frozenOwnership.get? i = s.frozenOwnership.get? i

namespace SameFor

variable {i j : RuntimeIdentity} {s s' s'' : RuntimeControlState}

/-- Nothing has changed. -/
theorem refl (i : RuntimeIdentity) (s : RuntimeControlState) : SameFor i s s := ⟨Iff.rfl, rfl⟩

/-- What two steps leave alone stays as it was. -/
theorem trans (h : SameFor i s s') (h' : SameFor i s' s'') : SameFor i s s'' :=
  ⟨h'.tracked.trans h.tracked, h'.owned.trans h.owned⟩

/-- Updates of the other collections. -/
theorem of_eq (ha : s'.frozenApps = s.frozenApps) (ho : s'.frozenOwnership = s.frozenOwnership) :
    SameFor i s s' :=
  ⟨by rw [ha], by rw [ho]⟩

/-- Tracking another app does not concern this one. -/
theorem trackFrozen (h : i ≠ j) (s : RuntimeControlState) (timestampMs : Nat)
    (o : FrozenOwnership) : SameFor i s (s.trackFrozen j timestampMs o) :=
  ⟨by simp [h], by simp [SortedMap.get?_insert_ne _ _ (Ne.symm h)]⟩

/-- Untracking another app does not concern this one. -/
theorem clearFrozen (h : i ≠ j) (s : RuntimeControlState) : SameFor i s (s.clearFrozen j) :=
  ⟨by simp [h], by simp [SortedMap.get?_erase_ne _ h]⟩

/-- An abnormal thaw of another app does not concern this one. -/
theorem markAbnormalThaw (h : i ≠ j) (s : RuntimeControlState) :
    SameFor i s (s.markAbnormalThawForRefreeze j) :=
  ⟨by simp [h], by simp [SortedMap.get?_insert_ne _ _ (Ne.symm h)]⟩

/-- Residual processes of another app do not concern this one. -/
theorem trackResidual {ctx : RecordContext} (h : i ≠ ctx.identity) (residual : Bool)
    (s : RuntimeControlState) : SameFor i s (ctx.trackResidual residual s) := by
  cases residual with
  | false => exact refl i s
  | true => exact trackFrozen h _ _ _

/-- Clearing the detached ownership of other identities. -/
theorem clearDetached {identities : List RuntimeIdentity} (h : i ∉ identities)
    (s : RuntimeControlState) : SameFor i s (s.clearDetached identities) :=
  ⟨by simp, by simp [RuntimeControlState.clearDetached_get?, h]⟩

end SameFor

variable {s s' : RuntimeControlState} {t : Trace} {r : Except DaemonError Unit}
  {ctx : RecordContext} {i : RuntimeIdentity}

/-- A decision tracks and untracks its own app only. -/
theorem DecisionStep.frame {decision : FreezeDecision} (h : DecisionStep ctx decision s t r s')
    (hi : i ≠ ctx.identity) : SameFor i s s' := by
  -- Each branch is followed write by write.
  cases h with
  | idle => exact .of_eq rfl rfl
  | @fallbackStopped _ _ outcome _ failure =>
    have hblocked : SameFor i s (ctx.blockShared failure s) := .of_eq rfl rfl
    exact (hblocked.trans (.trackResidual hi outcome.residualPossible _)).trans
      ((SameFor.trackFrozen hi _ ctx.input.timestampMs .residualUnknown).trans (.of_eq rfl rfl))
  | @fallbackFailed _ _ outcome stopped failure =>
    have hblocked : SameFor i s (ctx.blockShared failure s) := .of_eq rfl rfl
    exact (hblocked.trans (.trackResidual hi outcome.residualPossible _)).trans
      ((SameFor.trackResidual hi (stopped.rollbackFailures > 0) _).trans (.of_eq rfl rfl))
  | rescanFailed => exact .refl i s
  | frozen =>
    exact (SameFor.trackFrozen hi s ctx.input.timestampMs .cgroupBinder).trans (.of_eq rfl rfl)
  | @rescanThawed _ _ _ _ rollback =>
    by_cases hfailures : rollback.failures.isEmpty = true
    · simp only [hfailures, if_true]
      exact (SameFor.clearFrozen hi s).trans (.of_eq rfl rfl)
    · simp only [hfailures]
      exact (SameFor.trackResidual hi true s).trans (.of_eq rfl rfl)
  | @stopped _ _ _ ownership =>
    exact (SameFor.trackFrozen hi s ctx.input.timestampMs ownership).trans (.of_eq rfl rfl)
  | @stopFailed _ _ outcome failure =>
    have hblocked : SameFor i s (ctx.blockShared failure s) := .of_eq rfl rfl
    exact hblocked.trans ((SameFor.trackResidual hi (outcome.rollbackFailures > 0) _).trans
      (.of_eq rfl rfl))
  | terminated =>
    have hremoved : SameFor i s (s.removePending ctx.identity) := .of_eq rfl rfl
    exact hremoved.trans ((SameFor.clearFrozen hi _).trans (.of_eq rfl rfl))
  | terminateFailed => exact .of_eq rfl rfl

/-- A background step tracks and untracks its own app only. -/
theorem BackgroundStep.frame {abnormalThaw : Bool} (h : BackgroundStep ctx abnormalThaw s t r s')
    (hi : i ≠ ctx.identity) : SameFor i s s' := by
  cases h with
  | waiting => exact .refl i s
  | delayed => exact .of_eq rfl rfl
  | downloading answer deferral sampled =>
    unfold RecordContext.postponeDownload
    dsimp only
    split
    · exact .of_eq rfl rfl
    · exact .of_eq rfl rfl
  | decided deferral binder _ hdecision =>
    have hdeferral : SameFor i s (s.setDownloadDeferral deferral) := .of_eq rfl rfl
    exact hdeferral.trans (hdecision.frame hi)

/-- Unblocking tracks and untracks nobody. -/
theorem Unblocked.frame {s₀ : RuntimeControlState} (h : Unblocked ctx s s₀)
    (i : RuntimeIdentity) : SameFor i s s₀ := by
  rcases h.2 with rfl | rfl
  · exact .refl i _
  · exact .of_eq rfl rfl

/-- The tracked apps are the same after unblocking. -/
theorem Unblocked.frozenApps {s₀ : RuntimeControlState} (h : Unblocked ctx s s₀) :
    s₀.frozenApps = s.frozenApps := by
  rcases h.2 with rfl | rfl
  · rfl
  · rfl

/-- So is the time of the next wakeup. -/
theorem Unblocked.periodicWakeupDue {s₀ : RuntimeControlState} (h : Unblocked ctx s s₀)
    (settings : List UInt8) (timestampMs : Nat) :
    periodicWakeupDue s₀ ctx.identity settings timestampMs
      = periodicWakeupDue s ctx.identity settings timestampMs := by
  rcases h.2 with rfl | rfl
  · rfl
  · rfl

/-- A thaw untracks its own identity only. -/
theorem ThawStep.frame {identity : RuntimeIdentity} (h : ThawStep identity s t s')
    (hi : i ≠ identity) : SameFor i s s' := by
  cases h with
  | undiscovered => exact .of_eq rfl rfl
  | exited => exact .clearFrozen hi s
  | @tried _ _ outcome =>
    by_cases hfailures : outcome.failures.isEmpty = true
    · simp only [hfailures, if_true]
      exact (SameFor.clearFrozen hi s).trans (.of_eq rfl rfl)
    · simp only [hfailures]
      exact .of_eq rfl rfl

/-- Thaws leave every other identity alone. -/
theorem ThawSteps.frame {identities : List RuntimeIdentity} (h : ThawSteps identities s t s')
    (hi : i ∉ identities) : SameFor i s s' := by
  induction h with
  | nil s => exact .refl i s
  | cons hstep _ ih =>
    rw [List.mem_cons, not_or] at hi
    exact (hstep.frame hi.1).trans (ih hi.2)

/-- Releasing a protected app touches the identities of its uid only. -/
theorem releaseProtected_frame (h : Exec (ctx.releaseProtected s) t (r, s'))
    (hi : i.uid ≠ ctx.record.uid) : SameFor i s s' := by
  obtain ⟨s₁, hsteps, rfl⟩ := releaseProtected_steps h
  have htransient : SameFor i s (s.clearTransientControlStateForUid ctx.record.uid) :=
    .of_eq rfl rfl
  refine (htransient.trans (hsteps.frame ?_)).trans (.clearDetached ?_ _)
  · intro hmem
    exact hi (by simpa using (List.mem_filter.mp hmem).2)
  · intro hmem
    exact hi (by simpa using (List.mem_filter.mp hmem).2)

/-- A record that is controlled changes the identity of its processes only. -/
theorem ListedStep.frame_of_allowed {auditDue : Bool} (h : ListedStep ctx auditDue s t r s')
    (hallowed : ctx.allowed = true) (hne : i ≠ ctx.identity) : SameFor i s s' := by
  cases h with
  | released hblocked => rw [hallowed] at hblocked; cases hblocked
  | blocked => exact .refl i s
  | foreground _ hs => exact (hs.frame i).trans (.of_eq rfl rfl)
  | @opened s₀ _ outcome _ _ hs =>
    refine (hs.frame i).trans ?_
    have hremoved : SameFor i s₀ (s₀.removePending ctx.identity) := .of_eq rfl rfl
    by_cases hfailures : outcome.failures.isEmpty = true
    · simp only [hfailures, if_true]
      exact hremoved.trans ((SameFor.clearFrozen hne _).trans (.of_eq rfl rfl))
    · simp only [hfailures]
      exact .of_eq rfl rfl
  | @wokenUp s₀ _ outcome _ _ _ hs =>
    refine (hs.frame i).trans ?_
    by_cases hfailures : outcome.failures.isEmpty = true
    · simp only [hfailures, if_true]
      exact (SameFor.clearFrozen hne s₀).trans (.of_eq rfl rfl)
    · simp only [hfailures]
      exact .of_eq rfl rfl
  | kept _ hs => exact hs.frame i
  | refrozen _ hs _ _ _ _ _ hbackground =>
    exact (hs.frame i).trans ((SameFor.markAbnormalThaw hne _).trans (hbackground.frame hne))
  | background _ hs _ _ hbackground => exact (hs.frame i).trans (hbackground.frame hne)

/-- A record that is not to be controlled is released. -/
theorem ListedStep.of_not_allowed {auditDue : Bool} (h : ListedStep ctx auditDue s t r s')
    (hallowed : ctx.allowed = false) : Exec (ctx.releaseProtected s) t (.ok (), s') := by
  have hnot : ctx.allowed ≠ true := by simp [hallowed]
  cases h with
  | released _ hexec => exact hexec
  | blocked ha => exact absurd ha hnot
  | foreground ha => exact absurd ha hnot
  | opened _ ha => exact absurd ha hnot
  | wokenUp _ _ ha => exact absurd ha hnot
  | kept ha => exact absurd ha hnot
  | refrozen ha => exact absurd ha hnot
  | background ha => exact absurd ha hnot

/-- The loop body leaves the apps of other uids alone. -/
theorem ListedStep.frame {auditDue : Bool} (h : ListedStep ctx auditDue s t r s')
    (hi : i.uid ≠ ctx.record.uid) : SameFor i s s' := by
  by_cases hallowed : ctx.allowed = true
  · exact h.frame_of_allowed hallowed fun heq => hi (by rw [heq]; rfl)
  · exact releaseProtected_frame (h.of_not_allowed (by simpa using hallowed)) hi

/-- A record changes the identities of its own uid only. -/
theorem RecordStep.frame {input : PassInput} {auditDue : Bool} {record : ManagerAppConfigRecord}
    (h : RecordStep input auditDue record s t r s') (hi : i.uid ≠ record.uid) :
    SameFor i s s' := by
  cases h with
  | uncontrolled => exact .refl i s
  | undiscovered => exact .refl i s
  | exited =>
    exact ⟨by simp [RuntimeControlState.mem_clearExited_frozenApps, hi],
      by simp [RuntimeControlState.clearExited_get?, hi]⟩
  | occupied _ _ _ hlisted => exact hlisted.frame hi

end Freezeit
