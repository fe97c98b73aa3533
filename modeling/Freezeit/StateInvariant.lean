import Freezeit.Runs

/-! # The representation invariant of the control state

    The tracked apps, their freeze times and their ownership are separate
    collections, and so are the pending freezes and the operation log.  This
    file shows that every step of the controller keeps them consistent. -/

namespace Freezeit

open Prog

/-! ## The invariant -/

/-- The tracked apps against their freeze times and ownership entries: each has both, and
    what owns a freeze without being tracked is not a generic freeze. -/
structure TrackedInv (apps : SortedSet RuntimeIdentity) (since : SortedMap RuntimeIdentity Nat)
    (ownership : SortedMap RuntimeIdentity FrozenOwnership) : Prop where
  since_keys : ∀ i, i ∈ since ↔ i ∈ apps
  owned      : ∀ i, i ∈ apps → i ∈ ownership
  detached   : ∀ i o, ownership.get? i = some o → i ∉ apps → o = .signalOnly ∨ o = .residualUnknown

/-- The ring of operations. Its ids increase and stay below the next one, and it never
    holds more than 128. -/
structure LogInv (log : OperationLog) (nextOperationId : Nat) : Prop where
  capacity   : log.capacity = 128
  bounded    : log.records.length ≤ 128
  increasing : log.records.Pairwise fun a b => a.operationId < b.operationId
  below_next : ∀ op ∈ log.records, op.operationId < nextOperationId

/-- No app waits to be frozen that is tracked as frozen. -/
def PendingInv (pending : SortedMap RuntimeIdentity Nat) (apps : SortedSet RuntimeIdentity) : Prop :=
  ∀ i ∈ pending, i ∉ apps

/-- The invariant of the control state between two records: what is tracked has a time and
    an owner, what waits is not tracked, and the ring of operations is bounded and numbered. -/
structure ControlInv (s : RuntimeControlState) : Prop where
  tracked : TrackedInv s.frozenApps s.frozenSinceMs s.frozenOwnership
  pending : PendingInv s.pendingFreezes s.frozenApps
  log     : LogInv s.operationLog s.nextOperationId

/-- The initial state is empty, so all of it holds. -/
theorem controlInv_default : ControlInv .default where
  tracked := ⟨fun _ => Iff.rfl, fun i hi => absurd hi (SortedMap.not_mem_empty i), nofun⟩
  pending := fun i hi => absurd hi (SortedMap.not_mem_empty i)
  log     := ⟨rfl, Nat.zero_le _, .nil, nofun⟩

variable {s s' : RuntimeControlState} {i : RuntimeIdentity}

/-! ## What the updates do to the tracked apps -/

/-- Tracking an app sets its time and its owner together. -/
theorem TrackedInv.trackFrozen (h : TrackedInv s.frozenApps s.frozenSinceMs s.frozenOwnership)
    (i : RuntimeIdentity) (timestampMs : Nat) (o : FrozenOwnership) :
    TrackedInv (s.trackFrozen i timestampMs o).frozenApps
      (s.trackFrozen i timestampMs o).frozenSinceMs
      (s.trackFrozen i timestampMs o).frozenOwnership where
  since_keys j := by
    rw [RuntimeControlState.trackFrozen_frozenSinceMs, RuntimeControlState.trackFrozen_frozenApps]
    -- An app that is tracked already keeps the time since when.
    by_cases hi : i ∈ s.frozenSinceMs
    · rw [if_pos hi, SortedMap.mem_insert, h.since_keys]
      have hmem := (h.since_keys i).mp hi
      constructor
      · exact .inr
      · rintro (rfl | hj)
        · exact hmem
        · exact hj
    · rw [if_neg hi, SortedMap.mem_insert, SortedMap.mem_insert, h.since_keys]
  owned j hj := by
    rw [RuntimeControlState.trackFrozen_frozenOwnership, SortedMap.mem_insert]
    exact (SortedMap.mem_insert.mp hj).imp id (h.owned j)
  detached j o' hj hnot := by
    rw [RuntimeControlState.trackFrozen_frozenApps, SortedMap.mem_insert, not_or] at hnot
    rw [RuntimeControlState.trackFrozen_frozenOwnership,
      SortedMap.get?_insert_ne _ _ (Ne.symm hnot.1)] at hj
    exact h.detached j o' hj hnot.2

/-- Untracking an app removes both. -/
theorem TrackedInv.clearFrozen (h : TrackedInv s.frozenApps s.frozenSinceMs s.frozenOwnership)
    (i : RuntimeIdentity) :
    TrackedInv (s.clearFrozen i).frozenApps (s.clearFrozen i).frozenSinceMs
      (s.clearFrozen i).frozenOwnership where
  since_keys j := by
    simp [h.since_keys]
  owned j hj := by
    simp only [RuntimeControlState.clearFrozen_frozenApps,
      RuntimeControlState.clearFrozen_frozenOwnership, SortedMap.mem_erase] at hj ⊢
    exact ⟨hj.1, h.owned j hj.2⟩
  detached j o hj hnot := by
    simp only [RuntimeControlState.clearFrozen_frozenApps,
      RuntimeControlState.clearFrozen_frozenOwnership, SortedMap.mem_erase] at hj hnot
    by_cases hji : j = i
    · simp [hji] at hj
    · rw [SortedMap.get?_erase_ne _ hji] at hj
      exact h.detached j o hj fun hmem => hnot ⟨hji, hmem⟩

/-- The audit leaves an entry of its own, which is never `cgroupBinder`. -/
theorem TrackedInv.markAbnormalThaw
    (h : TrackedInv s.frozenApps s.frozenSinceMs s.frozenOwnership) (i : RuntimeIdentity) :
    TrackedInv (s.markAbnormalThawForRefreeze i).frozenApps
      (s.markAbnormalThawForRefreeze i).frozenSinceMs
      (s.markAbnormalThawForRefreeze i).frozenOwnership where
  since_keys j := by simp [h.since_keys]
  owned j hj := by
    simp only [RuntimeControlState.markAbnormalThawForRefreeze_frozenApps,
      RuntimeControlState.markAbnormalThawForRefreeze_frozenOwnership, SortedMap.mem_erase,
      SortedMap.mem_insert] at hj ⊢
    exact .inr (h.owned j hj.2)
  detached j o hj hnot := by
    simp only [RuntimeControlState.markAbnormalThawForRefreeze_frozenApps,
      RuntimeControlState.markAbnormalThawForRefreeze_frozenOwnership, SortedMap.mem_erase] at hj hnot
    -- The app itself becomes detached, with an ownership that is no longer trusted.
    by_cases hji : i = j
    · subst hji
      rw [SortedMap.get?_insert_self] at hj
      cases hown : s.frozenOwnershipOf i <;> simp_all
    · rw [SortedMap.get?_insert_ne _ _ hji] at hj
      exact h.detached j o hj fun hmem => hnot ⟨Ne.symm hji, hmem⟩

/-- Freeze times are kept in step, so there is never a stale one to drop. -/
theorem TrackedInv.dropStaleSince (h : TrackedInv s.frozenApps s.frozenSinceMs s.frozenOwnership)
    (i : RuntimeIdentity) :
    TrackedInv s.frozenApps (s.dropStaleSince i).frozenSinceMs s.frozenOwnership where
  since_keys j := by
    rw [RuntimeControlState.dropStaleSince_frozenSinceMs]
    by_cases hi : i ∈ s.frozenApps
    · rw [if_pos hi, h.since_keys]
    · rw [if_neg hi, SortedMap.mem_erase, h.since_keys]
      constructor
      · exact And.right
      · intro hj
        exact ⟨fun hji => hi (hji ▸ hj), hj⟩
  owned := h.owned
  detached := h.detached

/-- Dropping a detached owner concerns no tracked app. -/
theorem TrackedInv.clearDetachedOwnership
    (h : TrackedInv s.frozenApps s.frozenSinceMs s.frozenOwnership) (i : RuntimeIdentity) :
    TrackedInv s.frozenApps s.frozenSinceMs (s.clearDetachedOwnership i).frozenOwnership where
  since_keys := h.since_keys
  owned j hj := by
    rw [RuntimeControlState.clearDetachedOwnership_frozenOwnership]
    by_cases hi : i ∈ s.frozenApps
    · rw [if_pos hi]
      exact h.owned j hj
    · rw [if_neg hi, SortedMap.mem_erase]
      exact ⟨fun hji => hi (hji ▸ hj), h.owned j hj⟩
  detached j o hj hnot := by
    rw [RuntimeControlState.clearDetachedOwnership_frozenOwnership] at hj
    by_cases hi : i ∈ s.frozenApps
    · rw [if_pos hi] at hj
      exact h.detached j o hj hnot
    · rw [if_neg hi, SortedMap.get?_erase] at hj
      by_cases hji : j = i
      · simp [hji] at hj
      · rw [if_neg hji] at hj
        exact h.detached j o hj hnot

/-- Dropping many of them does not either. -/
theorem ControlInv.clearDetached (h : ControlInv s) (identities : List RuntimeIdentity) :
    ControlInv (s.clearDetached identities) :=
  List.foldlRecOn identities RuntimeControlState.clearDetachedOwnership h fun _ hs i _ =>
    ⟨hs.tracked.clearDetachedOwnership i, hs.pending, hs.log⟩

/-! ## Pending freezes and the log -/

/-- An app that is not tracked may begin to wait. -/
theorem PendingInv.start (h : PendingInv s.pendingFreezes s.frozenApps) {i : RuntimeIdentity}
    {dueAtMs : Nat} {apps : SortedSet RuntimeIdentity} (ha : ∀ j ∈ apps, j ∈ s.frozenApps)
    (hi : i ∉ apps) : PendingInv (s.pendingFreezes.insert i dueAtMs) apps := by
  intro j hj hmem
  rcases SortedMap.mem_insert.mp hj with rfl | hpend
  · exact hi hmem
  · exact h j hpend (ha j hmem)

/-- Fewer timers and fewer tracked apps keep the two apart. -/
theorem PendingInv.shrink {pending pending' : SortedMap RuntimeIdentity Nat}
    {apps apps' : SortedSet RuntimeIdentity} (h : PendingInv pending apps)
    (hp : ∀ j ∈ pending', j ∈ pending) (ha : ∀ j ∈ apps', j ∈ apps) : PendingInv pending' apps' :=
  fun j hj hmem => h j (hp j hj) (ha j hmem)

/-- The ring stays bounded, and the ids in it consecutive. -/
theorem LogInv.push {log : OperationLog} {next : Nat} (h : LogInv log next)
    (operation : ControlOperation) (hid : operation.operationId = next) :
    LogInv (log.push operation) (next + 1) := by
  -- The new id is above all others, so the order holds with the record at the end.
  have hbelow : ∀ op ∈ log.records ++ [operation], op.operationId < next + 1 := by
    intro op hop
    rcases List.mem_append.mp hop with hold | hnew
    · exact Nat.lt_succ_of_lt (h.below_next op hold)
    · obtain rfl := List.mem_singleton.mp hnew
      omega
  have hsorted : (log.records ++ [operation]).Pairwise fun a b => a.operationId < b.operationId := by
    refine List.pairwise_append.mpr ⟨h.increasing, List.pairwise_singleton _ _, ?_⟩
    intro a ha b hb
    obtain rfl := List.mem_singleton.mp hb
    rw [hid]
    exact h.below_next a ha
  have hcap := h.capacity
  have hlen := h.bounded
  by_cases hfull : log.records.length = log.capacity
  · -- The oldest record makes room.
    have htail : log.records.tail ++ [operation] = (log.records ++ [operation]).tail := by
      cases hrecords : log.records with
      | nil => simp [hrecords] at hfull; omega
      | cons a rest => rfl
    rw [OperationLog.push, if_pos hfull, htail]
    refine ⟨hcap, ?_, hsorted.sublist (List.tail_sublist _), ?_⟩
    · simp; omega
    · exact fun op hop => hbelow op (List.mem_of_mem_tail hop)
  · rw [OperationLog.push, if_neg hfull]
    refine ⟨hcap, ?_, hsorted, hbelow⟩
    simp; omega

/-- The same for an operation that is stamped. -/
theorem LogInv.pushOperation (h : LogInv s.operationLog s.nextOperationId)
    (operation : ControlOperation) (timestampMs : Nat) :
    LogInv (s.pushOperation operation timestampMs).operationLog
      (s.pushOperation operation timestampMs).nextOperationId :=
  h.push _ rfl

/-- A report touches the ring alone. -/
theorem ControlInv.pushOperation (h : ControlInv s) (operation : ControlOperation)
    (timestampMs : Nat) : ControlInv (s.pushOperation operation timestampMs) :=
  ⟨h.tracked, h.pending, h.log.pushOperation operation timestampMs⟩

/-- Untracking an app keeps the invariant. -/
theorem ControlInv.clearFrozen (h : ControlInv s) (i : RuntimeIdentity) :
    ControlInv (s.clearFrozen i) where
  tracked := h.tracked.clearFrozen i
  pending := h.pending.shrink (fun _ => id) fun _ hj => (SortedMap.mem_erase.mp hj).2
  log     := h.log

/-- Clearing a uid keeps the invariant. -/
theorem ControlInv.clearTransient (h : ControlInv s) (uid : Nat) :
    ControlInv (s.clearTransientControlStateForUid uid) where
  tracked := h.tracked
  pending := h.pending.shrink (fun _ hj => (SortedMap.mem_retain_key.mp hj).1) fun _ => id
  log     := h.log

/-- A state whose tracked apps, pending freezes and log are in order. -/
theorem ControlInv.dropStaleSince (h : ControlInv s) (i : RuntimeIdentity) :
    ControlInv (s.dropStaleSince i) :=
  ⟨h.tracked.dropStaleSince i, h.pending, h.log⟩

/-! ## An app that is still pending while it is being frozen

    A step tracks an app before it takes it off the pending freezes.  In
    between the invariant holds but for this one app. -/

/-- The invariant in the middle of a decision: the app it is about may be tracked and
    still have its timer, until the timer is removed at the end. -/
structure UnsettledInv (i : RuntimeIdentity) (s : RuntimeControlState) : Prop where
  tracked : TrackedInv s.frozenApps s.frozenSinceMs s.frozenOwnership
  pending : ∀ j ∈ s.pendingFreezes, j ≠ i → j ∉ s.frozenApps
  log     : LogInv s.operationLog s.nextOperationId

namespace UnsettledInv

/-- A decision starts from a settled state. -/
theorem of_controlInv (h : ControlInv s) (i : RuntimeIdentity) : UnsettledInv i s :=
  ⟨h.tracked, fun j hj _ => h.pending j hj, h.log⟩

/-- The app may be tracked while its timer is there. -/
theorem trackFrozen (h : UnsettledInv i s) (timestampMs : Nat) (o : FrozenOwnership) :
    UnsettledInv i (s.trackFrozen i timestampMs o) where
  tracked := h.tracked.trackFrozen i timestampMs o
  pending j hj hji hmem := by
    rcases SortedMap.mem_insert.mp hmem with rfl | hmem
    · exact hji rfl
    · exact h.pending j hj hji hmem
  log := h.log

/-- The same for its residual processes. -/
theorem trackResidual {ctx : RecordContext} (h : UnsettledInv ctx.identity s) (residual : Bool) :
    UnsettledInv ctx.identity (ctx.trackResidual residual s) := by
  cases residual with
  | false => exact h
  | true => exact h.trackFrozen _ _

/-- The app may be untracked. -/
theorem clearFrozen (h : UnsettledInv i s) : UnsettledInv i (s.clearFrozen i) where
  tracked := h.tracked.clearFrozen i
  pending j hj hji hmem := h.pending j hj hji (SortedMap.mem_erase.mp hmem).2
  log := h.log

/-- A request for the network is not part of the invariant. -/
theorem requestNetworkRestriction (h : UnsettledInv i s) (record : ManagerAppConfigRecord) :
    UnsettledInv i (s.requestNetworkRestriction record) :=
  ⟨h.tracked, h.pending, h.log⟩

/-- A block is not part of the invariant. -/
theorem blockShared {ctx : RecordContext} (h : UnsettledInv ctx.identity s) (failure : String) :
    UnsettledInv ctx.identity (ctx.blockShared failure s) :=
  ⟨h.tracked, h.pending, h.log⟩

/-- The report may come before the timer is removed. -/
theorem pushOperation (h : UnsettledInv i s) (operation : ControlOperation) (timestampMs : Nat) :
    UnsettledInv i (s.pushOperation operation timestampMs) :=
  ⟨h.tracked, h.pending, h.log.pushOperation operation timestampMs⟩

/-- Taking the app off the pending freezes settles it. -/
theorem removePending (h : UnsettledInv i s) : ControlInv (s.removePending i) where
  tracked := h.tracked
  pending j hj := by
    obtain ⟨hji, hpend⟩ := SortedMap.mem_erase.mp hj
    exact h.pending j hpend hji
  log := h.log

end UnsettledInv

/-! ## Every step keeps the invariant -/

variable {ctx : RecordContext} {t : Trace} {r : Except DaemonError Unit}

/-- A decision keeps the invariant. -/
theorem DecisionStep.controlInv {decision : FreezeDecision}
    (hstep : DecisionStep ctx decision s t r s') (h : ControlInv s) : ControlInv s' := by
  have hu : UnsettledInv ctx.identity s := .of_controlInv h _
  -- Each branch is followed write by write; the timer goes last.
  cases hstep with
  | idle => exact (h.dropStaleSince _).pushOperation _ _
  | @fallbackStopped _ _ outcome _ failure =>
    have htracked := ((hu.blockShared failure).trackResidual outcome.residualPossible).trackFrozen
      ctx.input.timestampMs .residualUnknown
    have hrequested := (htracked.requestNetworkRestriction ctx.record).requestNetworkRestriction
      ctx.record
    exact (hrequested.removePending.pushOperation _ _).dropStaleSince _
  | @fallbackFailed _ _ outcome stopped failure =>
    have htracked := ((hu.blockShared failure).trackResidual outcome.residualPossible).trackResidual
      (stopped.rollbackFailures > 0)
    exact (htracked.removePending.pushOperation _ _).dropStaleSince _
  | rescanFailed => exact h
  | frozen =>
    have htracked := hu.trackFrozen ctx.input.timestampMs .cgroupBinder
    exact ((htracked.requestNetworkRestriction ctx.record).removePending.dropStaleSince
      _).pushOperation _ _
  -- After the thaw the app is either not tracked any more, or tracked as residual.
  | rescanThawed =>
    refine (UnsettledInv.removePending ?_ |>.pushOperation _ _).dropStaleSince _
    split
    · exact hu.clearFrozen
    · exact hu.trackResidual true
  | @stopped _ _ _ ownership =>
    have htracked := hu.trackFrozen ctx.input.timestampMs ownership
    exact ((htracked.requestNetworkRestriction ctx.record).removePending.dropStaleSince
      _).pushOperation _ _
  | @stopFailed _ _ outcome failure operation =>
    have htracked := (hu.blockShared failure).trackResidual (outcome.rollbackFailures > 0)
    exact (htracked.pushOperation operation _).removePending.dropStaleSince _
  | terminated => exact ((hu.removePending.clearFrozen _).dropStaleSince _).pushOperation _ _
  | terminateFailed => exact h.pushOperation _ _

/-- A freeze that is put off: the app becomes pending, and it is not tracked. -/
theorem ControlInv.insertPending (h : ControlInv s) (hi : i ∉ s.frozenApps) (dueAtMs : Nat) :
    ControlInv (s.insertPending i dueAtMs) where
  tracked := h.tracked
  pending := by
    intro j hj
    rcases SortedMap.mem_insert.mp hj with rfl | hpend
    · exact hi
    · exact h.pending j hpend
  log := h.log

/-- A background step starts a timer or decides, for an app that is not tracked. -/
theorem BackgroundStep.controlInv {abnormalThaw : Bool}
    (hstep : BackgroundStep ctx abnormalThaw s t r s') (h : ControlInv s)
    (hi : ctx.identity ∉ s.frozenApps) : ControlInv s' := by
  have hdeferral : ∀ deferral, ControlInv (s.setDownloadDeferral deferral) :=
    fun _ => ⟨h.tracked, h.pending, h.log⟩
  cases hstep with
  | waiting => exact h
  -- A timer is set, which the app may have because it is not tracked.
  | delayed => exact ((h.insertPending hi _).pushOperation _ _).dropStaleSince _
  | downloading answer deferral sampled =>
    unfold RecordContext.postponeDownload
    dsimp only
    refine ControlInv.dropStaleSince ?_ _
    have hpending : ∀ dueAtMs, ControlInv
        ((s.setDownloadDeferral deferral).insertPending ctx.identity dueAtMs) :=
      fun dueAtMs => (hdeferral deferral).insertPending hi dueAtMs
    split
    · exact hpending _
    · exact (hpending _).pushOperation _ _
  | decided deferral binder _ hdecision => exact hdecision.controlInv (hdeferral deferral)

/-- A thaw untracks its app or keeps it. -/
theorem ThawStep.controlInv {identity : RuntimeIdentity} (hstep : ThawStep identity s t s')
    (h : ControlInv s) : ControlInv s' := by
  cases hstep with
  | undiscovered => exact h.pushOperation _ _
  | exited => exact h.clearFrozen _
  | tried =>
    refine ControlInv.pushOperation ?_ _ _
    split
    · exact h.clearFrozen _
    · exact h

/-- Thaws keep the invariant one after the other. -/
theorem ThawSteps.controlInv {identities : List RuntimeIdentity}
    (hsteps : ThawSteps identities s t s') (h : ControlInv s) : ControlInv s' := by
  induction hsteps with
  | nil => exact h
  | cons hstep _ ih => exact ih (hstep.controlInv h)

/-- Unblocking keeps it. -/
theorem Unblocked.controlInv {s₀ : RuntimeControlState} (hs : Unblocked ctx s s₀)
    (h : ControlInv s) : ControlInv s₀ := by
  rcases hs.2 with rfl | rfl
  · exact h
  · exact ⟨h.tracked, h.pending, h.log⟩

/-- An app may stop waiting at any time. -/
theorem ControlInv.removePending (h : ControlInv s) (i : RuntimeIdentity) :
    ControlInv (s.removePending i) :=
  (UnsettledInv.of_controlInv h i).removePending

/-- The loop body keeps the invariant once its processes are listed. -/
theorem ListedStep.controlInv {auditDue : Bool} (hstep : ListedStep ctx auditDue s t r s')
    (h : ControlInv s) : ControlInv s' := by
  cases hstep with
  | released _ hexec =>
    obtain ⟨s₁, hsteps, rfl⟩ := releaseProtected_steps hexec
    exact (hsteps.controlInv (h.clearTransient _)).clearDetached _
  | blocked => exact h
  | foreground _ hs => exact (hs.controlInv h).removePending _
  | opened _ _ hs =>
    have h₀ := (hs.controlInv h).removePending ctx.identity
    refine ControlInv.pushOperation ?_ _ _
    split
    · exact h₀.clearFrozen _
    · exact h₀
  | wokenUp _ _ _ hs =>
    have h₀ := hs.controlInv h
    refine ControlInv.pushOperation ?_ _ _
    split
    · exact (h₀.clearFrozen _).insertPending (by simp) _
    · exact h₀
  | kept _ hs => exact hs.controlInv h
  -- An audit untracks the app before it goes on as any other one in the background.
  | refrozen _ hs _ _ _ _ _ hbackground =>
    have h₀ := hs.controlInv h
    refine hbackground.controlInv ?_ (by simp)
    exact ⟨h₀.tracked.markAbnormalThaw _,
      h₀.pending.shrink (fun _ => id) fun _ hj => (SortedMap.mem_erase.mp hj).2, h₀.log⟩
  | background _ hs _ hi hbackground => exact hbackground.controlInv (hs.controlInv h) hi

/-- The branch for a uid without processes clears identity by identity. -/
theorem ControlInv.clearExited (h : ControlInv s) (uid : Nat) : ControlInv (s.clearExited uid) :=
  List.foldlRecOn _ RuntimeControlState.clearFrozen (h.clearTransient uid)
    fun _ hs i _ => hs.clearFrozen i

/-- So does a record. -/
theorem RecordStep.controlInv {input : PassInput} {auditDue : Bool}
    {record : ManagerAppConfigRecord} (hstep : RecordStep input auditDue record s t r s')
    (h : ControlInv s) : ControlInv s' := by
  cases hstep with
  | uncontrolled => exact h
  | undiscovered => exact h
  | exited => exact h.clearExited _
  | occupied _ _ _ hlisted => exact hlisted.controlInv h

/-- The time of the next audit is not part of the invariant. -/
theorem ControlInv.refreezeAuditDue (h : ControlInv s) (settings : List UInt8)
    (timestampMs : Nat) : ControlInv (refreezeAuditDue s settings timestampMs).2 := by
  obtain ⟨startedAt, next, heq⟩ := refreezeAuditDue_eq s settings timestampMs
  rw [heq]
  exact ⟨h.tracked, h.pending, h.log⟩

/-- Every step of a run keeps the invariant. -/
theorem Moment.Valid.controlInv {m : Moment} (hm : m.Valid) (h : ControlInv m.before) :
    ControlInv m.after := by
  cases hm with
  | @release s _ _ input hexec =>
    obtain ⟨s₁, hsteps, rfl⟩ := releaseStale_steps hexec
    have hretained : ControlInv (s.retainControlled (controlledUids input.appConfig)) :=
      ⟨h.tracked, h.pending.shrink (fun _ hj => (SortedMap.mem_retain_key.mp hj).1) fun _ => id,
        h.log⟩
    exact ((hsteps.controlInv hretained).clearDetached _).refreezeAuditDue _ _
  | record hstep => exact hstep.controlInv h
  -- All timers are dropped, so that nothing is left to check about them.
  | thawAll timestampMs hexec =>
    obtain ⟨s₁, hsteps, rfl⟩ := thawAllFrozen_steps hexec
    have hdetached := (hsteps.controlInv h).clearDetached s₁.detachedIdentities
    exact ⟨hdetached.tracked, fun i hi => absurd hi (SortedMap.not_mem_empty i), hdetached.log⟩
  | freezeStatus => exact ⟨h.tracked, h.pending, h.log⟩
  | takeNetworkRestrictions => exact ⟨h.tracked, h.pending, h.log⟩
  | requeueNetworkRestriction => exact ⟨h.tracked, h.pending, h.log⟩

/-- So it holds at the end of every run. -/
theorem Run.controlInv {ms : List Moment} (h : Run ms s) : ControlInv s :=
  Run.induct (P := fun _ s => ControlInv s) controlInv_default
    (fun _ _ hbefore hvalid => hvalid.controlInv hbefore) h

/-- Every reachable state keeps its collections consistent, whatever the environment
    answered and wherever a pass was ended by an error. -/
theorem reachable_controlInv {past : Trace} (h : Reachable past s) : ControlInv s := by
  obtain ⟨ms, hrun, -⟩ := reachable_iff_run.mp h
  exact hrun.controlInv

/-- The state after one pass. -/
theorem reachable_controlInv_sample :
    ControlInv (run sampleEnvironment.answer [] (runControlPass (samplePass 30) .default)).2.2 := by
  have hpass : Reachable
      ([] ++ (run sampleEnvironment.answer [] (runControlPass (samplePass 30) .default)).1)
      (run sampleEnvironment.answer [] (runControlPass (samplePass 30) .default)).2.2 :=
    .pass (samplePass 30) .default (exec_run _ _ _)
  exact reachable_controlInv hpass

end Freezeit
