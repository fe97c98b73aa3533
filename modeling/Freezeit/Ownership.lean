import Freezeit.Frames
import Freezeit.Targets

/-! # Partial freezes and signal-only thaws

    An app that a generic freezer call was made for may be left half frozen.
    A bare SIGCONT does not undo that, so the signal-only plan must not be used
    for it until a generic thaw, or the end of its processes, has settled it. -/

namespace Freezeit

open Prog

/-! ## Generic freezes and what settles them -/

/-- A freezer call was made for the app, on a process that still has its cgroup path. -/
def GenericFreezeIn (i : RuntimeIdentity) (t : Trace) : Prop :=
  ∃ p answer, ⟨.freezeProcess p, answer⟩ ∈ t ∧ p.cgroupFreezePath.isSome = true
    ∧ p.packageName = i.packageName

/-- The step works on a record of the uid and freezes a process of the app through the
    generic freezer. -/
def Moment.Freezes (i : RuntimeIdentity) (m : Moment) : Prop :=
  (∃ input auditDue record, m.work = .record input auditDue record ∧ record.uid = i.uid)
    ∧ GenericFreezeIn i m.calls

/-- The calls end with a discovery that failed. -/
def RescanFailed (uid : Nat) (t : Trace) : Prop :=
  ∃ t' error, t = t' ++ [listed uid (.error error)]

/-- Every process that a discovery lists for the app is thawed right after it;
    a discovery that lists none settles everything. -/
def ThawedIn (i : RuntimeIdentity) (t : Trace) : Prop :=
  ∃ before ps after, t = before ++ listed i.uid (.ok ps) :: (thawedCalls id id ps ++ after)
    ∧ ∀ p ∈ ps, p.packageName = i.packageName

/-- Every process that a discovery lists for the app is killed. -/
def KilledIn (i : RuntimeIdentity) (t : Trace) : Prop :=
  ∃ before ps after, t = before ++ listed i.uid (.ok ps) :: after
    ∧ ∀ p ∈ ps, p.packageName = i.packageName ∧ killed p.pendingFreeze ∈ after

/-- The step thaws the listed processes of the app, or kills all of them: from here on
    nothing of the app has to be thawed by the generic freezer any more. -/
def Moment.Settles (i : RuntimeIdentity) (m : Moment) : Prop :=
  ThawedIn i m.calls ∨ KilledIn i m.calls

/-- The step drops the ownership of an app that is not tracked as frozen: the
    control is switched off, its uid is no longer controlled, or its package
    may not be. -/
def Moment.Drops (i : RuntimeIdentity) (m : Moment) : Prop :=
  i ∉ m.before.frozenApps ∧
    (m.work = .thawAll
      ∨ (∃ input, m.work = .release input ∧ i.uid ∉ controlledUids input.appConfig)
      ∨ ∃ input auditDue record first rest t, m.work = .record input auditDue record
        ∧ record.uid = i.uid ∧ m.calls = listed record.uid (.ok (first :: rest)) :: t
        ∧ (listedContext input record first rest).allowed = false)

/-- A step marked something, and no step since then, itself included, reset it. -/
def Dirty (marks resets : Moment → Prop) (ms : List Moment) : Prop :=
  ∃ before m after, ms = before ++ m :: after ∧ marks m ∧ ¬ resets m
    ∧ ∀ m' ∈ after, ¬ resets m'

section dirty
variable {marks resets : Moment → Prop} {ms : List Moment} {m : Moment}

theorem not_dirty_nil : ¬ Dirty marks resets [] := by
  rintro ⟨before, m, after, h, -⟩
  simp at h

/-- What the last step does to the history: a reset makes it clean, a mark dirty, and any
    other step leaves it as it was. The run lemma is an induction on this. -/
theorem dirty_concat :
    Dirty marks resets (ms ++ [m]) ↔ ¬ resets m ∧ (Dirty marks resets ms ∨ marks m) := by
  constructor
  · rintro ⟨before, m', after, heq, hmarks, hreset, hafter⟩
    -- The last step is the mark itself, or one of those after it.
    rcases List.eq_nil_or_concat after with rfl | ⟨after, last, rfl⟩
    · obtain ⟨rfl, hm⟩ := List.append_inj' heq rfl
      cases hm
      exact ⟨hreset, .inr hmarks⟩
    · have hassoc : before ++ m' :: (after ++ [last]) = (before ++ m' :: after) ++ [last] := by simp
      rw [List.concat_eq_append, hassoc] at heq
      obtain ⟨rfl, hm⟩ := List.append_inj' heq rfl
      cases hm
      exact ⟨hafter m (by simp), .inl ⟨before, m', after, rfl, hmarks, hreset,
        fun m'' hmem => hafter m'' (by simp [hmem])⟩⟩
  · rintro ⟨hreset, ⟨before, m', after, rfl, hmarks, hreset', hafter⟩ | hmarks⟩
    · refine ⟨before, m', after ++ [m], by simp, hmarks, hreset', fun m'' hmem => ?_⟩
      rcases List.mem_append.mp hmem with hmem | hmem
      · exact hafter m'' hmem
      · obtain rfl := List.mem_singleton.mp hmem
        exact hreset
    · exact ⟨ms, m, [], rfl, hmarks, hreset, by simp⟩

end dirty

variable {i : RuntimeIdentity} {t t₁ t₂ : Trace}

theorem ThawedIn.left (h : ThawedIn i t₁) : ThawedIn i (t₁ ++ t₂) := by
  obtain ⟨before, ps, after, rfl, hps⟩ := h
  exact ⟨before, ps, after ++ t₂, by simp, hps⟩

theorem ThawedIn.right (h : ThawedIn i t₂) : ThawedIn i (t₁ ++ t₂) := by
  obtain ⟨before, ps, after, rfl, hps⟩ := h
  exact ⟨t₁ ++ before, ps, after, by simp, hps⟩

theorem RescanFailed.right {uid : Nat} (h : RescanFailed uid t₂) : RescanFailed uid (t₁ ++ t₂) := by
  obtain ⟨t', error, rfl⟩ := h
  exact ⟨t₁ ++ t', error, by simp⟩

/-! ## The invariant -/

/-- The app owns a freeze that is not known to be a bare SIGSTOP. -/
def Owned (i : RuntimeIdentity) (s : RuntimeControlState) : Prop :=
  ∃ ownership, s.frozenOwnership.get? i = some ownership ∧ ownership ≠ .signalOnly

/-- An owned app stays owned, or loses its entry for a reason. -/
def OwnedUnless (reason : Prop) (i : RuntimeIdentity) (s : RuntimeControlState) : Prop :=
  Owned i s ∨ s.frozenOwnership.get? i = none ∧ reason

variable {s s' : RuntimeControlState} {r : Except DaemonError Unit} {ctx : RecordContext}

/-- An owned app is never read as one that only a SIGSTOP holds. -/
theorem Owned.not_signalOnly (h : Owned i s) : s.frozenOwnershipOf i ≠ .signalOnly := by
  obtain ⟨ownership, hget, hne⟩ := h
  rw [RuntimeControlState.frozenOwnershipOf, hget]
  exact hne

/-- Only the entry of the app in the ownership map matters. -/
theorem Owned.of_get? (h : Owned i s)
    (hget : s'.frozenOwnership.get? i = s.frozenOwnership.get? i) : Owned i s' := by
  obtain ⟨ownership, hown, hne⟩ := h
  exact ⟨ownership, hget.trans hown, hne⟩

/-- While the app is owned a SIGSTOP records that its ownership is unresolved. -/
theorem Owned.unresolved (h : Owned i s) : s.hasUnresolvedFreezeOwnership i = true := by
  obtain ⟨ownership, hget, hne⟩ := h
  unfold RuntimeControlState.hasUnresolvedFreezeOwnership
  cases ownership with
  | signalOnly => exact absurd rfl hne
  | cgroupBinder => simp [hget]
  | residualUnknown => simp [hget]

/-- Tracking with anything but `SignalOnly` owns the freeze. -/
theorem owned_trackFrozen (timestampMs : Nat) {ownership : FrozenOwnership}
    (h : ownership ≠ .signalOnly) : Owned i (s.trackFrozen i timestampMs ownership) := by
  refine ⟨s.mergedOwnership i ownership, by simp, ?_⟩
  unfold RuntimeControlState.mergedOwnership
  split
  · simp
  · exact h

theorem owned_trackResidual : Owned ctx.identity (ctx.trackResidual true s) :=
  owned_trackFrozen _ (by simp)

theorem Owned.trackResidual {residual : Bool} (h : Owned ctx.identity s) :
    Owned ctx.identity (ctx.trackResidual residual s) := by
  cases residual with
  | false => exact h
  | true => exact owned_trackResidual

theorem Owned.markAbnormal (h : Owned i s) (j : RuntimeIdentity) :
    Owned i (s.markAbnormalThawForRefreeze j) := by
  by_cases hij : i = j
  · subst hij
    have hne := h.not_signalOnly
    refine ⟨.residualUnknown, ?_, by simp⟩
    simp only [RuntimeControlState.markAbnormalThawForRefreeze_frozenOwnership,
      SortedMap.get?_insert_self]
    cases hown : s.frozenOwnershipOf i with
    | signalOnly => exact absurd hown hne
    | cgroupBinder => rfl
    | residualUnknown => rfl
  · exact h.of_get? (SameFor.markAbnormalThaw hij s).owned

/-- The reason for which ownership was given up may be stated more weakly. -/
theorem OwnedUnless.imp {reason reason' : Prop} (h : OwnedUnless reason i s)
    (hreason : reason → reason') : OwnedUnless reason' i s :=
  Or.imp_right (And.imp_right hreason) h

/-- Updates of the other collections, and of other apps. -/
theorem OwnedUnless.of_get? {reason : Prop} (h : OwnedUnless reason i s)
    (hget : s'.frozenOwnership.get? i = s.frozenOwnership.get? i) : OwnedUnless reason i s' :=
  Or.imp (fun howned => howned.of_get? hget) (And.imp_left hget.trans) h

/-! ## Thaws -/

/-- A generic thaw without a failure thaws every process. -/
theorem genericThaw_spec {package : String} {ps : List RuntimeProcess} {ownership : FrozenOwnership}
    {outcome : UnfreezeOutcome} (hgeneric : ownership ≠ .signalOnly)
    (h : Exec (unfreezeIdentityProcesses package ps ownership) t outcome)
    (hok : outcome.failures.isEmpty = true) :
    t = thawedCalls id id ps ∧ ∀ p ∈ ps, p.packageName = package := by
  have hnil : outcome.failures = [] := List.isEmpty_iff.mp hok
  have hplan : ownership.controlProcess = id := by
    funext p
    simp [FrozenOwnership.controlProcess, hgeneric]
  rcases unfreezeIdentityProcesses_spec h with ⟨-, -, hne⟩ | ⟨hall, hattempts⟩
  · exact absurd hnil hne
  · rw [hplan] at hattempts
    exact ⟨hattempts.eq_thawedCalls (by simp [hnil]), hall⟩

/-- An identity without an entry does not get one from a thaw. -/
theorem ThawStep.unowned {identity : RuntimeIdentity} (h : ThawStep identity s t s')
    (hnone : s.frozenOwnership.get? i = none) : s'.frozenOwnership.get? i = none := by
  by_cases hid : i = identity
  · subst hid
    cases h with
    | undiscovered => exact hnone
    | exited => simp
    | @tried _ _ outcome =>
      by_cases hok : outcome.failures.isEmpty = true
      · simp [hok]
      · simpa [hok] using hnone
  · rw [(h.frame hid).owned, hnone]

theorem ThawSteps.unowned {identities : List RuntimeIdentity} (h : ThawSteps identities s t s')
    (hnone : s.frozenOwnership.get? i = none) : s'.frozenOwnership.get? i = none := by
  induction h with
  | nil => exact hnone
  | cons hstep _ ih => exact ih (hstep.unowned hnone)

/-- A thaw step keeps the app owned, or it has thawed every process that was listed. -/
theorem ThawStep.owned {identity : RuntimeIdentity} (h : ThawStep identity s t s')
    (howned : Owned i s) :
    Owned i s' ∧ (i ∈ s'.frozenApps ↔ i ∈ s.frozenApps)
      ∨ s'.frozenOwnership.get? i = none ∧ ThawedIn i t := by
  by_cases hid : i = identity
  · subst hid
    cases h with
    | undiscovered => exact .inl ⟨howned, Iff.rfl⟩
    | exited => exact .inr ⟨by simp, [], [], [], rfl, by simp⟩
    | @tried t processes outcome _ _ _ hexec =>
      by_cases hok : outcome.failures.isEmpty = true
      · obtain ⟨rfl, hall⟩ := genericThaw_spec howned.not_signalOnly hexec hok
        exact .inr ⟨by simp [hok], [], processes, [], by simp, hall⟩
      · simp only [hok]
        exact .inl ⟨howned, Iff.rfl⟩
  · exact .inl ⟨howned.of_get? (h.frame hid).owned, (h.frame hid).tracked⟩

/-- The same for a list of identities, by induction on it. -/
theorem ThawSteps.owned {identities : List RuntimeIdentity} (h : ThawSteps identities s t s')
    (howned : Owned i s) :
    Owned i s' ∧ (i ∈ s'.frozenApps ↔ i ∈ s.frozenApps)
      ∨ s'.frozenOwnership.get? i = none ∧ ThawedIn i t := by
  induction h with
  | nil => exact .inl ⟨howned, Iff.rfl⟩
  | cons hstep hrest ih =>
    rcases hstep.owned howned with ⟨howned₁, htracked₁⟩ | ⟨hnone, hthawed⟩
    · rcases ih howned₁ with ⟨howned₂, htracked₂⟩ | ⟨hnone, hthawed⟩
      · exact .inl ⟨howned₂, htracked₂.trans htracked₁⟩
      · exact .inr ⟨hnone, hthawed.right⟩
    · exact .inr ⟨hrest.unowned hnone, hthawed.left⟩

/-- After the thaws the detached ownership is cleared: that drops what was not
    tracked in the first place. -/
theorem ThawSteps.owned_clearDetached {identities detached : List RuntimeIdentity}
    (h : ThawSteps identities s t s') (howned : Owned i s) :
    OwnedUnless (ThawedIn i t ∨ i ∉ s.frozenApps ∧ i ∈ detached) i (s'.clearDetached detached) := by
  have hget := s'.clearDetached_get? detached i
  rcases h.owned howned with ⟨howned', htracked⟩ | ⟨hnone, hthawed⟩
  · by_cases hdetached : i ∈ detached ∧ i ∉ s'.frozenApps
    · rw [if_pos hdetached] at hget
      exact .inr ⟨hget, .inr ⟨fun hs => hdetached.2 (htracked.mpr hs), hdetached.1⟩⟩
    · rw [if_neg hdetached] at hget
      exact .inl (howned'.of_get? hget)
  · exact .inr ⟨by rw [hget, hnone, ite_self], .inl hthawed⟩

/-! ## Transactions -/

theorem genericFreezeIn_append :
    GenericFreezeIn i (t₁ ++ t₂) ↔ GenericFreezeIn i t₁ ∨ GenericFreezeIn i t₂ := by
  constructor
  · rintro ⟨p, answer, hmem, hp⟩
    exact (List.mem_append.mp hmem).imp (fun hmem => ⟨p, answer, hmem, hp⟩)
      (fun hmem => ⟨p, answer, hmem, hp⟩)
  · rintro (⟨p, answer, hmem, hp⟩ | ⟨p, answer, hmem, hp⟩)
    · exact ⟨p, answer, List.mem_append_left _ hmem, hp⟩
    · exact ⟨p, answer, List.mem_append_right _ hmem, hp⟩

theorem not_genericFreeze (h : ∀ call ∈ t, ∀ p, call.query ≠ .freezeProcess p) :
    ¬ GenericFreezeIn i t := by
  rintro ⟨p, answer, hmem, -⟩
  exact h _ hmem p rfl

theorem not_genericFreeze_of_ledger (h : ∀ call ∈ t, LedgerCall call) : ¬ GenericFreezeIn i t :=
  not_genericFreeze fun call hc p hq => by
    obtain ⟨pid, start, hquery⟩ | ⟨pid, start, hquery⟩ := h call hc
    · rw [hq] at hquery
      cases hquery
    · rw [hq] at hquery
      cases hquery

/-- Stopping by signal is not a generic freeze. -/
theorem StopRun.not_genericFreeze {ps : List RuntimeProcess} {outcome : FreezeTransactionOutcome}
    (h : StopRun ps t outcome) : ¬ GenericFreezeIn i t := by
  rintro ⟨p, answer, hmem, hcgroup, hpackage⟩
  obtain ⟨stops, ledger, rfl, hstops, hledger⟩ := h.split
  rcases List.mem_append.mp hmem with hmem | hmem
  · obtain ⟨q, -, hquery | hquery | hquery⟩ := hstops.calls hmem
    · cases hquery
    · cases hquery
      simp [signalControlProcess] at hcgroup
    · cases hquery
  · exact not_genericFreeze_of_ledger hledger ⟨p, answer, hmem, hcgroup, hpackage⟩

theorem TerminateRun.not_genericFreeze {ps : List RuntimeProcess}
    {outcome : TerminateTransactionOutcome} (h : TerminateRun ps t outcome) :
    ¬ GenericFreezeIn i t := by
  rintro ⟨p, answer, hmem, -⟩
  obtain ⟨q, _, hq⟩ | ⟨_, q, _, hq⟩ := h.calls hmem
  · cases hq
  · cases hq

theorem not_genericFreeze_of_thaw {package : String} {ps : List RuntimeProcess}
    {ownership : FrozenOwnership} {outcome : UnfreezeOutcome}
    (h : Exec (unfreezeIdentityProcesses package ps ownership) t outcome) :
    ¬ GenericFreezeIn i t := by
  refine not_genericFreeze fun call hc p hq => ?_
  rcases unfreezeIdentityProcesses_spec h with ⟨-, rfl, -⟩ | ⟨-, hattempts⟩
  · simp at hc
  · obtain ⟨_, -, hquery | hquery⟩ := hattempts.calls hc
    · rw [hq] at hquery
      cases hquery
    · rw [hq] at hquery
      cases hquery

/-- A transaction that makes a freezer call has passed its pre-validation: its
    processes are all of the one package, and a failure leaves residue. -/
theorem FreezeRun.of_genericFreeze {control : RuntimeProcess → RuntimeProcess}
    {ps : List RuntimeProcess} {outcome : FreezeTransactionOutcome}
    (h : FreezeRun control ps t outcome) (hfreeze : GenericFreezeIn i t) :
    Uniform ps ∧ (outcome.failure = none ∨ outcome.residualPossible = true) := by
  cases h with
  | refused _ hrefusal =>
    refine absurd hfreeze (not_genericFreeze fun call hc p hq => ?_)
    obtain ⟨q, -, hquery⟩ := hrefusal.calls hc
    rw [hq] at hquery
    cases hquery
  | frozen huniform => exact ⟨huniform, .inl rfl⟩
  | rolledBack _ huniform => exact ⟨huniform, .inr rfl⟩

/-- The processes that a generic freeze was made on name the app. -/
theorem FreezeRun.genericFreeze {ps : List RuntimeProcess} {outcome : FreezeTransactionOutcome}
    (h : FreezeRun id ps t outcome) (hfreeze : GenericFreezeIn i t) :
    Uniform ps ∧ ∃ p ∈ ps, p.packageName = i.packageName := by
  refine ⟨(h.of_genericFreeze hfreeze).1, ?_⟩
  obtain ⟨p, answer, hmem, -, hpackage⟩ := hfreeze
  obtain ⟨q, hq, hquery | hquery | hquery⟩ := h.calls hmem
  · cases hquery
  · cases hquery
    exact ⟨q, hq, hpackage⟩
  · cases hquery

/-! ## Decisions -/

/-- Every process of the context is killed. -/
def KilledAll (ctx : RecordContext) (t : Trace) : Prop :=
  Uniform ctx.pendingProcesses ∧ ∀ p ∈ ctx.pendingProcesses, killed p ∈ t

/-- The app of the context is owned before the step, or frozen in it; the
    rescan after a freeze does not fail. -/
def OwnedOrFrozen (ctx : RecordContext) (s : RuntimeControlState) (t : Trace) : Prop :=
  Owned ctx.identity s
    ∨ GenericFreezeIn ctx.identity t ∧ ¬ RescanFailed ctx.record.uid t

/-- What a decision does to ownership. Each branch that tracks the app writes an owner,
    and the branches that untrack it have thawed or killed everything that was listed; the
    others leave the entry alone. -/
theorem DecisionStep.owned {decision : FreezeDecision} (h : DecisionStep ctx decision s t r s')
    (hstart : OwnedOrFrozen ctx s t) :
    OwnedUnless (ThawedIn ctx.identity t ∨ KilledAll ctx t) ctx.identity s' := by
  -- Without a generic freeze the app was owned at the start.
  have howned : ¬ GenericFreezeIn ctx.identity t → Owned ctx.identity s := fun hnot =>
    hstart.resolve_right fun hfreeze => hnot hfreeze.1
  cases h with
  | idle =>
    exact .inl ((howned (not_genericFreeze (by simp))).of_get? rfl)
  | fallbackStopped =>
    refine .inl (Owned.of_get? ?_ rfl)
    exact owned_trackFrozen ctx.input.timestampMs (by simp)
  -- Both transactions failed. The generic one may have left processes frozen, and says so,
  -- so the app is tracked as a residue.
  | @fallbackFailed t₁ t₂ outcome stopped failure _ _ _ hrun hfailure hstop _ =>
    have hresidual : Owned ctx.identity
        (ctx.trackResidual outcome.residualPossible (ctx.blockShared failure s)) := by
      rcases hstart with howned | ⟨hfreeze, -⟩
      · exact Owned.trackResidual (howned.of_get? rfl)
      · have hfreeze₁ := (genericFreezeIn_append.mp hfreeze).resolve_right hstop.not_genericFreeze
        rcases (hrun.of_genericFreeze hfreeze₁).2 with hnone | hresidual
        · rw [hfailure] at hnone
          cases hnone
        · rw [hresidual]
          exact owned_trackResidual
    have hrolled : Owned ctx.identity (ctx.trackResidual (stopped.rollbackFailures > 0)
        (ctx.trackResidual outcome.residualPossible (ctx.blockShared failure s))) :=
      hresidual.trackResidual
    exact .inl (hrolled.of_get? rfl)
  -- A freeze whose rescan failed is excluded by the hypothesis: nothing was tracked yet.
  | rescanFailed error =>
    exact .inl (hstart.resolve_right fun hfreeze => hfreeze.2 ⟨_, error, rfl⟩)
  | frozen =>
    refine .inl (Owned.of_get? ?_ rfl)
    exact owned_trackFrozen ctx.input.timestampMs (by simp)
  -- Newcomers were found. If every thaw went through the app is settled, if one failed it
  -- is tracked as a residue.
  | @rescanThawed t₁ t₂ outcome post rollback _ _ _ _ _ hexec =>
    by_cases hok : rollback.failures.isEmpty = true
    · obtain ⟨rfl, hall⟩ := genericThaw_spec (by simp) hexec hok
      exact .inr ⟨by simp [hok], .inl ⟨t₁, post, [], by simp [listed, RecordContext.identity], hall⟩⟩
    · have htracked : Owned ctx.identity (ctx.trackResidual true s) := owned_trackResidual
      simp only [hok]
      exact .inl (htracked.of_get? rfl)
  -- A SIGSTOP on an owned app reads it as unresolved, and records that.
  | @stopped t₁ t₂ _ ownership _ _ hledger hstop _ hunresolved =>
    have hbefore := howned fun hfreeze => (genericFreezeIn_append.mp hfreeze).elim
      (not_genericFreeze_of_ledger hledger) hstop.not_genericFreeze
    have hresidual : ownership ≠ .signalOnly := by
      rw [hunresolved hbefore.unresolved]
      simp
    refine .inl (Owned.of_get? ?_ rfl)
    exact owned_trackFrozen ctx.input.timestampMs hresidual
  | @stopFailed t₁ t₂ outcome failure _ _ hledger hstop _ =>
    have hbefore := howned fun hfreeze => (genericFreezeIn_append.mp hfreeze).elim
      (not_genericFreeze_of_ledger hledger) hstop.not_genericFreeze
    have hblocked : Owned ctx.identity (ctx.blockShared failure s) := hbefore.of_get? rfl
    have hrolled : Owned ctx.identity
        (ctx.trackResidual (outcome.rollbackFailures > 0) (ctx.blockShared failure s)) :=
      hblocked.trackResidual
    exact .inl (hrolled.of_get? rfl)
  -- The transaction has no failure, so every process was killed.
  | terminated _ _ hrun hfailure =>
    refine .inr ⟨by simp, .inr ?_⟩
    cases hrun with
    | refused => cases hfailure
    | killed huniform =>
      refine ⟨huniform, fun p hp => List.mem_append_right _ ?_⟩
      exact List.mem_flatMap.mpr ⟨p, hp, by simp⟩
    | stopped => cases hfailure
  | terminateFailed _ _ hrun =>
    exact .inl ((howned hrun.not_genericFreeze).of_get? rfl)

theorem not_genericFreeze_listed {uid : Nat} {answer : Except DaemonError (List RuntimeProcess)}
    (h : ¬ GenericFreezeIn i t) : ¬ GenericFreezeIn i (listed uid answer :: t) := by
  rintro ⟨p, result, hmem, hp⟩
  rcases List.mem_cons.mp hmem with hmem | hmem
  · cases hmem
  · exact h ⟨p, result, hmem, hp⟩

/-- A generic freeze in a decision comes from its first transaction, so the processes
    share one package name, and it is that of the app. -/
theorem DecisionStep.genericFreeze {decision : FreezeDecision}
    (h : DecisionStep ctx decision s t r s') (hfreeze : GenericFreezeIn i t) :
    Uniform ctx.pendingProcesses ∧ ∃ p ∈ ctx.pendingProcesses, p.packageName = i.packageName := by
  have hfirst : ∀ {t₁ t₂ outcome}, t = t₁ ++ t₂ → FreezeRun id ctx.pendingProcesses t₁ outcome →
      ¬ GenericFreezeIn i t₂ →
      Uniform ctx.pendingProcesses ∧ ∃ p ∈ ctx.pendingProcesses, p.packageName = i.packageName := by
    rintro t₁ t₂ outcome rfl hrun hrest
    exact hrun.genericFreeze ((genericFreezeIn_append.mp hfreeze).resolve_right hrest)
  -- The branches of the freezer start with its transaction; the others make no generic
  -- freeze at all.
  cases h with
  | idle => exact absurd hfreeze (not_genericFreeze (by simp))
  | fallbackStopped _ _ hrun _ hstop => exact hfirst rfl hrun hstop.not_genericFreeze
  | fallbackFailed _ _ hrun _ hstop => exact hfirst rfl hrun hstop.not_genericFreeze
  | rescanFailed _ _ hrun => exact hfirst rfl hrun (not_genericFreeze (by simp))
  | frozen _ _ hrun => exact hfirst rfl hrun (not_genericFreeze (by simp))
  | rescanThawed _ _ hrun _ _ hexec =>
    exact hfirst rfl hrun (not_genericFreeze_listed (not_genericFreeze_of_thaw hexec))
  | stopped _ _ hledger hstop =>
    exact absurd hfreeze fun hf => (genericFreezeIn_append.mp hf).elim
      (not_genericFreeze_of_ledger hledger) hstop.not_genericFreeze
  | stopFailed _ _ hledger hstop =>
    exact absurd hfreeze fun hf => (genericFreezeIn_append.mp hf).elim
      (not_genericFreeze_of_ledger hledger) hstop.not_genericFreeze
  | terminated _ _ hrun => exact absurd hfreeze hrun.not_genericFreeze
  | terminateFailed _ _ hrun => exact absurd hfreeze hrun.not_genericFreeze

/-- Sampling traffic and asking for the binder freeze nothing. -/
theorem genericFreeze_after_samples {binder : Bool}
    (hsample : ∀ call ∈ t₁, call.query = .sampleRxBytes ctx.record.uid ctx.packageName)
    (h : GenericFreezeIn i (t₁ ++ ⟨.binderAvailable, binder⟩ :: t₂)) : GenericFreezeIn i t₂ := by
  obtain ⟨p, answer, hmem, hp⟩ := h
  rcases List.mem_append.mp hmem with hmem | hmem
  · cases hsample _ hmem
  · rcases List.mem_cons.mp hmem with hmem | hmem
    · cases hmem
    · exact ⟨p, answer, hmem, hp⟩

theorem KilledAll.right (h : KilledAll ctx t₂) : KilledAll ctx (t₁ ++ t₂) :=
  ⟨h.1, fun p hp => List.mem_append_right _ (h.2 p hp)⟩

/-- The same for a background step, which may stop before it comes to a decision. -/
theorem BackgroundStep.owned {abnormalThaw : Bool} (h : BackgroundStep ctx abnormalThaw s t r s')
    (hstart : OwnedOrFrozen ctx s t) :
    OwnedUnless (ThawedIn ctx.identity t ∨ KilledAll ctx t) ctx.identity s' := by
  have howned : ¬ GenericFreezeIn ctx.identity t → Owned ctx.identity s := fun hnot =>
    hstart.resolve_right fun hfreeze => hnot hfreeze.1
  cases h with
  | waiting => exact .inl (howned (not_genericFreeze (by simp)))
  | delayed => exact .inl ((howned (not_genericFreeze (by simp))).of_get? rfl)
  | downloading answer deferral sampled =>
    have hbefore := howned (not_genericFreeze (by simp))
    unfold RecordContext.postponeDownload
    dsimp only
    split
    · exact .inl (hbefore.of_get? rfl)
    · exact .inl (hbefore.of_get? rfl)
  -- Samples and the binder question come first, and leave ownership as it was.
  | @decided t₁ t₂ _ _ deferral binder hsample hdecision =>
    have hassoc : t₁ ++ ⟨.binderAvailable, binder⟩ :: t₂
        = (t₁ ++ [⟨.binderAvailable, binder⟩]) ++ t₂ := by simp
    have hbefore : OwnedOrFrozen ctx (s.setDownloadDeferral deferral) t₂ := by
      rcases hstart with howned | ⟨hfreeze, hrescan⟩
      · exact .inl (howned.of_get? rfl)
      · exact .inr ⟨genericFreeze_after_samples hsample hfreeze,
          fun hfailed => hrescan (hassoc ▸ hfailed.right)⟩
    rw [hassoc]
    exact (hdecision.owned hbefore).imp (.imp ThawedIn.right KilledAll.right)

theorem BackgroundStep.genericFreeze {abnormalThaw : Bool}
    (h : BackgroundStep ctx abnormalThaw s t r s') (hfreeze : GenericFreezeIn i t) :
    Uniform ctx.pendingProcesses ∧ ∃ p ∈ ctx.pendingProcesses, p.packageName = i.packageName := by
  cases h with
  | waiting => exact absurd hfreeze (not_genericFreeze (by simp))
  | delayed => exact absurd hfreeze (not_genericFreeze (by simp))
  | downloading => exact absurd hfreeze (not_genericFreeze (by simp))
  | decided _ _ hsample hdecision =>
    exact hdecision.genericFreeze (genericFreeze_after_samples hsample hfreeze)

/-! ## Records -/

theorem ThawSteps.not_genericFreeze {identities : List RuntimeIdentity}
    (h : ThawSteps identities s t s') : ¬ GenericFreezeIn i t := by
  induction h with
  | nil => exact Freezeit.not_genericFreeze (by simp)
  | cons hstep _ ih =>
    intro hfreeze
    rcases genericFreezeIn_append.mp hfreeze with hfreeze | hfreeze
    · cases hstep with
      | undiscovered => exact Freezeit.not_genericFreeze (by simp [listed]) hfreeze
      | exited => exact Freezeit.not_genericFreeze (by simp [listed]) hfreeze
      | tried _ _ _ hexec =>
        exact not_genericFreeze_listed (not_genericFreeze_of_thaw hexec) hfreeze
    · exact ih hfreeze

/-- Only an allowed app is frozen, and only under the package name that its processes
    share. -/
theorem ListedStep.genericFreeze {auditDue : Bool} (h : ListedStep ctx auditDue s t r s')
    (hfreeze : GenericFreezeIn i t) :
    ctx.allowed = true ∧ Uniform ctx.pendingProcesses
      ∧ ∃ p ∈ ctx.pendingProcesses, p.packageName = i.packageName := by
  cases h with
  | released _ hexec =>
    obtain ⟨s₁, hsteps, -⟩ := releaseProtected_steps hexec
    exact absurd hfreeze hsteps.not_genericFreeze
  | blocked => exact absurd hfreeze (not_genericFreeze (by simp))
  | foreground => exact absurd hfreeze (not_genericFreeze (by simp))
  | opened _ _ _ _ _ hexec => exact absurd hfreeze (not_genericFreeze_of_thaw hexec)
  | wokenUp _ _ _ _ _ _ hexec => exact absurd hfreeze (not_genericFreeze_of_thaw hexec)
  | kept => exact absurd hfreeze (not_genericFreeze (by simp))
  | refrozen ha _ _ _ _ _ _ hstep => exact ⟨ha, hstep.genericFreeze hfreeze⟩
  | background ha _ _ _ hstep => exact ⟨ha, hstep.genericFreeze hfreeze⟩

theorem Unblocked.owned {s₀ : RuntimeControlState} (h : Unblocked ctx s s₀) (howned : Owned i s) :
    Owned i s₀ := howned.of_get? (h.frame i).owned

/-- A thaw of the listed processes settles the app, or leaves it owned. -/
theorem Owned.listedThaw {outcome : UnfreezeOutcome} (h : Owned ctx.identity s)
    (hexec : Exec (unfreezeIdentityProcesses ctx.packageName ctx.processes
      (s.frozenOwnershipOf ctx.identity)) t outcome) (hok : outcome.failures.isEmpty = true) :
    ThawedIn ctx.identity (listed ctx.record.uid (.ok ctx.processes) :: t) := by
  obtain ⟨rfl, hall⟩ := genericThaw_spec h.not_signalOnly hexec hok
  exact ⟨[], ctx.processes, [], by simp [RecordContext.identity], hall⟩

/-- What the loop body does to ownership once the processes are listed: the app stays
    owned, or it was thawed or killed as a whole. -/
theorem ListedStep.owned {auditDue : Bool} (h : ListedStep ctx auditDue s t r s')
    (hallowed : ctx.allowed = true) (hstart : OwnedOrFrozen ctx s t) :
    OwnedUnless (ThawedIn ctx.identity (listed ctx.record.uid (.ok ctx.processes) :: t)
      ∨ KilledAll ctx t) ctx.identity s' := by
  have howned : ¬ GenericFreezeIn ctx.identity t → Owned ctx.identity s := fun hnot =>
    hstart.resolve_right fun hfreeze => hnot hfreeze.1
  -- A background step starts from a state that owns no less.
  have hbackground : ∀ {s₁ abnormalThaw}, (Owned ctx.identity s → Owned ctx.identity s₁) →
      BackgroundStep ctx abnormalThaw s₁ t r s' →
      OwnedUnless (ThawedIn ctx.identity (listed ctx.record.uid (.ok ctx.processes) :: t)
        ∨ KilledAll ctx t) ctx.identity s' := by
    intro s₁ abnormalThaw hkept hstep
    refine (hstep.owned (hstart.imp_left hkept)).imp (.imp_left fun hthawed => ?_)
    exact (hthawed.right : ThawedIn ctx.identity ([_] ++ t))
  cases h with
  | released hblocked => rw [hallowed] at hblocked; cases hblocked
  | blocked => exact .inl (howned (not_genericFreeze (by simp)))
  | foreground _ hs => exact .inl ((hs.owned (howned (not_genericFreeze (by simp)))).of_get? rfl)
  -- The app came to the foreground. It is untracked only if every listed process was
  -- thawed.
  | @opened s₀ _ outcome _ _ hs _ _ hexec =>
    have hbefore := hs.owned (howned (not_genericFreeze_of_thaw hexec))
    by_cases hok : outcome.failures.isEmpty = true
    · exact .inr ⟨by simp [hok], .inl (hbefore.listedThaw hexec hok)⟩
    · simp only [hok]
      exact .inl (hbefore.of_get? rfl)
  | @wokenUp s₀ _ outcome _ _ _ hs _ _ hexec =>
    have hbefore := hs.owned (howned (not_genericFreeze_of_thaw hexec))
    by_cases hok : outcome.failures.isEmpty = true
    · exact .inr ⟨by simp [hok], .inl (hbefore.listedThaw hexec hok)⟩
    · simp only [hok]
      exact .inl (hbefore.of_get? rfl)
  | kept _ hs => exact .inl (hs.owned (howned (not_genericFreeze (by simp))))
  -- The audit untracks the app but leaves its owner in place.
  | refrozen _ hs _ _ _ _ _ hstep =>
    exact hbackground (fun hbefore => (hs.owned hbefore).markAbnormal _) hstep
  | background _ hs _ _ hstep => exact hbackground hs.owned hstep

/-- What settles or drops the ownership of an app, in a step of its record. -/
def RecordReason (i : RuntimeIdentity) (input : PassInput) (record : ManagerAppConfigRecord)
    (s : RuntimeControlState) (t : Trace) : Prop :=
  (ThawedIn i t ∨ KilledIn i t) ∨ i ∉ s.frozenApps ∧ record.uid = i.uid ∧
    ∃ first rest t', t = listed record.uid (.ok (first :: rest)) :: t'
      ∧ (listedContext input record first rest).allowed = false

theorem KilledAll.killedIn {input : PassInput} {record : ManagerAppConfigRecord}
    {first : RuntimeProcess} {rest : List RuntimeProcess}
    (h : KilledAll (listedContext input record first rest) t) :
    KilledIn (listedContext input record first rest).identity
      (listed record.uid (.ok (first :: rest)) :: t) :=
  ⟨[], first :: rest, t, rfl, fun _ hp =>
    ⟨packageName_of_uniform h.1 hp, h.2 _ (List.mem_map_of_mem hp)⟩⟩

/-- The app that a generic freeze was made for is the one of the context. -/
theorem identity_of_genericFreeze {input : PassInput} {record : ManagerAppConfigRecord}
    {first : RuntimeProcess} {rest : List RuntimeProcess} {auditDue : Bool}
    (h : ListedStep (listedContext input record first rest) auditDue s t r s')
    (hfreeze : GenericFreezeIn i t) (huid : record.uid = i.uid) :
    i = (listedContext input record first rest).identity := by
  obtain ⟨-, huniform, p, hp, hpackage⟩ := h.genericFreeze hfreeze
  obtain ⟨q, hq, rfl⟩ := List.mem_map.mp hp
  have hq : q.packageName = minPackageName first rest := packageName_of_uniform huniform hq
  have hname : i.packageName = minPackageName first rest := hpackage.symm.trans hq
  obtain ⟨package, uid⟩ := i
  dsimp only at hname huid
  subst hname huid
  rfl

/-- The step lemma for a record. Three cases: the record is of another uid and leaves the
    app alone; it lists another package of the uid, and leaves it alone too; or it lists the
    app itself. -/
theorem RecordStep.owned {input : PassInput} {auditDue : Bool} {record : ManagerAppConfigRecord}
    (h : RecordStep input auditDue record s t r s')
    (hstart : Owned i s ∨ record.uid = i.uid ∧ GenericFreezeIn i t ∧ ¬ RescanFailed i.uid t) :
    OwnedUnless (RecordReason i input record s t) i s' := by
  -- Records of other uids do not touch the entry of the app.
  by_cases huid : record.uid = i.uid
  · cases h with
    | uncontrolled =>
      exact .inl (hstart.resolve_right fun hf => not_genericFreeze (by simp) hf.2.1)
    | undiscovered =>
      exact .inl (hstart.resolve_right fun hf => not_genericFreeze (by simp [listed]) hf.2.1)
    -- Without processes there is nothing left to thaw.
    | exited =>
      exact .inr ⟨by simp [RuntimeControlState.clearExited_get?, huid],
        .inl (.inl ⟨[], [], [], by rw [huid]; rfl, by simp⟩)⟩
    | @occupied t _ _ first rest _ hlisted =>
      have hstart : Owned i s ∨ GenericFreezeIn i t ∧ ¬ RescanFailed i.uid t :=
        hstart.imp_right fun hf => ⟨by_contra fun hnot => not_genericFreeze_listed hnot hf.2.1,
          fun hfailed => hf.2.2 (hfailed.right : RescanFailed i.uid ([_] ++ t))⟩
      -- A protected app is released together with all apps of its uid, so the package that
      -- was listed matters only for the others.
      by_cases hallowed : (listedContext input record first rest).allowed = true
      · by_cases hid : i = (listedContext input record first rest).identity
        · subst hid
          refine (hlisted.owned hallowed hstart).imp fun hreason => .inl ?_
          exact hreason.imp id KilledAll.killedIn
        · have hbefore := hstart.resolve_right fun hf =>
            hid (identity_of_genericFreeze hlisted hf.1 huid)
          exact .inl (hbefore.of_get? (hlisted.frame_of_allowed hallowed hid).owned)
      · have hallowed : (listedContext input record first rest).allowed = false := by
          simpa using hallowed
        obtain ⟨s₁, hsteps, rfl⟩ := releaseProtected_steps (hlisted.of_not_allowed hallowed)
        have hbefore := hstart.resolve_right fun hf => hsteps.not_genericFreeze hf.1
        have htransient : Owned i (s.clearTransientControlStateForUid record.uid) :=
          hbefore.of_get? rfl
        refine (hsteps.owned_clearDetached htransient).imp ?_
        rintro (hthawed | ⟨huntracked, -⟩)
        · exact .inl (.inl (hthawed.right : ThawedIn i ([_] ++ t)))
        · exact .inr ⟨huntracked, huid, first, rest, t, rfl, hallowed⟩
  · have hbefore := hstart.resolve_right fun hf => huid hf.1
    exact .inl (hbefore.of_get? (h.frame (Ne.symm huid)).owned)

/-! ## Runs -/

/-- The step lemma of the invariant: a step keeps the app owned, or it settles the app, or
    it drops a detached owner by design. -/
theorem Moment.Valid.owned {m : Moment} (h : m.Valid)
    (hstart : Owned i m.before ∨ m.Freezes i ∧ ¬ RescanFailed i.uid m.calls) :
    OwnedUnless (m.Settles i ∨ m.Drops i) i m.after := by
  -- Only a record makes a generic freeze.
  have howned : (∀ input auditDue record, m.work ≠ .record input auditDue record) →
      Owned i m.before := fun hnot =>
    hstart.resolve_right fun hf => by
      obtain ⟨input, auditDue, record, hwork, -⟩ := hf.1.1
      exact hnot input auditDue record hwork
  cases h with
  -- Before its loop a pass thaws what is tracked and no longer controlled, and forgets the
  -- owners that no tracked app has.
  | @release s t s₁ input hexec =>
    obtain ⟨s₂, hsteps, rfl⟩ := releaseStale_steps hexec
    have hretained : Owned i (s.retainControlled (controlledUids input.appConfig)) :=
      (howned nofun).of_get? rfl
    refine ((hsteps.owned_clearDetached hretained).imp ?_).of_get?
      (by rw [refreezeAuditDue_frozenOwnership])
    rintro (hthawed | ⟨huntracked, hstale⟩)
    · exact .inl (.inl hthawed)
    · have huid := (List.mem_filter.mp hstale).2
      exact .inr ⟨huntracked, .inr (.inl ⟨input, rfl, by simpa using huid⟩)⟩
  | @record input auditDue record s t r s' hstep =>
    have hfreeze : Owned i s
        ∨ record.uid = i.uid ∧ GenericFreezeIn i t ∧ ¬ RescanFailed i.uid t := by
      refine hstart.imp_right ?_
      rintro ⟨⟨⟨_, _, _, hwork, huid⟩, hfreeze⟩, hrescan⟩
      cases hwork
      exact ⟨huid, hfreeze, hrescan⟩
    refine (hstep.owned hfreeze).imp ?_
    rintro (hsettles | ⟨huntracked, huid, first, rest, t', ht, hallowed⟩)
    · exact .inl hsettles
    · exact .inr ⟨huntracked, .inr (.inr ⟨input, auditDue, record, first, rest, t', rfl, huid, ht,
        hallowed⟩)⟩
  | @thawAll s t r s' timestampMs hexec =>
    obtain ⟨s₁, hsteps, rfl⟩ := thawAllFrozen_steps hexec
    refine ((hsteps.owned_clearDetached (howned nofun)).imp ?_).of_get? rfl
    exact .imp .inl fun hdropped => ⟨hdropped.1, .inl rfl⟩
  | freezeStatus => exact .inl ((howned nofun).of_get? rfl)
  | takeNetworkRestrictions => exact .inl ((howned nofun).of_get? rfl)
  | requeueNetworkRestriction => exact .inl ((howned nofun).of_get? rfl)

/-- The signal-only plan is used: a stripped process of the app is thawed, and
    its ownership is `SignalOnly`. -/
def Moment.SignalThaw (i : RuntimeIdentity) (m : Moment) : Prop :=
  m.before.frozenOwnershipOf i = .signalOnly
    ∧ ∃ p answer, ⟨.unfreezeProcess (signalControlProcess p), answer⟩ ∈ m.calls
      ∧ p.packageName = i.packageName

/-- An app is not thawed by a bare SIGCONT after a generic freeze that was
    neither settled nor dropped, and no step turns `ResidualUnknown` into
    `SignalOnly`. -/
theorem dirty_apps_are_not_signal_thawed {ms : List Moment} (h : Run ms s) :
    ∀ i pre m post, ms = pre ++ m :: post →
      (m.SignalThaw i → ¬ Dirty (fun m => m.Freezes i ∧ ¬ RescanFailed i.uid m.calls)
        (fun m => m.Settles i ∨ m.Drops i) pre)
      ∧ (m.before.frozenOwnership.get? i = some .residualUnknown →
          m.after.frozenOwnership.get? i ≠ some .signalOnly) := by
  intro i
  refine (h.each (P := fun ms s => Dirty (fun m => m.Freezes i ∧ ¬ RescanFailed i.uid m.calls)
    (fun m => m.Settles i ∨ m.Drops i) ms → Owned i s) (fun hdirty => absurd hdirty not_dirty_nil)
    ?_).2
  intro past m hpast hvalid
  refine ⟨fun hdirty => ?_, fun hthaw hdirty => (hpast hdirty).not_signalOnly hthaw.1,
    fun hresidual => ?_⟩
  · obtain ⟨hreset, hstart⟩ := dirty_concat.mp hdirty
    exact (hvalid.owned (hstart.imp_left hpast)).resolve_right fun hnone => hreset hnone.2
  · rcases hvalid.owned (.inl ⟨_, hresidual, by simp⟩) with ⟨ownership, hget, hne⟩ | ⟨hnone, -⟩
    · rw [hget]
      exact fun heq => hne (Option.some.inj heq)
    · rw [hnone]
      simp

/-! ## A dropped ownership

    The audit untracks a frozen app that is busy.  The app leaves the control
    policy for one pass, which drops its ownership, and comes back to be
    stopped by signal; the next thaw is a bare SIGCONT. -/

/-- A pass freezes the app, which then turns busy, leaves the configuration, comes back
    with a SIGSTOP policy and is opened. -/
def handover : List (StaticEnvironment × PassInput) :=
  [(sampleEnvironment, samplePass 30),
    (busyEnvironment, { samplePass 30 with timestampMs := 61000 }),
    (sampleEnvironment, { samplePass 30 with appConfig := [], timestampMs := 62000 }),
    (sampleEnvironment, { samplePass 20 with timestampMs := 63000 }),
    (sampleEnvironment, { samplePass 20 with foregroundUids := [10123], timestampMs := 64000 })]

def handoverMoments : List Moment := (StaticEnvironment.passesMoments handover .default).1

theorem handover_run :
    Run handoverMoments (StaticEnvironment.passesMoments handover .default).2 :=
  StaticEnvironment.passesMoments_run .default handover

def handoverApp : RuntimeIdentity := ⟨"com.example.app", 10123⟩

theorem handover_signalThaw : handoverMoments[8].SignalThaw handoverApp :=
  ⟨by decide, sampleProcess, .ok (), List.mem_of_getElem? (i := 2) rfl, rfl⟩

/-- The last thaw needs no generic one: the ownership was dropped in between. -/
theorem dirty_apps_are_not_signal_thawed_sample :
    ¬ Dirty (fun m => m.Freezes handoverApp ∧ ¬ RescanFailed 10123 m.calls)
      (fun m => m.Settles handoverApp ∨ m.Drops handoverApp) (handoverMoments.take 8) :=
  (dirty_apps_are_not_signal_thawed handover_run handoverApp (handoverMoments.take 8)
    handoverMoments[8] [] rfl).1 handover_signalThaw

/-- A call without which nothing is settled. -/
def Call.maySettle : Call → Bool
  | ⟨.discoverProcesses _ _, .ok []⟩ => true
  | ⟨.unfreezeProcess _, .ok ()⟩     => true
  | ⟨.terminateProcess _, .ok ()⟩    => true
  | _                                => false

theorem Moment.Settles.maySettle {m : Moment} (h : m.Settles i) :
    m.calls.any Call.maySettle = true := by
  rw [List.any_eq_true]
  rcases h with ⟨before, ps, after, hcalls, -⟩ | ⟨before, ps, after, hcalls, hps⟩
  · cases ps with
    | nil => exact ⟨listed i.uid (.ok []), by simp [hcalls], rfl⟩
    | cons p ps => exact ⟨thawed p, by simp [hcalls, thawedCalls], rfl⟩
  · cases ps with
    | nil => exact ⟨listed i.uid (.ok []), by simp [hcalls], rfl⟩
    | cons p ps =>
      exact ⟨killed p.pendingFreeze, by simp [hcalls, (hps p List.mem_cons_self).2], rfl⟩

/-- After the freeze nothing is thawed, killed or found gone. -/
theorem handover_dirty :
    Dirty (Moment.Freezes handoverApp) (Moment.Settles handoverApp) (handoverMoments.take 8) := by
  have hnone : ∀ m ∈ handoverMoments.take 8, m.calls.any Call.maySettle = false := by decide
  have hunsettled : ∀ m ∈ handoverMoments.take 8, ¬ m.Settles handoverApp := by
    intro m hm hsettles
    have hmay := hsettles.maySettle
    rw [hnone m hm] at hmay
    cases hmay
  refine ⟨[handoverMoments[0]], handoverMoments[1], (handoverMoments.drop 2).take 6, rfl,
    ⟨⟨_, _, _, rfl, rfl⟩, sampleProcess.pendingFreeze, .ok (), List.mem_of_getElem? (i := 4) rfl, rfl, rfl⟩,
    hunsettled _ ?_, fun m hm => hunsettled m ?_⟩
  · exact List.mem_cons_of_mem _ List.mem_cons_self
  · exact List.mem_cons_of_mem _ (List.mem_cons_of_mem _ hm)

/-- A partial freeze is thawed by a bare SIGCONT. -/
theorem dropped_ownership_is_signal_thawed :
    ¬ ∀ ms s, Run ms s → ∀ i pre m post, ms = pre ++ m :: post → m.SignalThaw i →
      ¬ Dirty (Moment.Freezes i) (Moment.Settles i) pre := fun hclaim =>
  hclaim _ _ handover_run handoverApp (handoverMoments.take 8) handoverMoments[8] [] rfl
    handover_signalThaw handover_dirty

end Freezeit
