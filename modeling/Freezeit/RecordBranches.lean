import Freezeit.Frames
import Freezeit.Targets

/-! # The branches of a record

    Which function the loop body ends in, and what it finds there.  Where the
    constructors of `ListedStep` say what happened, those of `RecordBranch` say
    why: the conditions are the ones the source tests, in its order, so a
    property that depends on times or samples is proved from here. -/

namespace Freezeit

open Prog

variable {ctx : RecordContext} {s s' : RuntimeControlState} {t : Trace}
  {r : Except DaemonError Unit}

/-! ## Thawing a list of identities -/

/-- A thaw step untracks at most, and writes to the operation log. -/
theorem ThawStep.exists_eq {identity : RuntimeIdentity} (h : ThawStep identity s t s') :
    ∃ apps since ownership operations next,
      s' = { s with
        frozenApps := apps, frozenSinceMs := since, frozenOwnership := ownership
        operationLog := operations, nextOperationId := next }
      ∧ ∀ i ∈ apps, i ∈ s.frozenApps := by
  have herased : ∀ i ∈ s.frozenApps.erase identity, i ∈ s.frozenApps :=
    fun i hi => (SortedMap.mem_erase.mp hi).2
  cases h with
  | undiscovered => exact ⟨_, _, _, _, _, rfl, fun i hi => hi⟩
  | exited => exact ⟨_, _, _, _, _, rfl, herased⟩
  | tried =>
    split
    · exact ⟨_, _, _, _, _, rfl, herased⟩
    · exact ⟨_, _, _, _, _, rfl, fun i hi => hi⟩

/-- What thaws may change: ownership and the reports. -/
theorem ThawSteps.exists_eq {identities : List RuntimeIdentity} (h : ThawSteps identities s t s') :
    ∃ apps since ownership operations next,
      s' = { s with
        frozenApps := apps, frozenSinceMs := since, frozenOwnership := ownership
        operationLog := operations, nextOperationId := next }
      ∧ ∀ i ∈ apps, i ∈ s.frozenApps := by
  induction h with
  | nil => exact ⟨_, _, _, _, _, rfl, fun i hi => hi⟩
  | cons hstep _ ih =>
    obtain ⟨_, _, _, _, _, rfl, hfirst⟩ := hstep.exists_eq
    obtain ⟨_, _, _, _, _, rfl, hrest⟩ := ih
    exact ⟨_, _, _, _, _, rfl, fun i hi => hfirst i (hrest i hi)⟩

/-! ## Postponing a freeze -/

/-- The freeze delay has not run out, or starts. -/
theorem postponeForDelay_eq_some {abnormalThaw : Bool}
    (h : ctx.postponeForDelay abnormalThaw s = some s') :
    abnormalThaw = false ∧ 0 < managerPolicyDelayMs ctx.record ctx.input.settings
      ∧ ((∃ dueAtMs, s.pendingFreezes.get? ctx.identity = some dueAtMs
          ∧ ctx.input.timestampMs < dueAtMs ∧ s' = s)
        ∨ s.pendingFreezes.get? ctx.identity = none ∧ ∃ operation,
          s' = ((s.insertPending ctx.identity (ctx.input.timestampMs
            + managerPolicyDelayMs ctx.record ctx.input.settings)).pushOperation operation
              ctx.input.timestampMs).dropStaleSince ctx.identity) := by
  unfold RecordContext.postponeForDelay at h
  dsimp only at h
  split at h
  · next hon =>
    rw [Bool.and_eq_true, Bool.not_eq_true', decide_eq_true_eq] at hon
    refine ⟨hon.1, hon.2, ?_⟩
    split at h
    · next dueAtMs hdue =>
      split at h
      · next hwait => exact .inl ⟨dueAtMs, hdue, hwait, (Option.some.inj h).symm⟩
      · cases h
    · next hdue => exact .inr ⟨hdue, _, (Option.some.inj h).symm⟩
  · cases h

/-- The record has no freeze delay, or it has run out; the audit has none. -/
theorem postponeForDelay_eq_none {abnormalThaw : Bool}
    (h : ctx.postponeForDelay abnormalThaw s = none) :
    abnormalThaw = true ∨ managerPolicyDelayMs ctx.record ctx.input.settings = 0
      ∨ ∃ dueAtMs, s.pendingFreezes.get? ctx.identity = some dueAtMs
        ∧ dueAtMs ≤ ctx.input.timestampMs := by
  unfold RecordContext.postponeForDelay at h
  dsimp only at h
  split at h
  · split at h
    · next dueAtMs hdue =>
      split at h
      · cases h
      · next hwait => exact .inr (.inr ⟨dueAtMs, hdue, Nat.le_of_not_lt hwait⟩)
    · cases h
  · next hoff =>
    cases abnormalThaw with
    | true => exact .inl rfl
    | false =>
      have hzero : ¬ 0 < managerPolicyDelayMs ctx.record ctx.input.settings := by
        intro hpos
        exact hoff (by simp [hpos])
      exact .inr (.inl (Nat.eq_zero_of_not_pos hzero))

/-- Besides the operation log, only the due time and a stale freezing time change. -/
theorem postponeDownload_eq (ctx : RecordContext) (sampled : Bool) (s : RuntimeControlState) :
    ∃ operations next, ctx.postponeDownload sampled s =
      { ((s.insertPending ctx.identity (ctx.input.timestampMs
            + if sampled then initialSampleDelayMs else downloadRetryDelayMs)).dropStaleSince
              ctx.identity) with
        operationLog := operations, nextOperationId := next } := by
  unfold RecordContext.postponeDownload
  dsimp only
  split
  · exact ⟨_, _, rfl⟩
  · exact ⟨_, _, rfl⟩

/-! ## In the background -/

/-- The call for the traffic of a record's uid. -/
def RecordContext.sampled (ctx : RecordContext) (answer : Except DaemonError (Option Nat)) : Call :=
  ⟨.sampleRxBytes ctx.record.uid ctx.packageName, answer⟩

/-- The download check on an answer of the sampler. -/
def RecordContext.evaluated (ctx : RecordContext) (s : RuntimeControlState)
    (answer : Except DaemonError (Option Nat)) : DownloadDeferralAction × DownloadDeferral :=
  s.downloadDeferral.evaluate ctx.record.uid ctx.packageName (sampleValue answer)
    ctx.input.timestampMs

inductive BackgroundBranch (ctx : RecordContext) (abnormalThaw : Bool) (s : RuntimeControlState) :
    Trace → Except DaemonError Unit → RuntimeControlState → Prop where
  /-- The freeze delay starts or has not run out. -/
  | delayed : ∀ {s'}, ctx.postponeForDelay abnormalThaw s = some s' →
      BackgroundBranch ctx abnormalThaw s [] (.ok ()) s'
  /-- A candidate that may be downloading. -/
  | downloading : ∀ {answer}, ctx.postponeForDelay abnormalThaw s = none →
      isCandidatePackage ctx.packageName = true → (ctx.evaluated s answer).1 = .postpone →
      BackgroundBranch ctx abnormalThaw s [ctx.sampled answer] (.ok ())
        (ctx.postponeDownload answer.isOk (s.setDownloadDeferral (ctx.evaluated s answer).2))
  /-- A candidate whose traffic is low. -/
  | quiet : ∀ {answer binder t r s'}, ctx.postponeForDelay abnormalThaw s = none →
      isCandidatePackage ctx.packageName = true → (ctx.evaluated s answer).1 = .proceed →
      DecisionStep ctx (ctx.decide binder)
        (s.setDownloadDeferral (ctx.evaluated s answer).2) t r s' →
      BackgroundBranch ctx abnormalThaw s
        (ctx.sampled answer :: ⟨.binderAvailable, binder⟩ :: t) r s'
  /-- Any other package. -/
  | unsampled : ∀ {binder t r s'}, ctx.postponeForDelay abnormalThaw s = none →
      isCandidatePackage ctx.packageName = false →
      DecisionStep ctx (ctx.decide binder)
        (s.setDownloadDeferral (s.downloadDeferral.clearUid ctx.record.uid)) t r s' →
      BackgroundBranch ctx abnormalThaw s (⟨.binderAvailable, binder⟩ :: t) r s'

/-- An app that is no candidate is not held back. -/
theorem evaluate_of_not_candidate {deferral : DownloadDeferral} {uid : Nat} {packageName : String}
    {sample : UidRxSample} {sampledAtMs : Nat} (h : isCandidatePackage packageName = false) :
    deferral.evaluate uid packageName sample sampledAtMs = (.proceed, deferral.clearUid uid) := by
  unfold DownloadDeferral.evaluate
  rw [h]
  rfl

theorem controlBackground_branch {abnormalThaw : Bool}
    (h : Exec (ctx.controlBackground abnormalThaw s) t (r, s')) :
    BackgroundBranch ctx abnormalThaw s t r s' := by
  unfold RecordContext.controlBackground at h
  cases hdelay : ctx.postponeForDelay abnormalThaw s with
  | some s₁ =>
    rw [hdelay] at h
    obtain ⟨rfl, heq⟩ := exec_pure.mp h
    obtain ⟨rfl, rfl⟩ := Prod.mk.inj heq
    exact .delayed hdelay
  | none =>
    rw [hdelay] at h
    obtain ⟨t₁, t₂, ⟨postponed, s₁⟩, rfl, h₁, h₂⟩ := exec_bind.mp h
    unfold RecordContext.deferDownload at h₁
    -- Only a candidate for downloads is sampled.
    cases hcandidate : isCandidatePackage ctx.packageName with
    | false =>
      rw [if_pos (by simp [hcandidate]), evaluate_of_not_candidate hcandidate] at h₁
      obtain ⟨rfl, heq⟩ := exec_pure.mp h₁
      obtain ⟨rfl, rfl⟩ := Prod.mk.inj heq
      obtain ⟨binder, t', rfl, hdecision⟩ := applyDecision_step h₂
      exact .unsampled hdelay hcandidate hdecision
    | true =>
      rw [if_neg (by simp [hcandidate])] at h₁
      obtain ⟨answer, t₃, rfl, h₃⟩ := exec_ask_bind.mp h₁
      dsimp only at h₃
      split at h₃
      -- The traffic says that the app is busy, and the record ends here.
      · next hpostpone =>
        obtain ⟨rfl, heq⟩ := exec_pure.mp h₃
        obtain ⟨rfl, rfl⟩ := Prod.mk.inj heq
        obtain ⟨rfl, heq⟩ := exec_pure.mp h₂
        obtain ⟨rfl, rfl⟩ := Prod.mk.inj heq
        exact .downloading hdelay hcandidate hpostpone
      · next hproceed =>
        obtain ⟨rfl, heq⟩ := exec_pure.mp h₃
        obtain ⟨rfl, rfl⟩ := Prod.mk.inj heq
        obtain ⟨binder, t', rfl, hdecision⟩ := applyDecision_step h₂
        have haction : (ctx.evaluated s answer).1 = .proceed := by
          cases hcase : (ctx.evaluated s answer).1 with
          | proceed => rfl
          | postpone => exact absurd hcase hproceed
        exact .quiet hdelay hcandidate haction hdecision

/-- The background branch leaves other apps alone. -/
theorem BackgroundBranch.frame {abnormalThaw : Bool} {i : RuntimeIdentity}
    (h : BackgroundBranch ctx abnormalThaw s t r s') (hi : i ≠ ctx.identity) : SameFor i s s' := by
  have hdeferral : ∀ deferral, SameFor i s (s.setDownloadDeferral deferral) :=
    fun _ => .of_eq rfl rfl
  cases h with
  | delayed hdelay =>
    obtain ⟨-, -, ⟨_, -, -, rfl⟩ | ⟨-, _, rfl⟩⟩ := postponeForDelay_eq_some hdelay
    · exact .refl i _
    · exact .of_eq rfl rfl
  | downloading =>
    obtain ⟨operations, next, heq⟩ := postponeDownload_eq ctx _ _
    rw [heq]
    exact .of_eq rfl rfl
  | quiet _ _ _ hdecision => exact (hdeferral _).trans (hdecision.frame hi)
  | unsampled _ _ hdecision => exact (hdeferral _).trans (hdecision.frame hi)

/-! ## Thaws of the app -/

/-- What the foreground does: the timer goes, and a tracked app is thawed. -/
theorem thawForeground_spec (h : Exec (ctx.thawForeground s) t (r, s')) :
    r = .ok () ∧ (ctx.identity ∉ s.frozenApps ∧ t = [] ∧ s' = s.removePending ctx.identity
      ∨ ctx.identity ∈ s.frozenApps ∧ ∃ outcome operation,
        Exec (unfreezeIdentityProcesses ctx.packageName ctx.processes
          (s.frozenOwnershipOf ctx.identity)) t outcome
        ∧ s' = (if outcome.failures.isEmpty then
            (s.removePending ctx.identity).clearFrozen ctx.identity
          else s.removePending ctx.identity).pushOperation operation ctx.input.timestampMs) := by
  unfold RecordContext.thawForeground at h
  dsimp only at h
  split at h
  · next htracked =>
    obtain ⟨t₁, t₂, outcome, rfl, h₁, h₂⟩ := exec_bind.mp h
    obtain ⟨rfl, heq⟩ := exec_pure.mp h₂
    obtain ⟨rfl, rfl⟩ := Prod.mk.inj heq
    rw [List.append_nil]
    exact ⟨rfl, .inr ⟨htracked, outcome, _, h₁, rfl⟩⟩
  · next htracked =>
    obtain ⟨rfl, heq⟩ := exec_pure.mp h
    obtain ⟨rfl, rfl⟩ := Prod.mk.inj heq
    exact ⟨rfl, .inl ⟨htracked, rfl, rfl⟩⟩

/-- What a wakeup does: a successful one untracks the app and starts a timer. -/
theorem wakeUp_spec (h : Exec (ctx.wakeUp s) t (r, s')) :
    r = .ok () ∧ ∃ outcome operation,
      Exec (unfreezeIdentityProcesses ctx.packageName ctx.processes
        (s.frozenOwnershipOf ctx.identity)) t outcome
      ∧ s' = (if outcome.failures.isEmpty then
          (s.clearFrozen ctx.identity).insertPending ctx.identity
            (saturatingAdd ctx.input.timestampMs (managerWakeupDurationMs ctx.input.settings))
        else s).pushOperation operation ctx.input.timestampMs := by
  obtain ⟨t₁, t₂, outcome, rfl, h₁, h₂⟩ := exec_bind.mp h
  obtain ⟨rfl, heq⟩ := exec_pure.mp h₂
  obtain ⟨rfl, rfl⟩ := Prod.mk.inj heq
  rw [List.append_nil]
  exact ⟨rfl, outcome, _, h₁, rfl⟩

/-! ## A record whose uid has processes -/

/-- The audit finds a frozen app running and untracks it. -/
structure AuditUntracks (ctx : RecordContext) (auditDue : Bool) (s : RuntimeControlState) :
    Prop where
  allowed    : ctx.allowed = true
  unblocked  : s.blockedProcessSignatures.get? ctx.identity ≠ some ctx.signature
  background : ctx.record.uid ∉ ctx.input.foregroundUids
  tracked    : ctx.identity ∈ s.frozenApps
  asleep     : periodicWakeupDue s ctx.identity ctx.input.settings ctx.input.timestampMs = false
  due        : auditDue = true
  running    : ∃ p ∈ ctx.processes, p.controlState = .running

/-- The signature that blocked the app, if any, is dropped before control goes on. -/
structure Cleared (ctx : RecordContext) (s s₀ : RuntimeControlState) : Prop where
  unblocked : Unblocked ctx s s₀
  none      : s₀.blockedProcessSignatures.get? ctx.identity = none

inductive RecordBranch (ctx : RecordContext) (auditDue : Bool) (s : RuntimeControlState) :
    Trace → Except DaemonError Unit → RuntimeControlState → Prop where
  | protectedApp : ∀ {t s'}, ctx.allowed = false →
      Exec (ctx.releaseProtected s) t (.ok (), s') → RecordBranch ctx auditDue s t (.ok ()) s'
  | blocked : ctx.allowed = true →
      s.blockedProcessSignatures.get? ctx.identity = some ctx.signature →
      RecordBranch ctx auditDue s [] (.ok ()) s
  | foreground : ∀ {s₀ t r s'}, ctx.allowed = true → Cleared ctx s s₀ →
      ctx.record.uid ∈ ctx.input.foregroundUids → Exec (ctx.thawForeground s₀) t (r, s') →
      RecordBranch ctx auditDue s t r s'
  | wakeup : ∀ {s₀ t r s'}, ctx.allowed = true → Cleared ctx s s₀ →
      ctx.record.uid ∉ ctx.input.foregroundUids → ctx.identity ∈ s₀.frozenApps →
      periodicWakeupDue s₀ ctx.identity ctx.input.settings ctx.input.timestampMs = true →
      Exec (ctx.wakeUp s₀) t (r, s') → RecordBranch ctx auditDue s t r s'
  | kept : ∀ {s₀}, ctx.allowed = true → Cleared ctx s s₀ →
      ctx.record.uid ∉ ctx.input.foregroundUids → ctx.identity ∈ s₀.frozenApps →
      (auditDue = true → ∀ p ∈ ctx.processes, p.controlState ≠ .running) →
      RecordBranch ctx auditDue s [] (.ok ()) s₀
  | audited : ∀ {s₀ t r s'}, Cleared ctx s s₀ → AuditUntracks ctx auditDue s →
      BackgroundBranch ctx true (s₀.markAbnormalThawForRefreeze ctx.identity) t r s' →
      RecordBranch ctx auditDue s t r s'
  | background : ∀ {s₀ t r s'}, ctx.allowed = true → Cleared ctx s s₀ →
      ctx.record.uid ∉ ctx.input.foregroundUids → ctx.identity ∉ s₀.frozenApps →
      BackgroundBranch ctx false s₀ t r s' → RecordBranch ctx auditDue s t r s'

theorem controlUnblocked_branch {auditDue : Bool} {s₀ : RuntimeControlState}
    (ha : ctx.allowed = true) (hs : Cleared ctx s s₀)
    (h : Exec (ctx.controlUnblocked auditDue s₀) t (r, s')) :
    RecordBranch ctx auditDue s t r s' := by
  unfold RecordContext.controlUnblocked at h
  -- First the foreground, then whether the app is tracked, as in the source.
  by_cases hfg : ctx.record.uid ∈ ctx.input.foregroundUids
  · rw [if_pos (by simpa using hfg)] at h
    exact .foreground ha hs hfg h
  · rw [if_neg (by simpa using hfg)] at h
    by_cases htracked : ctx.identity ∈ s₀.frozenApps
    · rw [if_pos htracked] at h
      by_cases hwakeup : periodicWakeupDue s₀ ctx.identity ctx.input.settings
          ctx.input.timestampMs = true
      · rw [if_pos hwakeup] at h
        exact .wakeup ha hs hfg htracked hwakeup h
      · rw [if_neg hwakeup] at h
        -- A tracked app is only left alone when no audit finds it running.
        by_cases hkeep : (!auditDue
            || !(ctx.processes.any fun p => decide (p.controlState = .running))) = true
        · rw [if_pos hkeep] at h
          obtain ⟨rfl, heq⟩ := exec_pure.mp h
          obtain ⟨rfl, rfl⟩ := Prod.mk.inj heq
          refine .kept ha hs hfg htracked fun hdue => ?_
          simpa [hdue] using hkeep
        · rw [if_neg hkeep] at h
          have hdue : auditDue = true ∧ ∃ p ∈ ctx.processes, p.controlState = .running := by
            simpa using hkeep
          have hwakeup : periodicWakeupDue s ctx.identity ctx.input.settings
              ctx.input.timestampMs = false := by
            rw [← hs.unblocked.periodicWakeupDue]
            simpa using hwakeup
          rw [hs.unblocked.frozenApps] at htracked
          exact .audited hs ⟨ha, hs.unblocked.1, hfg, htracked, hwakeup, hdue.1, hdue.2⟩
            (controlBackground_branch h)
    · rw [if_neg htracked] at h
      exact .background ha hs hfg htracked (controlBackground_branch h)

theorem controlProcesses_branch {auditDue : Bool}
    (h : Exec (ctx.controlProcesses auditDue s) t (r, s')) : RecordBranch ctx auditDue s t r s' := by
  unfold RecordContext.controlProcesses at h
  by_cases ha : ctx.allowed = true
  · rw [if_neg (by simpa using ha)] at h
    cases hblocked : s.blockedProcessSignatures.get? ctx.identity with
    | none =>
      rw [hblocked] at h
      exact controlUnblocked_branch ha ⟨⟨by simp [hblocked], .inl rfl⟩, hblocked⟩ h
    | some blocked =>
      rw [hblocked] at h
      dsimp only at h
      by_cases hsame : blocked = ctx.signature
      · rw [if_pos hsame] at h
        obtain ⟨rfl, heq⟩ := exec_pure.mp h
        obtain ⟨rfl, rfl⟩ := Prod.mk.inj heq
        exact .blocked ha (hsame ▸ hblocked)
      · rw [if_neg hsame] at h
        exact controlUnblocked_branch ha ⟨⟨by simpa [hblocked] using hsame, .inr rfl⟩, by simp⟩ h
  · rw [if_pos (by simpa using ha)] at h
    have hr : r = .ok () := by
      obtain ⟨t₁, t₂, x, rfl, h₁, h₂⟩ := exec_bind.mp h
      obtain ⟨rfl, heq⟩ := exec_pure.mp h₂
      exact (Prod.mk.inj heq).1
    subst hr
    exact .protectedApp (by simpa using ha) h

/-- A record that freezes or kills has come to its decision, in the background. -/
theorem RecordBranch.deciding {auditDue : Bool} (h : RecordBranch ctx auditDue s t r s')
    {call : Call} (hcall : call ∈ t) (hacts : ¬ call.Harmless) :
    ctx.allowed = true ∧ ctx.record.uid ∉ ctx.input.foregroundUids ∧ ∃ s₀, Cleared ctx s s₀
      ∧ (AuditUntracks ctx auditDue s
          ∧ BackgroundBranch ctx true (s₀.markAbnormalThawForRefreeze ctx.identity) t r s'
        ∨ ctx.identity ∉ s₀.frozenApps ∧ BackgroundBranch ctx false s₀ t r s') := by
  have hthaw : ∀ {ps ownership outcome},
      ¬ Exec (unfreezeIdentityProcesses ctx.packageName ps ownership) t outcome :=
    fun hexec => hacts (unfreezeIdentityProcesses_harmless hexec call hcall)
  cases h with
  | protectedApp _ hexec =>
    obtain ⟨s₁, hsteps, -⟩ := releaseProtected_steps hexec
    exact absurd (hsteps.harmless call hcall) hacts
  | blocked => cases hcall
  | foreground _ _ _ hexec =>
    obtain ⟨-, ⟨-, rfl, -⟩ | ⟨-, outcome, operation, hexec, -⟩⟩ := thawForeground_spec hexec
    · cases hcall
    · exact absurd hexec hthaw
  | wakeup _ _ _ _ _ hexec =>
    obtain ⟨-, outcome, operation, hexec, -⟩ := wakeUp_spec hexec
    exact absurd hexec hthaw
  | kept => cases hcall
  | @audited s₀ _ _ _ hcleared haudit hbranch =>
    exact ⟨haudit.allowed, haudit.background, s₀, hcleared, .inl ⟨haudit, hbranch⟩⟩
  | @background s₀ _ _ _ hallowed hcleared hfg htracked hbranch =>
    exact ⟨hallowed, hfg, s₀, hcleared, .inr ⟨htracked, hbranch⟩⟩

/-! ## A record -/

inductive RecordRun (input : PassInput) (auditDue : Bool) (record : ManagerAppConfigRecord)
    (s : RuntimeControlState) : Trace → Except DaemonError Unit → RuntimeControlState → Prop where
  | uncontrolled : isControlPolicyMode record.mode = false →
      RecordRun input auditDue record s [] (.ok ()) s
  | undiscovered : ∀ (error : DaemonError), isControlPolicyMode record.mode = true →
      RecordRun input auditDue record s [listed record.uid (.error error)] (.error error) s
  | exited : isControlPolicyMode record.mode = true →
      RecordRun input auditDue record s [listed record.uid (.ok [])] (.ok ())
        (s.clearExited record.uid)
  | occupied : ∀ {t r s'} (first : RuntimeProcess) (rest : List RuntimeProcess),
      isControlPolicyMode record.mode = true →
      RecordBranch (listedContext input record first rest) auditDue s t r s' →
      RecordRun input auditDue record s (listed record.uid (.ok (first :: rest)) :: t) r s'

theorem controlRecord_run {input : PassInput} {auditDue : Bool} {record : ManagerAppConfigRecord}
    (h : Exec (controlRecord input auditDue record s) t (r, s')) :
    RecordRun input auditDue record s t r s' := by
  unfold controlRecord at h
  by_cases hmode : isControlPolicyMode record.mode = true
  · rw [if_neg (by simpa using hmode)] at h
    obtain ⟨answer, t', rfl, hrest⟩ := exec_ask_bind.mp h
    match answer with
    | .error error =>
      obtain ⟨rfl, heq⟩ := exec_pure.mp hrest
      obtain ⟨rfl, rfl⟩ := Prod.mk.inj heq
      exact .undiscovered error hmode
    | .ok [] =>
      obtain ⟨rfl, heq⟩ := exec_pure.mp hrest
      obtain ⟨rfl, rfl⟩ := Prod.mk.inj heq
      exact .exited hmode
    | .ok (first :: rest) => exact .occupied first rest hmode (controlProcesses_branch hrest)
  · rw [if_pos (by simpa using hmode)] at h
    obtain ⟨rfl, heq⟩ := exec_pure.mp h
    obtain ⟨rfl, rfl⟩ := Prod.mk.inj heq
    exact .uncontrolled (by simpa using hmode)

end Freezeit
