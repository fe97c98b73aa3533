import Freezeit.ControlPass
import Freezeit.TransactionTraces

/-! # Everything one record can do

    The loop body of the pass, inverted.  Each inductive below has one
    constructor for each way through a stretch of the body, with the calls made
    and the state left behind; the theorem after it says that every execution
    is one of them.  What a pass preserves is proved by cases on these. -/

namespace Freezeit

open Prog

variable {ctx : RecordContext} {s s' : RuntimeControlState} {t : Trace}
  {r : Except DaemonError Unit}

/-! ## The transaction of a decision -/

/-- A SIGSTOP transaction: stops on the stripped processes, then ledger calls. -/
structure StopRun (ps : List RuntimeProcess) (t : Trace) (outcome : FreezeTransactionOutcome) :
    Prop where
  split : ∃ stops ledger, t = stops ++ ledger ∧ FreezeRun signalControlProcess ps stops outcome
    ∧ ∀ call ∈ ledger, LedgerCall call

inductive DecisionStep (ctx : RecordContext) (decision : FreezeDecision) (s : RuntimeControlState) :
    Trace → Except DaemonError Unit → RuntimeControlState → Prop where
  /-- Postponed or skipped: nothing is called. -/
  | idle : ∀ (operation : ControlOperation),
      decision.action ≠ .freeze → decision.action ≠ .signal → decision.action ≠ .terminate →
      DecisionStep ctx decision s [] (.ok ())
        ((s.dropStaleSince ctx.identity).pushOperation operation ctx.input.timestampMs)
  /-- The freezer transaction failed and the SIGSTOP fallback went through. -/
  | fallbackStopped : ∀ {t₁ t₂ outcome stopped failure} (operation : ControlOperation),
      decision.action = .freeze →
      FreezeRun id ctx.pendingProcesses t₁ outcome → outcome.failure = some failure →
      StopRun ctx.pendingProcesses t₂ stopped → stopped.failure = none →
      DecisionStep ctx decision s (t₁ ++ t₂) (.ok ())
        ((((((ctx.trackResidual outcome.residualPossible (ctx.blockShared failure s)).trackFrozen
          ctx.identity ctx.input.timestampMs .residualUnknown).requestNetworkRestriction
          ctx.record).requestNetworkRestriction ctx.record).removePending
          ctx.identity).pushOperation operation ctx.input.timestampMs |>.dropStaleSince
          ctx.identity)
  /-- Both the freezer transaction and its fallback failed. -/
  | fallbackFailed : ∀ {t₁ t₂ outcome stopped failure failure'} (operation : ControlOperation),
      decision.action = .freeze →
      FreezeRun id ctx.pendingProcesses t₁ outcome → outcome.failure = some failure →
      StopRun ctx.pendingProcesses t₂ stopped → stopped.failure = some failure' →
      DecisionStep ctx decision s (t₁ ++ t₂) (.ok ())
        (((ctx.trackResidual (stopped.rollbackFailures > 0)
          (ctx.trackResidual outcome.residualPossible (ctx.blockShared failure s))).removePending
          ctx.identity).pushOperation operation ctx.input.timestampMs |>.dropStaleSince
          ctx.identity)
  /-- Frozen, but the rescan could not list the processes: the pass ends. -/
  | rescanFailed : ∀ {t₁ outcome} (error : DaemonError),
      decision.action = .freeze →
      FreezeRun id ctx.pendingProcesses t₁ outcome → outcome.failure = none →
      DecisionStep ctx decision s
        (t₁ ++ [⟨.discoverProcesses s!"uid{ctx.record.uid}" ctx.record.uid, .error error⟩])
        (.error error) s
  /-- Frozen, and the rescan listed no new process. -/
  | frozen : ∀ {t₁ outcome post} (operation : ControlOperation),
      decision.action = .freeze →
      FreezeRun id ctx.pendingProcesses t₁ outcome → outcome.failure = none →
      ctx.newPids post = [] →
      DecisionStep ctx decision s
        (t₁ ++ [⟨.discoverProcesses s!"uid{ctx.record.uid}" ctx.record.uid, .ok post⟩]) (.ok ())
        (((((s.trackFrozen ctx.identity ctx.input.timestampMs
          .cgroupBinder).requestNetworkRestriction ctx.record).removePending
          ctx.identity).dropStaleSince ctx.identity).pushOperation operation
          ctx.input.timestampMs)
  /-- Frozen, but the rescan listed new processes: all listed are thawed again. -/
  | rescanThawed : ∀ {t₁ t₂ outcome post rollback} (operation : ControlOperation),
      decision.action = .freeze →
      FreezeRun id ctx.pendingProcesses t₁ outcome → outcome.failure = none →
      ctx.newPids post ≠ [] →
      Exec (unfreezeIdentityProcesses ctx.packageName post .cgroupBinder) t₂ rollback →
      DecisionStep ctx decision s
        (t₁ ++ ⟨.discoverProcesses s!"uid{ctx.record.uid}" ctx.record.uid, .ok post⟩ :: t₂) (.ok ())
        (((if rollback.failures.isEmpty then s.clearFrozen ctx.identity
          else ctx.trackResidual true s).removePending ctx.identity).pushOperation operation
          ctx.input.timestampMs |>.dropStaleSince ctx.identity)
  | stopped : ∀ {t₁ t₂ outcome ownership} (operation : ControlOperation),
      decision.action = .signal →
      (∀ call ∈ t₁, LedgerCall call) →
      StopRun ctx.pendingProcesses t₂ outcome → outcome.failure = none →
      (s.hasUnresolvedFreezeOwnership ctx.identity = true → ownership = .residualUnknown) →
      DecisionStep ctx decision s (t₁ ++ t₂) (.ok ())
        (((((s.trackFrozen ctx.identity ctx.input.timestampMs
          ownership).requestNetworkRestriction ctx.record).removePending
          ctx.identity).dropStaleSince ctx.identity).pushOperation operation
          ctx.input.timestampMs)
  | stopFailed : ∀ {t₁ t₂ outcome failure} (operation : ControlOperation),
      decision.action = .signal →
      (∀ call ∈ t₁, LedgerCall call) →
      StopRun ctx.pendingProcesses t₂ outcome → outcome.failure = some failure →
      DecisionStep ctx decision s (t₁ ++ t₂) (.ok ())
        (((ctx.trackResidual (outcome.rollbackFailures > 0)
          (ctx.blockShared failure s)).pushOperation operation ctx.input.timestampMs).removePending
          ctx.identity |>.dropStaleSince ctx.identity)
  | terminated : ∀ {t outcome} (operation : ControlOperation),
      decision.action = .terminate →
      TerminateRun ctx.pendingProcesses t outcome → outcome.failure = none →
      DecisionStep ctx decision s t (.ok ())
        ((((s.removePending ctx.identity).clearFrozen ctx.identity).dropStaleSince
          ctx.identity).pushOperation operation ctx.input.timestampMs)
  | terminateFailed : ∀ {t outcome failure} (operation : ControlOperation),
      decision.action = .terminate →
      TerminateRun ctx.pendingProcesses t outcome → outcome.failure = some failure →
      DecisionStep ctx decision s t (.ok ())
        (s.pushOperation operation ctx.input.timestampMs)

/-- A fallback promotes nothing, so it asks nothing. -/
theorem promotionLoop_never_calls {ps : List RuntimeProcess} :
    ∀ t all result, Exec (promotionLoop (fun _ => pure (.ok false)) ps all) t result →
      ∀ call ∈ t, LedgerCall call := by
  induction ps with
  | nil =>
    intro t all result h
    obtain ⟨rfl, rfl⟩ := exec_pure.mp h
    simp
  | cons p ps ih => intro t all result h; exact ih t false result h

theorem applyFreeze_step {abnormalThaw : Bool} {decision : FreezeDecision}
    (hd : decision.action = .freeze)
    (h : Exec (ctx.applyFreeze abnormalThaw decision s) t (r, s')) :
    DecisionStep ctx decision s t r s' := by
  obtain ⟨t₁, t₂, outcome, rfl, h₁, h₂⟩ := exec_bind.mp h
  have hrun : FreezeRun id ctx.pendingProcesses t₁ outcome :=
    applyFreezeTransaction_spec h₁
  cases hfail : outcome.failure with
  | some failure =>
    rw [hfail] at h₂
    obtain ⟨t₃, t₄, ⟨report, s₁⟩, rfl, h₃, h₄⟩ := exec_bind.mp h₂
    obtain ⟨rfl, heq⟩ := exec_pure.mp h₄
    obtain ⟨rfl, rfl⟩ := Prod.mk.inj heq
    -- The policy of a record always falls back to SIGSTOP.
    obtain ⟨t₅, t₆, signal, rfl, h₅, h₆⟩ := exec_bind.mp h₃
    obtain ⟨stops, ledger, rfl, hstops, hledger, hnever⟩ :=
      applySignalStopFreezeTransaction_spec promotionLoop_never_calls h₅
    have hstop : StopRun ctx.pendingProcesses (stops ++ ledger) signal.transaction :=
      ⟨stops, ledger, rfl, hstops, hledger⟩
    dsimp only at h₆
    cases hsignal : signal.transaction.failure with
    | none =>
      rw [hsignal] at h₆
      obtain ⟨rfl, heq⟩ := exec_pure.mp h₆
      obtain ⟨rfl, rfl⟩ := Prod.mk.inj heq
      rw [hnever rfl, List.append_nil, List.append_nil]
      exact .fallbackStopped _ hd hrun hfail hstop hsignal
    | some failure' =>
      rw [hsignal] at h₆
      obtain ⟨rfl, heq⟩ := exec_pure.mp h₆
      obtain ⟨rfl, rfl⟩ := Prod.mk.inj heq
      rw [if_neg (by simp), List.append_nil, List.append_nil]
      exact .fallbackFailed _ hd hrun hfail hstop hsignal
  | none =>
    rw [hfail] at h₂
    obtain ⟨answer, t₃, rfl, h₃⟩ := exec_ask_bind.mp h₂
    match answer with
    | .error error =>
      obtain ⟨rfl, heq⟩ := exec_pure.mp h₃
      obtain ⟨rfl, rfl⟩ := Prod.mk.inj heq
      exact .rescanFailed error hd hrun hfail
    -- The second look decides: nobody new, or everybody is thawed.
    | .ok post =>
      by_cases hnew : ctx.newPids post = []
      · simp only [hnew, List.isEmpty_nil, if_true] at h₃
        obtain ⟨rfl, heq⟩ := exec_pure.mp h₃
        obtain ⟨rfl, rfl⟩ := Prod.mk.inj heq
        exact .frozen _ hd hrun hfail hnew
      · simp only [List.isEmpty_iff, hnew, if_false] at h₃
        obtain ⟨t₄, t₅, rollback, rfl, h₄, h₅⟩ := exec_bind.mp h₃
        obtain ⟨rfl, heq⟩ := exec_pure.mp h₅
        obtain ⟨rfl, rfl⟩ := Prod.mk.inj heq
        rw [List.append_nil]
        exact .rescanThawed _ hd hrun hfail hnew h₄

theorem applySignal_step {abnormalThaw : Bool} {decision : FreezeDecision}
    (hd : decision.action = .signal)
    (h : Exec (ctx.applySignal abnormalThaw decision s) t (r, s')) :
    DecisionStep ctx decision s t r s' := by
  obtain ⟨t₁, t₂, promotion, rfl, h₁, h₂⟩ := exec_bind.mp h
  obtain ⟨hledger₁, hunresolved⟩ := signalStopLedgerPromotion_spec h₁
  obtain ⟨t₃, t₄, outcome, rfl, h₃, h₄⟩ := exec_bind.mp h₂
  obtain ⟨stops, ledger, rfl, hstops, hledger, hnever⟩ :=
    applySignalStopFreezeTransaction_spec (fun _ _ _ => promotionLoop_calls) h₃
  have hstop : StopRun ctx.pendingProcesses (stops ++ ledger) outcome.transaction :=
    ⟨stops, ledger, rfl, hstops, hledger⟩
  dsimp only at h₄
  cases hfail : outcome.transaction.failure with
  | some failure =>
    rw [hfail] at h₄
    obtain ⟨rfl, heq⟩ := exec_pure.mp h₄
    obtain ⟨rfl, rfl⟩ := Prod.mk.inj heq
    rw [List.append_nil]
    exact .stopFailed _ hd hledger₁ hstop hfail
  | none =>
    rw [hfail] at h₄
    obtain ⟨rfl, heq⟩ := exec_pure.mp h₄
    obtain ⟨rfl, rfl⟩ := Prod.mk.inj heq
    rw [List.append_nil]
    exact .stopped _ hd hledger₁ hstop hfail fun hu => hnever (hunresolved hu)

theorem applyTerminate_step {abnormalThaw : Bool} {decision : FreezeDecision}
    (hd : decision.action = .terminate)
    (h : Exec (ctx.applyTerminate abnormalThaw decision s) t (r, s')) :
    DecisionStep ctx decision s t r s' := by
  obtain ⟨t₁, t₂, outcome, rfl, h₁, h₂⟩ := exec_bind.mp h
  have hrun : TerminateRun ctx.pendingProcesses t₁ outcome := applyTerminateTransaction_spec h₁
  cases hfail : outcome.failure with
  | some failure =>
    rw [hfail] at h₂
    obtain ⟨rfl, heq⟩ := exec_pure.mp h₂
    obtain ⟨rfl, rfl⟩ := Prod.mk.inj heq
    rw [List.append_nil]
    exact .terminateFailed _ hd hrun hfail
  | none =>
    rw [hfail] at h₂
    obtain ⟨rfl, heq⟩ := exec_pure.mp h₂
    obtain ⟨rfl, rfl⟩ := Prod.mk.inj heq
    rw [List.append_nil]
    exact .terminated _ hd hrun hfail

/-! ## A record in the background -/

inductive BackgroundStep (ctx : RecordContext) (abnormalThaw : Bool) (s : RuntimeControlState) :
    Trace → Except DaemonError Unit → RuntimeControlState → Prop where
  /-- The freeze delay has not run out. -/
  | waiting : BackgroundStep ctx abnormalThaw s [] (.ok ()) s
  /-- The freeze delay starts. -/
  | delayed : ∀ (dueAtMs : Nat) (operation : ControlOperation), abnormalThaw = false →
      BackgroundStep ctx abnormalThaw s [] (.ok ())
        (((s.insertPending ctx.identity dueAtMs).pushOperation operation
          ctx.input.timestampMs).dropStaleSince ctx.identity)
  /-- The app may be downloading. -/
  | downloading : ∀ (answer : Except DaemonError (Option Nat)) (deferral : DownloadDeferral)
      (sampled : Bool),
      BackgroundStep ctx abnormalThaw s [⟨.sampleRxBytes ctx.record.uid ctx.packageName, answer⟩]
        (.ok ()) (ctx.postponeDownload sampled (s.setDownloadDeferral deferral))
  | decided : ∀ {t₁ t₂ r s'} (deferral : DownloadDeferral) (binder : Bool),
      (∀ call ∈ t₁, call.query = .sampleRxBytes ctx.record.uid ctx.packageName) →
      DecisionStep ctx (ctx.decide binder) (s.setDownloadDeferral deferral) t₂ r s' →
      BackgroundStep ctx abnormalThaw s (t₁ ++ ⟨.binderAvailable, binder⟩ :: t₂) r s'

theorem applyDecision_step {abnormalThaw : Bool}
    (h : Exec (ctx.applyDecision abnormalThaw s) t (r, s')) :
    ∃ binder t', t = ⟨.binderAvailable, binder⟩ :: t'
      ∧ DecisionStep ctx (ctx.decide binder) s t' r s' := by
  obtain ⟨binder, t', rfl, hrest⟩ := exec_ask_bind.mp h
  refine ⟨binder, t', rfl, ?_⟩
  dsimp only at hrest
  have hidle : ∀ action result, (ctx.decide binder).action ≠ .freeze →
      (ctx.decide binder).action ≠ .signal → (ctx.decide binder).action ≠ .terminate →
      Exec (pure (.ok (), ctx.finish abnormalThaw (ctx.decide binder) action result s)) t' (r, s') →
      DecisionStep ctx (ctx.decide binder) s t' r s' := by
    intro action result h₁ h₂ h₃ hexec
    obtain ⟨rfl, heq⟩ := exec_pure.mp hexec
    obtain ⟨rfl, rfl⟩ := Prod.mk.inj heq
    exact .idle _ h₁ h₂ h₃
  cases haction : (ctx.decide binder).action with
  | freeze           => rw [haction] at hrest; exact applyFreeze_step haction hrest
  | signal           => rw [haction] at hrest; exact applySignal_step haction hrest
  | terminate        => rw [haction] at hrest; exact applyTerminate_step haction hrest
  | postpone         => rw [haction] at hrest hidle; exact hidle _ _ nofun nofun nofun hrest
  | alternateFreezer => rw [haction] at hrest hidle; exact hidle _ _ nofun nofun nofun hrest
  | skip             => rw [haction] at hrest hidle; exact hidle _ _ nofun nofun nofun hrest

/-- The download check calls the sampler at most once. -/
theorem deferDownload_spec {postponed : Bool}
    (h : Exec (ctx.deferDownload s) t (postponed, s')) :
    postponed = true ∧ (∃ answer deferral sampled,
      t = [⟨.sampleRxBytes ctx.record.uid ctx.packageName, answer⟩]
        ∧ s' = ctx.postponeDownload sampled (s.setDownloadDeferral deferral))
    ∨ postponed = false ∧ ∃ deferral, s' = s.setDownloadDeferral deferral
        ∧ ∀ call ∈ t, call.query = .sampleRxBytes ctx.record.uid ctx.packageName := by
  unfold RecordContext.deferDownload at h
  by_cases hcandidate : isCandidatePackage ctx.packageName = true
  · rw [if_neg (by simpa using hcandidate)] at h
    obtain ⟨answer, t₁, rfl, h₁⟩ := exec_ask_bind.mp h
    dsimp only at h₁
    split at h₁
    · obtain ⟨rfl, heq⟩ := exec_pure.mp h₁
      obtain ⟨rfl, rfl⟩ := Prod.mk.inj heq
      exact .inl ⟨rfl, answer, _, _, rfl, rfl⟩
    · obtain ⟨rfl, heq⟩ := exec_pure.mp h₁
      obtain ⟨rfl, rfl⟩ := Prod.mk.inj heq
      exact .inr ⟨rfl, _, rfl, by simp⟩
  · rw [if_pos (by simpa using hcandidate)] at h
    obtain ⟨rfl, heq⟩ := exec_pure.mp h
    obtain ⟨rfl, rfl⟩ := Prod.mk.inj heq
    exact .inr ⟨rfl, _, rfl, by simp⟩

theorem controlBackground_step {abnormalThaw : Bool}
    (h : Exec (ctx.controlBackground abnormalThaw s) t (r, s')) :
    BackgroundStep ctx abnormalThaw s t r s' := by
  unfold RecordContext.controlBackground at h
  cases hdelay : ctx.postponeForDelay abnormalThaw s with
  | some s₁ =>
    rw [hdelay] at h
    obtain ⟨rfl, heq⟩ := exec_pure.mp h
    obtain ⟨rfl, rfl⟩ := Prod.mk.inj heq
    unfold RecordContext.postponeForDelay at hdelay
    dsimp only at hdelay
    -- The timer is running, or it starts now.
    by_cases hon : (!abnormalThaw
        && decide (managerPolicyDelayMs ctx.record ctx.input.settings > 0)) = true
    · rw [if_pos hon] at hdelay
      have hnormal : abnormalThaw = false := by
        simpa using (Bool.and_eq_true_iff.mp hon).1
      cases hdue : s.pendingFreezes.get? ctx.identity with
      | some dueAtMs =>
        rw [hdue] at hdelay
        dsimp only at hdelay
        by_cases hwait : ctx.input.timestampMs < dueAtMs
        · rw [if_pos hwait] at hdelay
          obtain rfl := Option.some.inj hdelay
          exact .waiting
        · rw [if_neg hwait] at hdelay
          cases hdelay
      | none =>
        rw [hdue] at hdelay
        obtain rfl := Option.some.inj hdelay
        exact .delayed _ _ hnormal
    · rw [if_neg hon] at hdelay
      cases hdelay
  | none =>
    rw [hdelay] at h
    obtain ⟨t₁, t₂, ⟨postponed, s₁⟩, rfl, h₁, h₂⟩ := exec_bind.mp h
    rcases deferDownload_spec h₁ with ⟨rfl, answer, deferral, sampled, rfl, rfl⟩ | ⟨rfl, deferral, rfl, hsample⟩
    · obtain ⟨rfl, heq⟩ := exec_pure.mp h₂
      obtain ⟨rfl, rfl⟩ := Prod.mk.inj heq
      exact .downloading answer deferral sampled
    · obtain ⟨binder, t', rfl, hdecision⟩ := applyDecision_step h₂
      exact .decided deferral binder hsample hdecision

/-! ## A record whose uid has processes -/

/-- The blocked signature is not the current one; a different one is dropped. -/
def Unblocked (ctx : RecordContext) (s s₀ : RuntimeControlState) : Prop :=
  s.blockedProcessSignatures.get? ctx.identity ≠ some ctx.signature
    ∧ (s₀ = s ∨ s₀ = s.removeBlocked ctx.identity)

inductive ListedStep (ctx : RecordContext) (auditDue : Bool) (s : RuntimeControlState) :
    Trace → Except DaemonError Unit → RuntimeControlState → Prop where
  /-- A protected package, or a mode without a control method. -/
  | released : ∀ {t s'}, ctx.allowed = false →
      Exec (ctx.releaseProtected s) t (.ok (), s') → ListedStep ctx auditDue s t (.ok ()) s'
  /-- The same processes were refused before. -/
  | blocked : ctx.allowed = true →
      s.blockedProcessSignatures.get? ctx.identity = some ctx.signature →
      ListedStep ctx auditDue s [] (.ok ()) s
  | foreground : ∀ {s₀}, ctx.allowed = true → Unblocked ctx s s₀ →
      ctx.record.uid ∈ ctx.input.foregroundUids → ctx.identity ∉ s₀.frozenApps →
      ListedStep ctx auditDue s [] (.ok ()) (s₀.removePending ctx.identity)
  | opened : ∀ {s₀ t outcome} (operation : ControlOperation), ctx.allowed = true →
      Unblocked ctx s s₀ → ctx.record.uid ∈ ctx.input.foregroundUids →
      ctx.identity ∈ s₀.frozenApps →
      Exec (unfreezeIdentityProcesses ctx.packageName ctx.processes
        (s₀.frozenOwnershipOf ctx.identity)) t outcome →
      ListedStep ctx auditDue s t (.ok ())
        ((if outcome.failures.isEmpty then (s₀.removePending ctx.identity).clearFrozen ctx.identity
          else s₀.removePending ctx.identity).pushOperation operation ctx.input.timestampMs)
  | wokenUp : ∀ {s₀ t outcome} (dueAtMs : Nat) (operation : ControlOperation), ctx.allowed = true →
      Unblocked ctx s s₀ → ctx.record.uid ∉ ctx.input.foregroundUids →
      ctx.identity ∈ s₀.frozenApps →
      Exec (unfreezeIdentityProcesses ctx.packageName ctx.processes
        (s₀.frozenOwnershipOf ctx.identity)) t outcome →
      ListedStep ctx auditDue s t (.ok ())
        ((if outcome.failures.isEmpty then
            (s₀.clearFrozen ctx.identity).insertPending ctx.identity dueAtMs
          else s₀).pushOperation operation ctx.input.timestampMs)
  | kept : ∀ {s₀}, ctx.allowed = true → Unblocked ctx s s₀ →
      ctx.record.uid ∉ ctx.input.foregroundUids → ctx.identity ∈ s₀.frozenApps →
      ListedStep ctx auditDue s [] (.ok ()) s₀
  /-- The audit saw a frozen app running and untracks it, to freeze it again. -/
  | refrozen : ∀ {s₀ t r s'}, ctx.allowed = true → Unblocked ctx s s₀ →
      ctx.record.uid ∉ ctx.input.foregroundUids → ctx.identity ∈ s₀.frozenApps →
      periodicWakeupDue s₀ ctx.identity ctx.input.settings ctx.input.timestampMs = false →
      auditDue = true → (∃ p ∈ ctx.processes, p.controlState = .running) →
      BackgroundStep ctx true (s₀.markAbnormalThawForRefreeze ctx.identity) t r s' →
      ListedStep ctx auditDue s t r s'
  | background : ∀ {s₀ t r s'}, ctx.allowed = true → Unblocked ctx s s₀ →
      ctx.record.uid ∉ ctx.input.foregroundUids → ctx.identity ∉ s₀.frozenApps →
      BackgroundStep ctx false s₀ t r s' → ListedStep ctx auditDue s t r s'

theorem controlUnblocked_step {auditDue : Bool} {s₀ : RuntimeControlState}
    (ha : ctx.allowed = true) (hs : Unblocked ctx s s₀)
    (h : Exec (ctx.controlUnblocked auditDue s₀) t (r, s')) :
    ListedStep ctx auditDue s t r s' := by
  unfold RecordContext.controlUnblocked at h
  -- First the foreground, then whether the app is tracked, as in the source.
  by_cases hfg : ctx.record.uid ∈ ctx.input.foregroundUids
  · rw [if_pos (by simpa using hfg)] at h
    unfold RecordContext.thawForeground at h
    dsimp only at h
    by_cases htracked : ctx.identity ∈ (s₀.removePending ctx.identity).frozenApps
    · rw [if_pos htracked] at h
      obtain ⟨t₁, t₂, outcome, rfl, h₁, h₂⟩ := exec_bind.mp h
      obtain ⟨rfl, heq⟩ := exec_pure.mp h₂
      obtain ⟨rfl, rfl⟩ := Prod.mk.inj heq
      rw [List.append_nil]
      exact .opened _ ha hs hfg htracked h₁
    · rw [if_neg htracked] at h
      obtain ⟨rfl, heq⟩ := exec_pure.mp h
      obtain ⟨rfl, rfl⟩ := Prod.mk.inj heq
      exact .foreground ha hs hfg htracked
  · rw [if_neg (by simpa using hfg)] at h
    by_cases htracked : ctx.identity ∈ s₀.frozenApps
    · rw [if_pos htracked] at h
      by_cases hwakeup : periodicWakeupDue s₀ ctx.identity ctx.input.settings
          ctx.input.timestampMs = true
      · rw [if_pos hwakeup] at h
        obtain ⟨t₁, t₂, outcome, rfl, h₁, h₂⟩ := exec_bind.mp h
        obtain ⟨rfl, heq⟩ := exec_pure.mp h₂
        obtain ⟨rfl, rfl⟩ := Prod.mk.inj heq
        rw [List.append_nil]
        exact .wokenUp _ _ ha hs hfg htracked h₁
      · rw [if_neg hwakeup] at h
        by_cases hkeep : (!auditDue
            || !(ctx.processes.any fun p => decide (p.controlState = .running))) = true
        · rw [if_pos hkeep] at h
          obtain ⟨rfl, heq⟩ := exec_pure.mp h
          obtain ⟨rfl, rfl⟩ := Prod.mk.inj heq
          exact .kept ha hs hfg htracked
        · rw [if_neg hkeep] at h
          have hdue : auditDue = true ∧ ∃ p ∈ ctx.processes, p.controlState = .running := by
            simpa using hkeep
          exact .refrozen ha hs hfg htracked (by simpa using hwakeup) hdue.1 hdue.2
            (controlBackground_step h)
    · rw [if_neg htracked] at h
      exact .background ha hs hfg htracked (controlBackground_step h)

theorem controlProcesses_step {auditDue : Bool}
    (h : Exec (ctx.controlProcesses auditDue s) t (r, s')) : ListedStep ctx auditDue s t r s' := by
  unfold RecordContext.controlProcesses at h
  by_cases ha : ctx.allowed = true
  · rw [if_neg (by simpa using ha)] at h
    cases hblocked : s.blockedProcessSignatures.get? ctx.identity with
    | none =>
      rw [hblocked] at h
      exact controlUnblocked_step ha ⟨by simp [hblocked], .inl rfl⟩ h
    | some blocked =>
      rw [hblocked] at h
      dsimp only at h
      by_cases hsame : blocked = ctx.signature
      · rw [if_pos hsame] at h
        obtain ⟨rfl, heq⟩ := exec_pure.mp h
        obtain ⟨rfl, rfl⟩ := Prod.mk.inj heq
        exact .blocked ha (hsame ▸ hblocked)
      · rw [if_neg hsame] at h
        exact controlUnblocked_step ha ⟨by simpa [hblocked] using hsame, .inr rfl⟩ h
  · rw [if_pos (by simpa using ha)] at h
    have hr : r = .ok () := by
      obtain ⟨t₁, t₂, x, rfl, h₁, h₂⟩ := exec_bind.mp h
      obtain ⟨rfl, heq⟩ := exec_pure.mp h₂
      exact (Prod.mk.inj heq).1
    subst hr
    exact .released (by simpa using ha) h

/-! ## A record -/

/-- What the loop body works with once `processes` are listed for the record. -/
def listedContext (input : PassInput) (record : ManagerAppConfigRecord) (first : RuntimeProcess)
    (rest : List RuntimeProcess) : RecordContext :=
  ⟨input, record, minPackageName first rest, first :: rest⟩

/-- The discovery call of the control loop for a uid. -/
def listed (uid : Nat) (answer : Except DaemonError (List RuntimeProcess)) : Call :=
  ⟨.discoverProcesses s!"uid{uid}" uid, answer⟩

inductive RecordStep (input : PassInput) (auditDue : Bool) (record : ManagerAppConfigRecord)
    (s : RuntimeControlState) : Trace → Except DaemonError Unit → RuntimeControlState → Prop where
  | uncontrolled : isControlPolicyMode record.mode = false →
      RecordStep input auditDue record s [] (.ok ()) s
  | undiscovered : ∀ (error : DaemonError), isControlPolicyMode record.mode = true →
      RecordStep input auditDue record s [listed record.uid (.error error)] (.error error) s
  | exited : isControlPolicyMode record.mode = true →
      RecordStep input auditDue record s [listed record.uid (.ok [])] (.ok ())
        (s.clearExited record.uid)
  | occupied : ∀ {t r s'} (first : RuntimeProcess) (rest : List RuntimeProcess),
      isControlPolicyMode record.mode = true →
      ListedStep (listedContext input record first rest) auditDue s t r s' →
      RecordStep input auditDue record s (listed record.uid (.ok (first :: rest)) :: t) r s'

theorem controlRecord_step {input : PassInput} {auditDue : Bool} {record : ManagerAppConfigRecord}
    (h : Exec (controlRecord input auditDue record s) t (r, s')) :
    RecordStep input auditDue record s t r s' := by
  unfold controlRecord at h
  by_cases hmode : isControlPolicyMode record.mode = true
  · rw [if_neg (by simpa using hmode)] at h
    obtain ⟨answer, t', rfl, hrest⟩ := exec_ask_bind.mp h
    match answer with
    | .error error =>
      obtain ⟨rfl, heq⟩ := exec_pure.mp hrest
      obtain ⟨rfl, rfl⟩ := Prod.mk.inj heq
      exact .undiscovered error hmode
    | .ok [] =>
      obtain ⟨rfl, heq⟩ := exec_pure.mp hrest
      obtain ⟨rfl, rfl⟩ := Prod.mk.inj heq
      exact .exited hmode
    | .ok (first :: rest) => exact .occupied first rest hmode (controlProcesses_step hrest)
  · rw [if_pos (by simpa using hmode)] at h
    obtain ⟨rfl, heq⟩ := exec_pure.mp h
    obtain ⟨rfl, rfl⟩ := Prod.mk.inj heq
    exact .uncontrolled (by simpa using hmode)

end Freezeit
