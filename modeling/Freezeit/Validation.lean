import Freezeit.RecoveryCompleteness
import Freezeit.Runs

/-! # Validation before every privileged call

    A pid can be reused between two calls, so a process is validated by pid,
    uid and start time right before anything is done to it.  `Follows` says
    that no privileged call stands anywhere else. -/

namespace Freezeit

open Prog

/-! ## Privileged calls and their guards -/

/-- The process that a privileged callback acts on. -/
def Query.privilegedOn : Query → Option RuntimeProcess
  | .freezeProcess p | .unfreezeProcess p | .terminateProcess p => some p
  | _ => none

/-- The call freezes, stops, thaws or kills a process. -/
def Privileged (call : Call) : Prop := call.query.privilegedOn ≠ none

/-- `guard` validated the process that `call` acts on. -/
def ValidatedBy (guard call : Call) : Prop :=
  ∃ checked p, guard = validated checked ∧ call.query.privilegedOn = some p ∧ checked.key = p.key

/-- Every privileged call directly follows a validation of its process. -/
abbrev Guarded (t : Trace) : Prop := Follows Privileged ValidatedBy t

/-- A query without such a process is not privileged. -/
theorem not_privileged {call : Call} (h : call.query.privilegedOn = none) : ¬ Privileged call :=
  not_not_intro h

/-- A validation and the call it permits, put before a guarded trace. -/
theorem Guarded.attempt {p q : RuntimeProcess} (hkey : p.key = q.key) {call : Call}
    (hcall : call.query.privilegedOn = some q) {t : Trace} (ht : Guarded t) :
    Guarded (validated p :: call :: t) :=
  ht.guarded (not_privileged rfl) ⟨p, q, rfl, hcall, hkey⟩

/-! ## The transactions -/

variable {check control : RuntimeProcess → RuntimeProcess} {ps : List RuntimeProcess} {t : Trace}

/-- Thaws validate each process first. -/
theorem ThawAttempts.guarded {n : Nat} (hkey : ∀ p, (check p).key = (control p).key)
    (h : ThawAttempts check control ps t n) : Guarded t := by
  induction h with
  | nil => exact .nil
  | refused answer _ _ ih => exact ih.cons (not_privileged rfl)
  | failed error _ ih => exact ih.attempt (hkey _) rfl
  | thawed _ ih => exact ih.attempt (hkey _) rfl

/-- The thaw of an app is guarded. -/
theorem unfreezeIdentityProcesses_guarded {package : String} {ownership : FrozenOwnership}
    {outcome : UnfreezeOutcome}
    (h : Exec (unfreezeIdentityProcesses package ps ownership) t outcome) : Guarded t := by
  rcases unfreezeIdentityProcesses_spec h with ⟨-, rfl, -⟩ | ⟨-, hattempts⟩
  · exact .nil
  · exact hattempts.guarded fun _ => rfl

/-- Validations need no guard. -/
theorem validatedCalls_guarded (ps : List RuntimeProcess) : Guarded (validatedCalls ps) := by
  refine .of_forall_not fun call hc => ?_
  obtain ⟨p, -, rfl⟩ := List.mem_map.mp hc
  exact not_privileged rfl

/-- A freeze validates each process right before it. -/
theorem frozenCalls_guarded (hkey : ∀ p, p.key = (control p).key) (ps : List RuntimeProcess) :
    Guarded (frozenCalls control ps) := by
  induction ps with
  | nil => exact .nil
  | cons p ps ih => exact ih.attempt (hkey p) rfl

/-- So does a kill. -/
theorem killedCalls_guarded (ps : List RuntimeProcess) : Guarded (killedCalls ps) := by
  induction ps with
  | nil => exact .nil
  | cons p ps ih => exact ih.attempt rfl rfl

/-- A refused transaction only validates. -/
theorem PreflightRefusal.guarded (h : PreflightRefusal ps t) : Guarded t := by
  obtain ⟨done, p, rest, -, ⟨rfl, -⟩ | ⟨answer, -, rfl⟩⟩ := h
  · exact validatedCalls_guarded done
  · exact (validatedCalls_guarded done).append (.single (not_privileged rfl))

/-- The freeze that failed was validated, or its validation is what failed. -/
theorem FailedFreeze.guarded {p : RuntimeProcess} (hkey : p.key = (control p).key)
    (h : FailedFreeze control p t) : Guarded t := by
  obtain ⟨answer, -, rfl⟩ | ⟨error, rfl⟩ := h
  · exact .single (not_privileged rfl)
  · exact Guarded.attempt hkey rfl .nil

/-- Freezing, and rolling back what was frozen. -/
theorem FreezeRun.guarded {outcome : FreezeTransactionOutcome}
    (hkey : ∀ p, p.key = (control p).key) (h : FreezeRun control ps t outcome) : Guarded t := by
  cases h with
  | refused failure hrefusal => exact hrefusal.guarded
  | frozen => exact (validatedCalls_guarded ps).append (frozenCalls_guarded hkey ps)
  | rolledBack failure _ _ hfailed hrollback =>
    exact (validatedCalls_guarded ps).append ((frozenCalls_guarded hkey _).append
      ((hfailed.guarded (hkey _)).append (hrollback.guarded hkey)))

/-- A kill transaction is guarded. -/
theorem TerminateRun.guarded {outcome : TerminateTransactionOutcome}
    (h : TerminateRun ps t outcome) : Guarded t := by
  cases h with
  | refused failure hrefusal => exact hrefusal.guarded
  | killed => exact (validatedCalls_guarded ps).append (killedCalls_guarded ps)
  | stopped failure _ _ hfail =>
    refine (validatedCalls_guarded ps).append ((killedCalls_guarded _).append ?_)
    obtain ⟨answer, -, rfl⟩ | ⟨error, rfl⟩ := hfail
    · exact .single (not_privileged rfl)
    · exact Guarded.attempt rfl rfl .nil

/-- The ledger is asked without a guard. -/
theorem LedgerCall.not_privileged {call : Call} (h : LedgerCall call) : ¬ Privileged call := by
  obtain ⟨pid, start, hq⟩ | ⟨pid, start, hq⟩ := h
  · exact Freezeit.not_privileged (by rw [hq]; rfl)
  · exact Freezeit.not_privileged (by rw [hq]; rfl)

/-- A stop transaction is guarded, its rollback included. -/
theorem StopRun.guarded {outcome : FreezeTransactionOutcome} (h : StopRun ps t outcome) :
    Guarded t := by
  obtain ⟨stops, ledger, rfl, hstops, hledger⟩ := h.split
  have hguarded : Guarded stops := hstops.guarded fun p => (signalControlProcess_key p).symm
  exact hguarded.append (.of_forall_not fun call hc => (hledger call hc).not_privileged)

/-! ## The steps of a pass -/

variable {ctx : RecordContext} {s s' : RuntimeControlState} {r : Except DaemonError Unit}

/-- A decision is guarded in every branch. -/
theorem DecisionStep.guarded {decision : FreezeDecision} (h : DecisionStep ctx decision s t r s') :
    Guarded t := by
  have hid : ∀ p : RuntimeProcess, p.key = (id p : RuntimeProcess).key := fun _ => rfl
  cases h with
  | idle => exact .nil
  -- The fallback validates each process anew before it stops it.
  | fallbackStopped _ _ hrun _ hstop => exact (hrun.guarded hid).append hstop.guarded
  | fallbackFailed _ _ hrun _ hstop => exact (hrun.guarded hid).append hstop.guarded
  | rescanFailed _ _ hrun => exact (hrun.guarded hid).append (.single (not_privileged rfl))
  | frozen _ _ hrun => exact (hrun.guarded hid).append (.single (not_privileged rfl))
  | rescanThawed _ _ hrun _ _ hthaw =>
    exact (hrun.guarded hid).append
      ((unfreezeIdentityProcesses_guarded hthaw).cons (not_privileged rfl))
  | stopped _ _ hledger hstop =>
    exact (Follows.of_forall_not fun call hc => (hledger call hc).not_privileged).append
      hstop.guarded
  | stopFailed _ _ hledger hstop =>
    exact (Follows.of_forall_not fun call hc => (hledger call hc).not_privileged).append
      hstop.guarded
  | terminated _ _ hrun => exact hrun.guarded
  | terminateFailed _ _ hrun => exact hrun.guarded

/-- So is a background step. -/
theorem BackgroundStep.guarded {abnormalThaw : Bool}
    (h : BackgroundStep ctx abnormalThaw s t r s') : Guarded t := by
  cases h with
  | waiting => exact .nil
  | delayed => exact .nil
  | downloading => exact .single (not_privileged rfl)
  | decided _ _ hsample hdecision =>
    refine Follows.append (.of_forall_not fun call hc => ?_)
      (hdecision.guarded.cons (not_privileged rfl))
    exact not_privileged (by rw [hsample call hc]; rfl)

/-- So is the thaw of one identity. -/
theorem ThawStep.guarded {identity : RuntimeIdentity} (h : ThawStep identity s t s') :
    Guarded t := by
  cases h with
  | undiscovered => exact .single (not_privileged rfl)
  | exited => exact .single (not_privileged rfl)
  | tried _ _ _ hthaw =>
    exact (unfreezeIdentityProcesses_guarded hthaw).cons (not_privileged rfl)

/-- Thaws one after the other are guarded. -/
theorem ThawSteps.guarded {identities : List RuntimeIdentity} (h : ThawSteps identities s t s') :
    Guarded t := by
  induction h with
  | nil => exact .nil
  | cons hstep _ ih => exact hstep.guarded.append ih

/-- The loop body is guarded once its processes are listed. -/
theorem ListedStep.guarded {auditDue : Bool} (h : ListedStep ctx auditDue s t r s') :
    Guarded t := by
  cases h with
  | released _ hexec =>
    obtain ⟨s₁, hsteps, -⟩ := releaseProtected_steps hexec
    exact hsteps.guarded
  | blocked => exact .nil
  | foreground => exact .nil
  | opened _ _ _ _ _ hthaw => exact unfreezeIdentityProcesses_guarded hthaw
  | wokenUp _ _ _ _ _ _ hthaw => exact unfreezeIdentityProcesses_guarded hthaw
  | kept => exact .nil
  | refrozen _ _ _ _ _ _ _ hbackground => exact hbackground.guarded
  | background _ _ _ _ hbackground => exact hbackground.guarded

/-- A record is guarded. -/
theorem RecordStep.guarded {input : PassInput} {auditDue : Bool} {record : ManagerAppConfigRecord}
    (h : RecordStep input auditDue record s t r s') : Guarded t := by
  cases h with
  | uncontrolled => exact .nil
  | undiscovered => exact .single (not_privileged rfl)
  | exited => exact .single (not_privileged rfl)
  | occupied _ _ _ hlisted => exact hlisted.guarded.cons (not_privileged rfl)

/-- Every step of a run is guarded. -/
theorem Moment.Valid.guarded {m : Moment} (h : m.Valid) : Guarded m.calls := by
  cases h with
  | release input hexec =>
    obtain ⟨s₁, hsteps, -⟩ := releaseStale_steps hexec
    exact hsteps.guarded
  | record hstep => exact hstep.guarded
  | thawAll timestampMs hexec =>
    obtain ⟨s₁, hsteps, -⟩ := thawAllFrozen_steps hexec
    exact hsteps.guarded
  | freezeStatus => exact .nil
  | takeNetworkRestrictions => exact .nil
  | requeueNetworkRestriction => exact .nil

/-- A control pass is guarded. -/
theorem runControlPass_guarded {input : PassInput}
    (h : Exec (runControlPass input s) t (r, s')) : Guarded t := by
  obtain ⟨ms, hms, rfl⟩ := exec_runControlPass_iff.mp h
  exact .flatMap fun m hm => (hms.valid hm).guarded

/-! ## Restart recovery -/

/-- The calls of the recovery that act on a process. -/
def PrivilegedRecovery (call : RecoveryCall) : Prop :=
  match call.query with
  | .thawCgroup _ | .unfreezeBinder _ | .resumeSignal _ => True
  | _                                                   => False

/-- `guard` validated the process that `call` acts on; a cgroup thaw acts on the
    process whose freezer it is. -/
def RecoveryValidatedBy (guard call : RecoveryCall) : Prop :=
  ∃ p, guard = ⟨.validateProcess p, .ok true⟩ ∧
    ((∃ path, p.cgroupFreezePath = some path ∧ call.query = .thawCgroup path)
      ∨ call.query = .unfreezeBinder p ∨ call.query = .resumeSignal p)

abbrev RecoveryGuarded (t : RecoveryTrace) : Prop :=
  Follows PrivilegedRecovery RecoveryValidatedBy t

variable {p : RuntimeProcess} {rt : RecoveryTrace} {outcome outcome' : RestartRecoveryOutcome}
  {ownership : Option SignalStopOwnership}

/-- A validation is one call, and it succeeds only by the answer `true`. -/
theorem restartIdentityIsCurrent_spec {phase : String} {result : Except String Unit}
    (h : Exec (restartIdentityIsCurrent p phase) rt result) :
    ∃ answer, rt = [⟨.validateProcess p, answer⟩] ∧ (result = .ok () ↔ answer = .ok true) := by
  obtain ⟨answer, t₁, rfl, hrest⟩ := exec_ask_bind.mp h
  match answer with
  | .ok true =>
    obtain ⟨rfl, rfl⟩ := exec_pure.mp hrest
    exact ⟨_, rfl, by simp⟩
  | .ok false =>
    obtain ⟨rfl, rfl⟩ := exec_pure.mp hrest
    exact ⟨_, rfl, by simp⟩
  | .error error =>
    obtain ⟨rfl, rfl⟩ := exec_pure.mp hrest
    exact ⟨_, rfl, by simp⟩

/-- A SIGCONT follows a validation of its process. -/
theorem resumeOwnedStop_guarded (h : Exec (resumeOwnedStop p ownership outcome) rt outcome') :
    RecoveryGuarded rt := by
  unfold resumeOwnedStop at h
  -- A stop that is not ours is left alone.
  by_cases hnone : ownership.isNone = true
  · rw [if_pos hnone] at h
    obtain ⟨rfl, rfl⟩ := exec_pure.mp h
    exact .nil
  · rw [if_neg hnone] at h
    obtain ⟨t₁, t₂, result, rfl, h₁, h₂⟩ := exec_bind.mp h
    obtain ⟨answer, rfl, hanswer⟩ := restartIdentityIsCurrent_spec h₁
    match result with
    | .error failure =>
      obtain ⟨rfl, rfl⟩ := exec_pure.mp h₂
      exact .single not_false
    | .ok () =>
      -- The answer was yes, and the signal is the very next call.
      obtain rfl := hanswer.mp rfl
      obtain ⟨resumed, t₃, rfl, h₃⟩ := exec_ask_bind.mp h₂
      have hend : t₃ = [] := by
        match resumed with
        | .ok ()       => exact (exec_pure.mp h₃).1
        | .error error => exact (exec_pure.mp h₃).1
      subst hend
      exact Follows.nil.guarded not_false ⟨p, rfl, .inr (.inr rfl)⟩

/-- So do the thaws of cgroup and binder. -/
theorem cleanUpFreezer_guarded {path : String} (hpath : p.cgroupFreezePath = some path)
    (h : Exec (cleanUpFreezer p path ownership) rt outcome') : RecoveryGuarded rt := by
  obtain ⟨t₁, t₂, result, rfl, h₁, h₂⟩ := exec_bind.mp h
  obtain ⟨answer, rfl, hanswer⟩ := restartIdentityIsCurrent_spec h₁
  match result with
  | .error failure =>
    obtain ⟨rfl, rfl⟩ := exec_pure.mp h₂
    exact .single not_false
  | .ok () =>
    obtain rfl := hanswer.mp rfl
    obtain ⟨thaw, t₃, rfl, h₃⟩ := exec_ask_bind.mp h₂
    -- The thaw follows its check; the Binder call gets a check of its own.
    refine Follows.guarded not_false ⟨p, rfl, .inl ⟨path, hpath, rfl⟩⟩ ?_
    obtain ⟨t₄, t₅, result, rfl, h₄, h₅⟩ := exec_bind.mp h₃
    obtain ⟨answer, rfl, hanswer⟩ := restartIdentityIsCurrent_spec h₄
    match result with
    | .error failure =>
      obtain ⟨rfl, rfl⟩ := exec_pure.mp h₅
      exact .single not_false
    | .ok () =>
      obtain rfl := hanswer.mp rfl
      obtain ⟨unfreeze, t₆, rfl, h₆⟩ := exec_ask_bind.mp h₅
      exact Follows.guarded not_false ⟨p, rfl, .inr (.inl rfl)⟩ (resumeOwnedStop_guarded h₆)

/-- The recovery of one process is guarded. -/
theorem recoverProcessAfterRestart_guarded {observed : Option CgroupFreezeState}
    (h : Exec (recoverProcessAfterRestart p ownership observed) rt outcome') :
    RecoveryGuarded rt := by
  unfold recoverProcessAfterRestart at h
  dsimp only at h
  cases hpath : p.cgroupFreezePath with
  | none =>
    rw [hpath] at h
    exact resumeOwnedStop_guarded h
  | some path =>
    rw [hpath] at h
    dsimp only at h
    split at h
    · exact resumeOwnedStop_guarded h
    · exact cleanUpFreezer_guarded hpath h

/-- Asking for the owner of a stop needs no guard. -/
theorem signalStopOwnershipOf_guarded (h : Exec (signalStopOwnershipOf p) rt ownership) :
    RecoveryGuarded rt := by
  obtain ⟨answer, t₁, rfl, hrest⟩ := exec_ask_bind.mp h
  refine Follows.cons not_false ?_
  match answer with
  | .error error =>
    obtain ⟨rfl, rfl⟩ := exec_pure.mp hrest
    exact .nil
  | .ok statText =>
    dsimp only at hrest
    unfold freezeitSignalStopOwnership at hrest
    cases hstopped : stoppedIdentity statText with
    | none =>
      rw [hstopped] at hrest
      obtain ⟨rfl, rfl⟩ := exec_pure.mp hrest
      exact .nil
    | some identity =>
      rw [hstopped] at hrest
      obtain ⟨ledger, t₂, rfl, h₂⟩ := exec_ask_bind.mp hrest
      obtain ⟨rfl, rfl⟩ := exec_pure.mp h₂
      exact .single not_false

/-- Nor does reading a cgroup. -/
theorem observedCgroupStateOf_guarded {observed : Option CgroupFreezeState}
    (h : Exec (observedCgroupStateOf p) rt observed) : RecoveryGuarded rt := by
  unfold observedCgroupStateOf at h
  cases hpath : p.cgroupFreezePath with
  | none =>
    rw [hpath] at h
    obtain ⟨rfl, rfl⟩ := exec_pure.mp h
    exact .nil
  | some path =>
    rw [hpath] at h
    obtain ⟨state, t₁, rfl, h₁⟩ := exec_ask_bind.mp h
    obtain ⟨rfl, rfl⟩ := exec_pure.mp h₁
    exact .single not_false

/-- The recovery of many processes is guarded. -/
theorem recoverProcesses_guarded {summary summary' : RestartRecoverySummary}
    (h : Exec (recoverProcesses ps summary) rt summary') : RecoveryGuarded rt := by
  induction ps generalizing summary rt with
  | nil =>
    obtain ⟨rfl, rfl⟩ := exec_pure.mp h
    exact .nil
  | cons p rest ih =>
    obtain ⟨t₁, t₂, ownership, rfl, h₁, h₂⟩ := exec_bind.mp h
    obtain ⟨t₃, t₄, observed, rfl, h₃, h₄⟩ := exec_bind.mp h₂
    refine (signalStopOwnershipOf_guarded h₁).append
      ((observedCgroupStateOf_guarded h₃).append ?_)
    split at h₄
    · exact ih h₄
    · obtain ⟨t₅, t₆, outcome, rfl, h₅, h₆⟩ := exec_bind.mp h₄
      exact (recoverProcessAfterRestart_guarded h₅).append (ih h₆)

/-- The whole recovery is guarded. -/
theorem recovery_guarded {appConfig : List ManagerAppConfigRecord} {fault : Option String}
    (h : Exec (recoverStoppedManagedProcessesAfterRestart appConfig) rt fault) :
    RecoveryGuarded rt := by
  unfold recoverStoppedManagedProcessesAfterRestart at h
  dsimp only at h
  split at h
  · obtain ⟨rfl, rfl⟩ := exec_pure.mp h
    exact .nil
  · obtain ⟨reading, t₁, rfl, h₁⟩ := exec_ask_bind.mp h
    refine Follows.cons not_false ?_
    cases hdiscover : discoverManagedUidProcesses reading (controlledUids appConfig) with
    | error error =>
      rw [hdiscover] at h₁
      obtain ⟨rfl, rfl⟩ := exec_pure.mp h₁
      exact .nil
    | ok processesByUid =>
      rw [hdiscover] at h₁
      obtain ⟨t₂, t₃, summary, rfl, h₂, h₃⟩ := exec_bind.mp h₁
      -- After the last process nothing is called.
      have hend : t₃ = [] := by
        split at h₃
        · exact (exec_pure.mp h₃).1
        · exact (exec_pure.mp h₃).1
      subst hend
      exact (recoverProcesses_guarded h₂).append .nil

/-! ## The whole controller -/

/-- In every pass, every thaw of everything and every restart recovery, the call
    before a privileged call validated the same pid, uid and start time. -/
theorem privileged_calls_are_validated :
    (∀ input s t r s', Exec (runControlPass input s) t (r, s') → Guarded t)
    ∧ (∀ timestampMs (s : RuntimeControlState) t r s',
        Exec (s.thawAllFrozen timestampMs) t (r, s') → Guarded t)
    ∧ ∀ appConfig t fault,
        Exec (recoverStoppedManagedProcessesAfterRestart appConfig) t fault → RecoveryGuarded t := by
  refine ⟨fun _ _ _ _ _ => runControlPass_guarded, ?_, fun _ _ _ => recovery_guarded⟩
  intro timestampMs s t r s' h
  obtain ⟨s₁, hsteps, -⟩ := thawAllFrozen_steps h
  exact hsteps.guarded

/-- The app that the pass has frozen is thawed with everything. -/
theorem privileged_calls_are_validated_sample :
    let passed := run sampleEnvironment.answer [] (runControlPass (samplePass 30) .default)
    let thaws := (run sampleEnvironment.answer [] (passed.2.2.thawAllFrozen 1000)).1
    Guarded passed.1
    ∧ Guarded (run sampleEnvironment.answer [] (RuntimeControlState.default.thawAllFrozen 1000)).1
    ∧ (Guarded thaws ∧ thawed sampleProcess ∈ thaws)
    ∧ RecoveryGuarded (run stoppedWorld.answer []
        (recoverStoppedManagedProcessesAfterRestart [⟨10123, 20, false⟩])).1 :=
  ⟨privileged_calls_are_validated.1 _ _ _ _ _ (exec_run _ _ _),
    privileged_calls_are_validated.2.1 _ _ _ _ _ (exec_run _ _ _),
    ⟨privileged_calls_are_validated.2.1 _ _ _ _ _ (exec_run _ _ _),
      List.mem_of_getElem? (i := 2) rfl⟩,
    privileged_calls_are_validated.2.2 _ _ _ (exec_run _ _ _)⟩

end Freezeit
