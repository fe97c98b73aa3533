import Freezeit.LivePass
import Freezeit.RecordBranches

/-! # The rescan of the live pass

    After a freeze the pass lists the processes of the uid again.  The live pass
    answers that from the map it made before the loop, so whatever started in
    between is not in the answer. -/

namespace Freezeit

open Prog

variable {ctx : RecordContext} {s s' : RuntimeControlState} {t : Trace}
  {r : Except DaemonError Unit} {state state' : ReadOnlyState} {lt : LiveTrace}
  {input : PassInput} {auditDue : Bool} {record : ManagerAppConfigRecord}

/-! ## From a record to its freeze -/

/-- The second listing of a record's uid. -/
def RecordContext.rescanned (ctx : RecordContext)
    (answer : Except DaemonError (List RuntimeProcess)) : Call :=
  listed ctx.record.uid answer

/-- A background record that freezes or kills has come to its decision, after at
    most a sample. -/
theorem controlBackground_decides {abnormalThaw : Bool}
    (h : Exec (ctx.controlBackground abnormalThaw s) t (r, s')) {call : Call} (hcall : call ∈ t)
    (hacts : ¬ call.Harmless) :
    ∃ s₀ early late, t = early ++ late
      ∧ (∀ c ∈ early, c.query = .sampleRxBytes ctx.record.uid ctx.packageName)
      ∧ Exec (ctx.applyDecision abnormalThaw s₀) late (r, s') := by
  unfold RecordContext.controlBackground at h
  cases hdelay : ctx.postponeForDelay abnormalThaw s with
  | some s₁ =>
    rw [hdelay] at h
    obtain ⟨rfl, -⟩ := exec_pure.mp h
    cases hcall
  | none =>
    rw [hdelay] at h
    obtain ⟨t₁, t₂, ⟨postponed, s₁⟩, rfl, h₁, h₂⟩ := exec_bind.mp h
    rcases deferDownload_spec h₁ with ⟨rfl, answer, deferral, sampled, rfl, -⟩
      | ⟨rfl, deferral, -, hsamples⟩
    · obtain ⟨rfl, -⟩ := exec_pure.mp h₂
      rw [List.append_nil, List.mem_singleton] at hcall
      subst hcall
      exact absurd ⟨fun p hp => (by cases hp), fun p hp => (by cases hp)⟩ hacts
    · exact ⟨s₁, t₁, t₂, rfl, hsamples, h₂⟩

/-- An unblocked record that does anything has come to a decision, with only traffic
    samples before it. -/
theorem controlUnblocked_decides (h : Exec (ctx.controlUnblocked auditDue s) t (r, s'))
    {call : Call} (hcall : call ∈ t) (hacts : ¬ call.Harmless) :
    ∃ abnormalThaw s₀ early late, t = early ++ late
      ∧ (∀ c ∈ early, c.query = .sampleRxBytes ctx.record.uid ctx.packageName)
      ∧ Exec (ctx.applyDecision abnormalThaw s₀) late (r, s') := by
  unfold RecordContext.controlUnblocked at h
  split at h
  · obtain ⟨-, ⟨-, rfl, -⟩ | ⟨-, outcome, operation, hexec, -⟩⟩ := thawForeground_spec h
    · cases hcall
    · exact absurd (unfreezeIdentityProcesses_harmless hexec call hcall) hacts
  · split at h
    · split at h
      · obtain ⟨-, outcome, operation, hexec, -⟩ := wakeUp_spec h
        exact absurd (unfreezeIdentityProcesses_harmless hexec call hcall) hacts
      · split at h
        · obtain ⟨rfl, -⟩ := exec_pure.mp h
          cases hcall
        · exact ⟨true, controlBackground_decides h hcall hacts⟩
    · exact ⟨false, controlBackground_decides h hcall hacts⟩

/-- The same for the whole loop body. -/
theorem controlProcesses_decides (h : Exec (ctx.controlProcesses auditDue s) t (r, s'))
    {call : Call} (hcall : call ∈ t) (hacts : ¬ call.Harmless) :
    ∃ abnormalThaw s₀ early late, t = early ++ late
      ∧ (∀ c ∈ early, c.query = .sampleRxBytes ctx.record.uid ctx.packageName)
      ∧ Exec (ctx.applyDecision abnormalThaw s₀) late (r, s') := by
  unfold RecordContext.controlProcesses at h
  split at h
  · obtain ⟨s₁, hsteps, -⟩ := releaseProtected_steps h
    exact absurd (hsteps.harmless call hcall) hacts
  · split at h
    · split at h
      · obtain ⟨rfl, -⟩ := exec_pure.mp h
        cases hcall
      · exact controlUnblocked_decides h hcall hacts
    · exact controlUnblocked_decides h hcall hacts

/-! ## From the freeze to the rescan -/

/-- The call lists processes. -/
def Call.Discovers (call : Call) : Prop := ∃ name uid, call.query = .discoverProcesses name uid

/-- A freeze transaction lists no processes. -/
theorem FreezeRun.not_discovers {control : RuntimeProcess → RuntimeProcess}
    {ps : List RuntimeProcess} {outcome : FreezeTransactionOutcome}
    (h : FreezeRun control ps t outcome) : ∀ call ∈ t, ¬ call.Discovers := by
  intro call hcall hdiscovers
  obtain ⟨name, uid, hquery⟩ := hdiscovers
  obtain ⟨p, -, heq | heq | heq⟩ := h.calls hcall
  · rw [hquery] at heq
    cases heq
  · rw [hquery] at heq
    cases heq
  · rw [hquery] at heq
    cases heq

/-- The ledger lists no processes. -/
theorem not_discovers_of_ledger (h : ∀ call ∈ t, LedgerCall call) :
    ∀ call ∈ t, ¬ call.Discovers := by
  intro call hcall hdiscovers
  obtain ⟨name, uid, hquery⟩ := hdiscovers
  obtain ⟨pid, start, heq⟩ | ⟨pid, start, heq⟩ := h call hcall
  · rw [hquery] at heq
    cases heq
  · rw [hquery] at heq
    cases heq

/-- A stop transaction lists no processes. -/
theorem StopRun.not_discovers {ps : List RuntimeProcess} {outcome : FreezeTransactionOutcome}
    (h : StopRun ps t outcome) : ∀ call ∈ t, ¬ call.Discovers := by
  obtain ⟨stops, ledger, rfl, hstops, hledger⟩ := h.split
  intro call hcall
  cases List.mem_append.mp hcall with
  | inl hcall => exact hstops.not_discovers call hcall
  | inr hcall => exact not_discovers_of_ledger hledger call hcall

/-- A kill lists no processes, so that a listing in a decision is its rescan. -/
theorem TerminateRun.not_discovers {ps : List RuntimeProcess}
    {outcome : TerminateTransactionOutcome} (h : TerminateRun ps t outcome) : ∀ call ∈ t, ¬ call.Discovers := by
  intro call hcall hdiscovers
  obtain ⟨name, uid, hquery⟩ := hdiscovers
  obtain ⟨p, -, heq⟩ | ⟨-, p, -, heq⟩ := h.calls hcall
  · rw [hquery] at heq
    cases heq
  · rw [hquery] at heq
    cases heq

/-- The state after a freeze whose rescan found nothing new. -/
def RecordContext.frozen (ctx : RecordContext) (abnormalThaw : Bool) (decision : FreezeDecision)
    (s : RuntimeControlState) : RuntimeControlState :=
  ctx.finish abnormalThaw decision .freeze .success
    (((s.trackFrozen ctx.identity ctx.input.timestampMs .cgroupBinder).requestNetworkRestriction
      ctx.record).removePending ctx.identity)

/-- A decision other than to freeze lists no processes. -/
theorem DecisionStep.not_discovers {decision : FreezeDecision}
    (h : DecisionStep ctx decision s t r s') (haction : decision.action ≠ .freeze) :
    ∀ call ∈ t, ¬ call.Discovers := by
  have happend : ∀ {t₁ t₂ : Trace}, (∀ call ∈ t₁, ¬ call.Discovers) →
      (∀ call ∈ t₂, ¬ call.Discovers) → ∀ call ∈ t₁ ++ t₂, ¬ call.Discovers := by
    intro t₁ t₂ h₁ h₂ call hcall
    cases List.mem_append.mp hcall with
    | inl hcall => exact h₁ call hcall
    | inr hcall => exact h₂ call hcall
  cases h with
  | idle =>
    intro call hcall
    cases hcall
  | stopped _ _ hledger hstop => exact happend (not_discovers_of_ledger hledger) hstop.not_discovers
  | stopFailed _ _ hledger hstop =>
    exact happend (not_discovers_of_ledger hledger) hstop.not_discovers
  | terminated _ _ hrun => exact hrun.not_discovers
  | terminateFailed _ _ hrun => exact hrun.not_discovers
  | fallbackStopped _ hd => exact absurd hd haction
  | fallbackFailed _ hd => exact absurd hd haction
  | rescanFailed _ hd => exact absurd hd haction
  | frozen _ hd => exact absurd hd haction
  | rescanThawed _ hd => exact absurd hd haction

/-- The fallback to SIGSTOP lists no processes. -/
theorem freezeFailed_not_discovers {outcome : FreezeTransactionOutcome} {failure : String}
    (h : Exec (ctx.freezeFailed outcome failure s) t (r, s')) : ∀ call ∈ t, ¬ call.Discovers := by
  obtain ⟨t₁, t₂, ⟨report, s₁⟩, rfl, h₁, h₂⟩ := exec_bind.mp h
  obtain ⟨rfl, -⟩ := exec_pure.mp h₂
  -- The policy of a record always falls back to SIGSTOP.
  obtain ⟨t₃, t₄, signal, rfl, h₃, h₄⟩ := exec_bind.mp h₁
  obtain ⟨stops, ledger, rfl, hstops, hledger, -⟩ :=
    applySignalStopFreezeTransaction_spec promotionLoop_never_calls h₃
  have hstop : StopRun ctx.pendingProcesses (stops ++ ledger) signal.transaction :=
    ⟨stops, ledger, rfl, hstops, hledger⟩
  have hend : t₄ = [] := by
    dsimp only at h₄
    cases hfail : signal.transaction.failure with
    | none =>
      rw [hfail] at h₄
      exact (exec_pure.mp h₄).1
    | some _ =>
      rw [hfail] at h₄
      exact (exec_pure.mp h₄).1
  rw [hend, List.append_nil, List.append_nil]
  exact hstop.not_discovers

/-- A decision that lists processes has frozen them with the freezer. -/
theorem applyDecision_rescans {abnormalThaw : Bool}
    (h : Exec (ctx.applyDecision abnormalThaw s) t (r, s')) {call : Call} (hcall : call ∈ t)
    (hdiscovers : call.Discovers) :
    ∃ binder freezing outcome answer rest,
      t = ⟨.binderAvailable, binder⟩ :: (freezing ++ ctx.rescanned answer :: rest)
        ∧ FreezeRun id ctx.pendingProcesses freezing outcome ∧ outcome.failure = none
        ∧ ∀ post, answer = .ok post → ctx.newPids post = [] →
          rest = [] ∧ s' = ctx.frozen abnormalThaw (ctx.decide binder) s := by
  obtain ⟨binder, t', rfl, hstep⟩ := applyDecision_step h
  have hlater : call ∈ t' := by
    cases List.mem_cons.mp hcall with
    | inl heq =>
      obtain ⟨name, uid, hquery⟩ := hdiscovers
      rw [heq] at hquery
      cases hquery
    | inr hlater => exact hlater
  -- Only the generic freezer looks again, and only after its transaction succeeded.
  by_cases haction : (ctx.decide binder).action = .freeze
  · obtain ⟨binder', t'', heq, hrest⟩ := exec_ask_bind.mp h
    cases heq
    dsimp only at hrest
    rw [haction] at hrest
    obtain ⟨t₁, t₂, outcome, rfl, h₁, h₂⟩ := exec_bind.mp hrest
    have hrun : FreezeRun id ctx.pendingProcesses t₁ outcome := applyFreezeTransaction_spec h₁
    cases hfail : outcome.failure with
    | some failure =>
      rw [hfail] at h₂
      cases List.mem_append.mp hlater with
      | inl hfirst => exact absurd hdiscovers (hrun.not_discovers call hfirst)
      | inr hsecond => exact absurd hdiscovers (freezeFailed_not_discovers h₂ call hsecond)
    | none =>
      rw [hfail] at h₂
      obtain ⟨answer, t₃, rfl, h₃⟩ := exec_ask_bind.mp h₂
      refine ⟨binder, t₁, outcome, answer, t₃, rfl, hrun, hfail, ?_⟩
      intro post hpost hnew
      subst hpost
      simp only [hnew, List.isEmpty_nil, if_true] at h₃
      obtain ⟨rfl, heq⟩ := exec_pure.mp h₃
      exact ⟨rfl, (Prod.mk.inj heq).2⟩
  · exact absurd hdiscovers (hstep.not_discovers haction call hlater)

/-! ## A freeze in a step -/

/-- In the step the freezer took all processes of the context; `calls` are its
    calls up to the rescan. -/
structure FrozeUntil (m : Moment) (ctx : RecordContext) (calls : Trace) : Prop where
  listed : ∃ auditDue first others early, m.work = .record ctx.input auditDue ctx.record
    ∧ ctx = listedContext ctx.input ctx.record first others
    ∧ calls = Freezeit.listed ctx.record.uid (.ok (first :: others))
      :: (early ++ (validatedCalls ctx.pendingProcesses ++ frozenCalls id ctx.pendingProcesses))
  rescan : ∃ answer rest, m.calls = calls ++ ctx.rescanned answer :: rest

/-- The last operation that the step has logged. -/
def Moment.operation? (m : Moment) : Option ControlOperation :=
  m.after.operationLog.records.getLast?

/-- The step reports a success, keeps the app tracked and has thawed nothing, whatever the
    app had started in the meantime. -/
structure FreezesSilently (m : Moment) (ctx : RecordContext) : Prop where
  tracked  : ctx.identity ∈ m.after.frozenApps
  reported : ∃ operation, m.operation? = some operation ∧ operation.action = .freeze
    ∧ operation.result = .success ∧ operation.uid = ctx.record.uid
  thawless : ∀ call ∈ m.calls, ∀ p, call.query ≠ .unfreezeProcess p

/-- The ring always keeps the operation that was pushed last. -/
theorem getLast?_push (log : OperationLog) (operation : ControlOperation) :
    (log.push operation).records.getLast? = some operation := by
  unfold OperationLog.push
  split
  · exact List.getLast?_concat
  · exact List.getLast?_concat

/-- What is reported of a freeze in which the rescan saw nobody new. -/
theorem frozen_report (ctx : RecordContext) (abnormalThaw : Bool) (decision : FreezeDecision)
    (s : RuntimeControlState) :
    ∃ operation, (ctx.frozen abnormalThaw decision s).operationLog.records.getLast? = some operation
      ∧ operation.action = .freeze ∧ operation.result = .success ∧ operation.uid = ctx.record.uid :=
  ⟨_, getLast?_push _ _, rfl, rfl, rfl⟩

/-- A transaction that succeeds thaws nothing. -/
theorem FreezeRun.thawless {control : RuntimeProcess → RuntimeProcess} {ps : List RuntimeProcess}
    {outcome : FreezeTransactionOutcome} (h : FreezeRun control ps t outcome)
    (hfailure : outcome.failure = none) :
    ∀ call ∈ t, ∀ p, call.query ≠ .unfreezeProcess p := by
  intro call hcall p hthaw
  cases h with
  | refused => cases hfailure
  | rolledBack => cases hfailure
  | frozen =>
    cases List.mem_append.mp hcall with
    | inl hcall =>
      obtain ⟨q, -, rfl⟩ := List.mem_map.mp hcall
      cases hthaw
    | inr hcall =>
      obtain ⟨q, -, hcall⟩ := List.mem_flatMap.mp hcall
      cases hcall with
      | head => cases hthaw
      | tail _ hcall =>
        rw [List.mem_singleton.mp hcall] at hthaw
        cases hthaw

/-- Nothing that the list holds is new. -/
theorem newPids_same (ctx : RecordContext) : ctx.newPids ctx.processes = [] := by
  unfold RecordContext.newPids
  rw [List.map_eq_nil_iff, List.filter_eq_nil_iff]
  intro p hp hnew
  rw [Bool.and_eq_true, Bool.not_eq_true', decide_eq_true_eq] at hnew
  have hpid : p.pid ∈ ctx.pendingProcesses.map RuntimeProcess.pid := by
    unfold RecordContext.pendingProcesses
    rw [List.map_map]
    exact List.mem_map.mpr ⟨p, hp, rfl⟩
  rw [List.contains_iff_mem.mpr hpid] at hnew
  cases hnew.2

/-- If every listing of the step gives the same list, the freeze is a success. -/
theorem FrozeUntil.freezesSilently {m : Moment} {calls : Trace} (h : FrozeUntil m ctx calls)
    (hexec : Exec (controlRecord ctx.input auditDue ctx.record m.before) m.calls (r, m.after))
    (hsame : ∀ first second, Freezeit.listed ctx.record.uid first ∈ m.calls →
      Freezeit.listed ctx.record.uid second ∈ m.calls → first = second) :
    FreezesSilently m ctx := by
  obtain ⟨auditDue', first, others, early, -, hctx, hcalls⟩ := h.listed
  obtain ⟨answer, rest, hrescan⟩ := h.rescan
  rw [hcalls] at hrescan
  unfold controlRecord at hexec
  split at hexec
  · have hnil := (exec_pure.mp hexec).1
    rw [hnil] at hrescan
    cases hrescan
  obtain ⟨answer', t', hsplit, hrest⟩ := exec_ask_bind.mp hexec
  rw [hsplit] at hrescan
  obtain ⟨hhead, htail⟩ := List.cons.inj hrescan
  cases hhead
  have hcontrolled : Exec (ctx.controlProcesses auditDue m.before) t' (r, m.after) := by
    rw [hctx]
    exact hrest
  -- The step is the record of the app with the processes of its first listing.
  have hfirst : ctx.processes = first :: others := by
    rw [hctx]
    rfl
  have hfroze : (⟨.freezeProcess first.pendingFreeze, .ok ()⟩ : Call) ∈ t' := by
    rw [htail]
    refine List.mem_append_left _ (List.mem_append_right _ (List.mem_append_right _ ?_))
    refine List.mem_flatMap.mpr ⟨first.pendingFreeze, ?_, List.mem_cons_of_mem _ List.mem_cons_self⟩
    unfold RecordContext.pendingProcesses
    rw [hfirst]
    exact List.mem_cons_self
  -- A process was frozen, so there was a decision, and the second listing belongs to it.
  obtain ⟨abnormalThaw, s₀, before, after, rfl, hsamples, hdecision⟩ :=
    controlProcesses_decides hcontrolled hfroze fun hharmless => hharmless.1 _ rfl
  have hmem : ctx.rescanned answer ∈ before ++ after := by
    rw [htail]
    exact List.mem_append_right _ List.mem_cons_self
  have hlate : ctx.rescanned answer ∈ after := by
    cases List.mem_append.mp hmem with
    | inl hsample => cases hsamples _ hsample
    | inr hlate => exact hlate
  obtain ⟨binder, freezing, outcome, answer', rest', rfl, hrun, hfailure, hfrozen⟩ :=
    applyDecision_rescans hdecision hlate ⟨_, _, rfl⟩
  -- Both listings give the same processes, hence no newcomers.
  have hanswer : answer' = .ok ctx.processes := by
    rw [hfirst]
    apply hsame
    · rw [hsplit]
      exact List.mem_cons_of_mem _ (List.mem_append_right _ (List.mem_cons_of_mem _
        (List.mem_append_right _ List.mem_cons_self)))
    · rw [hsplit]
      exact List.mem_cons_self
  obtain ⟨rfl, hafter⟩ := hfrozen ctx.processes hanswer (newPids_same ctx)
  refine ⟨?_, ?_, ?_⟩
  · rw [hafter]
    show ctx.identity ∈ s₀.frozenApps.insert ctx.identity ()
    exact SortedMap.mem_insert.mpr (.inl rfl)
  · unfold Moment.operation?
    rw [hafter]
    exact frozen_report ctx abnormalThaw _ s₀
  · intro call hcall p hthaw
    rw [hsplit] at hcall
    cases hcall with
    | head => cases hthaw
    | tail _ hcall =>
      cases List.mem_append.mp hcall with
      | inl hsample =>
        rw [hsamples call hsample] at hthaw
        cases hthaw
      | inr hcall =>
        cases hcall with
        | head => cases hthaw
        | tail _ hcall =>
          cases List.mem_append.mp hcall with
          | inl hcall => exact hrun.thawless hfailure call hcall p hthaw
          | inr hcall =>
            rw [List.mem_singleton.mp hcall] at hthaw
            cases hthaw

/-! ## The live pass -/

deriving instance DecidableEq for PassInput

/-- What a live pass has read before its loop. -/
structure LiveInputs where
  processesByUid : SortedMap Nat (List RuntimeProcess)
  uidRxBytes     : Option (Except IoError (SortedMap Nat Nat))
  pass           : PassInput
  deriving DecidableEq

/-- The closures of the live pass. -/
def LiveInputs.callbacks (inputs : LiveInputs) : (query : Query) → Live query.Answer :=
  liveCallback inputs.processesByUid inputs.uidRxBytes

/-- The live pass up to its loop. -/
def liveSetup (state : ReadOnlyState) : Live (Except DaemonError LiveInputs) := do
  let reading ← liveCall .readProc
  match discoverManagedUidProcesses reading (controlledUids state.appConfig) with
  | .error error => return .error error
  | .ok discovered =>
    let processesByUid ← reconcileByUid discovered.entries discovered
    match ← liveCall .queryForegroundUids with
    | .error error => return .error error
    | .ok foregroundUids =>
      let timestampMs ← liveCall .now
      let uidRxBytes ← sampleForCandidates processesByUid
      return .ok ⟨processesByUid, uidRxBytes,
        ⟨state.appConfig, state.settings, foregroundUids, timestampMs⟩⟩

/-- The loop of the live pass and what follows it. -/
def liveControl (state : ReadOnlyState) (s : RuntimeControlState) (inputs : LiveInputs) :
    Live (Except DaemonError Unit × ReadOnlyState × RuntimeControlState) := do
  let (result, s) ← (runControlPass inputs.pass s).interpret inputs.callbacks
  match result with
  | .error error => return (.error error, state, s)
  | .ok () =>
    let (rows, s) := s.freezeStatusRecords state.appConfig inputs.processesByUid
      inputs.pass.foregroundUids inputs.pass.timestampMs
    return (.ok (), { state with freezeStatus := rows }, s)

/-- The live pass is its setup, and then the loop over the callbacks. -/
theorem runLiveControlPass_eq (hrun : shouldRunControlPass state = true) :
    runLiveControlPass state s = (do
      match ← liveSetup state with
      | .error error => return (.error error, state, s)
      | .ok inputs   => liveControl state s inputs) := by
  unfold runLiveControlPass liveSetup
  rw [if_neg (by simp [hrun]), bind_assoc]
  refine congrArg _ (funext fun reading => ?_)
  cases discoverManagedUidProcesses reading (controlledUids state.appConfig) with
  | error error => rfl
  | ok discovered =>
    dsimp only
    rw [bind_assoc]
    refine congrArg _ (funext fun processesByUid => ?_)
    rw [bind_assoc]
    refine congrArg _ (funext fun foregroundUids => ?_)
    match foregroundUids with
    | .error error => rfl
    | .ok foregroundUids =>
      dsimp only
      rw [bind_assoc]
      refine congrArg _ (funext fun timestampMs => ?_)
      rw [bind_assoc]
      rfl

/-- The loop of a live pass, step by step, after the calls `setup`. -/
inductive LiveLoop (state : ReadOnlyState) (s : RuntimeControlState) (lt : LiveTrace) :
    LiveTrace → LiveInputs → List Moment → Prop where
  | loop : ∀ {setup control inputs ms r s'},
      Exec (liveSetup state) setup (.ok inputs) → PassMoments inputs.pass s ms r s' →
      Handled inputs.callbacks (Moment.traceOf ms) control → lt = setup ++ control →
      LiveLoop state s lt setup inputs ms

/-- A live pass fails before its loop, or goes through it. -/
theorem runLiveControlPass_loop (hrun : shouldRunControlPass state = true)
    (h : Exec (runLiveControlPass state s) lt (r, state', s')) :
    (∃ error, r = .error error ∧ s' = s)
      ∨ ∃ setup inputs ms, LiveLoop state s lt setup inputs ms := by
  rw [runLiveControlPass_eq hrun] at h
  obtain ⟨setup, t₁, start, rfl, hsetup, h₁⟩ := exec_bind.mp h
  match start with
  | .error error =>
    obtain ⟨-, heq⟩ := exec_pure.mp h₁
    cases heq
    exact .inl ⟨error, rfl, rfl⟩
  | .ok inputs =>
    obtain ⟨control, t₂, ⟨r₁, s₁⟩, rfl, hpass, h₂⟩ := exec_bind.mp h₁
    have hend : t₂ = [] := by
      match r₁ with
      | .error error => exact (exec_pure.mp h₂).1
      | .ok ()       => exact (exec_pure.mp h₂).1
    subst hend
    obtain ⟨t, hloop, hhandled⟩ := exec_interpret.mp hpass
    obtain ⟨ms, hms, rfl⟩ := exec_runControlPass_iff.mp hloop
    exact .inr ⟨setup, inputs, ms, .loop hsetup hms hhandled (by rw [List.append_nil])⟩

/-- Every such loop is one of a live pass. -/
theorem LiveLoop.exec {setup : LiveTrace} {inputs : LiveInputs} {ms : List Moment}
    (hrun : shouldRunControlPass state = true) (h : LiveLoop state s lt setup inputs ms) :
    ∃ out, Exec (runLiveControlPass state s) lt out := by
  cases h with
  | loop hsetup hms hhandled hsplit =>
  rename_i control r s'
  have hpass : Exec ((runControlPass inputs.pass s).interpret inputs.callbacks) control (r, s') :=
    exec_interpret.mpr ⟨_, exec_runControlPass_iff.mpr ⟨_, hms, rfl⟩, hhandled⟩
  rw [runLiveControlPass_eq hrun, hsplit]
  match r with
  | .error error =>
    exact ⟨_, exec_bind.mpr ⟨setup, control, _, rfl, hsetup,
      exec_bind.mpr ⟨control, [], _, (List.append_nil _).symm, hpass, .done _⟩⟩⟩
  | .ok () =>
    exact ⟨_, exec_bind.mpr ⟨setup, control, _, rfl, hsetup,
      exec_bind.mpr ⟨control, [], _, (List.append_nil _).symm, hpass, .done _⟩⟩⟩

/-- The calls of the live pass up to the rescan of a step. -/
def RescanAfter (lt setup : LiveTrace) (inputs : LiveInputs) (ms : List Moment) (m : Moment)
    (ctx : RecordContext) (before : LiveTrace) : Prop :=
  ∃ past future calls control, ms = past ++ m :: future ∧ FrozeUntil m ctx calls
    ∧ Handled inputs.callbacks (Moment.traceOf past ++ calls) control
    ∧ before = setup ++ control ∧ before <+: lt

/-- `/proc` lists a process of the uid that the freeze did not take. -/
def Newcomer (reading : ProcReading) (ctx : RecordContext) : Prop :=
  ∃ p ∈ procProcesses reading ctx.record.uid, p.pid ∉ ctx.pendingProcesses.map RuntimeProcess.pid

/-- The step tried to thaw every process again, or reports a partial freeze. -/
def RollsBack (m : Moment) (ctx : RecordContext) : Prop :=
  (∀ p ∈ ctx.pendingProcesses, ∃ q answer, q.key = p.key
      ∧ (⟨.unfreezeProcess q, answer⟩ : Call) ∈ m.calls)
    ∨ ∃ operation, m.operation? = some operation ∧ operation.result = .partially

/-- The step reports a success and tracks the app as frozen by the freezer. -/
def ReportsSuccess (m : Moment) (ctx : RecordContext) : Prop :=
  (∃ operation, m.operation? = some operation ∧ operation.result = .success)
    ∧ ctx.identity ∈ m.after.frozenApps
    ∧ m.after.frozenOwnership.get? ctx.identity = some .cgroupBinder

/-- If `/proc` lists a newcomer at the time of a rescan, the step rolls back and
    does not report a success.  `procAt` is what `/proc` lists after the calls
    so far. -/
def RescanSees (procAt : LiveTrace → ProcReading) (lt setup : LiveTrace) (inputs : LiveInputs)
    (ms : List Moment) : Prop :=
  ∀ m ctx before, RescanAfter lt setup inputs ms m ctx before → Newcomer (procAt before) ctx →
    RollsBack m ctx ∧ ¬ ReportsSuccess m ctx

/-- A freeze that reports success has thawed nobody. -/
theorem FreezesSilently.not_rollsBack {m : Moment} (h : FreezesSilently m ctx)
    (hne : ctx.pendingProcesses ≠ []) : ¬ RollsBack m ctx := by
  intro hrolls
  rcases hrolls with hthaws | ⟨operation, hlast, hpartial⟩
  · obtain ⟨p, hp⟩ := List.exists_mem_of_ne_nil _ hne
    obtain ⟨q, answer, -, hcall⟩ := hthaws p hp
    exact h.thawless _ hcall q rfl
  · obtain ⟨operation', hlast', -, hsuccess, -⟩ := h.reported
    rw [hlast'] at hlast
    cases hlast
    rw [hsuccess] at hpartial
    cases hpartial

/-- Whatever started during a freeze, the step reports a success. -/
theorem LiveLoop.freezesSilently {setup before : LiveTrace} {inputs : LiveInputs}
    {ms : List Moment} {m : Moment} (h : LiveLoop state s lt setup inputs ms)
    (hrescan : RescanAfter lt setup inputs ms m ctx before) : FreezesSilently m ctx := by
  obtain ⟨past, future, calls, control, rfl, hfroze, -, -, -⟩ := hrescan
  cases h with
  | loop _ hms hhandled _ =>
    have hanswer : ∀ answer, listed ctx.record.uid answer ∈ m.calls →
        answer = .ok ((inputs.processesByUid.get? ctx.record.uid).getD []) := by
      intro answer hanswer
      have hmem : listed ctx.record.uid answer ∈ Moment.traceOf (past ++ m :: future) := by
        rw [Moment.traceOf_append, Moment.traceOf_cons]
        exact List.mem_append_right _ (List.mem_append_left _ hanswer)
      obtain ⟨t', hexec⟩ := hhandled.exec hmem
      exact (exec_pure.mp hexec).2
    obtain ⟨auditDue, first, others, early, hwork, -, -⟩ := hfroze.listed
    have hexact := hms.exact m (List.mem_append_right _ List.mem_cons_self)
    cases hexact with
    | record hexec =>
      cases hwork
      refine hfroze.freezesSilently hexec ?_
      intro first second hfirst hsecond
      rw [hanswer first hfirst, hanswer second hsecond]
    | release => cases hwork
    | thawAll => cases hwork
    | freezeStatus => cases hwork
    | takeNetworkRestrictions => cases hwork
    | requeueNetworkRestriction => cases hwork

/-- The rescan of a live pass sees the newcomers only when there are none, since it is
    answered from the listing that the pass began with. -/
theorem rescan_sees_newcomers_iff {setup : LiveTrace} {inputs : LiveInputs} {ms : List Moment}
    (procAt : LiveTrace → ProcReading) (h : LiveLoop state s lt setup inputs ms) :
    RescanSees procAt lt setup inputs ms ↔
      ∀ m ctx before, RescanAfter lt setup inputs ms m ctx before →
        ¬ Newcomer (procAt before) ctx := by
  constructor
  · intro hsees m ctx before hrescan hnewcomer
    obtain ⟨past, future, calls, control, -, hfroze, -⟩ := id hrescan
    obtain ⟨auditDue, first, others, early, -, hctx, -⟩ := hfroze.listed
    have hne : ctx.pendingProcesses ≠ [] := by
      rw [hctx]
      exact List.cons_ne_nil _ _
    exact (h.freezesSilently hrescan).not_rollsBack hne (hsees m ctx before hrescan hnewcomer).1
  · intro hnone m ctx before hrescan hnewcomer
    exact absurd hnewcomer (hnone m ctx before hrescan)

/-! ### A sample

    One process is frozen; the other starts meanwhile. -/

/-- `/proc` lists the processes of uid 10123 with these pids. -/
def startedReading (pids : List String) : ProcReading where
  procExists := true
  entries    := .ok (pids.map fun pid => .ok
    { fileName        := some pid
      status          := .ok "Name:\tcom.example.app\nUid:\t10123\t10123\t10123\t10123\n"
      cmdline         := .ok "com.example.app\x00"
      stat            := .ok
        (pid ++ " (com.example.app) S 1 501 0 0 -1 0 0 0 0 0 0 0 0 0 20 0 1 0 4242 0")
      binderSnapshots := [] })
  pathExists := fun _ => true

/-- A second process starts at the first freeze. -/
def startedAt (before : LiveTrace) : ProcReading :=
  if before.any fun call => match call.query with
    | .control (.freezeProcess _) => true
    | _ => false
  then startedReading ["501", "502"]
  else startedReading ["501"]

/-- One app of mode 30 under an active hook, with no freeze delay. -/
def sampleState : ReadOnlyState :=
  { ReadOnlyState.default with
    appConfig        := [⟨10123, 30, false⟩]
    settings         := ReadOnlyState.default.settings.set 2 0
    controlAllowed   := true
    hookHealth       := "active"
    hookConfigSynced := true }

/-- Its process, as discovery reports it. -/
def listedProcess : RuntimeProcess :=
  { sampleProcess with
    cgroupFreezePath := some "/sys/fs/cgroup/apps/uid_10123/pid_501/cgroup.freeze"
    binderState      := some "binder_queue unknown context_switches unavailable" }

/-- What the setup hands to the loop. -/
def sampleInputs : LiveInputs where
  processesByUid := SortedMap.insert ∅ 10123 [listedProcess]
  uidRxBytes     := none
  pass           := { samplePass 30 with settings := sampleState.settings }

/-- Answers for a system in which a second process appears during the freeze. -/
def startedAnswer (past : LiveTrace) : (query : LiveQuery) → query.Answer :=
  liveAnswer (startedAt past) past

/-- The calls of the setup. -/
def sampleSetup : LiveTrace := (run startedAnswer [] (liveSetup sampleState)).1

/-- The setup ends with these inputs. -/
theorem sampleSetup_exec : Exec (liveSetup sampleState) sampleSetup (.ok sampleInputs) := by
  have hinputs : (run startedAnswer [] (liveSetup sampleState)).2 = .ok sampleInputs := by
    decide +kernel
  rw [← hinputs]
  exact exec_run _ _ _

/-- Callbacks that list what discovery found. -/
def sampleCallbacks : StaticEnvironment where
  discover uid := .ok ((sampleInputs.processesByUid.get? uid).getD [])

/-- The steps of the loop. -/
def sampleSteps : List Moment := (sampleCallbacks.passMoments sampleInputs.pass .default).1

/-- It validates and freezes the process, and looks again. -/
theorem sampleSteps_calls : Moment.traceOf sampleSteps =
    [listed 10123 (.ok [listedProcess]), ⟨.binderAvailable, true⟩,
      validated listedProcess.pendingFreeze, validated listedProcess.pendingFreeze,
      frozen listedProcess.pendingFreeze, listed 10123 (.ok [listedProcess])] := rfl

/-- The callbacks that reach the system: the two listings are answered from the map. -/
def sampleCalls : LiveTrace :=
  [⟨.control .binderAvailable, true⟩,
    ⟨.control (.validateProcess listedProcess.pendingFreeze), .ok true⟩,
    ⟨.control (.validateProcess listedProcess.pendingFreeze), .ok true⟩,
    ⟨.control (.freezeProcess listedProcess.pendingFreeze), .ok ()⟩]

/-- They are what the loop's calls come down to. -/
theorem sampleSteps_handled :
    Handled sampleInputs.callbacks (Moment.traceOf sampleSteps) sampleCalls := by
  rw [sampleSteps_calls]
  exact .cons (s := []) (.done _) (.cons (s := [_]) (exec_ask.mpr rfl)
    (.cons (s := [_]) (exec_ask.mpr rfl) (.cons (s := [_]) (exec_ask.mpr rfl)
    (.cons (s := [_]) (exec_ask.mpr rfl) (.cons (s := []) (.done _) .nil)))))

/-- So setup, callbacks and steps are a live loop. -/
theorem sampleSteps_loop : LiveLoop sampleState .default (sampleSetup ++ sampleCalls) sampleSetup
    sampleInputs sampleSteps :=
  .loop sampleSetup_exec (sampleCallbacks.passMoments_spec sampleInputs.pass .default)
    sampleSteps_handled rfl

/-- Its last step, the record of the app. -/
def sampleStep : Moment := sampleSteps.getLast (List.cons_ne_nil _ _)

/-- The record with the process that was found. -/
def sampleContext : RecordContext :=
  listedContext sampleInputs.pass ⟨10123, 30, false⟩ listedProcess []

/-- The second listing of the step is a rescan after a freeze. -/
theorem sampleStep_rescan : RescanAfter (sampleSetup ++ sampleCalls) sampleSetup sampleInputs
    sampleSteps sampleStep sampleContext (sampleSetup ++ sampleCalls) := by
  have hcalls : Handled sampleInputs.callbacks
      [listed 10123 (.ok [listedProcess]), ⟨.binderAvailable, true⟩,
        validated listedProcess.pendingFreeze, validated listedProcess.pendingFreeze,
        frozen listedProcess.pendingFreeze] sampleCalls :=
    .cons (s := []) (.done _) (.cons (s := [_]) (exec_ask.mpr rfl)
      (.cons (s := [_]) (exec_ask.mpr rfl) (.cons (s := [_]) (exec_ask.mpr rfl)
      (.cons (s := [_]) (exec_ask.mpr rfl) .nil))))
  refine ⟨sampleSteps.take 1, [], _, sampleCalls, rfl, ⟨?_, ?_⟩, hcalls, rfl, List.prefix_refl _⟩
  · exact ⟨_, listedProcess, [], [⟨.binderAvailable, true⟩], rfl, rfl, rfl⟩
  · exact ⟨.ok [listedProcess], [], rfl⟩

/-- While only one process runs, the rescan misses nothing. -/
theorem rescan_sees_newcomers_sample :
    RescanSees (fun _ => startedReading ["501"]) (sampleSetup ++ sampleCalls) sampleSetup
      sampleInputs sampleSteps := by
  refine (rescan_sees_newcomers_iff _ sampleSteps_loop).mpr ?_
  intro m ctx before hrescan hnewcomer
  obtain ⟨past, future, calls, control, hsplit, hfroze, -⟩ := hrescan
  obtain ⟨auditDue, first, others, early, hwork, hctx, hcalls⟩ := hfroze.listed
  obtain ⟨answer, rest, hall⟩ := hfroze.rescan
  have hmem : m ∈ sampleSteps := by
    rw [hsplit]
    exact List.mem_append_right _ List.mem_cons_self
  obtain ⟨p, hp, hnew⟩ := hnewcomer
  -- The first step is the release, the second one the record.
  rcases List.mem_cons.mp hmem with rfl | hmem
  · cases hwork
  obtain rfl := List.mem_singleton.mp hmem
  obtain ⟨-, -, hrecord⟩ := Work.record.inj hwork
  rw [← hrecord] at hp
  -- The list that was frozen is the one that discovery gave.
  have hfirst : first = listedProcess := by
    rw [hcalls, ← hrecord] at hall
    have hhead : listed 10123 (.ok [listedProcess]) = listed 10123 (.ok (first :: others)) :=
      (List.cons.inj hall).1
    cases hhead
    rfl
  have hpending : first.pid ∈ ctx.pendingProcesses.map RuntimeProcess.pid := by
    rw [hctx]
    exact List.mem_cons_self
  have hlisted : ∀ p ∈ procProcesses (startedReading ["501"]) 10123, p.pid = 501 := by
    decide +kernel
  have hpid : p.pid = 501 := hlisted p hp
  rw [hpid] at hnew
  rw [hfirst] at hpending
  exact hnew hpending

/-- A process that starts while another one of its app is frozen is not seen: the
    pass reports a success and keeps the app tracked as frozen by the freezer. -/
theorem rescan_misses_a_newcomer :
    shouldRunControlPass sampleState = true
      ∧ (∃ out, Exec (runLiveControlPass sampleState .default) (sampleSetup ++ sampleCalls) out)
      ∧ Newcomer (startedAt (sampleSetup ++ sampleCalls)) sampleContext
      ∧ ReportsSuccess sampleStep sampleContext
      ∧ ¬ RescanSees startedAt (sampleSetup ++ sampleCalls) sampleSetup sampleInputs
        sampleSteps := by
  have hrun : shouldRunControlPass sampleState = true := by decide +kernel
  have hnewcomer : Newcomer (startedAt (sampleSetup ++ sampleCalls)) sampleContext := by
    unfold Newcomer
    decide +kernel
  have hsuccess : ReportsSuccess sampleStep sampleContext :=
    ⟨⟨_, rfl, rfl⟩, by decide +kernel, by decide +kernel⟩
  refine ⟨hrun, sampleSteps_loop.exec hrun, hnewcomer, hsuccess, ?_⟩
  intro hsees
  exact (hsees _ _ _ sampleStep_rescan hnewcomer).2 hsuccess

end Freezeit
