import Freezeit.ControlLoop
import Freezeit.LogAccounting
import Freezeit.RecordBranches
import Freezeit.StateInvariant

/-! # From the operation log to the manager log

    A pass stamps its operations with increasing ids and puts them in a ring.
    The control loop then offers the whole ring to the manager log, which takes
    an operation only if its id is new. -/

namespace Freezeit

open Prog

variable {ctx : RecordContext} {s s' s'' : RuntimeControlState} {t : Trace}
  {r : Except DaemonError Unit}

/-! ## What a pass stamps -/

/-- From `s` to `s'` the operations were stamped one after the other, with no id left out,
    and pushed into the ring. -/
structure Stamps (new : List ControlOperation) (s s' : RuntimeControlState) : Prop where
  ids  : new.map ControlOperation.operationId = List.range' s.nextOperationId new.length
  next : s'.nextOperationId = s.nextOperationId + new.length
  log  : s'.operationLog = new.foldl OperationLog.push s.operationLog

/-- The log and the ids change by stamping only. -/
def StampsSome (s s' : RuntimeControlState) : Prop := ∃ new, Stamps new s s'

namespace StampsSome

/-- A step that touches neither the ring nor the next id stamps nothing. -/
theorem of_eq (hlog : s'.operationLog = s.operationLog)
    (hnext : s'.nextOperationId = s.nextOperationId) : StampsSome s s' := ⟨[], rfl, hnext, hlog⟩

/-- Two steps stamp what either of them does, in order. -/
theorem trans (h : StampsSome s s') (h' : StampsSome s' s'') : StampsSome s s'' := by
  obtain ⟨new, hids, hnext, hlog⟩ := h
  obtain ⟨new', hids', hnext', hlog'⟩ := h'
  refine ⟨new ++ new', ?_, ?_, ?_⟩
  · rw [List.map_append, List.length_append, hids, hids', hnext, List.range'_append_1]
  · rw [hnext', hnext, List.length_append]
    omega
  · rw [hlog', hlog, List.foldl_append]

/-- To push an operation stamps one. -/
theorem pushOperation (s : RuntimeControlState) (operation : ControlOperation)
    (timestampMs : Nat) : StampsSome s (s.pushOperation operation timestampMs) :=
  ⟨[{ operation with operationId := s.nextOperationId, timestampMs := timestampMs }], rfl, rfl, rfl⟩

/-- An operation is stamped, and the rest of the step changes other things. -/
theorem pushed (operation : ControlOperation) (timestampMs : Nat)
    (hlog : s'.operationLog = (s.pushOperation operation timestampMs).operationLog)
    (hnext : s'.nextOperationId = (s.pushOperation operation timestampMs).nextOperationId) :
    StampsSome s s' :=
  (pushOperation s operation timestampMs).trans (of_eq hlog hnext)

/-- Tracking residual processes stamps nothing. -/
theorem trackResidual (ctx : RecordContext) (residual : Bool) (s : RuntimeControlState) :
    StampsSome s (ctx.trackResidual residual s) :=
  of_eq (RecordContext.trackResidual_operationLog ctx residual s)
    (RecordContext.trackResidual_nextOperationId ctx residual s)

end StampsSome

/-- A decision stamps what it reports. -/
theorem DecisionStep.stamps {decision : FreezeDecision} (h : DecisionStep ctx decision s t r s') :
    StampsSome s s' := by
  have hblocked : ∀ failure, StampsSome s (ctx.blockShared failure s) := fun _ => .of_eq rfl rfl
  cases h with
  | idle operation => exact .pushed operation ctx.input.timestampMs rfl rfl
  | @fallbackStopped _ _ outcome _ failure operation =>
    have hresidual := (hblocked failure).trans (.trackResidual ctx outcome.residualPossible _)
    exact hresidual.trans (.pushed operation ctx.input.timestampMs rfl rfl)
  | @fallbackFailed _ _ outcome stopped failure _ operation =>
    have hresidual := (hblocked failure).trans (.trackResidual ctx outcome.residualPossible _)
    have hstopped := hresidual.trans (.trackResidual ctx (decide (stopped.rollbackFailures > 0)) _)
    exact hstopped.trans (.pushed operation ctx.input.timestampMs rfl rfl)
  | rescanFailed => exact .of_eq rfl rfl
  | frozen operation => exact .pushed operation ctx.input.timestampMs rfl rfl
  | @rescanThawed _ _ _ _ rollback operation =>
    by_cases hfailures : rollback.failures.isEmpty = true
    · simp only [hfailures, if_true]
      exact .pushed operation ctx.input.timestampMs rfl rfl
    · simp only [hfailures]
      exact .pushed operation ctx.input.timestampMs rfl rfl
  | stopped operation => exact .pushed operation ctx.input.timestampMs rfl rfl
  | @stopFailed _ _ outcome failure operation =>
    have hresidual := (hblocked failure).trans
      (.trackResidual ctx (decide (outcome.rollbackFailures > 0)) _)
    exact hresidual.trans (.pushed operation ctx.input.timestampMs rfl rfl)
  | terminated operation => exact .pushed operation ctx.input.timestampMs rfl rfl
  | terminateFailed operation => exact .pushed operation ctx.input.timestampMs rfl rfl

/-- A postponed download is reported if that is new. -/
theorem postponeDownload_stamps (ctx : RecordContext) (sampled : Bool) (s : RuntimeControlState) :
    StampsSome s (ctx.postponeDownload sampled s) := by
  unfold RecordContext.postponeDownload
  dsimp only
  split
  · exact .of_eq rfl rfl
  · exact .pushed _ ctx.input.timestampMs rfl rfl

/-- The background branch stamps what it reports. -/
theorem BackgroundBranch.stamps {abnormalThaw : Bool}
    (h : BackgroundBranch ctx abnormalThaw s t r s') : StampsSome s s' := by
  have hdeferral : ∀ deferral, StampsSome s (s.setDownloadDeferral deferral) :=
    fun _ => .of_eq rfl rfl
  cases h with
  | delayed hdelay =>
    obtain ⟨-, -, ⟨_, -, -, rfl⟩ | ⟨-, operation, rfl⟩⟩ := postponeForDelay_eq_some hdelay
    · exact .of_eq rfl rfl
    · exact .pushed operation ctx.input.timestampMs rfl rfl
  | downloading => exact (hdeferral _).trans (postponeDownload_stamps ctx _ _)
  | quiet _ _ _ hdecision => exact (hdeferral _).trans hdecision.stamps
  | unsampled _ _ hdecision => exact (hdeferral _).trans hdecision.stamps

/-- Clearing the markers of a record stamps nothing. -/
theorem Cleared.stamps {s₀ : RuntimeControlState} (h : Cleared ctx s s₀) : StampsSome s s₀ := by
  cases h.unblocked.2 with
  | inl heq =>
    rw [heq]
    exact .of_eq rfl rfl
  | inr heq =>
    rw [heq]
    exact .of_eq rfl rfl

/-- A thaw of one identity stamps its report. -/
theorem ThawStep.stamps {identity : RuntimeIdentity} (h : ThawStep identity s t s') :
    StampsSome s s' := by
  cases h with
  | undiscovered error operation timestampMs => exact .pushed operation timestampMs rfl rfl
  | exited => exact .of_eq rfl rfl
  | tried operation timestampMs =>
    split
    · exact .pushed operation timestampMs rfl rfl
    · exact .pushed operation timestampMs rfl rfl

/-- Thaws stamp their reports one after the other. -/
theorem ThawSteps.stamps {identities : List RuntimeIdentity} (h : ThawSteps identities s t s') :
    StampsSome s s' := by
  induction h with
  | nil => exact .of_eq rfl rfl
  | cons hstep _ ih => exact hstep.stamps.trans ih

/-- Dropping detached ownership stamps nothing. -/
theorem clearDetached_stamps (s : RuntimeControlState) (identities : List RuntimeIdentity) :
    StampsSome s (s.clearDetached identities) := by
  rw [RuntimeControlState.clearDetached_eq]
  exact .of_eq rfl rfl

/-- An app that exited is not reported. -/
theorem clearExited_stamps (s : RuntimeControlState) (uid : Nat) :
    StampsSome s (s.clearExited uid) := by
  unfold RuntimeControlState.clearExited
  dsimp only
  rw [RuntimeControlState.clearFrozenAll_eq]
  exact .of_eq rfl rfl

/-- The release of a protected app stamps its reports. -/
theorem releaseProtected_stamps (h : Exec (ctx.releaseProtected s) t (r, s')) : StampsSome s s' := by
  obtain ⟨s₁, hsteps, rfl⟩ := releaseProtected_steps h
  have hcleared : StampsSome s (s.clearTransientControlStateForUid ctx.record.uid) := .of_eq rfl rfl
  exact (hcleared.trans hsteps.stamps).trans (clearDetached_stamps s₁ _)

/-- Whatever branch a record takes, it stamps with consecutive ids. -/
theorem RecordBranch.stamps {auditDue : Bool} (h : RecordBranch ctx auditDue s t r s') :
    StampsSome s s' := by
  cases h with
  | protectedApp _ hexec => exact releaseProtected_stamps hexec
  | blocked => exact .of_eq rfl rfl
  | foreground _ hcleared _ hexec =>
    apply hcleared.stamps.trans
    obtain ⟨-, ⟨-, -, rfl⟩ | ⟨-, outcome, operation, -, rfl⟩⟩ := thawForeground_spec hexec
    · exact .of_eq rfl rfl
    · split
      · exact .pushed operation ctx.input.timestampMs rfl rfl
      · exact .pushed operation ctx.input.timestampMs rfl rfl
  | wakeup _ hcleared _ _ _ hexec =>
    apply hcleared.stamps.trans
    obtain ⟨-, outcome, operation, -, rfl⟩ := wakeUp_spec hexec
    split
    · exact .pushed operation ctx.input.timestampMs rfl rfl
    · exact .pushed operation ctx.input.timestampMs rfl rfl
  | kept _ hcleared => exact hcleared.stamps
  | @audited s₀ _ _ _ hcleared _ hbranch =>
    have hmarked : StampsSome s₀ (s₀.markAbnormalThawForRefreeze ctx.identity) := .of_eq rfl rfl
    exact hcleared.stamps.trans (hmarked.trans hbranch.stamps)
  | background _ hcleared _ _ hbranch => exact hcleared.stamps.trans hbranch.stamps

/-- The same for the record with its listing. -/
theorem RecordRun.stamps {input : PassInput} {auditDue : Bool} {record : ManagerAppConfigRecord}
    (h : RecordRun input auditDue record s t r s') : StampsSome s s' := by
  cases h with
  | uncontrolled => exact .of_eq rfl rfl
  | undiscovered => exact .of_eq rfl rfl
  | exited => exact clearExited_stamps s record.uid
  | occupied _ _ _ hbranch => exact hbranch.stamps

/-- The records of a pass stamp one after the other. -/
theorem RecordMoments.stamps {input : PassInput} {auditDue : Bool}
    {records : List ManagerAppConfigRecord} {ms : List Moment}
    (h : RecordMoments input auditDue records s ms r s') : StampsSome s s' := by
  induction h with
  | nil => exact .of_eq rfl rfl
  | failed hexec => exact (controlRecord_run hexec).stamps
  | cons hexec _ ih => exact (controlRecord_run hexec).stamps.trans ih

/-- A pass writes to its log by stamping. -/
theorem runControlPass_stamps {input : PassInput} (h : Exec (runControlPass input s) t (r, s')) :
    StampsSome s s' := by
  obtain ⟨ms, hpass, -⟩ := exec_runControlPass_iff.mp h
  cases hpass with
  | @pass _ s₁ _ _ _ hrelease hrecords =>
    obtain ⟨s₂, hsteps, rfl⟩ := releaseStale_steps hrelease
    have hretained : StampsSome s (s.retainControlled (controlledUids input.appConfig)) :=
      .of_eq rfl rfl
    have haudit : ∀ s₀ : RuntimeControlState,
        StampsSome s₀ (refreezeAuditDue s₀ input.settings input.timestampMs).2 := by
      intro s₀
      obtain ⟨startedAt, next, heq⟩ := refreezeAuditDue_eq s₀ input.settings input.timestampMs
      rw [heq]
      exact .of_eq rfl rfl
    have hstale := (hretained.trans hsteps.stamps).trans (clearDetached_stamps s₂
      (s₂.detachedIdentities.filter fun i => i.uid ∉ controlledUids input.appConfig))
    exact hstale.trans ((haudit _).trans hrecords.stamps)

/-! ## What is left in the ring -/

/-- The ring ends in the newest operations, and drops none unless it is full. -/
theorem foldl_push_suffix {log : OperationLog} {next : Nat} (h : LogInv log next)
    (new : List ControlOperation)
    (hids : new.map ControlOperation.operationId = List.range' next new.length) :
    LogInv (new.foldl OperationLog.push log) (next + new.length)
      ∧ (new.foldl OperationLog.push log).records <:+ log.records ++ new
      ∧ ((new.foldl OperationLog.push log).records = log.records ++ new
        ∨ (new.foldl OperationLog.push log).records.length = 128) := by
  -- On the operations; the ring changes with each of them.
  induction new generalizing log next with
  | nil => exact ⟨h, by simp, .inl (by simp)⟩
  | cons operation rest ih =>
    rw [List.map_cons, List.length_cons, List.range'_succ] at hids
    obtain ⟨hid, hids⟩ := List.cons.inj hids
    obtain ⟨hinv, hsuffix, hfull⟩ := ih (h.push operation hid) hids
    have hpushed : (log.push operation).records <:+ log.records ++ [operation]
        ∧ ((log.push operation).records = log.records ++ [operation]
          ∨ (log.push operation).records.length = 128) := by
      unfold OperationLog.push
      split
      case isTrue hlength =>
        have hpos : 0 < log.records.length := by
          have hcapacity := h.capacity
          omega
        obtain ⟨first, others, hrecords⟩ := List.exists_cons_of_length_pos hpos
        have hcapacity := h.capacity
        rw [hrecords] at hlength ⊢
        refine ⟨⟨[first], rfl⟩, .inr ?_⟩
        simp only [List.tail_cons, List.length_append, List.length_cons, List.length_nil] at *
        omega
      case isFalse => exact ⟨List.suffix_rfl, .inl rfl⟩
    have hnext : next + (operation :: rest).length = next + 1 + rest.length := by
      rw [List.length_cons]
      omega
    have hall : log.records ++ operation :: rest = (log.records ++ [operation]) ++ rest := by simp
    rw [hnext, hall]
    refine ⟨hinv, hsuffix.trans (List.suffix_append_self_iff.mpr hpushed.1), ?_⟩
    -- Once an operation was dropped the ring is full, and it stays full.
    rcases hfull with hall' | hlength
    · rcases hpushed.2 with hkept | hdropped
      · exact .inl (by rw [List.foldl_cons, hall', hkept])
      · -- The ring was full already, so that it stays full.
        right
        have hbounded := hinv.bounded
        rw [List.foldl_cons]
        rw [hall', List.length_append] at hbounded ⊢
        omega
    · exact .inr hlength

/-- The last 128 operations that are stamped are in the ring. -/
theorem mem_ring {new : List ControlOperation} (h : Stamps new s s')
    (hlog : LogInv s.operationLog s.nextOperationId) {operation : ControlOperation}
    (hmem : operation ∈ new.drop (new.length - 128)) :
    operation ∈ s'.operationLog.records := by
  obtain ⟨-, hsuffix, hfull⟩ := foldl_push_suffix hlog new h.ids
  rw [h.log]
  rcases hfull with hall | hlength
  · rw [hall]
    exact List.mem_append_right _ (List.mem_of_mem_drop hmem)
  · have hlast : new.drop (new.length - 128) <:+ s.operationLog.records ++ new :=
      (List.drop_suffix _ _).trans (List.suffix_append _ _)
    apply (List.suffix_of_suffix_length_le hlast hsuffix ?_).subset hmem
    rw [hlength, List.length_drop]
    omega

/-! ## What the manager log takes -/

namespace ManagerLog

variable {log : ManagerLog} {operation : ControlOperation} {operations : List ControlOperation}

instance (log : ManagerLog) (record : LogRecord) : Decidable (log.Accepts record) :=
  inferInstanceAs (Decidable (_ ∧ _))

/-- The operations that are accepted when these are pushed one after the other. -/
def accepted : ManagerLog → List ControlOperation → List ControlOperation
  | _, [] => []
  | log, operation :: rest =>
    if log.Accepts (.operation operation) then
      operation :: accepted (log.push (.operation operation)) rest
    else accepted (log.push (.operation operation)) rest

/-- Only what is offered is accepted. -/
theorem accepted_subset (log : ManagerLog) (operations : List ControlOperation) :
    log.accepted operations ⊆ operations := by
  induction operations generalizing log with
  | nil => exact List.Subset.refl _
  | cons operation rest ih =>
    have hrest := ih (log.push (.operation operation))
    unfold accepted
    split
    · exact List.cons_subset_cons operation hrest
    · exact List.subset_cons_of_subset operation hrest

/-- The operation was stamped after the last clear. -/
def NewerThanClear (log : ManagerLog) (operation : ControlOperation) : Prop :=
  ∀ cutoff, log.operationTimestampCutoffMs = some cutoff → cutoff < operation.timestampMs

/-- An operation with an id is accepted if it is new and fits. -/
theorem accepts_operation_iff (hid : operation.operationId ≠ 0) :
    log.Accepts (.operation operation)
      ↔ log.NewerThanClear operation ∧ log.highestOperationId < operation.operationId
        ∧ retainedRecordBytes (.operation operation) ≤ maxRetainedLogBytes := by
  have hrejects : log.rejects (.operation operation) = false
      ↔ log.NewerThanClear operation ∧ log.highestOperationId < operation.operationId := by
    unfold ManagerLog.rejects LogRecord.operation NewerThanClear
    dsimp only
    rw [if_pos hid, Bool.or_eq_false_iff, decide_eq_false_iff_not, Nat.not_le]
    cases log.operationTimestampCutoffMs with
    | none => simp
    | some cutoff => simp
  unfold Accepts
  rw [hrejects, and_assoc]

/-- An accepted operation moves the high-water mark to its id. -/
theorem push_operation_accepted (hid : operation.operationId ≠ 0)
    (h : log.Accepts (.operation operation)) :
    (log.push (.operation operation)).highestOperationId = operation.operationId
      ∧ (log.push (.operation operation)).operationTimestampCutoffMs
        = log.operationTimestampCutoffMs := by
  have htaken : ¬ (log.rejects (.operation operation)
      || decide (retainedRecordBytes (.operation operation) > maxRetainedLogBytes)) = true := by
    rw [h.1, Bool.false_or, decide_eq_true_eq]
    exact Nat.not_lt.mpr h.2
  unfold push
  dsimp only
  rw [if_neg htaken]
  exact ⟨if_pos hid, rfl⟩

/-- Other records, and clearing, leave the highest id alone. -/
theorem push_highest {record : LogRecord} (h : ∀ operation, record.payload ≠ .operation operation) :
    (log.push record).highestOperationId = log.highestOperationId := by
  unfold push
  dsimp only
  split
  · rfl
  · cases hpayload : record.payload with
    | operation operation => exact absurd hpayload (h operation)
    | text message => rfl
    | verifiedLegacyLine line => rfl

/-- Other records leave the high-water mark alone. -/
theorem pushOnce_highest {record : LogRecord}
    (h : ∀ operation, record.payload ≠ .operation operation) :
    (log.pushOnce record).highestOperationId = log.highestOperationId := by
  unfold pushOnce
  split
  · rfl
  · exact push_highest h

/-- Clearing the log keeps the high-water mark, so that nothing old comes back. -/
theorem clear_highest (log : ManagerLog) (nowMs : Nat) :
    (log.clear nowMs).highestOperationId = log.highestOperationId := by
  unfold clear
  dsimp only
  split <;> rfl

/-- The accepted ids go up from the highest that the log had, to the one it has then. -/
theorem accepted_increasing (hids : ∀ operation ∈ operations, operation.operationId ≠ 0) :
    (∀ operation ∈ log.accepted operations, log.highestOperationId < operation.operationId)
      ∧ ((log.accepted operations).map ControlOperation.operationId).Pairwise (· < ·)
      ∧ (∀ operation ∈ log.accepted operations,
        operation.operationId ≤ (pushOperations log operations).highestOperationId)
      ∧ log.highestOperationId ≤ (pushOperations log operations).highestOperationId := by
  induction operations generalizing log with
  | nil => exact ⟨nofun, .nil, nofun, le_rfl⟩
  | cons operation rest ih =>
    have hid := hids operation List.mem_cons_self
    obtain ⟨hnew, hsorted, hupto, hmono⟩ := @ih (log.push (.operation operation))
      fun other hother => hids other (List.mem_cons_of_mem _ hother)
    have hpushed : pushOperations log (operation :: rest)
        = pushOperations (log.push (.operation operation)) rest := rfl
    rw [hpushed]
    -- The first operation is accepted and raises the mark, or it is skipped.
    by_cases haccepts : log.Accepts (.operation operation)
    · obtain ⟨-, hgreater, -⟩ := (accepts_operation_iff hid).mp haccepts
      have hhighest := (push_operation_accepted hid haccepts).1
      have heq : log.accepted (operation :: rest)
          = operation :: (log.push (.operation operation)).accepted rest := if_pos haccepts
      rw [heq]
      rw [hhighest] at hnew hmono
      refine ⟨?_, ?_, ?_, hgreater.le.trans hmono⟩
      · intro other hother
        rcases List.mem_cons.mp hother with rfl | hrest
        · exact hgreater
        · exact hgreater.trans (hnew other hrest)
      · rw [List.map_cons]
        refine List.pairwise_cons.mpr ⟨?_, hsorted⟩
        intro id hmem
        obtain ⟨other, hother, rfl⟩ := List.mem_map.mp hmem
        exact hnew other hother
      · intro other hother
        rcases List.mem_cons.mp hother with rfl | hrest
        · exact hmono
        · exact hupto other hrest
    · have heq : log.accepted (operation :: rest)
          = (log.push (.operation operation)).accepted rest := if_neg haccepts
      rw [heq]
      rw [push_of_not_accepts haccepts] at hnew hmono hupto ⊢
      exact ⟨hnew, by rwa [push_of_not_accepts haccepts] at hsorted, hupto, hmono⟩

/-- An id that the log and all the operations stay below is not reached. -/
theorem highest_pushOperations {next : Nat} (h : log.highestOperationId < next)
    (hids : ∀ operation ∈ operations, operation.operationId ≠ 0)
    (hbelow : ∀ operation ∈ operations, operation.operationId < next) :
    (pushOperations log operations).highestOperationId < next := by
  induction operations generalizing log with
  | nil => exact h
  | cons operation rest ih =>
    have hstep : (log.push (.operation operation)).highestOperationId < next := by
      by_cases haccepts : log.Accepts (.operation operation)
      · rw [(push_operation_accepted (hids operation List.mem_cons_self) haccepts).1]
        exact hbelow operation List.mem_cons_self
      · rwa [push_of_not_accepts haccepts]
    exact ih hstep (fun other hother => hids other (List.mem_cons_of_mem _ hother))
      fun other hother => hbelow other (List.mem_cons_of_mem _ hother)

/-- Of operations with increasing ids each one is accepted that is newer than
    the last clear and fits. -/
theorem mem_accepted (hids : ∀ operation ∈ operations, operation.operationId ≠ 0)
    (hsorted : operations.Pairwise fun a b => a.operationId < b.operationId)
    (hmem : operation ∈ operations) (hnewer : log.NewerThanClear operation)
    (hhighest : log.highestOperationId < operation.operationId)
    (hfits : retainedRecordBytes (.operation operation) ≤ maxRetainedLogBytes) :
    operation ∈ log.accepted operations := by
  induction operations generalizing log with
  | nil => exact absurd hmem List.not_mem_nil
  | cons first rest ih =>
    obtain ⟨hbefore, hsorted⟩ := List.pairwise_cons.mp hsorted
    have hfirst := hids first List.mem_cons_self
    have hrest : operation ∈ rest → operation ∈ (log.push (.operation first)).accepted rest := by
      intro hmem
      have hlater := hbefore operation hmem
      apply ih (fun other hother => hids other (List.mem_cons_of_mem _ hother)) hsorted hmem
      · by_cases haccepts : log.Accepts (.operation first)
        · unfold NewerThanClear
          rw [(push_operation_accepted hfirst haccepts).2]
          exact hnewer
        · rwa [push_of_not_accepts haccepts]
      · by_cases haccepts : log.Accepts (.operation first)
        · rwa [(push_operation_accepted hfirst haccepts).1]
        · rwa [push_of_not_accepts haccepts]
    unfold accepted
    rcases List.mem_cons.mp hmem with rfl | hmem
    · rw [if_pos ((accepts_operation_iff hfirst).mpr ⟨hnewer, hhighest, hfits⟩)]
      exact List.mem_cons_self
    · split
      · exact List.mem_cons_of_mem _ (hrest hmem)
      · exact hrest hmem

end ManagerLog

/-! ## Cycles of the control loop -/

/-- A pass, or the thaw of everything that takes its place without control. Either way the
    cycle goes on to deliver the operations. -/
inductive CyclePass (s s' : RuntimeControlState) : Prop where
  | pass : ∀ {t r} (input : PassInput), Exec (runControlPass input s) t (r, s') → CyclePass s s'
  | thawAll : ∀ {t r} (timestampMs : Nat), Exec (s.thawAllFrozen timestampMs) t (r, s') →
      CyclePass s s'

/-- Every pass of a cycle stamps consecutive ids, so the list of its operations exists in
    every run. -/
theorem CyclePass.stamps (h : CyclePass s s') : StampsSome s s' := by
  cases h with
  | pass input hexec => exact runControlPass_stamps hexec
  | thawAll timestampMs hexec =>
    obtain ⟨s₁, hsteps, rfl⟩ := thawAllFrozen_steps hexec
    have hcleared := hsteps.stamps.trans (clearDetached_stamps s₁ s₁.detachedIdentities)
    exact hcleared.trans (.of_eq rfl rfl)

/-- What one cycle brings to the manager log. -/
structure Delivery where
  /-- The operations that the pass stamped. -/
  stamped : List ControlOperation
  /-- The ring after the pass. -/
  offered : List ControlOperation
  /-- The manager log before the ring is pushed into it. -/
  log     : ManagerLog

/-- The operations of the delivery that the log takes. -/
def Delivery.accepted (d : Delivery) : List ControlOperation := d.log.accepted d.offered

/-- What the manager log accepted in all. -/
def acceptedOperations (deliveries : List Delivery) : List ControlOperation :=
  deliveries.flatMap Delivery.accepted

/-- Cycles, with clears and further records wherever the shared state is not
    locked.  `waiting` is what the last pass stamped and the ring after it, until
    this is pushed. -/
inductive DeliveryRun : List Delivery → Option (List ControlOperation × List ControlOperation) →
    RuntimeControlState → ManagerLog → Prop where
  | start : DeliveryRun [] none .default .default
  | pass : ∀ {ds s log s' new}, DeliveryRun ds none s log → CyclePass s s' → Stamps new s s' →
      DeliveryRun ds (some (new, (takeCycleReport s').1.operations)) (takeCycleReport s').2 log
  | requeue : ∀ {ds waiting s log} (uids : List Nat), DeliveryRun ds waiting s log →
      DeliveryRun ds waiting (requeueNetworkRestrictionUids s uids) log
  | status : ∀ {ds waiting s log} (appConfig : List ManagerAppConfigRecord)
      (processesByUid : SortedMap Nat (List RuntimeProcess)) (foregroundUids : List Nat)
      (timestampMs : Nat), DeliveryRun ds waiting s log →
      DeliveryRun ds waiting
        (s.freezeStatusRecords appConfig processesByUid foregroundUids timestampMs).2 log
  | deliver : ∀ {ds new offered s log}, DeliveryRun ds (some (new, offered)) s log →
      DeliveryRun (ds ++ [⟨new, offered, log⟩]) none s (pushOperations log offered)
  | clear : ∀ {ds waiting s log} (nowMs : Nat), DeliveryRun ds waiting s log →
      DeliveryRun ds waiting s (log.clear nowMs)
  | push : ∀ {ds waiting s log} (record : LogRecord),
      (∀ operation, record.payload ≠ .operation operation) → DeliveryRun ds waiting s log →
      DeliveryRun ds waiting s (log.push record)
  | pushOnce : ∀ {ds waiting s log} (record : LogRecord),
      (∀ operation, record.payload ≠ .operation operation) → DeliveryRun ds waiting s log →
      DeliveryRun ds waiting s (log.pushOnce record)

/-- Every pass stamps some operations, so a run can go on with any pass. -/
theorem DeliveryRun.next {ds : List Delivery} {log : ManagerLog} (h : DeliveryRun ds none s log)
    (hpass : CyclePass s s') : ∃ new, Stamps new s s'
      ∧ DeliveryRun ds (some (new, (takeCycleReport s').1.operations)) (takeCycleReport s').2 log := by
  obtain ⟨new, hstamps⟩ := hpass.stamps
  exact ⟨new, hstamps, .pass h hpass hstamps⟩

/-! ### What holds in every run -/

/-- An operation that the log takes when it is newer than the last clear and fits. -/
def Delivery.Owes (d : Delivery) (operation : ControlOperation) : Prop :=
  operation ∈ d.stamped.drop (d.stamped.length - 128)
    ∧ d.log.NewerThanClear operation
    ∧ retainedRecordBytes (.operation operation) ≤ maxRetainedLogBytes

/-- The ring can be pushed: its ids increase, none is zero, and the newest that
    were stamped are in it and new to the log. -/
structure Offer (highest next : Nat) (new offered : List ControlOperation) : Prop where
  sorted  : offered.Pairwise fun a b => a.operationId < b.operationId
  nonzero : ∀ operation ∈ offered, operation.operationId ≠ 0
  below   : ∀ operation ∈ offered, operation.operationId < next
  recent  : ∀ operation ∈ new.drop (new.length - 128),
    operation ∈ offered ∧ highest < operation.operationId

/-- What holds between and within cycles: ids in the ring are consecutive, the log has
    accepted in increasing order up to its mark, and everything owed so far was accepted.
    While a cycle is between pass and log, `offer` says what is on the way. -/
structure DeliveryInv (ds : List Delivery)
    (waiting : Option (List ControlOperation × List ControlOperation)) (s : RuntimeControlState)
    (log : ManagerLog) : Prop where
  ring      : LogInv s.operationLog s.nextOperationId
  nonzero   : ∀ operation ∈ s.operationLog.records, operation.operationId ≠ 0
  highest   : log.highestOperationId < s.nextOperationId
  sorted    : ((acceptedOperations ds).map ControlOperation.operationId).Pairwise (· < ·)
  upto      : ∀ operation ∈ acceptedOperations ds, operation.operationId ≤ log.highestOperationId
  delivered : ∀ d ∈ ds, ∀ operation, d.Owes operation → operation ∈ d.accepted
  offer     : ∀ new offered, waiting = some (new, offered) →
    Offer log.highestOperationId s.nextOperationId new offered

namespace DeliveryInv

variable {ds : List Delivery} {waiting : Option (List ControlOperation × List ControlOperation)}
  {log log' : ManagerLog}

/-- A step that leaves the ring and the highest id alone. -/
theorem of_eq (h : DeliveryInv ds waiting s log) (hlog : s'.operationLog = s.operationLog)
    (hnext : s'.nextOperationId = s.nextOperationId)
    (hhighest : log'.highestOperationId = log.highestOperationId) :
    DeliveryInv ds waiting s' log' where
  ring      := by rw [hlog, hnext]; exact h.ring
  nonzero   := by rw [hlog]; exact h.nonzero
  highest   := by rw [hhighest, hnext]; exact h.highest
  sorted    := h.sorted
  upto      := by rw [hhighest]; exact h.upto
  delivered := h.delivered
  offer     := by rw [hhighest, hnext]; exact h.offer

/-- Nothing was stamped and nothing is owed. -/
theorem start : DeliveryInv [] none .default .default where
  ring      := controlInv_default.log
  nonzero   := nofun
  highest   := Nat.one_pos
  sorted    := .nil
  upto      := nofun
  delivered := nofun
  offer     := nofun

/-- A pass puts its operations in the ring, where they wait for the log. -/
theorem pass {new : List ControlOperation} (h : DeliveryInv ds none s log)
    (hstamps : Stamps new s s') :
    DeliveryInv ds (some (new, s'.operationLog.records)) s' log := by
  obtain ⟨hring, hsuffix, -⟩ := foldl_push_suffix h.ring new hstamps.ids
  rw [← hstamps.log, ← hstamps.next] at hring
  rw [← hstamps.log] at hsuffix
  have hfresh : ∀ operation ∈ new, s.nextOperationId ≤ operation.operationId := by
    intro operation hmem
    have hid : operation.operationId ∈ new.map ControlOperation.operationId :=
      List.mem_map_of_mem hmem
    rw [hstamps.ids] at hid
    exact (List.mem_range'_1.mp hid).1
  have hhighest := h.highest
  have hnonzero : ∀ operation ∈ s'.operationLog.records, operation.operationId ≠ 0 := by
    intro operation hmem
    rcases List.mem_append.mp (hsuffix.subset hmem) with hold | hnew
    · exact h.nonzero operation hold
    · have hge := hfresh operation hnew
      omega
  refine ⟨hring, hnonzero, ?_, h.sorted, h.upto, h.delivered, ?_⟩
  · rw [hstamps.next]
    omega
  · intro new' offered heq
    obtain ⟨rfl, rfl⟩ := Prod.mk.inj (Option.some.inj heq)
    refine ⟨hring.increasing, hnonzero, hring.below_next, ?_⟩
    intro operation hmem
    have hge := hfresh operation (List.mem_of_mem_drop hmem)
    exact ⟨mem_ring hstamps h.ring hmem, by omega⟩

/-- The log takes from the ring what lies above its mark, each operation once. -/
theorem deliver {new offered : List ControlOperation}
    (h : DeliveryInv ds (some (new, offered)) s log) :
    DeliveryInv (ds ++ [⟨new, offered, log⟩]) none s (pushOperations log offered) := by
  obtain ⟨hsorted, hnonzero, hbelow, hrecent⟩ := h.offer new offered rfl
  obtain ⟨hgreater, hincreasing, hupto, hmono⟩ :=
    @ManagerLog.accepted_increasing log offered hnonzero
  have hall : acceptedOperations (ds ++ [⟨new, offered, log⟩])
      = acceptedOperations ds ++ log.accepted offered := by
    unfold acceptedOperations
    rw [List.flatMap_append]
    exact congrArg _ (List.append_nil _)
  refine ⟨h.ring, h.nonzero, ?_, ?_, ?_, ?_, nofun⟩
  · exact ManagerLog.highest_pushOperations h.highest hnonzero hbelow
  -- Accepted ids keep increasing across deliveries, which excludes a second acceptance.
  · rw [hall, List.map_append]
    refine List.pairwise_append.mpr ⟨h.sorted, hincreasing, ?_⟩
    intro a ha b hb
    obtain ⟨before, hbefore, rfl⟩ := List.mem_map.mp ha
    obtain ⟨now, hnow, rfl⟩ := List.mem_map.mp hb
    exact (h.upto before hbefore).trans_lt (hgreater now hnow)
  · intro operation hmem
    rw [hall] at hmem
    rcases List.mem_append.mp hmem with hbefore | hnow
    · exact (h.upto operation hbefore).trans hmono
    · exact hupto operation hnow
  · intro d hd operation howes
    rcases List.mem_append.mp hd with hbefore | hlast
    · exact h.delivered d hbefore operation howes
    · obtain rfl := List.mem_singleton.mp hlast
      obtain ⟨hmem, hnewer, hfits⟩ := howes
      obtain ⟨hoffered, hhighest⟩ := hrecent operation hmem
      exact ManagerLog.mem_accepted hnonzero hsorted hoffered hnewer hhighest hfits

end DeliveryInv

/-- Requeueing leaves the ring alone. -/
theorem requeueNetworkRestrictionUids_log (s : RuntimeControlState) (uids : List Nat) :
    (requeueNetworkRestrictionUids s uids).operationLog = s.operationLog
      ∧ (requeueNetworkRestrictionUids s uids).nextOperationId = s.nextOperationId := by
  induction uids generalizing s with
  | nil => exact ⟨rfl, rfl⟩
  | cons uid rest ih => exact ih (s.requeueNetworkRestrictionUid uid)

/-- The invariant holds in every run of cycles. -/
theorem DeliveryRun.inv {ds : List Delivery}
    {waiting : Option (List ControlOperation × List ControlOperation)} {log : ManagerLog}
    (h : DeliveryRun ds waiting s log) : DeliveryInv ds waiting s log := by
  induction h with
  | start => exact .start
  | pass _ _ hstamps ih => exact (ih.pass hstamps).of_eq rfl rfl rfl
  | requeue uids _ ih =>
    obtain ⟨hlog, hnext⟩ := requeueNetworkRestrictionUids_log _ uids
    exact ih.of_eq hlog hnext rfl
  | status _ _ _ _ _ ih => exact ih.of_eq rfl rfl rfl
  | deliver _ ih => exact ih.deliver
  | clear nowMs _ ih => exact ih.of_eq rfl rfl (ManagerLog.clear_highest _ nowMs)
  | push _ hrecord _ ih => exact ih.of_eq rfl rfl (ManagerLog.push_highest hrecord)
  | pushOnce _ hrecord _ ih => exact ih.of_eq rfl rfl (ManagerLog.pushOnce_highest hrecord)

/-- No operation is accepted twice.  Of the last 128 operations that a pass stamps
    each one is accepted once that is newer than the last clear and fits. -/
theorem operations_are_delivered_once {ds : List Delivery}
    {waiting : Option (List ControlOperation × List ControlOperation)} {log : ManagerLog}
    (h : DeliveryRun ds waiting s log) :
    ((acceptedOperations ds).map ControlOperation.operationId).Nodup
      ∧ ∀ d ∈ ds, ∀ operation ∈ d.stamped.drop (d.stamped.length - 128),
          d.log.NewerThanClear operation →
          retainedRecordBytes (.operation operation) ≤ maxRetainedLogBytes →
          (acceptedOperations ds).count operation = 1 := by
  have hinv := h.inv
  have hids : ((acceptedOperations ds).map ControlOperation.operationId).Nodup :=
    hinv.sorted.imp fun hlt => Nat.ne_of_lt hlt
  refine ⟨hids, ?_⟩
  intro d hd operation hmem hnewer hfits
  have haccepted := hinv.delivered d hd operation ⟨hmem, hnewer, hfits⟩
  exact List.count_eq_one_of_mem hids.of_map (List.mem_flatMap.mpr ⟨d, hd, haccepted⟩)

/-! ## A crowded pass

    One more app is terminated than the ring holds operations. -/

/-- Every uid has one process. -/
def crowdedEnvironment : StaticEnvironment where
  discover uid := .ok [backgroundProcess "com.example.app" uid 501]

/-- A pass that kills one process for each of 129 apps. -/
def crowdedPass : PassInput where
  appConfig      := (List.range' 10000 129).map fun uid => ⟨uid, 10, false⟩
  settings       := []
  foregroundUids := []
  timestampMs    := 1000

/-- The operation for the app after `k` others. -/
def crowdedKill (k : Nat) : ControlOperation where
  operationId := k + 1
  timestampMs := 1000
  packageName := "com.example.app"
  uid         := 10000 + k
  pidList     := [501]
  action      := .terminate
  backend     := "signal.kill"
  reason      := "SIGKILL selected by manager policy"
  result      := .success
  details     := "process_count=1"

/-- Its operations, one more than the ring holds. -/
def crowdedKills : List ControlOperation := (List.range 129).map crowdedKill

theorem crowdedKills_length : crowdedKills.length = 129 := by
  rw [crowdedKills, List.length_map, List.length_range]

/-- They get consecutive ids. -/
theorem crowdedKills_ids :
    crowdedKills.map ControlOperation.operationId
      = List.range' RuntimeControlState.default.nextOperationId crowdedKills.length := by
  rw [crowdedKills_length, crowdedKills, List.map_map, List.range'_eq_map_range]
  exact List.map_congr_left fun k _ => Nat.add_comm k 1

/-- They come in the order of the apps. -/
theorem mem_drop_crowdedKills {k n : Nat} :
    crowdedKill k ∈ crowdedKills.drop n ↔ n ≤ k ∧ k < 129 := by
  rw [crowdedKills, ← List.map_drop, List.range_eq_range', List.drop_range', List.mem_map]
  constructor
  · rintro ⟨j, hj, heq⟩
    obtain rfl : j = k := Nat.succ.inj (congrArg ControlOperation.operationId heq)
    rw [List.mem_range'_1] at hj
    omega
  · rintro ⟨hlow, hhigh⟩
    exact ⟨k, List.mem_range'_1.mpr (by omega), rfl⟩

/-- Each of them fits into the log. -/
theorem crowdedKill_fits (k : Nat) :
    retainedRecordBytes (.operation (crowdedKill k)) ≤ maxRetainedLogBytes :=
  show retainedRecordBytes (.operation (crowdedKill 0)) ≤ maxRetainedLogBytes by decide +kernel

/-! ### The pass, record by record -/

/-- The state of the pass once its log has been written so far. -/
def crowdedState (log : OperationLog) (nextOperationId : Nat) : RuntimeControlState :=
  { RuntimeControlState.default with
    operationLog          := log
    nextOperationId       := nextOperationId
    auditStartedAtMs      := some 1000
    nextRefreezeAuditAtMs := some 61000 }

/-- The context of one of the records. -/
def crowdedContext (uid : Nat) : RecordContext :=
  ⟨crowdedPass, ⟨uid, 10, false⟩, "com.example.app", [backgroundProcess "com.example.app" uid 501]⟩

/-- Each of the apps may be controlled. -/
theorem crowdedContext_allowed {uid : Nat} (hlow : 10000 ≤ uid) (hhigh : uid < 100000) :
    (crowdedContext uid).allowed = true := by
  have huid : decide (uid % 100000 < 10000) = false := by
    rw [Nat.mod_eq_of_lt hhigh]
    exact decide_eq_false (by omega)
  unfold RecordContext.allowed RecordContext.app crowdedContext managedAppFromRecord
  dsimp only
  rw [huid]
  rfl

/-- Each of them is to be killed. -/
theorem crowdedContext_decide {uid : Nat} (h : (crowdedContext uid).allowed = true)
    (binder : Bool) :
    (crowdedContext uid).decide binder = ⟨.terminate, "SIGKILL selected by manager policy"⟩ := by
  unfold RecordContext.decide
  rw [h]
  rfl

/-- The app is neither waiting nor downloading, so that it is decided about. -/
theorem crowdedContext_background (uid : Nat) (log : OperationLog) (nextOperationId : Nat) :
    (crowdedContext uid).controlBackground false (crowdedState log nextOperationId)
      = (crowdedContext uid).applyDecision false (crowdedState log nextOperationId) := by
  have hdelay : (crowdedContext uid).postponeForDelay false (crowdedState log nextOperationId)
      = none := by
    have hzero : managerPolicyDelayMs ⟨uid, 10, false⟩ [] = 0 := by
      unfold managerPolicyDelayMs
      rw [if_pos rfl]
      rfl
    unfold RecordContext.postponeForDelay
    simp only [crowdedContext, crowdedPass, hzero, Bool.not_false, Bool.true_and, gt_iff_lt,
      Nat.lt_irrefl, decide_false, Bool.false_eq_true, if_false]
  have hdownload : (crowdedContext uid).deferDownload (crowdedState log nextOperationId)
      = pure (false, crowdedState log nextOperationId) := by
    have hcandidate : isCandidatePackage "com.example.app" = false := rfl
    unfold RecordContext.deferDownload crowdedContext DownloadDeferral.evaluate
    rw [hcandidate]
    rfl
  unfold RecordContext.controlBackground
  rw [hdelay, hdownload]
  rfl

/-- The loop body goes straight to the decision. -/
theorem crowdedContext_processes {uid : Nat} (h : (crowdedContext uid).allowed = true)
    (log : OperationLog) (nextOperationId : Nat) :
    (crowdedContext uid).controlProcesses false (crowdedState log nextOperationId)
      = (crowdedContext uid).applyDecision false (crowdedState log nextOperationId) := by
  have hblocked : (crowdedState log nextOperationId).blockedProcessSignatures.get?
      (crowdedContext uid).identity = none := rfl
  have hfrozen : (crowdedContext uid).identity ∉ (crowdedState log nextOperationId).frozenApps :=
    SortedMap.not_mem_empty _
  unfold RecordContext.controlProcesses
  rw [h, hblocked]
  simp only [Bool.not_true, Bool.false_eq_true, if_false]
  unfold RecordContext.controlUnblocked
  rw [if_neg hfrozen, if_neg (by exact Bool.false_ne_true), crowdedContext_background]

/-- The kill is reported with the next id. -/
theorem crowdedContext_finish (uid : Nat) (log : OperationLog) (nextOperationId : Nat) :
    (crowdedContext uid).finish false ⟨.terminate, "SIGKILL selected by manager policy"⟩ .terminate
      .success (crowdedState log nextOperationId)
      = crowdedState (log.push { crowdedKill 0 with uid := uid, operationId := nextOperationId })
        (nextOperationId + 1) := by
  have hdetails : operationDetails (crowdedContext uid).pendingProcesses = "process_count=1" := by
    unfold operationDetails
    simp only [RecordContext.pendingProcesses, crowdedContext, backgroundProcess, List.map_cons,
      List.map_nil, RuntimeProcess.pendingFreeze, List.filterMap_cons, Option.map_none,
      List.filterMap_nil, List.isEmpty_nil, if_true, List.length_cons, List.length_nil]
    rfl
  unfold RecordContext.finish
  rw [hdetails]
  rfl

/-- Every record of the pass kills its app and logs it. -/
theorem crowdedRecord_run {uid : Nat} (hlow : 10000 ≤ uid) (hhigh : uid < 100000)
    (log : OperationLog) (nextOperationId : Nat) :
    (run crowdedEnvironment.answer [] (controlRecord crowdedPass false ⟨uid, 10, false⟩
      (crowdedState log nextOperationId))).2
      = (.ok (), crowdedState (log.push
          { crowdedKill 0 with uid := uid, operationId := nextOperationId })
        (nextOperationId + 1)) := by
  have hallowed := crowdedContext_allowed hlow hhigh
  have hkilled : ∀ past decision, (run crowdedEnvironment.answer past
      ((crowdedContext uid).applyTerminate false decision (crowdedState log nextOperationId))).2
      = (.ok (), (crowdedContext uid).finish false decision .terminate .success
        (crowdedState log nextOperationId)) := fun _ _ => rfl
  have hdecided : ∀ past, (run crowdedEnvironment.answer past
      ((crowdedContext uid).applyDecision false (crowdedState log nextOperationId))).2
      = (.ok (), crowdedState (log.push
          { crowdedKill 0 with uid := uid, operationId := nextOperationId })
        (nextOperationId + 1)) := by
    intro past
    rw [← crowdedContext_finish, ← hkilled (past ++ [⟨.binderAvailable, true⟩])]
    unfold RecordContext.applyDecision
    simp only [crowdedContext_decide hallowed]
    rfl
  rw [← hdecided [listed uid (.ok [backgroundProcess "com.example.app" uid 501])],
    ← crowdedContext_processes hallowed]
  rfl

/-- The records push their kills one after the other. This is an induction over them, so
    that no run of 129 records has to be evaluated. -/
theorem crowdedRecords_run (count k : Nat) (h : k + count ≤ 90000) (log : OperationLog) :
    (crowdedEnvironment.recordMoments crowdedPass false
      ((List.range' (10000 + k) count).map fun uid => ⟨uid, 10, false⟩)
      (crowdedState log (k + 1))).2
      = (.ok (), crowdedState (((List.range' k count).map crowdedKill).foldl .push log)
        (k + count + 1)) := by
  induction count generalizing k log with
  | zero => rfl
  | succ count ih =>
    have hlow : 10000 ≤ 10000 + k := Nat.le_add_right _ _
    have hfirst := crowdedRecord_run hlow (by omega) log (k + 1)
    have hrest := ih (k + 1) (by omega) (log.push (crowdedKill k))
    rw [List.range'_succ, List.map_cons, List.range'_succ, List.map_cons, List.foldl_cons]
    unfold StaticEnvironment.recordMoments
    dsimp only
    rw [hfirst, show k + (count + 1) + 1 = k + 1 + count + 1 by omega]
    exact hrest

/-- The pass leaves all of the kills pushed. -/
theorem crowdedPass_run :
    (crowdedEnvironment.passMoments crowdedPass .default).2.2
      = crowdedState (crowdedKills.foldl .push RuntimeControlState.default.operationLog) 130 := by
  -- Nothing is tracked yet, so the controlled uids do not matter to what is released.
  have hreleased : (run crowdedEnvironment.answer [] (releaseStale crowdedPass .default)).2
      = .default := by
    unfold releaseStale
    generalize controlledUids crowdedPass.appConfig = controlled
    rfl
  have haudit : refreezeAuditDue .default crowdedPass.settings crowdedPass.timestampMs
      = (false, crowdedState RuntimeControlState.default.operationLog 1) := rfl
  have hconfig : crowdedPass.appConfig
      = (List.range' (10000 + 0) 129).map fun uid => ⟨uid, 10, false⟩ := rfl
  rw [← hreleased] at haudit
  rw [StaticEnvironment.passMoments_after haudit, hconfig, crowdedRecords_run 129 0 (by omega)]
  rfl

/-- A pass that stamps these, of which nothing else is needed. -/
theorem crowdedKills_stamped : ∃ s', CyclePass .default s' ∧ Stamps crowdedKills .default s' := by
  have hexec := exec_runControlPass_iff.mpr
    ⟨_, crowdedEnvironment.passMoments_spec crowdedPass .default, rfl⟩
  refine ⟨_, .pass crowdedPass hexec, crowdedKills_ids, ?_, ?_⟩
  · rw [crowdedPass_run, crowdedKills_length]
    rfl
  · rw [crowdedPass_run]
    unfold crowdedState
    dsimp only

/-- The operations of the crowded pass, for a new log. -/
def crowdedDelivery (s' : RuntimeControlState) : Delivery :=
  ⟨crowdedKills, (takeCycleReport s').1.operations, .default⟩

/-- The ring has lost the first of them. -/
theorem crowdedDelivery_offered (hstamps : Stamps crowdedKills .default s') :
    (crowdedDelivery s').offered = crowdedKills.drop 1 := by
  show s'.operationLog.records = crowdedKills.drop 1
  rw [hstamps.log]
  decide +kernel

/-- The pass and its delivery are a run. -/
theorem crowdedDelivery_run (hpass : CyclePass .default s')
    (hstamps : Stamps crowdedKills .default s') :
    DeliveryRun [crowdedDelivery s'] none (takeCycleReport s').2
      (pushOperations .default (crowdedDelivery s').offered) :=
  .deliver (.pass .start hpass hstamps)

/-- The last operation arrives. -/
theorem operations_are_delivered_once_sample :
    ∃ s', CyclePass .default s'
      ∧ (acceptedOperations [crowdedDelivery s']).count (crowdedKill 128) = 1 := by
  obtain ⟨s', hpass, hstamps⟩ := crowdedKills_stamped
  refine ⟨s', hpass, ?_⟩
  apply (operations_are_delivered_once (crowdedDelivery_run hpass hstamps)).2 (crowdedDelivery s')
    (List.mem_singleton_self _) (crowdedKill 128)
  · show crowdedKill 128 ∈ crowdedKills.drop (crowdedKills.length - 128)
    rw [crowdedKills_length]
    exact mem_drop_crowdedKills.mpr (by decide)
  · exact nofun
  · exact crowdedKill_fits 128

/-- The first one was dropped from the ring before the log was offered it. -/
theorem crowded_pass_loses_an_operation :
    ¬ ∀ ds waiting s log, DeliveryRun ds waiting s log → ∀ d ∈ ds, ∀ operation ∈ d.stamped,
        d.log.NewerThanClear operation →
        retainedRecordBytes (.operation operation) ≤ maxRetainedLogBytes →
        (acceptedOperations ds).count operation = 1 := by
  intro hclaim
  obtain ⟨s', hpass, hstamps⟩ := crowdedKills_stamped
  have hstamped : crowdedKill 0 ∈ crowdedKills.drop 0 := mem_drop_crowdedKills.mpr (by decide)
  have hcount := hclaim _ _ _ _ (crowdedDelivery_run hpass hstamps) (crowdedDelivery s')
    (List.mem_singleton_self _) (crowdedKill 0) hstamped nofun (crowdedKill_fits 0)
  have hring : crowdedKill 0 ∉ (crowdedDelivery s').offered := by
    rw [crowdedDelivery_offered hstamps, mem_drop_crowdedKills]
    decide
  have hlost : crowdedKill 0 ∉ acceptedOperations [crowdedDelivery s'] := by
    intro hmem
    obtain ⟨d, hd, haccepted⟩ := List.mem_flatMap.mp hmem
    obtain rfl := List.mem_singleton.mp hd
    exact hring (ManagerLog.accepted_subset _ _ haccepted)
  rw [List.count_eq_zero_of_not_mem hlost] at hcount
  exact Nat.zero_ne_one hcount

end Freezeit
