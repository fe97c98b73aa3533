import Freezeit.Targets

/-! # Freeze transactions are all or rolled back

    What the callbacks of `apply_freeze_transaction` and of its SIGSTOP variant
    are called for, whatever they answer. -/

namespace Freezeit

open Prog

variable {control : RuntimeProcess → RuntimeProcess} {ps : List RuntimeProcess} {t : Trace}
  {outcome : FreezeTransactionOutcome}

/-! ## What was called -/

/-- The process that a query freezes. -/
def Query.frozenProcess : Query → Option RuntimeProcess
  | .freezeProcess p => some p
  | _                => none

/-- The process that a query thaws. -/
def Query.unfrozenProcess : Query → Option RuntimeProcess
  | .unfreezeProcess p => some p
  | _                  => none

/-- The call froze a process. -/
def Call.froze (call : Call) : Option RuntimeProcess :=
  match call with
  | ⟨.freezeProcess p, .ok ()⟩ => some p
  | _                          => none

/-- The processes passed to the freeze callback, in order. -/
def freezeArguments (t : Trace) : List RuntimeProcess :=
  t.filterMap fun call => call.query.frozenProcess

/-- The processes that a trace thaws or tries to. -/
def unfreezeArguments (t : Trace) : List RuntimeProcess :=
  t.filterMap fun call => call.query.unfrozenProcess

/-- The processes that were frozen, in order. -/
def frozenProcesses (t : Trace) : List RuntimeProcess := t.filterMap Call.froze

/-- A validation of the first round fails: the first one that is not `Ok(true)`. -/
def PrevalidationFails (ps : List RuntimeProcess) (t : Trace) : Prop :=
  ∃ done p rest answer t', ps = done ++ p :: rest ∧ answer ≠ .ok true
    ∧ t = validatedCalls done ++ ⟨.validateProcess p, answer⟩ :: t'

/-- The second validation of `p`, or its freeze, fails after `done` was frozen;
    `t'` is what is called then. -/
def FailsAt (control : RuntimeProcess → RuntimeProcess) (ps done : List RuntimeProcess)
    (p : RuntimeProcess) (t t' : Trace) : Prop :=
  ∃ failing, FailedFreeze control p failing
    ∧ t = validatedCalls ps ++ (frozenCalls control done ++ (failing ++ t'))

/-- A freeze transaction freezes every process, or freezes none, or thaws again
    those it froze. -/
structure AllOrRolledBack (control : RuntimeProcess → RuntimeProcess) (ps : List RuntimeProcess)
    (t : Trace) (outcome : FreezeTransactionOutcome) : Prop where
  refused    : ¬ Uniform ps ∨ PrevalidationFails ps t →
    freezeArguments t = [] ∧ unfreezeArguments t = []
      ∧ outcome.failure.isSome ∧ outcome.applied = 0 ∧ outcome.residualPossible = false
  started    : Uniform ps → ¬ PrevalidationFails ps t →
    freezeArguments t <+: ps.map control
      ∧ (outcome.failure = none ∨ ∃ done p rest t', ps = done ++ p :: rest
        ∧ FailsAt control ps done p t t')
  rolledBack : ∀ done p rest t', ps = done ++ p :: rest → FailsAt control ps done p t t' →
    ThawAttempts id control done.reverse t' outcome.rollbackFailures
      ∧ outcome.applied = done.length
      ∧ outcome.rolledBack + outcome.rollbackFailures = done.length
      ∧ outcome.residualPossible = true
  complete   : outcome.failure = none ↔ frozenProcesses t = ps.map control
  success    : outcome.failure = none →
    outcome.applied = ps.length ∧ unfreezeArguments t = []

/-! ## The transaction -/

/-- Every process of a rollback counts as thawed or as failed. -/
theorem rollbackLoop_counts {rolledBack rollbackFailures : Nat} {result : Nat × Nat}
    (h : Exec (rollbackLoop (fun p => unfreezeProcess (control p)) ps rolledBack rollbackFailures) t
      result) :
    result.1 + result.2 = rolledBack + rollbackFailures + ps.length := by
  induction ps generalizing rolledBack rollbackFailures t with
  | nil =>
    obtain ⟨-, rfl⟩ := exec_pure.mp h
    rfl
  | cons p ps ih =>
    rw [List.length_cons]
    obtain ⟨answer, t₁, rfl, hrest⟩ := exec_ask_bind.mp h
    match answer with
    | .ok false | .error _ =>
      have hcounts := ih hrest
      omega
    | .ok true =>
      obtain ⟨answer, t₂, rfl, hnext⟩ := exec_ask_bind.mp hrest
      match answer with
      | .ok () | .error _ =>
        have hcounts := ih hnext
        omega

/-- A failure after the first round counts each process it had frozen once. -/
theorem applyFreezeTransaction_counts
    (h : Exec (applyFreezeTransaction ps (fun p => freezeProcess (control p))
      (fun p => unfreezeProcess (control p))) t outcome) :
    outcome.residualPossible = true →
      outcome.rolledBack + outcome.rollbackFailures = outcome.applied := by
  intro hresidual
  obtain ⟨t₁, t₂, preflight, rfl, -, h₂⟩ := exec_bind.mp h
  match preflight with
  | some failure =>
    obtain ⟨-, rfl⟩ := exec_pure.mp h₂
    cases hresidual
  | none =>
    obtain ⟨t₃, t₄, ⟨signaled, failure⟩, rfl, -, h₄⟩ := exec_bind.mp h₂
    match failure with
    | none =>
      obtain ⟨-, rfl⟩ := exec_pure.mp h₄
      cases hresidual
    | some failure =>
      obtain ⟨t₅, t₆, ⟨rolledBack, failures⟩, rfl, h₅, h₆⟩ := exec_bind.mp h₄
      obtain ⟨-, rfl⟩ := exec_pure.mp h₆
      have hcounts : rolledBack + failures = 0 + 0 + signaled.reverse.length :=
        rollbackLoop_counts h₅
      rw [List.length_reverse] at hcounts
      show rolledBack + failures = signaled.length
      omega

/-! ### Where a transaction ends -/

/-- There is one validation for each process. -/
theorem length_validatedCalls : (validatedCalls ps).length = ps.length := List.length_map _

/-- A refused transaction has processes of two packages or one that is not valid. -/
theorem PreflightRefusal.fails (h : PreflightRefusal ps t) :
    ¬ Uniform ps ∨ PrevalidationFails ps t := by
  obtain ⟨done, p, rest, hps, ⟨-, hnot⟩ | ⟨answer, hanswer, ht⟩⟩ := h
  · exact .inl hnot
  · exact .inr ⟨done, p, rest, answer, [], hps, hanswer, ht⟩

/-- A refused transaction asks about each process at most once. -/
theorem PreflightRefusal.length_le (h : PreflightRefusal ps t) : t.length ≤ ps.length := by
  obtain ⟨done, p, rest, rfl, ⟨rfl, -⟩ | ⟨answer, -, rfl⟩⟩ := h
  · rw [length_validatedCalls, List.length_append]
    omega
  · rw [List.length_append, length_validatedCalls, List.length_append, List.length_cons,
      List.length_cons, List.length_nil]
    omega

/-- Once every process was validated, the first round has not failed. -/
theorem not_prevalidationFails : ¬ PrevalidationFails ps (validatedCalls ps ++ t) := by
  intro hfails
  obtain ⟨done, p, rest, answer, t', hps, hanswer, ht⟩ := hfails
  have hsplit : validatedCalls ps = validatedCalls done ++ validated p :: validatedCalls rest := by
    rw [hps]
    exact List.map_append
  rw [hsplit, List.append_assoc] at ht
  have hhead := (List.cons.inj (List.append_cancel_left ht)).1
  cases hhead
  exact hanswer rfl

/-- A failed freeze has at least the validation. -/
theorem FailedFreeze.ne_nil {p : RuntimeProcess} (h : FailedFreeze control p t) : t ≠ [] := by
  obtain ⟨answer, -, rfl⟩ | ⟨error, rfl⟩ := h
  · exact List.cons_ne_nil _ _
  · exact List.cons_ne_nil _ _

/-- A freeze that failed is no freeze that succeeded. -/
theorem FailedFreeze.not_frozen {p : RuntimeProcess} {failing t₁ t₂ : Trace}
    (h : FailedFreeze control p failing) :
    failing ++ t₁ ≠ validated p :: frozen (control p) :: t₂ := by
  intro heq
  obtain ⟨answer, hanswer, rfl⟩ | ⟨error, rfl⟩ := h
  · cases heq
    exact hanswer rfl
  · cases heq

/-- Where the calls of a failed freeze end can be seen from the trace. -/
theorem FailedFreeze.unique {p : RuntimeProcess} {failing failing' t₁ t₂ : Trace}
    (h : FailedFreeze control p failing) (h' : FailedFreeze control p failing')
    (heq : failing ++ t₁ = failing' ++ t₂) : t₁ = t₂ := by
  obtain ⟨answer, hanswer, rfl⟩ | ⟨error, rfl⟩ := h
  · obtain ⟨answer', -, rfl⟩ | ⟨error', rfl⟩ := h'
    · exact (List.cons.inj heq).2
    · cases heq
      exact absurd rfl hanswer
  · obtain ⟨answer', hanswer', rfl⟩ | ⟨error', rfl⟩ := h'
    · cases heq
      exact absurd rfl hanswer'
    · exact (List.cons.inj (List.cons.inj heq).2).2

/-- The first process is validated and frozen, then the others. -/
theorem frozenCalls_cons (p : RuntimeProcess) (ps : List RuntimeProcess) :
    frozenCalls control (p :: ps) = validated p :: frozen (control p) :: frozenCalls control ps := rfl

/-- The calls say where the loop failed. -/
theorem failed_position_unique {done done' rest rest' : List RuntimeProcess} {p p' : RuntimeProcess}
    {failing failing' t₁ t₂ : Trace} (hfailing : FailedFreeze control p failing)
    (hfailing' : FailedFreeze control p' failing')
    (hps : done ++ p :: rest = done' ++ p' :: rest')
    (ht : frozenCalls control done ++ (failing ++ t₁)
      = frozenCalls control done' ++ (failing' ++ t₂)) :
    done = done' ∧ t₁ = t₂ := by
  induction done generalizing done' with
  | nil =>
    cases done' with
    | nil =>
      cases hps
      exact ⟨rfl, hfailing.unique hfailing' ht⟩
    | cons q done' =>
      cases hps
      exact absurd ht hfailing.not_frozen
  | cons q done ih =>
    cases done' with
    | nil =>
      cases hps
      exact absurd ht.symm hfailing'.not_frozen
    | cons q' done' =>
      obtain ⟨rfl, htail⟩ := List.cons.inj hps
      rw [frozenCalls_cons, frozenCalls_cons] at ht
      obtain ⟨hdone, hrest⟩ := ih htail (List.cons.inj (List.cons.inj ht).2).2
      exact ⟨congrArg (q :: ·) hdone, hrest⟩

/-! ### What is passed to the callbacks -/

@[simp] theorem freezeArguments_append (t₁ t₂ : Trace) :
    freezeArguments (t₁ ++ t₂) = freezeArguments t₁ ++ freezeArguments t₂ := List.filterMap_append

@[simp] theorem unfreezeArguments_append (t₁ t₂ : Trace) :
    unfreezeArguments (t₁ ++ t₂) = unfreezeArguments t₁ ++ unfreezeArguments t₂ :=
  List.filterMap_append

@[simp] theorem frozenProcesses_append (t₁ t₂ : Trace) :
    frozenProcesses (t₁ ++ t₂) = frozenProcesses t₁ ++ frozenProcesses t₂ := List.filterMap_append

/-- Validations freeze and thaw nobody. -/
theorem arguments_validatedCalls :
    freezeArguments (validatedCalls ps) = [] ∧ unfreezeArguments (validatedCalls ps) = []
      ∧ frozenProcesses (validatedCalls ps) = [] := by
  induction ps with
  | nil => exact ⟨rfl, rfl, rfl⟩
  | cons p ps ih => exact ih

/-- A freeze that goes through freezes every process. -/
theorem arguments_frozenCalls :
    freezeArguments (frozenCalls control ps) = ps.map control
      ∧ unfreezeArguments (frozenCalls control ps) = []
      ∧ frozenProcesses (frozenCalls control ps) = ps.map control := by
  induction ps with
  | nil => exact ⟨rfl, rfl, rfl⟩
  | cons p ps ih =>
    exact ⟨congrArg (control p :: ·) ih.1, ih.2.1, congrArg (control p :: ·) ih.2.2⟩

/-- A failed freeze freezes nobody, though it may have tried. -/
theorem arguments_failedFreeze {p : RuntimeProcess} (h : FailedFreeze control p t) :
    (freezeArguments t = [] ∨ freezeArguments t = [control p])
      ∧ frozenProcesses t = [] := by
  obtain ⟨answer, -, rfl⟩ | ⟨error, rfl⟩ := h
  · exact ⟨.inl rfl, rfl⟩
  · exact ⟨.inr rfl, rfl⟩

/-- A thaw freezes nobody. -/
theorem arguments_thawAttempts {check : RuntimeProcess → RuntimeProcess} {n : Nat}
    (h : ThawAttempts check control ps t n) :
    freezeArguments t = [] ∧ frozenProcesses t = [] := by
  induction h with
  | nil => exact ⟨rfl, rfl⟩
  | refused _ _ _ ih => exact ih
  | failed _ _ ih => exact ih
  | thawed _ ih => exact ih

/-- A refused transaction freezes and thaws nobody. -/
theorem arguments_refusal (h : PreflightRefusal ps t) :
    freezeArguments t = [] ∧ unfreezeArguments t = [] ∧ frozenProcesses t = [] := by
  obtain ⟨done, p, rest, -, ⟨rfl, -⟩ | ⟨answer, -, rfl⟩⟩ := h
  · exact arguments_validatedCalls
  · obtain ⟨hfreeze, hunfreeze, hfrozen⟩ := @arguments_validatedCalls done
    rw [freezeArguments_append, unfreezeArguments_append, frozenProcesses_append, hfreeze,
      hunfreeze, hfrozen]
    exact ⟨rfl, rfl, rfl⟩

/-! ### The three ways to end -/

/-- A refused transaction is all or nothing: nothing. -/
theorem PreflightRefusal.allOrRolledBack {failure : String} (h : PreflightRefusal ps t) :
    AllOrRolledBack control ps t ⟨0, 0, 0, false, some failure⟩ where
  refused _ := by
    obtain ⟨hfreeze, hunfreeze, -⟩ := arguments_refusal h
    exact ⟨hfreeze, hunfreeze, rfl, rfl, rfl⟩
  started huniform hpasses := absurd h.fails (not_or.mpr ⟨not_not.mpr huniform, hpasses⟩)
  rolledBack done p rest t' _ hfails := by
    obtain ⟨failing, hfailing, rfl⟩ := hfails
    have hle := h.length_le
    have hpos : 0 < failing.length := List.length_pos_iff.mpr hfailing.ne_nil
    simp only [List.length_append, length_validatedCalls] at hle
    omega
  complete := by
    constructor
    · intro hnone
      cases hnone
    · intro hall
      obtain ⟨-, -, hfrozen⟩ := arguments_refusal h
      obtain ⟨done, p, rest, rfl, -⟩ := h
      rw [hfrozen, List.map_append] at hall
      exact absurd hall.symm (List.append_ne_nil_of_right_ne_nil _ (List.cons_ne_nil _ _))
  success hnone := by cases hnone

/-- A freeze that goes through is all or nothing: all. -/
theorem allOrRolledBack_of_frozen (huniform : Uniform ps) :
    AllOrRolledBack control ps (validatedCalls ps ++ frozenCalls control ps)
      ⟨ps.length, 0, 0, false, none⟩ where
  refused hrefused := absurd hrefused (not_or.mpr ⟨not_not.mpr huniform, not_prevalidationFails⟩)
  started _ _ := by
    refine ⟨?_, .inl rfl⟩
    rw [freezeArguments_append, arguments_validatedCalls.1, arguments_frozenCalls.1]
    exact List.prefix_refl _
  rolledBack done p rest t' hps hfails := by
    obtain ⟨failing, hfailing, heq⟩ := hfails
    have hsplit : frozenCalls control ps = frozenCalls control done
        ++ validated p :: frozen (control p) :: frozenCalls control rest := by
      rw [hps]
      exact List.flatMap_append
    rw [hsplit] at heq
    exact absurd (List.append_cancel_left (List.append_cancel_left heq)).symm hfailing.not_frozen
  complete := by
    rw [frozenProcesses_append, arguments_validatedCalls.2.2, arguments_frozenCalls.2.2]
    exact ⟨fun _ => rfl, fun _ => rfl⟩
  success _ := by
    rw [unfreezeArguments_append, arguments_validatedCalls.2.1, arguments_frozenCalls.2.1]
    exact ⟨rfl, rfl⟩

/-- A freeze that fails later attempts to thaw all that were frozen. -/
theorem allOrRolledBack_of_failed {done rest : List RuntimeProcess} {p : RuntimeProcess}
    {t₁ t₂ : Trace} {rolledBack rollbackFailures : Nat} {failure : String} (huniform : Uniform ps)
    (hps : ps = done ++ p :: rest) (hfailing : FailedFreeze control p t₁)
    (hattempts : ThawAttempts id control done.reverse t₂ rollbackFailures)
    (hcounts : rolledBack + rollbackFailures = done.length) :
    AllOrRolledBack control ps
      (validatedCalls ps ++ (frozenCalls control done ++ (t₁ ++ t₂)))
      ⟨done.length, rolledBack, rollbackFailures, true, some failure⟩ where
  refused hrefused := absurd hrefused (not_or.mpr ⟨not_not.mpr huniform, not_prevalidationFails⟩)
  started _ _ := by
    refine ⟨?_, .inr ⟨done, p, rest, t₂, hps, t₁, hfailing, rfl⟩⟩
    -- The processes before the failing one, that one, and those never reached.
    have hmap : ps.map control = done.map control ++ control p :: rest.map control := by
      rw [hps]
      exact List.map_append
    rw [freezeArguments_append, freezeArguments_append, freezeArguments_append,
      arguments_validatedCalls.1, arguments_frozenCalls.1, (arguments_thawAttempts hattempts).1,
      hmap, List.append_nil, List.nil_append]
    cases (arguments_failedFreeze hfailing).1 with
    | inl hnone =>
      rw [hnone, List.append_nil]
      exact List.prefix_append _ _
    | inr hone =>
      rw [hone]
      exact ⟨rest.map control, List.append_assoc _ _ _⟩
  rolledBack done' p' rest' t' hps' hfails := by
    obtain ⟨failing, hfailing', heq⟩ := hfails
    -- The failing process is determined by the calls, so the split is the one that is
    -- given.
    obtain ⟨rfl, rfl⟩ := failed_position_unique hfailing hfailing' (hps.symm.trans hps')
      (List.append_cancel_left heq)
    exact ⟨hattempts, rfl, hcounts, rfl⟩
  complete := by
    constructor
    · intro hnone
      cases hnone
    · intro hall
      -- If all were frozen the prefix would be the whole list, and nobody could have
      -- failed.
      have hlength := congrArg List.length hall
      rw [frozenProcesses_append, frozenProcesses_append, frozenProcesses_append,
        arguments_validatedCalls.2.2, arguments_frozenCalls.2.2,
        (arguments_failedFreeze hfailing).2, (arguments_thawAttempts hattempts).2, hps] at hlength
      simp only [List.length_append, List.length_map, List.length_cons, List.length_nil] at hlength
      omega
  success hnone := by cases hnone

/-- So a freeze transaction is all or rolled back, whatever the system answers. -/
theorem applyFreezeTransaction_allOrRolledBack
    (h : Exec (applyFreezeTransaction ps (fun p => freezeProcess (control p))
      (fun p => unfreezeProcess (control p))) t outcome) :
    AllOrRolledBack control ps t outcome := by
  have hcounts := applyFreezeTransaction_counts h
  have hrun : FreezeRun control ps t outcome := applyFreezeTransaction_spec h
  cases hrun with
  | refused failure hrefusal                     => exact hrefusal.allOrRolledBack
  | frozen huniform                              => exact allOrRolledBack_of_frozen huniform
  | rolledBack failure huniform hps hfail hthaws =>
    exact allOrRolledBack_of_failed huniform hps hfail hthaws (hcounts rfl)

/-! ## The SIGSTOP transaction -/

/-- The ledger entry of each process promoted once, in order, with these answers. -/
inductive Promotions (promote : RuntimeProcess → Control (Except DaemonError Bool)) :
    List RuntimeProcess → Trace → List (Except DaemonError Bool) → Prop where
  | nil : Promotions promote [] [] []
  | cons : ∀ {p ps t₁ t₂ answer answers}, Exec (promote p) t₁ answer →
      Promotions promote ps t₂ answers → Promotions promote (p :: ps) (t₁ ++ t₂) (answer :: answers)

variable {promote : RuntimeProcess → Control (Except DaemonError Bool)}
  {promotion : SignalStopLedgerPromotion} {signal : SignalStopTransactionOutcome}

/-- Each process is promoted in turn, and the result says whether all of them were. -/
theorem promotionLoop_promotions {all result : Bool}
    (h : Exec (promotionLoop promote ps all) t result) :
    ∃ answers, Promotions promote ps t answers
      ∧ (result = true ↔ all = true ∧ ∀ answer ∈ answers, answer = .ok true) := by
  induction ps generalizing t all with
  | nil =>
    obtain ⟨rfl, rfl⟩ := exec_pure.mp h
    refine ⟨[], .nil, ?_⟩
    constructor
    · intro hall
      exact ⟨hall, fun answer hanswer => absurd hanswer List.not_mem_nil⟩
    · intro hall
      exact hall.1
  | cons p ps ih =>
    obtain ⟨t₁, t₂, answer, rfl, hfirst, hrest⟩ := exec_bind.mp h
    -- A refusal or an error does not end the loop, it only settles the result.
    match answer with
    | .ok true =>
      obtain ⟨answers, hpromotions, hresult⟩ := ih hrest
      refine ⟨_, .cons hfirst hpromotions, ?_⟩
      rw [hresult, List.forall_mem_cons]
      simp
    | .ok false =>
      obtain ⟨answers, hpromotions, hresult⟩ := ih hrest
      refine ⟨_, .cons hfirst hpromotions, ?_⟩
      rw [hresult, List.forall_mem_cons]
      simp
    | .error error =>
      obtain ⟨answers, hpromotions, hresult⟩ := ih hrest
      refine ⟨_, .cons hfirst hpromotions, ?_⟩
      rw [hresult, List.forall_mem_cons]
      simp

/-- A SIGSTOP transaction is a freeze transaction on processes without a cgroup
    path.  The ledger is promoted after it succeeded, if that was asked for. -/
structure StopsBySignal (promote : RuntimeProcess → Control (Except DaemonError Bool))
    (ps : List RuntimeProcess) (promotion : SignalStopLedgerPromotion) (stops promoted : Trace)
    (answers : List (Except DaemonError Bool)) (signal : SignalStopTransactionOutcome) : Prop where
  transaction : AllOrRolledBack signalControlProcess ps stops signal.transaction
  pathless    : ∀ p, p ∈ freezeArguments stops ∨ p ∈ unfreezeArguments stops →
    p.cgroupFreezePath = none
  promotes    : signal.transaction.failure = none → promotion = .afterCompletedDirectTransaction →
    Promotions promote ps promoted answers
  otherwise   : signal.transaction.failure ≠ none ∨ promotion = .never → promoted = []
  signalOnly  : signal.frozenOwnership = .signalOnly ↔ signal.transaction.failure = none
    ∧ promotion = .afterCompletedDirectTransaction ∧ ∀ answer ∈ answers, answer = .ok true

/-- The processes that a trace freezes or tries to. -/
theorem mem_freezeArguments {p : RuntimeProcess} :
    p ∈ freezeArguments t ↔ ∃ call ∈ t, call.query = .freezeProcess p := by
  unfold freezeArguments
  rw [List.mem_filterMap]
  refine exists_congr fun call => and_congr_right fun _ => ?_
  unfold Query.frozenProcess
  split
  · next q hquery => rw [hquery, Option.some.injEq, Query.freezeProcess.injEq]
  · next hother =>
    constructor
    · intro hnone
      cases hnone
    · intro heq
      exact absurd heq (hother p)

/-- The processes that a trace thaws or tries to. -/
theorem mem_unfreezeArguments {p : RuntimeProcess} :
    p ∈ unfreezeArguments t ↔ ∃ call ∈ t, call.query = .unfreezeProcess p := by
  unfold unfreezeArguments
  rw [List.mem_filterMap]
  refine exists_congr fun call => and_congr_right fun _ => ?_
  unfold Query.unfrozenProcess
  split
  · next q hquery => rw [hquery, Option.some.injEq, Query.unfreezeProcess.injEq]
  · next hother =>
    constructor
    · intro hnone
      cases hnone
    · intro heq
      exact absurd heq (hother p)

/-- With SIGSTOP no cgroup is touched. -/
theorem FreezeRun.pathless (h : FreezeRun signalControlProcess ps t outcome) :
    ∀ p, p ∈ freezeArguments t ∨ p ∈ unfreezeArguments t → p.cgroupFreezePath = none := by
  intro p hp
  have hstripped : ∃ call ∈ t, call.query = .freezeProcess p ∨ call.query = .unfreezeProcess p := by
    cases hp with
    | inl hfreeze =>
      obtain ⟨call, hcall, hquery⟩ := mem_freezeArguments.mp hfreeze
      exact ⟨call, hcall, .inl hquery⟩
    | inr hunfreeze =>
      obtain ⟨call, hcall, hquery⟩ := mem_unfreezeArguments.mp hunfreeze
      exact ⟨call, hcall, .inr hquery⟩
  obtain ⟨call, hcall, hquery⟩ := hstripped
  -- A call of the transaction validates, freezes or thaws, the last two without the path.
  obtain ⟨q, -, heq | heq | heq⟩ := h.calls hcall
  · rw [heq] at hquery
    cases hquery with
    | inl hquery => cases hquery
    | inr hquery => cases hquery
  · rw [heq] at hquery
    cases hquery with
    | inl hquery =>
      cases hquery
      rfl
    | inr hquery => cases hquery
  · rw [heq] at hquery
    cases hquery with
    | inl hquery => cases hquery
    | inr hquery =>
      cases hquery
      rfl

/-- A stop is a transaction with SIGSTOP, followed by promotions if it went through and
    these are wanted. -/
theorem applySignalStopFreezeTransaction_stops
    (h : Exec (applySignalStopFreezeTransaction ps promotion promote) t signal) :
    ∃ stops promoted answers, t = stops ++ promoted
      ∧ FreezeRun signalControlProcess ps stops signal.transaction
      ∧ StopsBySignal promote ps promotion stops promoted answers signal := by
  obtain ⟨t₁, t₂, transaction, rfl, h₁, h₂⟩ := exec_bind.mp h
  have hrun : FreezeRun signalControlProcess ps t₁ transaction := applyFreezeTransaction_spec h₁
  have htransaction : AllOrRolledBack signalControlProcess ps t₁ transaction :=
    applyFreezeTransaction_allOrRolledBack h₁
  -- The promotions are asked for in one case alone.
  by_cases hask : (transaction.failure.isNone && promotion = .afterCompletedDirectTransaction) = true
  · rw [if_pos hask] at h₂
    rw [Bool.and_eq_true, Option.isNone_iff_eq_none, decide_eq_true_eq] at hask
    obtain ⟨hfailure, rfl⟩ := hask
    obtain ⟨t₃, t₄, all, rfl, h₃, h₄⟩ := exec_bind.mp h₂
    obtain ⟨rfl, rfl⟩ := exec_pure.mp h₄
    obtain ⟨answers, hpromotions, hall⟩ := promotionLoop_promotions h₃
    refine ⟨t₁, t₃ ++ [], answers, rfl, hrun, htransaction, hrun.pathless, ?_, ?_, ?_⟩
    · intro _ _
      rw [List.append_nil]
      exact hpromotions
    · intro hother
      cases hother with
      | inl hfailed => exact absurd hfailure hfailed
      | inr hnever => cases hnever
    · unfold SignalStopTransactionOutcome.frozenOwnership
      cases all with
      | true  => exact ⟨fun _ => ⟨hfailure, rfl, (hall.mp rfl).2⟩, fun _ => rfl⟩
      | false =>
        constructor
        · intro hresidual
          cases hresidual
        · intro hsuccess
          cases hall.mpr ⟨rfl, hsuccess.2.2⟩
  -- The transaction failed, or a promotion was not wanted: there is no further call.
  · rw [if_neg hask] at h₂
    obtain ⟨rfl, rfl⟩ := exec_pure.mp h₂
    rw [Bool.and_eq_true, Option.isNone_iff_eq_none, decide_eq_true_eq, not_and] at hask
    refine ⟨t₁, [], [], rfl, hrun, htransaction, hrun.pathless, ?_, fun _ => rfl, ?_⟩
    · intro hfailure hpromotion
      exact absurd hpromotion (hask hfailure)
    · constructor
      · intro hresidual
        cases hresidual
      · intro hsuccess
        exact absurd hsuccess.2.1 (hask hsuccess.1)

/-! ## How often an entry is promoted -/

/-- The call promotes the ledger entry of this pid and start time. -/
def Call.promotes (pid : Int) (startTimeTicks : Nat) (call : Call) : Bool :=
  call.query = .promoteSignalStop pid startTimeTicks

/-- The process has this ledger entry. -/
def RuntimeProcess.hasEntry (pid : Int) (startTimeTicks : Nat) (p : RuntimeProcess) : Bool :=
  p.pid = pid ∧ p.startTimeTicks = some startTimeTicks

/-- Each entry is promoted at most as often as it is listed. -/
theorem Promotions.countP_le {answers : List (Except DaemonError Bool)} {pid : Int}
    {startTimeTicks : Nat} (h : Promotions promoteSignalStopForControl ps t answers) :
    t.countP (Call.promotes pid startTimeTicks)
      ≤ ps.countP (RuntimeProcess.hasEntry pid startTimeTicks) := by
  induction h with
  | nil => exact le_rfl
  | @cons p ps t₁ t₂ answer answers hfirst _ ih =>
    rw [List.countP_append, List.countP_cons, Nat.add_comm]
    apply Nat.add_le_add ih
    unfold promoteSignalStopForControl at hfirst
    cases hstart : p.startTimeTicks with
    | none =>
      rw [hstart] at hfirst
      obtain ⟨rfl, -⟩ := exec_pure.mp hfirst
      exact Nat.zero_le _
    | some start =>
      rw [hstart] at hfirst
      obtain rfl := exec_ask.mp hfirst
      have hsame : (Call.promotes pid startTimeTicks ⟨.promoteSignalStop p.pid start, answer⟩ = true)
          ↔ p.hasEntry pid startTimeTicks = true := by
        unfold Call.promotes RuntimeProcess.hasEntry
        rw [decide_eq_true_eq, decide_eq_true_eq, hstart, Option.some.injEq,
          Query.promoteSignalStop.injEq]
      rw [List.countP_singleton]
      exact le_of_eq (if_congr hsame rfl rfl)

/-- So a stop promotes each entry at most as often as it is listed. -/
theorem applySignalStopFreezeTransaction_countP {pid : Int} {startTimeTicks : Nat}
    (h : Exec (applySignalStopFreezeTransaction ps promotion promoteSignalStopForControl) t
      signal) :
    t.countP (Call.promotes pid startTimeTicks)
      ≤ ps.countP (RuntimeProcess.hasEntry pid startTimeTicks) := by
  obtain ⟨stops, promoted, answers, rfl, hrun, hstops⟩ := applySignalStopFreezeTransaction_stops h
  have hnone : stops.countP (Call.promotes pid startTimeTicks) = 0 := by
    apply List.countP_eq_zero.mpr
    intro call hcall hpromotes
    have hquery : call.query = .promoteSignalStop pid startTimeTicks := of_decide_eq_true hpromotes
    obtain ⟨q, -, heq | heq | heq⟩ := hrun.calls hcall
    · rw [heq] at hquery
      cases hquery
    · rw [heq] at hquery
      cases hquery
    · rw [heq] at hquery
      cases hquery
  rw [List.countP_append, hnone, Nat.zero_add]
  by_cases hask : signal.transaction.failure = none ∧ promotion = .afterCompletedDirectTransaction
  · exact (hstops.promotes hask.1 hask.2).countP_le
  · have hnever : signal.transaction.failure ≠ none ∨ promotion = .never := by
      cases promotion with
      | never                           => exact .inr rfl
      | afterCompletedDirectTransaction => exact .inl fun hfailure => hask ⟨hfailure, rfl⟩
    rw [hstops.otherwise hnever]
    exact Nat.zero_le _

/-- Whatever the callbacks answer: a freeze transaction is all or rolled back.
    A SIGSTOP transaction is such a transaction on processes without a cgroup
    path; it promotes each listed process at most once, after all were stopped,
    and yields `SignalOnly` only if every promotion succeeded. -/
theorem freeze_transactions_are_atomic (ps : List RuntimeProcess)
    (promotion : SignalStopLedgerPromotion) :
    (∀ control t outcome, Exec (applyFreezeTransaction ps (fun p => freezeProcess (control p))
        (fun p => unfreezeProcess (control p))) t outcome → AllOrRolledBack control ps t outcome)
      ∧ (∀ promote t signal, Exec (applySignalStopFreezeTransaction ps promotion promote) t signal →
        ∃ stops promoted answers, t = stops ++ promoted
          ∧ StopsBySignal promote ps promotion stops promoted answers signal)
      ∧ ∀ t signal, Exec (applySignalStopFreezeTransaction ps promotion
          promoteSignalStopForControl) t signal →
        ∀ pid startTimeTicks, t.countP (Call.promotes pid startTimeTicks)
          ≤ ps.countP (RuntimeProcess.hasEntry pid startTimeTicks) := by
  refine ⟨?_, ?_, ?_⟩
  · intro control t outcome h
    exact applyFreezeTransaction_allOrRolledBack h
  · intro promote t signal h
    obtain ⟨stops, promoted, answers, ht, -, hstops⟩ := applySignalStopFreezeTransaction_stops h
    exact ⟨stops, promoted, answers, ht, hstops⟩
  · intro t signal h pid startTimeTicks
    exact applySignalStopFreezeTransaction_countP h

/-- The second of two processes fails to freeze, and the first fails to thaw. -/
def failingEnvironment : StaticEnvironment where
  discover _ := .ok []
  freeze p   := if p.pid = 502 then .error (.system "busy") else .ok ()
  unfreeze _ := .error (.system "busy")

/-- A failed rollback is counted. -/
theorem freeze_transactions_are_atomic_sample :
    ∃ t outcome, Exec (applyFreezeTransaction [sampleProcess, { sampleProcess with pid := 502 }]
        (fun p => freezeProcess p) (fun p => unfreezeProcess p)) t outcome
      ∧ AllOrRolledBack id [sampleProcess, { sampleProcess with pid := 502 }] t outcome
      ∧ outcome.applied = 1 ∧ outcome.rollbackFailures = 1 := by
  have hexec := exec_run failingEnvironment.answer []
    (applyFreezeTransaction [sampleProcess, { sampleProcess with pid := 502 }]
      (fun p => freezeProcess p) (fun p => unfreezeProcess p))
  refine ⟨_, _, hexec, (freeze_transactions_are_atomic _ .never).1 id _ _ hexec, ?_, ?_⟩
  · decide +kernel
  · decide +kernel

end Freezeit
