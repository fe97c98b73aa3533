import Freezeit.RecordBranches

/-! # The idle check

    The generic freezer waits until no process of an app is active.  SIGKILL and
    SIGSTOP policies do not ask.  A pass therefore waits for idle apps if and
    only if every record that gets as far as such a signal lists idle processes.

    How far a record gets depends on the state before it, on the settings, and
    on what the system answers: the list of processes, the traffic sample, and
    the validations of the transaction. -/

namespace Freezeit

open Prog

variable {s s' : RuntimeControlState} {t t₁ t₂ : Trace} {r : Except DaemonError Unit}
  {control : RuntimeProcess → RuntimeProcess} {ps : List RuntimeProcess}

/-! ## Touching a process -/

/-- Some call freezes or kills. -/
def Touches (t : Trace) : Prop := ∃ call ∈ t, ¬ Call.Harmless call

@[simp] theorem not_touches_nil : ¬ Touches [] := by rintro ⟨call, hcall, -⟩; cases hcall

/-- Calls that neither freeze nor kill touch nobody. -/
theorem not_touches_of_harmless (h : ∀ call ∈ t, Call.Harmless call) : ¬ Touches t :=
  fun ⟨e, he, hnot⟩ => hnot (h e he)

/-- A process is touched in one part or the other. -/
theorem touches_append : Touches (t₁ ++ t₂) ↔ Touches t₁ ∨ Touches t₂ := by
  unfold Touches
  simp only [List.mem_append]
  constructor
  · rintro ⟨call, hcall | hcall, hnot⟩
    · exact .inl ⟨call, hcall, hnot⟩
    · exact .inr ⟨call, hcall, hnot⟩
  · rintro (⟨call, hcall, hnot⟩ | ⟨call, hcall, hnot⟩)
    · exact ⟨call, .inl hcall, hnot⟩
    · exact ⟨call, .inr hcall, hnot⟩

/-- A harmless call before them does not matter. -/
theorem touches_cons {call : Call} (hcall : call.Harmless) : Touches (call :: t) ↔ Touches t := by
  have hsingle : ¬ Touches [call] :=
    not_touches_of_harmless fun c hc => List.mem_singleton.mp hc ▸ hcall
  rw [← List.singleton_append, touches_append, or_iff_right hsingle]

/-! ## Validations -/

/-- The call asks whether a process is still the one that was found. -/
def Call.isValidation (call : Call) : Bool :=
  match call.query with
  | .validateProcess _ => true
  | _                  => false

/-- The system answers each of the first `n` validations with yes. -/
def FirstValid (n : Nat) (t : Trace) : Prop :=
  ∀ call ∈ (t.filter Call.isValidation).take n, ∃ process, call = validated process

/-- All calls of a validation round are validations. -/
theorem filter_validatedCalls (ps : List RuntimeProcess) :
    (validatedCalls ps).filter Call.isValidation = validatedCalls ps := by
  refine List.filter_eq_self.mpr fun call hcall => ?_
  obtain ⟨process, -, rfl⟩ := List.mem_map.mp hcall
  rfl

/-- How many validations succeeded before the first refusal can be read off the
    validations alone. -/
theorem firstValid_of_filter (process : RuntimeProcess) (rest : Trace)
    (h : t.filter Call.isValidation = validatedCalls ps ++ validated process :: rest) :
    FirstValid (ps.length + 1) t := by
  have hlength : (validatedCalls ps).length = ps.length := List.length_map _
  have htake : (t.filter Call.isValidation).take (ps.length + 1)
      = validatedCalls ps ++ [validated process] := by
    rw [h, ← hlength, List.take_length_add_append]
    rfl
  intro call hcall
  rw [htake] at hcall
  rcases List.mem_append.mp hcall with hcall | hcall
  · obtain ⟨process', -, rfl⟩ := List.mem_map.mp hcall
    exact ⟨process', rfl⟩
  · exact ⟨process, List.mem_singleton.mp hcall⟩

/-- A refusal among the first validations. -/
theorem not_firstValid_of_filter {done : List RuntimeProcess} {answer : Except DaemonError Bool}
    {n : Nat} (process : RuntimeProcess) (rest : Trace) (hanswer : answer ≠ .ok true)
    (h : t.filter Call.isValidation = validatedCalls done ++ ⟨.validateProcess process, answer⟩ :: rest)
    (hn : done.length < n) : ¬ FirstValid n t := by
  intro hvalid
  obtain ⟨k, rfl⟩ : ∃ k, n = done.length + (k + 1) := ⟨n - done.length - 1, by omega⟩
  have hlength : (validatedCalls done).length = done.length := List.length_map _
  have hmem : (⟨.validateProcess process, answer⟩ : Call)
      ∈ (t.filter Call.isValidation).take (done.length + (k + 1)) := by
    rw [h, ← hlength, List.take_length_add_append, List.take_succ_cons]
    exact List.mem_append_right _ List.mem_cons_self
  obtain ⟨process', heq⟩ := hvalid _ hmem
  cases heq
  exact hanswer rfl

/-- Calls before the first validation do not matter. -/
theorem firstValid_append (n : Nat) (h : ∀ call ∈ t₁, call.isValidation = false) :
    FirstValid n (t₁ ++ t₂) ↔ FirstValid n t₂ := by
  have hnil : t₁.filter Call.isValidation = [] :=
    List.filter_eq_nil_iff.mpr fun call hcall => by simp [h call hcall]
  unfold FirstValid
  rw [List.filter_append, hnil, List.nil_append]

/-- Calls after the last validation do not matter. -/
theorem firstValid_append_right (n : Nat) (h : ∀ call ∈ t₂, call.isValidation = false) :
    FirstValid n (t₁ ++ t₂) ↔ FirstValid n t₁ := by
  have hnil : t₂.filter Call.isValidation = [] :=
    List.filter_eq_nil_iff.mpr fun call hcall => by simp [h call hcall]
  unfold FirstValid
  rw [List.filter_append, hnil, List.append_nil]

/-- The ledger validates nobody. -/
theorem LedgerCall.isValidation {call : Call} (h : LedgerCall call) : call.isValidation = false := by
  unfold Call.isValidation
  obtain ⟨pid, start, hq⟩ | ⟨pid, start, hq⟩ := h
  · rw [hq]
  · rw [hq]

/-! ## How far a transaction gets

    The pre-validation asks about every process, and the loop after it once
    more about each before it is touched.  So the first process is touched as
    soon as one validation more than there are processes succeeded. -/

/-- A transaction that is refused beforehand touches nobody. -/
theorem PreflightRefusal.not_touches (h : PreflightRefusal ps t) : ¬ Touches t := by
  refine not_touches_of_harmless fun call hcall => ?_
  obtain ⟨process, -, hq⟩ := h.calls hcall
  exact ⟨by simp [hq], by simp [hq]⟩

/-- And then one of the first validations failed. -/
theorem PreflightRefusal.not_firstValid (h : PreflightRefusal ps t) (hu : Uniform ps) :
    ¬ FirstValid (ps.length + 1) t := by
  obtain ⟨done, process, rest, rfl, ⟨-, hmixed⟩ | ⟨answer, hanswer, rfl⟩⟩ := h
  · exact absurd hu hmixed
  · have hlength : done.length < (done ++ process :: rest).length + 1 := by
      rw [List.length_append]
      omega
    refine not_firstValid_of_filter process [] hanswer ?_ hlength
    rw [List.filter_append, filter_validatedCalls]
    rfl

/-- The loop has touched its first process. -/
theorem touched (ps : List RuntimeProcess) (process : RuntimeProcess) {call : Call} {rest : Trace}
    (hcall : ¬ call.Harmless)
    (ht : t = validatedCalls ps ++ validated process :: call :: rest) :
    Touches t ∧ FirstValid (ps.length + 1) t := by
  refine ⟨⟨call, by simp [ht], hcall⟩, firstValid_of_filter process
    ((call :: rest).filter Call.isValidation) ?_⟩
  rw [ht, List.filter_append, filter_validatedCalls]
  rfl

/-- The loop was refused at its first process. -/
theorem untouched (ps : List RuntimeProcess) (process : RuntimeProcess)
    {answer : Except DaemonError Bool} (hanswer : answer ≠ .ok true)
    (ht : t = validatedCalls ps ++ [⟨.validateProcess process, answer⟩]) :
    ¬ Touches t ∧ ¬ FirstValid (ps.length + 1) t := by
  constructor
  · refine not_touches_of_harmless fun call hcall => ?_
    rw [ht] at hcall
    rcases List.mem_append.mp hcall with hcall | hcall
    · obtain ⟨process', -, rfl⟩ := List.mem_map.mp hcall
      exact harmless_validation _ _
    · obtain rfl := List.mem_singleton.mp hcall
      exact harmless_validation _ _
  · refine not_firstValid_of_filter process [] hanswer ?_ (Nat.lt_succ_self _)
    rw [ht, List.filter_append, filter_validatedCalls]
    rfl

/-- A freeze touches its process. -/
theorem frozen_not_harmless (process : RuntimeProcess) (answer : Except DaemonError Unit) :
    ¬ Call.Harmless ⟨.freezeProcess process, answer⟩ := fun h => h.1 process rfl

/-- A kill touches its process. -/
theorem killed_not_harmless (process : RuntimeProcess) (answer : Except DaemonError Unit) :
    ¬ Call.Harmless ⟨.terminateProcess process, answer⟩ := fun h => h.2 process rfl

/-- A freeze transaction touches somebody exactly if its processes share a package name
    and the validations up to the one in front of the first freeze succeed. -/
theorem FreezeRun.touches_iff {outcome : FreezeTransactionOutcome} (h : FreezeRun control ps t outcome)
    (hne : ps ≠ []) : Touches t ↔ Uniform ps ∧ FirstValid (ps.length + 1) t := by
  cases h with
  | refused failure hrefusal =>
    exact ⟨fun ht => absurd ht hrefusal.not_touches,
      fun ⟨hu, hvalid⟩ => absurd hvalid (hrefusal.not_firstValid hu)⟩
  | frozen hu =>
    cases ps with
    | nil => exact absurd rfl hne
    | cons process rest =>
      obtain ⟨ht, hvalid⟩ := touched (process :: rest) process
        (frozen_not_harmless (control process) (.ok ()))
        (t := validatedCalls (process :: rest) ++ frozenCalls control (process :: rest)) rfl
      exact ⟨fun _ => ⟨hu, hvalid⟩, fun _ => ht⟩
  | @rolledBack done process rest t₁ t₂ _ _ failure hu hps hfailed hrollback =>
    cases done with
    | nil =>
      -- Nothing was frozen, so there is nothing to roll back.
      cases hrollback
      rcases hfailed with ⟨answer, hanswer, rfl⟩ | ⟨error, rfl⟩
      · obtain ⟨ht, hvalid⟩ := untouched ps process hanswer rfl
        exact ⟨fun h => absurd h ht, fun h => absurd h.2 hvalid⟩
      · obtain ⟨ht, hvalid⟩ := touched ps process
          (frozen_not_harmless (control process) (.error error)) rfl
        exact ⟨fun _ => ⟨hu, hvalid⟩, fun _ => ht⟩
    | cons first done =>
      obtain ⟨ht, hvalid⟩ := touched ps first
        (frozen_not_harmless (control first) (.ok ())) rfl
      exact ⟨fun _ => ⟨hu, hvalid⟩, fun _ => ht⟩

/-- The same for a kill. -/
theorem TerminateRun.touches_iff {outcome : TerminateTransactionOutcome}
    (h : TerminateRun ps t outcome) (hne : ps ≠ []) :
    Touches t ↔ Uniform ps ∧ FirstValid (ps.length + 1) t := by
  cases h with
  | refused failure hrefusal =>
    exact ⟨fun ht => absurd ht hrefusal.not_touches,
      fun ⟨hu, hvalid⟩ => absurd hvalid (hrefusal.not_firstValid hu)⟩
  | killed hu =>
    cases ps with
    | nil => exact absurd rfl hne
    | cons process rest =>
      obtain ⟨ht, hvalid⟩ := touched (process :: rest) process
        (killed_not_harmless process (.ok ()))
        (t := validatedCalls (process :: rest) ++ killedCalls (process :: rest)) rfl
      exact ⟨fun _ => ⟨hu, hvalid⟩, fun _ => ht⟩
  | @stopped done process rest t₁ failure hu hps hfail =>
    cases done with
    | nil =>
      rcases hfail with ⟨answer, hanswer, rfl⟩ | ⟨error, rfl⟩
      · obtain ⟨ht, hvalid⟩ := untouched ps process hanswer rfl
        exact ⟨fun h => absurd h ht, fun h => absurd h.2 hvalid⟩
      · obtain ⟨ht, hvalid⟩ := touched ps process
          (killed_not_harmless process (.error error)) rfl
        exact ⟨fun _ => ⟨hu, hvalid⟩, fun _ => ht⟩
    | cons first done =>
      obtain ⟨ht, hvalid⟩ := touched ps first
        (killed_not_harmless first (.ok ())) rfl
      exact ⟨fun _ => ⟨hu, hvalid⟩, fun _ => ht⟩

/-! ## How far a record gets -/

variable {ctx : RecordContext}

/-- The call lists nothing and samples no traffic. -/
def Call.Plain (call : Call) : Prop :=
  (∀ package uid, call.query ≠ .discoverProcesses package uid)
    ∧ ∀ uid package, call.query ≠ .sampleRxBytes uid package

/-- A plain call lists nothing. -/
theorem Call.Plain.steady {call : Call} (h : call.Plain) : call.Steady := steady_of_query h.1

/-- A call to the ledger is plain. -/
theorem LedgerCall.plain {call : Call} (h : LedgerCall call) : call.Plain := by
  obtain ⟨pid, start, hq⟩ | ⟨pid, start, hq⟩ := h
  · exact ⟨by simp [hq], by simp [hq]⟩
  · exact ⟨by simp [hq], by simp [hq]⟩

/-- A call of a freeze transaction is plain. -/
theorem FreezeCall.plain {call : Call} (h : FreezeCall control ps call) : call.Plain := by
  obtain ⟨process, -, hq | hq | hq⟩ := h
  · exact ⟨by simp [hq], by simp [hq]⟩
  · exact ⟨by simp [hq], by simp [hq]⟩
  · exact ⟨by simp [hq], by simp [hq]⟩

/-- A call of a kill transaction is plain. -/
theorem TerminateRun.plain {outcome : TerminateTransactionOutcome} (h : TerminateRun ps t outcome)
    {call : Call} (hcall : call ∈ t) : call.Plain := by
  obtain ⟨process, -, hq⟩ | ⟨-, process, -, hq⟩ := h.calls hcall
  · exact ⟨by simp [hq], by simp [hq]⟩
  · exact ⟨by simp [hq], by simp [hq]⟩

/-- A call of a stop transaction is plain. -/
theorem StopRun.plain {outcome : FreezeTransactionOutcome} (h : StopRun ps t outcome)
    {call : Call} (hcall : call ∈ t) : call.Plain := by
  obtain ⟨stops, ledger, rfl, hstops, hledger⟩ := h.split
  rcases List.mem_append.mp hcall with hcall | hcall
  · exact (hstops.calls hcall).plain
  · exact (hledger call hcall).plain

/-- The calls on the ledger around the stops touch nothing. -/
theorem StopRun.touches_iff {outcome : FreezeTransactionOutcome} (h : StopRun ps t₂ outcome)
    (hledger : ∀ call ∈ t₁, LedgerCall call) (hne : ps ≠ []) :
    Touches (t₁ ++ t₂) ↔ Uniform ps ∧ FirstValid (ps.length + 1) (t₁ ++ t₂) := by
  obtain ⟨stops, ledger, rfl, hstops, hafter⟩ := h.split
  have hbefore : ¬ Touches t₁ := not_touches_of_harmless fun e he => (hledger e he).harmless
  have hafter' : ¬ Touches ledger := not_touches_of_harmless fun e he => (hafter e he).harmless
  rw [touches_append, touches_append, or_iff_right hbefore, or_iff_left hafter',
    hstops.touches_iff hne, firstValid_append _ fun e he => (hledger e he).isValidation,
    firstValid_append_right _ fun e he => (hafter e he).isValidation]

/-- With SIGKILL or SIGSTOP chosen by mode or setting, the decision does not look at the
    processes. -/
theorem RecordContext.decide_bypass (hallowed : ctx.allowed = true)
    (hbypass : requestedControlBackend ctx.record ctx.input.settings ≠ .freezer) (binder : Bool) :
    (ctx.decide binder).action = .signal ∨ (ctx.decide binder).action = .terminate := by
  rw [RecordContext.decide_of_allowed hallowed]
  cases hbackend : requestedControlBackend ctx.record ctx.input.settings with
  | terminate => exact .inr rfl
  | signal => exact .inl rfl
  | freezer => exact absurd hbackend hbypass

/-- SIGKILL and SIGSTOP are sent whatever the processes are doing. -/
theorem DecisionStep.bypass {binder : Bool} (h : DecisionStep ctx (ctx.decide binder) s t r s')
    (hallowed : ctx.allowed = true)
    (hbypass : requestedControlBackend ctx.record ctx.input.settings ≠ .freezer)
    (hne : ctx.processes ≠ []) :
    (∀ call ∈ t, call.Plain) ∧ (Touches t ↔ Uniform ctx.pendingProcesses
      ∧ FirstValid (ctx.pendingProcesses.length + 1) t) := by
  have hdecide := RecordContext.decide_bypass hallowed hbypass binder
  have hfreeze : (ctx.decide binder).action ≠ .freeze := by
    rcases hdecide with hd | hd
    · simp [hd]
    · simp [hd]
  have hne : ctx.pendingProcesses ≠ [] := by simpa [RecordContext.pendingProcesses] using hne
  have hstop : ∀ {t₁ t₂ outcome}, (∀ call ∈ t₁, LedgerCall call) →
      StopRun ctx.pendingProcesses t₂ outcome → (∀ call ∈ t₁ ++ t₂, call.Plain) ∧
      (Touches (t₁ ++ t₂) ↔ Uniform ctx.pendingProcesses
        ∧ FirstValid (ctx.pendingProcesses.length + 1) (t₁ ++ t₂)) := by
    intro t₁ t₂ outcome hledger hrun
    refine ⟨fun call hcall => ?_, hrun.touches_iff hledger hne⟩
    rcases List.mem_append.mp hcall with hcall | hcall
    · exact (hledger call hcall).plain
    · exact hrun.plain hcall
  -- The branches of the freezer are out of reach.
  cases h with
  | idle _ _ hsignal hkill =>
    rcases hdecide with hd | hd
    · exact absurd hd hsignal
    · exact absurd hd hkill
  | fallbackStopped _ hd => exact absurd hd hfreeze
  | fallbackFailed _ hd => exact absurd hd hfreeze
  | rescanFailed _ hd => exact absurd hd hfreeze
  | frozen _ hd => exact absurd hd hfreeze
  | rescanThawed _ hd => exact absurd hd hfreeze
  | stopped _ _ hledger hrun => exact hstop hledger hrun
  | stopFailed _ _ hledger hrun => exact hstop hledger hrun
  | terminated _ _ hrun => exact ⟨fun _ => hrun.plain, hrun.touches_iff hne⟩
  | terminateFailed _ _ hrun => exact ⟨fun _ => hrun.plain, hrun.touches_iff hne⟩

/-! ### In the background -/

/-- The freeze delay is over, or the record has none; the audit does not wait. -/
def RecordContext.Waited (ctx : RecordContext) (abnormalThaw : Bool) (s : RuntimeControlState) :
    Prop :=
  abnormalThaw = true ∨ managerPolicyDelayMs ctx.record ctx.input.settings = 0
    ∨ ∃ dueAtMs, s.pendingFreezes.get? ctx.identity = some dueAtMs
      ∧ dueAtMs ≤ ctx.input.timestampMs

/-- The record goes on exactly if its delay is over, or there is none. -/
theorem postponeForDelay_eq_none_iff {abnormalThaw : Bool} :
    ctx.postponeForDelay abnormalThaw s = none ↔ ctx.Waited abnormalThaw s := by
  refine ⟨postponeForDelay_eq_none, fun hwaited => ?_⟩
  cases hdelay : ctx.postponeForDelay abnormalThaw s with
  | none => rfl
  | some s₁ =>
    obtain ⟨hnormal, hpos, hpending⟩ := postponeForDelay_eq_some hdelay
    rcases hwaited with haudit | hzero | ⟨dueAtMs, hdue, hover⟩
    · exact absurd (hnormal.symm.trans haudit) Bool.false_ne_true
    · omega
    · rcases hpending with ⟨dueAtMs', hdue', hearly, -⟩ | ⟨hnone, -⟩
      · obtain rfl : dueAtMs = dueAtMs' := Option.some.inj (hdue.symm.trans hdue')
        omega
      · rw [hnone] at hdue
        cases hdue

/-- The traffic that was sampled in the calls does not look like a download. -/
def RecordContext.NoDownload (ctx : RecordContext) (s : RuntimeControlState) (t : Trace) : Prop :=
  ∀ answer, ctx.sampled answer ∈ t → (ctx.evaluated s answer).1 = .proceed

/-- A plain call is no traffic sample. -/
theorem plain_not_sampled (h : ∀ call ∈ t, Call.Plain call)
    (answer : Except DaemonError (Option Nat)) : ctx.sampled answer ∉ t :=
  fun hmem => (h _ hmem).2 _ _ rfl

/-- The question for the binder is plain. -/
theorem plain_binder (binder : Bool) : Call.Plain ⟨.binderAvailable, binder⟩ :=
  ⟨fun _ _ h => (by cases h), fun _ _ h => (by cases h)⟩

/-- In the background a record that bypasses the freezer is signalled as soon as
    its delay is over, its traffic is low and its processes validate. -/
theorem BackgroundBranch.bypass {abnormalThaw : Bool} (h : BackgroundBranch ctx abnormalThaw s t r s')
    (hallowed : ctx.allowed = true)
    (hbypass : requestedControlBackend ctx.record ctx.input.settings ≠ .freezer)
    (hne : ctx.processes ≠ []) :
    (∀ call ∈ t, call.Steady) ∧ (Touches t ↔ ctx.Waited abnormalThaw s ∧ ctx.NoDownload s t
      ∧ Uniform ctx.pendingProcesses ∧ FirstValid (ctx.pendingProcesses.length + 1) t) := by
  cases h with
  -- Still waiting: nothing is asked at all.
  | delayed hdelay =>
    refine ⟨by simp, fun ht => absurd ht not_touches_nil, fun hreached => ?_⟩
    have hnone := postponeForDelay_eq_none_iff.mpr hreached.1
    rw [hdelay] at hnone
    cases hnone
  -- A download puts the freeze off.
  | @downloading answer _ _ hpostpone =>
    have hharmless : ∀ call ∈ [ctx.sampled answer], Call.Harmless call := by
      intro call hcall
      obtain rfl := List.mem_singleton.mp hcall
      exact harmless_sample _ _ answer
    refine ⟨fun call hcall => ?_, fun ht => absurd ht (not_touches_of_harmless hharmless),
      fun hreached => ?_⟩
    · obtain rfl := List.mem_singleton.mp hcall
      exact fun last => rfl
    · have hproceed := hreached.2.1 answer (List.mem_singleton.mpr rfl)
      rw [hpostpone] at hproceed
      cases hproceed
  | @quiet answer binder t' _ _ hdelay _ hproceed hdecision =>
    obtain ⟨hplain, htouches⟩ := hdecision.bypass hallowed hbypass hne
    refine ⟨fun call hcall => ?_, ?_⟩
    · rcases List.mem_cons.mp hcall with rfl | hcall
      · exact fun last => rfl
      · rcases List.mem_cons.mp hcall with rfl | hcall
        · exact (plain_binder binder).steady
        · exact (hplain call hcall).steady
    · have hquiet : ctx.NoDownload s (ctx.sampled answer :: ⟨.binderAvailable, binder⟩ :: t') := by
        intro answer' hmem
        rcases List.mem_cons.mp hmem with heq | hmem
        · cases heq
          exact hproceed
        · rcases List.mem_cons.mp hmem with heq | hmem
          · cases heq
          · exact absurd hmem (plain_not_sampled hplain answer')
      have hprefix : ∀ call ∈ [ctx.sampled answer, ⟨.binderAvailable, binder⟩],
          Call.isValidation call = false := by
        intro call hcall
        rcases List.mem_pair.mp hcall with rfl | rfl
        · rfl
        · rfl
      have hfirst : ctx.sampled answer :: ⟨.binderAvailable, binder⟩ :: t'
          = [ctx.sampled answer, ⟨.binderAvailable, binder⟩] ++ t' := rfl
      have hsampled : (ctx.sampled answer).Harmless := harmless_sample _ _ answer
      rw [touches_cons hsampled, touches_cons (harmless_binder binder), htouches, hfirst,
        firstValid_append _ hprefix]
      exact ⟨fun h => ⟨postponeForDelay_eq_none_iff.mp hdelay, hquiet, h⟩, fun h => h.2.2⟩
  | @unsampled binder t' _ _ hdelay _ hdecision =>
    obtain ⟨hplain, htouches⟩ := hdecision.bypass hallowed hbypass hne
    have hplain' : ∀ call ∈ ⟨.binderAvailable, binder⟩ :: t', Call.Plain call := by
      intro call hcall
      rcases List.mem_cons.mp hcall with rfl | hcall
      · exact plain_binder binder
      · exact hplain call hcall
    have hprefix : ∀ call ∈ [⟨.binderAvailable, binder⟩], Call.isValidation call = false := by
      intro call hcall
      obtain rfl := List.mem_singleton.mp hcall
      rfl
    refine ⟨fun call hcall => (hplain' call hcall).steady, ?_⟩
    rw [touches_cons (harmless_binder binder), htouches, ← List.singleton_append,
      firstValid_append _ hprefix]
    exact ⟨fun h => ⟨postponeForDelay_eq_none_iff.mp hdelay,
      fun answer hmem => absurd hmem (plain_not_sampled hplain' answer), h⟩, fun h => h.2.2⟩

/-! ### A record -/

/-- The record is signalled without the idle check.  The conditions are those of
    the loop body, in its order; `t` holds what the system answered. -/
structure BypassesIdle (ctx : RecordContext) (auditDue : Bool) (s : RuntimeControlState)
    (t : Trace) : Prop where
  controlled : isControlPolicyMode ctx.record.mode = true
  bypasses   : requestedControlBackend ctx.record ctx.input.settings ≠ .freezer
  allowed    : ctx.allowed = true
  unblocked  : s.blockedProcessSignatures.get? ctx.identity ≠ some ctx.signature
  background : ctx.record.uid ∉ ctx.input.foregroundUids
  untracked  : ctx.identity ∈ s.frozenApps → AuditUntracks ctx auditDue s
  waited     : ctx.identity ∉ s.frozenApps → ctx.Waited false s
  noDownload : ctx.NoDownload s t
  uniform    : Uniform ctx.pendingProcesses
  valid      : FirstValid (ctx.pendingProcesses.length + 1) t

/-- Clearing the old markers keeps timers and traffic samples. -/
theorem Cleared.sameWaits {s₀ : RuntimeControlState} (h : Cleared ctx s s₀) :
    s₀.pendingFreezes = s.pendingFreezes ∧ s₀.downloadDeferral = s.downloadDeferral := by
  obtain ⟨⟨-, rfl | rfl⟩, -⟩ := h
  · exact ⟨rfl, rfl⟩
  · exact ⟨rfl, rfl⟩

/-- So the delay is judged as it was before. -/
theorem Cleared.waited_iff {s₀ : RuntimeControlState} (h : Cleared ctx s s₀) :
    ctx.Waited false s₀ ↔ ctx.Waited false s := by
  unfold RecordContext.Waited
  rw [h.sameWaits.1]

/-- So is the traffic. -/
theorem Cleared.noDownload_iff {s₀ : RuntimeControlState} (h : Cleared ctx s s₀) :
    ctx.NoDownload s₀ t ↔ ctx.NoDownload s t := by
  unfold RecordContext.NoDownload RecordContext.evaluated
  rw [h.sameWaits.2]

/-- Untracking for the audit keeps the traffic samples. -/
theorem Cleared.noDownload_marked_iff {s₀ : RuntimeControlState} (h : Cleared ctx s s₀) :
    ctx.NoDownload (s₀.markAbnormalThawForRefreeze ctx.identity) t ↔ ctx.NoDownload s t :=
  h.noDownload_iff

/-- Once the processes are listed, a record that bypasses the freezer touches one
    of them exactly under the conditions above. -/
theorem RecordBranch.bypass {auditDue : Bool} (h : RecordBranch ctx auditDue s t r s')
    (hmode : isControlPolicyMode ctx.record.mode = true)
    (hbypass : requestedControlBackend ctx.record ctx.input.settings ≠ .freezer)
    (hne : ctx.processes ≠ []) :
    (Touches t → ∀ call ∈ t, call.Steady) ∧ (Touches t ↔ BypassesIdle ctx auditDue s t) := by
  -- Whatever is touched is touched by the background branch, which is reached only past
  -- all of the checks before it.
  have htouched : Touches t → BypassesIdle ctx auditDue s t ∧ ∀ call ∈ t, Call.Steady call := by
    intro ht
    obtain ⟨call, hcall, hacts⟩ := id ht
    obtain ⟨hallowed, hfg, s₀, hcleared, ⟨haudit, hbranch⟩ | ⟨huntracked, hbranch⟩⟩ :=
      h.deciding hcall hacts
    · obtain ⟨hsteady, htouches⟩ := hbranch.bypass hallowed hbypass hne
      obtain ⟨-, hquiet, hu, hvalid⟩ := htouches.mp ht
      exact ⟨⟨hmode, hbypass, hallowed, haudit.unblocked, hfg, fun _ => haudit,
        fun hnot => absurd haudit.tracked hnot, hcleared.noDownload_marked_iff.mp hquiet, hu,
        hvalid⟩, hsteady⟩
    · obtain ⟨hsteady, htouches⟩ := hbranch.bypass hallowed hbypass hne
      obtain ⟨hwaited, hquiet, hu, hvalid⟩ := htouches.mp ht
      rw [hcleared.unblocked.frozenApps] at huntracked
      exact ⟨⟨hmode, hbypass, hallowed, hcleared.unblocked.1, hfg,
        fun htracked => absurd htracked huntracked, fun _ => hcleared.waited_iff.mp hwaited,
        hcleared.noDownload_iff.mp hquiet, hu, hvalid⟩, hsteady⟩
  refine ⟨fun ht => (htouched ht).2, fun ht => (htouched ht).1, fun hreached => ?_⟩
  -- Each of the branches that stops early is excluded by one of the conditions.
  cases h with
  | protectedApp hnot =>
    rw [hreached.allowed] at hnot
    cases hnot
  | blocked _ hblocked => exact absurd hblocked hreached.unblocked
  | foreground _ _ hfg => exact absurd hfg hreached.background
  | wakeup _ hcleared _ htracked hwakeup =>
    rw [hcleared.unblocked.frozenApps] at htracked
    rw [hcleared.unblocked.periodicWakeupDue, (hreached.untracked htracked).asleep] at hwakeup
    cases hwakeup
  | kept _ hcleared _ htracked hkept =>
    rw [hcleared.unblocked.frozenApps] at htracked
    have haudit := hreached.untracked htracked
    obtain ⟨process, hprocess, hrunning⟩ := haudit.running
    exact absurd hrunning (hkept haudit.due process hprocess)
  | audited hcleared _ hbranch =>
    refine (hbranch.bypass hreached.allowed hbypass hne).2.mpr ⟨.inl rfl, ?_, hreached.uniform,
      hreached.valid⟩
    exact hcleared.noDownload_marked_iff.mpr hreached.noDownload
  | background _ hcleared _ huntracked hbranch =>
    rw [hcleared.unblocked.frozenApps] at huntracked
    exact (hbranch.bypass hreached.allowed hbypass hne).2.mpr
      ⟨hcleared.waited_iff.mpr (hreached.waited huntracked),
        hcleared.noDownload_iff.mpr hreached.noDownload, hreached.uniform, hreached.valid⟩

/-- The listing at the start of a record is neither a sample nor a validation. -/
theorem bypassesIdle_listed_iff {auditDue : Bool} (uid : Nat)
    (answer : Except DaemonError (List RuntimeProcess)) :
    BypassesIdle ctx auditDue s (listed uid answer :: t) ↔ BypassesIdle ctx auditDue s t := by
  have hvalid : FirstValid (ctx.pendingProcesses.length + 1) (listed uid answer :: t)
      ↔ FirstValid (ctx.pendingProcesses.length + 1) t := by
    rw [← List.singleton_append]
    refine firstValid_append _ fun call hcall => ?_
    obtain rfl := List.mem_singleton.mp hcall
    rfl
  have hquiet : ctx.NoDownload s (listed uid answer :: t) ↔ ctx.NoDownload s t := by
    refine ⟨fun h sample hmem => h sample (List.mem_cons_of_mem _ hmem), fun h sample hmem => ?_⟩
    rcases List.mem_cons.mp hmem with heq | hmem
    · cases heq
    · exact h sample hmem
  constructor
  · rintro ⟨hmode, hbypass, hallowed, hunblocked, hfg, haudit, hwaited, hq, hu, hv⟩
    exact ⟨hmode, hbypass, hallowed, hunblocked, hfg, haudit, hwaited, hquiet.mp hq, hu, hvalid.mp hv⟩
  · rintro ⟨hmode, hbypass, hallowed, hunblocked, hfg, haudit, hwaited, hq, hu, hv⟩
    exact ⟨hmode, hbypass, hallowed, hunblocked, hfg, haudit, hwaited, hquiet.mpr hq, hu,
      hvalid.mpr hv⟩

/-! ## Idle before every freeze and kill -/

/-- Whatever was frozen or killed, no process last listed was active. -/
def IdleBefore (t : Trace) : Prop :=
  ∀ pre call post, t = pre ++ call :: post →
    (∃ p, call.query = .freezeProcess p ∨ call.query = .terminateProcess p) →
    ∃ listing, listingAfter none pre = some listing
      ∧ idleBlocker (listing.2.map RuntimeProcess.pendingFreeze) = none

/-- A record that is signalled without the idle check lists idle processes. -/
def Moment.SignalsIdle (m : Moment) : Prop :=
  ∀ input auditDue record first rest, m.work = .record input auditDue record →
    m.calls.head? = some (listed record.uid (.ok (first :: rest))) →
    BypassesIdle (listedContext input record first rest) auditDue m.before m.calls →
    idleBlocker ((first :: rest).map RuntimeProcess.pendingFreeze) = none

/-- The aim of a pass that waits for idle apps. -/
def idleAim : Aim where
  freeze _ listing := idleBlocker (listing.2.map RuntimeProcess.pendingFreeze) = none
  kill _ listing := idleBlocker (listing.2.map RuntimeProcess.pendingFreeze) = none

/-- What is aimed at idle processes only is what the idle checks promise. -/
theorem Aimed.idleBefore (h : Aimed idleAim none t) : IdleBefore t := by
  rintro pre call post ht ⟨p, hfreeze | hkill⟩
  · exact (h.at ht).1 p hfreeze
  · exact (h.at ht).2 p hkill

/-- The generic freezer decides to freeze or to fall back only if the app is idle. -/
theorem idleAim_covers {input : PassInput} {record : ManagerAppConfigRecord}
    {first : RuntimeProcess} {rest : List RuntimeProcess}
    (hallowed : (listedContext input record first rest).allowed = true)
    (hbackend : requestedControlBackend record input.settings = .freezer) :
    idleAim.Covers (listedContext input record first rest) where
  freeze binder _ hd p _ := by
    have hidle := RecordContext.idle_of_decide hallowed hbackend hd
    exact ⟨hidle, hidle⟩
  kill binder _ hd p _ := by
    -- Only mode 10 is killed, and it asks for SIGKILL.
    have hmode10 : record.mode = 10 := (RecordContext.decide_terminate hallowed).mp hd
    rw [requestedControlBackend_terminate.mpr hmode10] at hbackend
    cases hbackend

/-- A record that bypasses the freezer, from its listing on. -/
theorem Moment.SignalsIdle.aimed {input : PassInput} {auditDue : Bool}
    {record : ManagerAppConfigRecord} {m : Moment} {last : Option Listing} (h : m.SignalsIdle)
    (hwork : m.work = .record input auditDue record)
    (hexec : Exec (controlRecord input auditDue record m.before) m.calls (r, m.after))
    (hbypass : requestedControlBackend record input.settings ≠ .freezer) :
    Aimed idleAim last m.calls := by
  have hrun := controlRecord_run hexec
  obtain ⟨before, work, calls, after⟩ := m
  dsimp only at hrun hwork
  subst hwork
  cases hrun with
  | uncontrolled => trivial
  | undiscovered => exact ⟨(harmless_listed _ _).allows, trivial⟩
  | exited => exact ⟨(harmless_listed _ _).allows, trivial⟩
  | @occupied t _ _ first rest hmode hbranch =>
    refine ⟨(harmless_listed _ _).allows, ?_⟩
    obtain ⟨hsteady, htouches⟩ := hbranch.bypass hmode hbypass (List.cons_ne_nil _ _)
    by_cases ht : Touches t
    · have hidle := h input auditDue record first rest rfl rfl
        ((bypassesIdle_listed_iff _ _).mpr (htouches.mp ht))
      exact .of_steady (hsteady ht) fun _ _ => ⟨fun _ _ => ⟨_, rfl, hidle⟩, fun _ _ => ⟨_, rfl, hidle⟩⟩
    · refine .of_harmless fun call hcall => ?_
      by_contra hnot
      exact ht ⟨call, hcall, hnot⟩

/-- The step of a record runs the loop body on it. -/
theorem Moment.Exact.exec {input : PassInput} {auditDue : Bool} {record : ManagerAppConfigRecord}
    {m : Moment} (h : m.Exact) (hwork : m.work = .record input auditDue record) :
    ∃ r, Exec (controlRecord input auditDue record m.before) m.calls (r, m.after) := by
  cases h with
  | release => cases hwork
  | record hexec =>
    cases hwork
    exact ⟨_, hexec⟩
  | thawAll => cases hwork
  | freezeStatus => cases hwork
  | takeNetworkRestrictions => cases hwork
  | requeueNetworkRestriction => cases hwork

/-- A pass of such steps is aimed as a whole. -/
theorem PassMoments.aimed {input : PassInput} {ms : List Moment} (h : PassMoments input s ms r s')
    (hidle : ∀ m ∈ ms, m.SignalsIdle) : Aimed idleAim none (Moment.traceOf ms) := by
  refine .flatMap fun m hm last => ?_
  rcases h.steps hm with ⟨s₁, hrelease, -⟩ | ⟨auditDue, record, -, r', hwork, hstep⟩
  · obtain ⟨s₂, hsteps, -⟩ := releaseStale_steps hrelease
    exact .of_harmless hsteps.harmless
  · by_cases hbackend : requestedControlBackend record input.settings = .freezer
    · exact hstep.aimed fun _ _ _ _ hallowed _ => idleAim_covers hallowed hbackend
    · obtain ⟨r, hexec⟩ := (h.exact m hm).exec hwork
      exact (hidle m hm).aimed hwork hexec hbackend

/-- A signalled record was listed last, and its listing was idle. -/
theorem IdleBefore.signalsIdle {m : Moment} {past future : Trace} (h : IdleBefore (past ++ m.calls ++ future))
    (hexact : m.Exact) : m.SignalsIdle := by
  intro input auditDue record first rest hwork hhead hreached
  obtain ⟨r, hexec⟩ := hexact.exec hwork
  have hrun := controlRecord_run hexec
  obtain ⟨before, work, calls, after⟩ := m
  dsimp only at hrun hhead hreached h
  cases hrun with
  | uncontrolled => cases hhead
  | undiscovered => cases hhead
  | exited => cases hhead
  | @occupied t _ _ first' rest' hmode hbranch =>
    cases hhead
    obtain ⟨hsteady, htouches⟩ := hbranch.bypass hmode hreached.bypasses (List.cons_ne_nil _ _)
    -- The condition holds, so this step does touch a process, and by assumption it was
    -- idle.
    have ht : Touches t := htouches.mpr ((bypassesIdle_listed_iff _ _).mp hreached)
    obtain ⟨call, hcall, hacts⟩ := id ht
    obtain ⟨pre, post, rfl⟩ := List.append_of_mem hcall
    have hquery : ∃ p, call.query = .freezeProcess p ∨ call.query = .terminateProcess p := by
      by_contra hnone
      exact hacts ⟨fun p hp => hnone ⟨p, .inl hp⟩, fun p hp => hnone ⟨p, .inr hp⟩⟩
    obtain ⟨listing, hlisting, hidle⟩ := h
      (past ++ listed record.uid (.ok (first :: rest)) :: pre) call (post ++ future) (by simp) hquery
    -- Nothing was listed in between, so the last listing is that of the record.
    have hlast : listingAfter none (past ++ listed record.uid (.ok (first :: rest)) :: pre)
        = some (record.uid, first :: rest) := by
      unfold listingAfter
      rw [List.foldl_append, List.foldl_cons]
      exact listingAfter_steady (fun e he => hsteady ht e (List.mem_append_left _ he)) _
    obtain rfl : (record.uid, first :: rest) = listing :=
      Option.some.inj (hlast.symm.trans hlisting)
    exact hidle

/-- SIGKILL and SIGSTOP policies skip the idle check, so a pass waits for idle
    apps if and only if those that it signals happen to be idle. -/
theorem pass_waits_for_idle_iff {input : PassInput} {ms : List Moment}
    (h : PassMoments input s ms r s') :
    IdleBefore (Moment.traceOf ms) ↔ ∀ m ∈ ms, m.SignalsIdle := by
  constructor
  · intro hidle m hm
    obtain ⟨past, future, rfl⟩ := List.append_of_mem hm
    have htrace : Moment.traceOf (past ++ m :: future)
        = Moment.traceOf past ++ m.calls ++ Moment.traceOf future := by simp
    rw [htrace] at hidle
    exact hidle.signalsIdle (h.exact m hm)
  · exact fun hidle => (h.aimed hidle).idleBefore

/-- Mode 10 with a delay of five seconds. -/
def delayedKill : PassInput := { samplePass 10 with settings := [0, 0, 0, 0, 5] }

/-- A busy app whose delay has not run out is left alone, and an idle one is killed. -/
theorem pass_waits_for_idle_iff_sample :
    IdleBefore (Moment.traceOf (busyEnvironment.passMoments delayedKill .default).1)
      ∧ IdleBefore (Moment.traceOf (sampleEnvironment.passMoments (samplePass 10) .default).1)
      ∧ killed sampleProcess.pendingFreeze
        ∈ Moment.traceOf (sampleEnvironment.passMoments (samplePass 10) .default).1 := by
  refine ⟨(pass_waits_for_idle_iff (busyEnvironment.passMoments_spec delayedKill .default)).mpr ?_,
    (pass_waits_for_idle_iff (sampleEnvironment.passMoments_spec (samplePass 10) .default)).mpr ?_, ?_⟩
  · intro m hm input auditDue record first rest hwork hhead hreached
    rcases List.mem_pair.mp hm with rfl | rfl
    · cases hwork
    · cases hwork
      rcases hreached.waited (SortedMap.not_mem_empty _) with haudit | hzero | ⟨dueAtMs, hdue, -⟩
      · cases haudit
      · cases hzero
      · cases hdue
  · intro m hm input auditDue record first rest hwork hhead hreached
    rcases List.mem_pair.mp hm with rfl | rfl
    · cases hwork
    · cases hwork
      cases hhead
      decide
  · exact List.mem_of_getElem? (i := 4) rfl

/-- An app in mode 10 is killed in the middle of a Binder transaction. -/
theorem busy_app_is_killed :
    ¬ ∀ past s, Reachable past s → ∀ input t r s', Exec (runControlPass input s) t (r, s') →
      IdleBefore t := by
  intro hclaim
  have hidle := hclaim [] .default .default (samplePass 10) _ _ _
    (exec_run busyEnvironment.answer [] (runControlPass (samplePass 10) .default))
  let p := busyProcess.pendingFreeze
  obtain ⟨listing, hlisting, hnone⟩ := hidle
    [listed 10123 (.ok [busyProcess]), ⟨.binderAvailable, true⟩, validated p, validated p]
    (killed p) [] rfl ⟨p, .inr rfl⟩
  obtain rfl : (10123, [busyProcess]) = listing := Option.some.inj hlisting
  revert hnone
  decide

end Freezeit
