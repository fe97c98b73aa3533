import Freezeit.Transactions
import Mathlib.Tactic.Common

/-! # What the transactions call

    One lemma per transaction says which calls it can have made by the time it
    ends with a given outcome.  Later proofs use these and never unfold a loop. -/

namespace Freezeit

open Prog

/-! ## Calls that succeeded -/

/-- The process was validated. -/
def validated (process : RuntimeProcess) : Call := ⟨.validateProcess process, .ok true⟩
/-- The process was frozen. -/
def frozen (process : RuntimeProcess) : Call := ⟨.freezeProcess process, .ok ()⟩
/-- The process was thawed. -/
def thawed (process : RuntimeProcess) : Call := ⟨.unfreezeProcess process, .ok ()⟩
/-- The process was killed. -/
def killed (process : RuntimeProcess) : Call := ⟨.terminateProcess process, .ok ()⟩

/-- Every process validated, in order. -/
def validatedCalls (processes : List RuntimeProcess) : Trace := processes.map validated

/-- Every process validated and frozen through its control process, in order. -/
def frozenCalls (control : RuntimeProcess → RuntimeProcess) (processes : List RuntimeProcess) :
    Trace :=
  processes.flatMap fun process => [validated process, frozen (control process)]

/-- The calls of a thaw in which all goes well. -/
def thawedCalls (check control : RuntimeProcess → RuntimeProcess)
    (processes : List RuntimeProcess) : Trace :=
  processes.flatMap fun process => [validated (check process), thawed (control process)]

/-- The calls of a kill in which all goes well. -/
def killedCalls (processes : List RuntimeProcess) : Trace :=
  processes.flatMap fun process => [validated process, killed process]

/-- The processes all carry the package name of the first. -/
def Uniform (processes : List RuntimeProcess) : Prop :=
  ∀ p ∈ processes, some p.packageName = processes.head?.map RuntimeProcess.packageName

/-- In a uniform list any two processes share their package name. -/
theorem Uniform.eq {processes : List RuntimeProcess} (h : Uniform processes)
    {p q : RuntimeProcess} (hp : p ∈ processes) (hq : q ∈ processes) :
    p.packageName = q.packageName :=
  Option.some.inj ((h p hp).trans (h q hq).symm)

/-! ## Thaw attempts

    `ThawAttempts check control ps t n`: the calls `t` tried to thaw each of
    `ps`, validating `check p` and unfreezing `control p`, and `n` of the
    attempts failed. -/

/-- The calls of a thaw, with the number of processes that were not thawed. -/
inductive ThawAttempts (check control : RuntimeProcess → RuntimeProcess) :
    List RuntimeProcess → Trace → Nat → Prop where
  | nil : ThawAttempts check control [] [] 0
  | refused : ∀ {p ps t n} (answer : Except DaemonError Bool), answer ≠ .ok true →
      ThawAttempts check control ps t n →
      ThawAttempts check control (p :: ps) (⟨.validateProcess (check p), answer⟩ :: t) (n + 1)
  | failed : ∀ {p ps t n} (error : DaemonError), ThawAttempts check control ps t n →
      ThawAttempts check control (p :: ps)
        (validated (check p) :: ⟨.unfreezeProcess (control p), .error error⟩ :: t) (n + 1)
  | thawed : ∀ {p ps t n}, ThawAttempts check control ps t n →
      ThawAttempts check control (p :: ps)
        (validated (check p) :: Freezeit.thawed (control p) :: t) n

variable {check control : RuntimeProcess → RuntimeProcess} {ps : List RuntimeProcess} {t : Trace}
  {n : Nat}

/-- With no failure all of them were thawed. -/
theorem ThawAttempts.eq_thawedCalls (h : ThawAttempts check control ps t n) (hn : n = 0) :
    t = thawedCalls check control ps := by
  induction h with
  | nil => rfl
  | refused => omega
  | failed => omega
  | thawed _ ih => rw [ih hn]; rfl

/-- A call that validates or unfreezes the process, and does not succeed. -/
def FailedThaw (p : RuntimeProcess) (call : Call) : Prop :=
  ∃ q, q.key = p.key ∧ ((∃ answer, call = ⟨.validateProcess q, answer⟩ ∧ answer ≠ .ok true)
    ∨ ∃ error, call = ⟨.unfreezeProcess q, .error error⟩)

/-- With a failure some process was refused or could not be thawed. -/
theorem ThawAttempts.exists_failed (h : ThawAttempts check control ps t n) (hn : n ≠ 0)
    (hcheck : ∀ p, (check p).key = p.key) (hcontrol : ∀ p, (control p).key = p.key) :
    ∃ p ∈ ps, ∃ call ∈ t, FailedThaw p call := by
  induction h with
  | nil => omega
  | @refused p _ _ _ answer hanswer =>
    exact ⟨p, List.mem_cons_self, _, List.mem_cons_self, check p, hcheck p,
      .inl ⟨answer, rfl, hanswer⟩⟩
  | @failed p _ _ _ error =>
    exact ⟨p, List.mem_cons_self, _, List.mem_cons_of_mem _ List.mem_cons_self, control p,
      hcontrol p, .inr ⟨error, rfl⟩⟩
  | thawed _ ih =>
    obtain ⟨p, hp, call, hmem, hfail⟩ := ih hn
    exact ⟨p, List.mem_cons_of_mem _ hp, call,
      List.mem_cons_of_mem _ (List.mem_cons_of_mem _ hmem), hfail⟩

/-- The calls of a thaw are about the processes it was given. -/
theorem ThawAttempts.calls (h : ThawAttempts check control ps t n) {call : Call} (hc : call ∈ t) :
    ∃ p ∈ ps, call.query = .validateProcess (check p) ∨ call.query = .unfreezeProcess (control p) := by
  induction h with
  | nil => simp at hc
  | refused answer _ _ ih =>
    rcases List.mem_cons.mp hc with rfl | hc
    · exact ⟨_, List.mem_cons_self, .inl rfl⟩
    · obtain ⟨p, hp, hq⟩ := ih hc
      exact ⟨p, List.mem_cons_of_mem _ hp, hq⟩
  | failed error _ ih =>
    rcases List.mem_cons.mp hc with rfl | hc
    · exact ⟨_, List.mem_cons_self, .inl rfl⟩
    · rcases List.mem_cons.mp hc with rfl | hc
      · exact ⟨_, List.mem_cons_self, .inr rfl⟩
      · obtain ⟨p, hp, hq⟩ := ih hc
        exact ⟨p, List.mem_cons_of_mem _ hp, hq⟩
  | thawed _ ih =>
    rcases List.mem_cons.mp hc with rfl | hc
    · exact ⟨_, List.mem_cons_self, .inl rfl⟩
    · rcases List.mem_cons.mp hc with rfl | hc
      · exact ⟨_, List.mem_cons_self, .inr rfl⟩
      · obtain ⟨p, hp, hq⟩ := ih hc
        exact ⟨p, List.mem_cons_of_mem _ hp, hq⟩

/-- The loop of a thaw makes these calls, and reports as many failures. -/
theorem unfreezeLoop_attempts {ownership : FrozenOwnership} {outcome outcome' : UnfreezeOutcome}
    (h : Exec (unfreezeLoop ownership ps outcome) t outcome') :
    ∃ n, ThawAttempts ownership.controlProcess ownership.controlProcess ps t n
      ∧ outcome'.failures.length = outcome.failures.length + n := by
  induction ps generalizing outcome t with
  | nil =>
    obtain ⟨rfl, rfl⟩ := exec_pure.mp h
    exact ⟨0, .nil, rfl⟩
  | cons p ps ih =>
    obtain ⟨answer, t₁, rfl, hrest⟩ := exec_ask_bind.mp h
    -- Refused, not answered, or thawed.
    match answer with
    | .ok false =>
      obtain ⟨n, hattempts, hlen⟩ := ih hrest
      refine ⟨n + 1, .refused _ (by simp) hattempts, ?_⟩
      simp [UnfreezeOutcome.fail] at hlen
      omega
    | .error error =>
      obtain ⟨n, hattempts, hlen⟩ := ih hrest
      refine ⟨n + 1, .refused _ (by simp) hattempts, ?_⟩
      simp [UnfreezeOutcome.fail] at hlen
      omega
    | .ok true =>
      obtain ⟨answer, t₂, rfl, hnext⟩ := exec_ask_bind.mp hrest
      match answer with
      | .ok () =>
        obtain ⟨n, hattempts, hlen⟩ := ih hnext
        exact ⟨n, .thawed hattempts, hlen⟩
      | .error error =>
        obtain ⟨n, hattempts, hlen⟩ := ih hnext
        refine ⟨n + 1, .failed error hattempts, ?_⟩
        simp [UnfreezeOutcome.fail] at hlen
        omega

/-- A thaw refuses a list of mixed packages without a call; otherwise it tries
    every process, and its failures are the failed attempts. -/
theorem unfreezeIdentityProcesses_spec {package : String} {ownership : FrozenOwnership}
    {outcome : UnfreezeOutcome}
    (h : Exec (unfreezeIdentityProcesses package ps ownership) t outcome) :
    (∃ p ∈ ps, p.packageName ≠ package) ∧ t = [] ∧ outcome.failures ≠ []
    ∨ (∀ p ∈ ps, p.packageName = package) ∧
      ThawAttempts ownership.controlProcess ownership.controlProcess ps t
        outcome.failures.length := by
  unfold unfreezeIdentityProcesses at h
  by_cases hmixed : ∃ p ∈ ps, p.packageName ≠ package
  · rw [if_pos (by simpa using hmixed)] at h
    obtain ⟨rfl, rfl⟩ := exec_pure.mp h
    exact .inl ⟨hmixed, rfl, by simp⟩
  · rw [if_neg (by simpa using hmixed)] at h
    obtain ⟨n, hattempts, hlen⟩ := unfreezeLoop_attempts h
    have hn : outcome.failures.length = n := by simpa using hlen
    refine .inr ⟨fun p hp => ?_, hn ▸ hattempts⟩
    by_contra hne
    exact hmixed ⟨p, hp, hne⟩

/-! ## Pre-validation -/

/-- The pre-validation stopped at a process of another package, or at one that
    did not validate. -/
def PreflightRefusal (ps : List RuntimeProcess) (t : Trace) : Prop :=
  ∃ done p rest, ps = done ++ p :: rest ∧
    (t = validatedCalls done ∧ ¬ Uniform ps
      ∨ ∃ answer, answer ≠ .ok true ∧ t = validatedCalls done ++ [⟨.validateProcess p, answer⟩])

/-- One round of a pre-validation loop, whatever its messages are. -/
def PreflightRound (expected : Option String)
    (preflight : List RuntimeProcess → Control (Option String)) : Prop :=
  ∀ p rest t result, Exec (preflight (p :: rest)) t result →
    some p.packageName ≠ expected ∧ t = [] ∧ result ≠ none
    ∨ some p.packageName = expected ∧
      ((∃ answer, answer ≠ .ok true ∧ t = [⟨.validateProcess p, answer⟩] ∧ result ≠ none)
      ∨ ∃ t', t = validated p :: t' ∧ Exec (preflight rest) t' result)

/-- A round of validations goes through, or it ends at the first process that is of
    another package or not valid. -/
theorem preflight_spec {expected result : Option String}
    {preflight : List RuntimeProcess → Control (Option String)}
    (hnil : preflight [] = pure none) (hround : PreflightRound expected preflight)
    (h : Exec (preflight ps) t result) :
    result = none ∧ (∀ p ∈ ps, some p.packageName = expected) ∧ t = validatedCalls ps
    ∨ result ≠ none ∧ ∃ done p rest, ps = done ++ p :: rest ∧
      (t = validatedCalls done ∧ some p.packageName ≠ expected
        ∨ ∃ answer, answer ≠ .ok true ∧
          t = validatedCalls done ++ [⟨.validateProcess p, answer⟩]) := by
  induction ps generalizing t with
  | nil =>
    rw [hnil] at h
    obtain ⟨rfl, rfl⟩ := exec_pure.mp h
    exact .inl ⟨rfl, by simp, rfl⟩
  | cons p ps ih =>
    rcases hround p ps t result h with ⟨hp, rfl, hr⟩ | ⟨hp, ⟨answer, hans, rfl, hr⟩ | ⟨t', rfl, hrest⟩⟩
    · exact .inr ⟨hr, [], p, ps, rfl, .inl ⟨rfl, hp⟩⟩
    · exact .inr ⟨hr, [], p, ps, rfl, .inr ⟨answer, hans, rfl⟩⟩
    · rcases ih hrest with ⟨rfl, hall, rfl⟩ | ⟨hr, done, q, rest, rfl, hcase⟩
      · exact .inl ⟨rfl, by simpa using ⟨hp, hall⟩, rfl⟩
      · refine .inr ⟨hr, p :: done, q, rest, rfl, ?_⟩
        rcases hcase with ⟨rfl, hq⟩ | ⟨answer, hans, rfl⟩
        · exact .inl ⟨rfl, hq⟩
        · exact .inr ⟨answer, hans, rfl⟩

/-- The validations before a freeze are such a round. -/
theorem freezePreflight_round (expected : Option String) :
    PreflightRound expected (freezePreflight expected) := by
  intro p rest t result h
  rw [freezePreflight] at h
  by_cases hp : some p.packageName = expected
  · rw [if_neg (by simpa using hp)] at h
    obtain ⟨answer, t₁, rfl, hrest⟩ := exec_ask_bind.mp h
    refine .inr ⟨hp, ?_⟩
    match answer with
    | .ok true => exact .inr ⟨t₁, rfl, hrest⟩
    | .ok false =>
      obtain ⟨rfl, rfl⟩ := exec_pure.mp hrest
      exact .inl ⟨_, by simp, rfl, by simp⟩
    | .error error =>
      obtain ⟨rfl, rfl⟩ := exec_pure.mp hrest
      exact .inl ⟨_, by simp, rfl, by simp⟩
  · rw [if_pos hp] at h
    obtain ⟨rfl, rfl⟩ := exec_pure.mp h
    exact .inl ⟨hp, rfl, by simp⟩

/-- The validations before a kill are such a round. -/
theorem terminatePreflight_round (expected : Option String) :
    PreflightRound expected (terminatePreflight expected) := by
  intro p rest t result h
  rw [terminatePreflight] at h
  by_cases hp : some p.packageName = expected
  · rw [if_neg (by simpa using hp)] at h
    obtain ⟨answer, t₁, rfl, hrest⟩ := exec_ask_bind.mp h
    refine .inr ⟨hp, ?_⟩
    match answer with
    | .ok true => exact .inr ⟨t₁, rfl, hrest⟩
    | .ok false =>
      obtain ⟨rfl, rfl⟩ := exec_pure.mp hrest
      exact .inl ⟨_, by simp, rfl, by simp⟩
    | .error error =>
      obtain ⟨rfl, rfl⟩ := exec_pure.mp hrest
      exact .inl ⟨_, by simp, rfl, by simp⟩
  · rw [if_pos hp] at h
    obtain ⟨rfl, rfl⟩ := exec_pure.mp h
    exact .inl ⟨hp, rfl, by simp⟩

/-- The pre-validation of a transaction, against the package of its first process. -/
theorem transaction_preflight_spec {result : Option String}
    {preflight : Option String → List RuntimeProcess → Control (Option String)}
    (hnil : ∀ expected, preflight expected [] = pure none)
    (hround : ∀ expected, PreflightRound expected (preflight expected))
    (h : Exec (preflight (ps.head?.map RuntimeProcess.packageName) ps) t result) :
    result = none ∧ Uniform ps ∧ t = validatedCalls ps
    ∨ (∃ m, result = some m) ∧ PreflightRefusal ps t := by
  rcases preflight_spec (hnil _) (hround _) h with hok | ⟨hr, done, p, rest, hps, hcase⟩
  · exact .inl hok
  · refine .inr ⟨Option.ne_none_iff_exists'.mp hr, done, p, rest, hps, ?_⟩
    rcases hcase with ⟨ht, hp⟩ | hans
    · exact .inl ⟨ht, fun hu => hp (hu p (by simp [hps]))⟩
    · exact .inr hans

/-! ## The freeze transaction -/

/-- A validation or a freeze that ended the freezing loop. -/
def FailedFreeze (control : RuntimeProcess → RuntimeProcess) (p : RuntimeProcess) (t : Trace) :
    Prop :=
  (∃ answer, answer ≠ .ok true ∧ t = [⟨.validateProcess p, answer⟩])
    ∨ ∃ error, t = [validated p, ⟨.freezeProcess (control p), .error error⟩]

/-- The loop of a freeze goes through, or it ends at the first process that fails. -/
theorem freezeLoop_spec {done signaled : List RuntimeProcess} {failure : Option String}
    (h : Exec (freezeLoop (fun p => freezeProcess (control p)) ps done) t (signaled, failure)) :
    failure = none ∧ signaled = done ++ ps ∧ t = frozenCalls control ps
    ∨ (∃ m, failure = some m) ∧ ∃ pre p rest t', ps = pre ++ p :: rest ∧ signaled = done ++ pre
      ∧ t = frozenCalls control pre ++ t' ∧ FailedFreeze control p t' := by
  -- The processes that are done grow along the recursion, so the statement carries them.
  induction ps generalizing t done with
  | nil =>
    obtain ⟨rfl, heq⟩ := exec_pure.mp h
    obtain ⟨rfl, rfl⟩ := Prod.mk.inj heq
    exact .inl ⟨rfl, by simp, rfl⟩
  | cons p ps ih =>
    obtain ⟨answer, t₁, rfl, hrest⟩ := exec_ask_bind.mp h
    match answer with
    | .ok false =>
      obtain ⟨rfl, heq⟩ := exec_pure.mp hrest
      obtain ⟨rfl, rfl⟩ := Prod.mk.inj heq
      exact .inr ⟨⟨_, rfl⟩, [], p, ps, _, rfl, by simp, rfl, .inl ⟨_, by simp, rfl⟩⟩
    | .error error =>
      obtain ⟨rfl, heq⟩ := exec_pure.mp hrest
      obtain ⟨rfl, rfl⟩ := Prod.mk.inj heq
      exact .inr ⟨⟨_, rfl⟩, [], p, ps, _, rfl, by simp, rfl, .inl ⟨_, by simp, rfl⟩⟩
    | .ok true =>
      obtain ⟨answer, t₂, rfl, hnext⟩ := exec_ask_bind.mp hrest
      match answer with
      | .error error =>
        obtain ⟨rfl, heq⟩ := exec_pure.mp hnext
        obtain ⟨rfl, rfl⟩ := Prod.mk.inj heq
        exact .inr ⟨⟨_, rfl⟩, [], p, ps, _, rfl, by simp, rfl, .inr ⟨error, rfl⟩⟩
      | .ok () =>
        -- This one was frozen, and the rest of the list decides.
        rcases ih hnext with ⟨rfl, rfl, rfl⟩ | ⟨hm, pre, q, rest, t', rfl, rfl, rfl, hfail⟩
        · exact .inl ⟨rfl, by simp, rfl⟩
        · exact .inr ⟨hm, p :: pre, q, rest, t', rfl, by simp, rfl, hfail⟩

/-- A rollback attempts to thaw every process that was frozen. -/
theorem rollbackLoop_attempts {rolledBack failures : Nat} {result : Nat × Nat}
    (h : Exec (rollbackLoop (fun p => unfreezeProcess (control p)) ps rolledBack failures) t
      result) :
    ∃ n, ThawAttempts id control ps t n ∧ result.2 = failures + n := by
  induction ps generalizing rolledBack failures t with
  | nil =>
    obtain ⟨rfl, rfl⟩ := exec_pure.mp h
    exact ⟨0, .nil, rfl⟩
  | cons p ps ih =>
    obtain ⟨answer, t₁, rfl, hrest⟩ := exec_ask_bind.mp h
    -- Every way to miss a process counts one failure, and none of them ends the loop.
    match answer with
    | .ok false =>
      obtain ⟨n, hattempts, hlen⟩ := ih hrest
      exact ⟨n + 1, .refused _ (by simp) hattempts, by omega⟩
    | .error error =>
      obtain ⟨n, hattempts, hlen⟩ := ih hrest
      exact ⟨n + 1, .refused _ (by simp) hattempts, by omega⟩
    | .ok true =>
      obtain ⟨answer, t₂, rfl, hnext⟩ := exec_ask_bind.mp hrest
      match answer with
      | .ok () =>
        obtain ⟨n, hattempts, hlen⟩ := ih hnext
        exact ⟨n, .thawed hattempts, hlen⟩
      | .error error =>
        obtain ⟨n, hattempts, hlen⟩ := ih hnext
        exact ⟨n + 1, .failed error hattempts, by omega⟩

/-- The three ways a freeze transaction over `ps` can end. -/
inductive FreezeRun (control : RuntimeProcess → RuntimeProcess) (ps : List RuntimeProcess) :
    Trace → FreezeTransactionOutcome → Prop where
  | refused : ∀ {t} (failure : String), PreflightRefusal ps t →
      FreezeRun control ps t ⟨0, 0, 0, false, some failure⟩
  | frozen : Uniform ps →
      FreezeRun control ps (validatedCalls ps ++ frozenCalls control ps)
        ⟨ps.length, 0, 0, false, none⟩
  | rolledBack : ∀ {done p rest t₁ t₂ rolledBack rollbackFailures} (failure : String),
      Uniform ps → ps = done ++ p :: rest → FailedFreeze control p t₁ →
      ThawAttempts id control done.reverse t₂ rollbackFailures →
      FreezeRun control ps (validatedCalls ps ++ (frozenCalls control done ++ (t₁ ++ t₂)))
        ⟨done.length, rolledBack, rollbackFailures, true, some failure⟩

/-- Every way in which a freeze can go. -/
theorem applyFreezeTransaction_spec {outcome : FreezeTransactionOutcome}
    (h : Exec (applyFreezeTransaction ps (fun p => freezeProcess (control p))
      (fun p => unfreezeProcess (control p))) t outcome) :
    FreezeRun control ps t outcome := by
  obtain ⟨t₁, t₂, preflight, rfl, h₁, h₂⟩ := exec_bind.mp h
  rcases transaction_preflight_spec (fun _ => rfl) freezePreflight_round h₁ with
    ⟨rfl, hu, rfl⟩ | ⟨⟨m, rfl⟩, hrefusal⟩
  · obtain ⟨t₃, t₄, ⟨signaled, failure⟩, rfl, h₃, h₄⟩ := exec_bind.mp h₂
    rcases freezeLoop_spec h₃ with ⟨rfl, rfl, rfl⟩ | ⟨⟨m, rfl⟩, pre, p, rest, t', hps, rfl, rfl, hfail⟩
    · obtain ⟨rfl, rfl⟩ := exec_pure.mp h₄
      simpa using FreezeRun.frozen hu
    · obtain ⟨t₅, t₆, ⟨rolledBack, failures⟩, rfl, h₅, h₆⟩ := exec_bind.mp h₄
      obtain ⟨rfl, rfl⟩ := exec_pure.mp h₆
      obtain ⟨n, hattempts, hn⟩ := rollbackLoop_attempts h₅
      have hn : failures = n := by simpa using hn
      subst hn
      simpa using FreezeRun.rolledBack m hu hps hfail hattempts
  · obtain ⟨rfl, rfl⟩ := exec_pure.mp h₂
    simpa using FreezeRun.refused m hrefusal

/-! ## The terminate transaction -/

/-- Every way in which a kill can go. -/
inductive TerminateRun (ps : List RuntimeProcess) : Trace → TerminateTransactionOutcome → Prop where
  | refused : ∀ {t} (failure : String), PreflightRefusal ps t →
      TerminateRun ps t ⟨0, some failure⟩
  | killed : Uniform ps →
      TerminateRun ps (validatedCalls ps ++ killedCalls ps) ⟨ps.length, none⟩
  | stopped : ∀ {done p rest t₁} (failure : String), Uniform ps → ps = done ++ p :: rest →
      ((∃ answer, answer ≠ .ok true ∧ t₁ = [⟨.validateProcess p, answer⟩])
        ∨ ∃ error, t₁ = [validated p, ⟨.terminateProcess p, .error error⟩]) →
      TerminateRun ps (validatedCalls ps ++ (killedCalls done ++ t₁)) ⟨done.length, some failure⟩

/-- The loop of a kill goes through, or it ends at the first process that fails. -/
theorem terminateLoop_spec {applied : Nat} {outcome : TerminateTransactionOutcome}
    (h : Exec (terminateLoop ps applied) t outcome) :
    outcome = ⟨applied + ps.length, none⟩ ∧ t = killedCalls ps
    ∨ ∃ failure done p rest t₁, outcome = ⟨applied + done.length, some failure⟩
      ∧ ps = done ++ p :: rest ∧ t = killedCalls done ++ t₁ ∧
      ((∃ answer, answer ≠ .ok true ∧ t₁ = [⟨.validateProcess p, answer⟩])
        ∨ ∃ error, t₁ = [validated p, ⟨.terminateProcess p, .error error⟩]) := by
  induction ps generalizing t applied with
  | nil =>
    obtain ⟨rfl, rfl⟩ := exec_pure.mp h
    exact .inl ⟨rfl, rfl⟩
  | cons p ps ih =>
    obtain ⟨answer, t₁, rfl, hrest⟩ := exec_ask_bind.mp h
    -- Refused, not answered, or killed.
    match answer with
    | .ok false =>
      obtain ⟨rfl, rfl⟩ := exec_pure.mp hrest
      exact .inr ⟨_, [], p, ps, _, rfl, rfl, rfl, .inl ⟨_, by simp, rfl⟩⟩
    | .error error =>
      obtain ⟨rfl, rfl⟩ := exec_pure.mp hrest
      exact .inr ⟨_, [], p, ps, _, rfl, rfl, rfl, .inl ⟨_, by simp, rfl⟩⟩
    | .ok true =>
      obtain ⟨answer, t₂, rfl, hnext⟩ := exec_ask_bind.mp hrest
      match answer with
      | .error error =>
        obtain ⟨rfl, rfl⟩ := exec_pure.mp hnext
        exact .inr ⟨_, [], p, ps, _, rfl, rfl, rfl, .inr ⟨error, rfl⟩⟩
      | .ok () =>
        -- This one was killed, and the rest of the list decides.
        rcases ih hnext with ⟨rfl, rfl⟩ | ⟨m, done, q, rest, t', rfl, rfl, rfl, hfail⟩
        · refine .inl ⟨?_, rfl⟩
          congr 1
          rw [List.length_cons]
          omega
        · refine .inr ⟨m, p :: done, q, rest, t', ?_, rfl, rfl, hfail⟩
          congr 1
          rw [List.length_cons]
          omega

/-- A kill goes in one of these ways. -/
theorem applyTerminateTransaction_spec {outcome : TerminateTransactionOutcome}
    (h : Exec (applyTerminateTransaction ps) t outcome) : TerminateRun ps t outcome := by
  obtain ⟨t₁, t₂, preflight, rfl, h₁, h₂⟩ := exec_bind.mp h
  rcases transaction_preflight_spec (fun _ => rfl) terminatePreflight_round h₁ with
    ⟨rfl, hu, rfl⟩ | ⟨⟨m, rfl⟩, hrefusal⟩
  · rcases terminateLoop_spec h₂ with ⟨rfl, rfl⟩ | ⟨m, done, p, rest, t₃, rfl, hps, rfl, hfail⟩
    · simpa using TerminateRun.killed hu
    · simpa using TerminateRun.stopped m hu hps hfail
  · obtain ⟨rfl, rfl⟩ := exec_pure.mp h₂
    simpa using TerminateRun.refused m hrefusal

/-! ## The SIGSTOP transaction -/

/-- Calls that only read or write the ledger. -/
def LedgerCall (call : Call) : Prop :=
  (∃ pid start, call.query = .recordedSignalStopOwnership pid start)
    ∨ ∃ pid start, call.query = .promoteSignalStop pid start

/-- Whether to promote is asked of the ledger alone. -/
theorem ledgerPromotionLoop_calls {result : SignalStopLedgerPromotion}
    (h : Exec (ledgerPromotionLoop ps) t result) : ∀ call ∈ t, LedgerCall call := by
  induction ps generalizing t with
  | nil =>
    obtain ⟨rfl, rfl⟩ := exec_pure.mp h
    simp
  | cons p ps ih =>
    rw [ledgerPromotionLoop] at h
    -- Without a start time there is nothing to look up.
    cases hstart : p.startTimeTicks with
    | none =>
      rw [hstart] at h
      obtain ⟨rfl, rfl⟩ := exec_pure.mp h
      simp
    | some start =>
      rw [hstart] at h
      obtain ⟨answer, t₁, rfl, hrest⟩ := exec_ask_bind.mp h
      have hrest : ∀ call ∈ t₁, LedgerCall call := by
        match answer with
        | .ok none | .ok (some .signalOnly) => exact ih hrest
        | .ok (some .residualUnknown) | .error error =>
          obtain ⟨rfl, rfl⟩ := exec_pure.mp hrest
          simp
      intro call hc
      rcases List.mem_cons.mp hc with rfl | hc
      · exact .inl ⟨_, _, rfl⟩
      · exact hrest call hc

/-- With an unresolved owner nothing is promoted. -/
theorem signalStopLedgerPromotion_spec {state : RuntimeControlState} {identity : RuntimeIdentity}
    {result : SignalStopLedgerPromotion}
    (h : Exec (signalStopLedgerPromotion state identity ps) t result) :
    (∀ call ∈ t, LedgerCall call)
      ∧ (state.hasUnresolvedFreezeOwnership identity = true → result = .never) := by
  unfold signalStopLedgerPromotion at h
  by_cases hunresolved : state.hasUnresolvedFreezeOwnership identity = true
  · rw [if_pos hunresolved] at h
    obtain ⟨rfl, rfl⟩ := exec_pure.mp h
    exact ⟨by simp, fun _ => rfl⟩
  · rw [if_neg hunresolved] at h
    exact ⟨ledgerPromotionLoop_calls h, fun hu => absurd hu hunresolved⟩

/-- The promotions are calls to the ledger. -/
theorem promotionLoop_calls {all result : Bool}
    (h : Exec (promotionLoop promoteSignalStopForControl ps all) t result) :
    ∀ call ∈ t, LedgerCall call := by
  induction ps generalizing t all with
  | nil =>
    obtain ⟨rfl, rfl⟩ := exec_pure.mp h
    simp
  | cons p ps ih =>
    obtain ⟨t₁, t₂, answer, rfl, hfirst, hrest⟩ := exec_bind.mp h
    have hfirst : ∀ call ∈ t₁, LedgerCall call := by
      unfold promoteSignalStopForControl at hfirst
      cases hstart : p.startTimeTicks with
      | none =>
        rw [hstart] at hfirst
        obtain ⟨rfl, rfl⟩ := exec_pure.mp hfirst
        simp
      | some start =>
        rw [hstart] at hfirst
        obtain rfl := exec_ask.mp hfirst
        intro call hc
        obtain rfl := List.mem_singleton.mp hc
        exact .inr ⟨_, _, rfl⟩
    have hrest : ∀ call ∈ t₂, LedgerCall call := by
      match answer with
      | .ok true => exact ih hrest
      | .ok false | .error error => exact ih hrest
    intro call hc
    exact (List.mem_append.mp hc).elim (hfirst call) (hrest call)

/-- A SIGSTOP transaction is a freeze transaction on the stripped processes,
    followed by promotions in the ledger. -/
theorem applySignalStopFreezeTransaction_spec {promotion : SignalStopLedgerPromotion}
    {promote : RuntimeProcess → Control (Except DaemonError Bool)}
    {outcome : SignalStopTransactionOutcome}
    (hpromote : ∀ t all result, Exec (promotionLoop promote ps all) t result →
      ∀ call ∈ t, LedgerCall call)
    (h : Exec (applySignalStopFreezeTransaction ps promotion promote) t outcome) :
    ∃ t₁ t₂, t = t₁ ++ t₂ ∧ FreezeRun signalControlProcess ps t₁ outcome.transaction
      ∧ (∀ call ∈ t₂, LedgerCall call)
      ∧ (promotion = .never → outcome.frozenOwnership = .residualUnknown) := by
  obtain ⟨t₁, t₂, transaction, rfl, h₁, h₂⟩ := exec_bind.mp h
  have hrun : FreezeRun signalControlProcess ps t₁ transaction := applyFreezeTransaction_spec h₁
  by_cases hc : (transaction.failure.isNone && promotion = .afterCompletedDirectTransaction) = true
  · rw [if_pos hc] at h₂
    obtain ⟨t₃, t₄, all, rfl, h₃, h₄⟩ := exec_bind.mp h₂
    obtain ⟨rfl, rfl⟩ := exec_pure.mp h₄
    refine ⟨t₁, t₃, by simp, hrun, hpromote _ _ _ h₃, ?_⟩
    rintro rfl
    simp at hc
  · rw [if_neg hc] at h₂
    obtain ⟨rfl, rfl⟩ := exec_pure.mp h₂
    exact ⟨t₁, [], rfl, hrun, by simp, fun _ => rfl⟩

end Freezeit
