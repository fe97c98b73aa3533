import Freezeit.Frames
import Freezeit.Lib.Holding
import Freezeit.Targets
import Freezeit.RecordBranches

/-! # Frozen processes are not forgotten

    A process is held from a freeze of it that succeeded to a thaw or a kill of
    it that did.  As long as a held process lives, the app it belongs to should
    be tracked as frozen: that is how a later pass finds it. -/

namespace Freezeit

open Prog

/-! ## What a call holds -/

/-- A freeze takes hold of a process, a thaw or a kill lets go of it. -/
def Call.effect : Call → Holding.Effect ProcessKey
  | ⟨.freezeProcess p, .ok ()⟩    => .take p.key
  | ⟨.unfreezeProcess p, .ok ()⟩  => .release p.key
  | ⟨.terminateProcess p, .ok ()⟩ => .release p.key
  | _                             => .none

/-- Some call of the trace froze or stopped the process. -/
abbrev Taken (t : Trace) (k : ProcessKey) : Prop := Holding.Taken Call.effect t k
/-- Some call of the trace thawed or continued the process, or killed it. -/
abbrev Released (t : Trace) (k : ProcessKey) : Prop := Holding.Released Call.effect t k
/-- The process was taken, and nothing released it after that. -/
abbrev Held (t : Trace) (k : ProcessKey) : Prop := Holding.Held Call.effect t k

variable {t t₁ t₂ : Trace} {k : ProcessKey} {ps : List RuntimeProcess}
  {control : RuntimeProcess → RuntimeProcess}

/-- Only a freeze that succeeds takes a process. -/
theorem Call.effect_eq_take {call : Call} (h : call.effect = .take k) :
    ∃ p, call = frozen p ∧ p.key = k := by
  obtain ⟨query, answer⟩ := call
  cases query with
  | freezeProcess p =>
    cases answer with
    | ok => exact ⟨p, rfl, by cases h; rfl⟩
    | error => cases h
  | unfreezeProcess p => cases answer <;> cases h
  | terminateProcess p => cases answer <;> cases h
  | _ => cases h

/-- Only freezes take. -/
theorem taken_iff : Taken t k ↔ ∃ p, frozen p ∈ t ∧ p.key = k := by
  constructor
  · rintro ⟨call, hmem, heff⟩
    obtain ⟨p, rfl, hk⟩ := Call.effect_eq_take heff
    exact ⟨p, hmem, hk⟩
  · rintro ⟨p, hmem, rfl⟩
    exact ⟨_, hmem, rfl⟩

theorem released_of_thawed {p : RuntimeProcess} (h : thawed p ∈ t) : Released t p.key :=
  ⟨_, h, rfl⟩

/-- Thaws, listings and calls on the ledger take nothing. -/
theorem not_taken_of_harmless (h : ∀ call ∈ t, Call.Harmless call) : ¬ Taken t k := by
  intro htaken
  obtain ⟨p, hmem, -⟩ := taken_iff.mp htaken
  exact (h _ hmem).1 p rfl

theorem taken_listed_cons {uid : Nat} {answer : Except DaemonError (List RuntimeProcess)} :
    Taken (listed uid answer :: t) k ↔ Taken t k := by
  have hnone : ¬ Taken [listed uid answer] k := by
    rintro ⟨call, hcall, heff⟩
    obtain rfl := List.mem_singleton.mp hcall
    cases heff
  exact (Holding.taken_append.trans (or_iff_right hnone) : Taken ([_] ++ t) k ↔ _)

theorem released_listed_cons {uid : Nat} {answer : Except DaemonError (List RuntimeProcess)} :
    Released (listed uid answer :: t) k ↔ Released t k := by
  have hnone : ¬ Released [listed uid answer] k := by
    rintro ⟨call, hcall, heff⟩
    obtain rfl := List.mem_singleton.mp hcall
    cases heff
  exact (Holding.released_append.trans (or_iff_right hnone) : Released ([_] ++ t) k ↔ _)

theorem held_concat_listed {uid : Nat} {answer : Except DaemonError (List RuntimeProcess)} :
    Held (t ++ [listed uid answer]) k ↔ Held t k := by
  refine Holding.held_append_of_idle fun call hcall => ?_
  obtain rfl := List.mem_singleton.mp hcall
  rfl

/-! ## What the transactions hold -/

/-- A thaw without a failure lets go of every process. -/
theorem unfreezeIdentityProcesses_released {package : String} {ownership : FrozenOwnership}
    {outcome : UnfreezeOutcome}
    (h : Exec (unfreezeIdentityProcesses package ps ownership) t outcome)
    (hok : outcome.failures.isEmpty = true) {p : RuntimeProcess} (hp : p ∈ ps) :
    Released t p.key := by
  have hnil : outcome.failures = [] := List.isEmpty_iff.mp hok
  rcases unfreezeIdentityProcesses_spec h with ⟨-, -, hne⟩ | ⟨-, hattempts⟩
  · exact absurd hnil hne
  · have ht := hattempts.eq_thawedCalls (by simp [hnil])
    have hmem : thawed (ownership.controlProcess p) ∈ t := by
      rw [ht]
      exact List.mem_flatMap.mpr ⟨p, hp, by simp⟩
    simpa using released_of_thawed hmem

theorem not_taken_of_thaw {package : String} {ownership : FrozenOwnership}
    {outcome : UnfreezeOutcome}
    (h : Exec (unfreezeIdentityProcesses package ps ownership) t outcome) : ¬ Taken t k :=
  not_taken_of_harmless (unfreezeIdentityProcesses_harmless h)

/-- A transaction that is refused before its loop has only validated. -/
theorem PreflightRefusal.not_taken (h : PreflightRefusal ps t) : ¬ Taken t k := by
  intro htaken
  obtain ⟨p, hmem, -⟩ := taken_iff.mp htaken
  obtain ⟨q, -, hq⟩ := h.calls hmem
  cases hq

theorem TerminateRun.not_taken {outcome : TerminateTransactionOutcome}
    (h : TerminateRun ps t outcome) : ¬ Taken t k := by
  intro htaken
  obtain ⟨p, hmem, -⟩ := taken_iff.mp htaken
  obtain ⟨q, _, hq⟩ | ⟨_, q, _, hq⟩ := h.calls hmem
  · cases hq
  · cases hq

/-- A transaction freezes its own processes only. -/
theorem FreezeRun.taken {outcome : FreezeTransactionOutcome} (hkey : ∀ p, (control p).key = p.key)
    (h : FreezeRun control ps t outcome) (hk : Taken t k) : ∃ p ∈ ps, p.key = k := by
  obtain ⟨p, hmem, hpk⟩ := taken_iff.mp hk
  obtain ⟨q, hq, hquery | hquery | hquery⟩ := h.calls hmem
  · cases hquery
  · obtain rfl : p = control q := by cases hquery; rfl
    exact ⟨q, hq, (hkey q).symm.trans hpk⟩
  · cases hquery

/-- A rollback without a failure lets go of what was frozen; a transaction that
    holds something has succeeded, or failed to roll back. -/
theorem FreezeRun.held {outcome : FreezeTransactionOutcome}
    (h : FreezeRun control ps t outcome) (hk : Held t k) :
    outcome.failure = none ∨ outcome.rollbackFailures > 0 := by
  cases h with
  | refused failure hrefusal => exact absurd hk.taken hrefusal.not_taken
  | frozen => exact .inl rfl
  | @rolledBack done p rest t₁ t₂ _ n failure _ _ hfailed hattempts =>
    -- The rollback went through all that was frozen.
    refine .inr (Nat.pos_of_ne_zero fun (hn : n = 0) => ?_)
    have ht₂ := hattempts.eq_thawedCalls hn
    -- What is held at the end was frozen in the loop, and the rollback thawed it.
    have hnot : ¬ Taken t₂ k := by
      intro htaken
      obtain ⟨q, hmem, -⟩ := taken_iff.mp htaken
      obtain ⟨_, _, hquery | hquery⟩ := hattempts.calls hmem
      · cases hquery
      · cases hquery
    have hassoc : validatedCalls ps ++ (frozenCalls control done ++ (t₁ ++ t₂))
        = (validatedCalls ps ++ (frozenCalls control done ++ t₁)) ++ t₂ := by simp
    rw [hassoc] at hk
    obtain ⟨hheld, hkept⟩ := Holding.held_append_of_not_taken hnot hk
    obtain ⟨q, hmem, hqk⟩ := taken_iff.mp hheld.taken
    have hdone : ∃ q' ∈ done, q = control q' := by
      rcases List.mem_append.mp hmem with hmem | hmem
      · obtain ⟨_, -, hq⟩ := List.mem_map.mp hmem
        cases hq
      · rcases List.mem_append.mp hmem with hmem | hmem
        · obtain ⟨q', hq', hcall⟩ := List.mem_flatMap.mp hmem
          rcases List.mem_cons.mp hcall with hcall | hcall
          · cases hcall
          · have heq : Freezeit.frozen q = Freezeit.frozen (control q') := List.mem_singleton.mp hcall
            exact ⟨q', hq', by cases heq; rfl⟩
        · rcases hfailed with ⟨_, -, rfl⟩ | ⟨error, rfl⟩
          · cases List.mem_singleton.mp hmem
          · rcases List.mem_cons.mp hmem with hcall | hcall
            · cases hcall
            · cases List.mem_singleton.mp hcall
    obtain ⟨q', hq', rfl⟩ := hdone
    refine hkept ?_
    rw [← hqk, ht₂]
    exact released_of_thawed (List.mem_flatMap.mpr ⟨q', List.mem_reverse.mpr hq', by simp⟩)

theorem LedgerCall.effect {call : Call} (h : LedgerCall call) : call.effect = .none := by
  obtain ⟨query, answer⟩ := call
  obtain ⟨pid, start, rfl⟩ | ⟨pid, start, rfl⟩ := h
  · rfl
  · rfl

/-- A SIGSTOP transaction holds something only if it succeeded, or failed to
    roll back. -/
theorem StopRun.held {outcome : FreezeTransactionOutcome} (h : StopRun ps t outcome)
    (hk : Held t k) : outcome.failure = none ∨ outcome.rollbackFailures > 0 := by
  obtain ⟨stops, ledger, rfl, hstops, hledger⟩ := h.split
  rw [Held, Holding.held_append_of_idle fun call hc => (hledger call hc).effect] at hk
  exact hstops.held hk

/-- The SIGSTOP transaction takes processes from its list only. -/
theorem StopRun.taken {outcome : FreezeTransactionOutcome} (h : StopRun ps t outcome)
    (hk : Taken t k) : ∃ p ∈ ps, p.key = k := by
  obtain ⟨stops, ledger, rfl, hstops, hledger⟩ := h.split
  rcases Holding.taken_append.mp hk with hk | hk
  · exact hstops.taken signalControlProcess_key hk
  · exact absurd hk (not_taken_of_harmless fun call hc => (hledger call hc).harmless)

/-! ## Faithful discovery

    `live n k`: the process `k` lives, and would be listed, when `n` calls have
    been made. -/

/-- A process lives once. -/
def LivesOnce (live : Nat → ProcessKey → Prop) : Prop :=
  ∀ k l m n, live l k → live n k → l ≤ m → m ≤ n → live m k

/-- The answer lists exactly the live processes of the uid, under its one package. -/
def Lists (packageOf : Nat → String) (live : ProcessKey → Prop) (uid : Nat)
    (answer : Except DaemonError (List RuntimeProcess)) : Prop :=
  ∃ ps, answer = .ok ps ∧ (∀ p ∈ ps, p.uid = uid ∧ p.packageName = packageOf uid)
    ∧ ∀ k, k.uid = uid → (live k ↔ ∃ p ∈ ps, p.key = k)

/-- Whenever a uid is listed, the answer has exactly its live processes, under the package
    name of the uid. -/
def FaithfulDiscovery (packageOf : Nat → String) (live : Nat → ProcessKey → Prop) (t : Trace) :
    Prop :=
  ∀ pre uid answer post, t = pre ++ listed uid answer :: post →
    Lists packageOf (live pre.length) uid answer

/-- The identity that a process is tracked under. -/
def owner (packageOf : Nat → String) (k : ProcessKey) : RuntimeIdentity := ⟨packageOf k.uid, k.uid⟩

variable {packageOf : Nat → String} {live : Nat → ProcessKey → Prop} {past : Trace}
  {s s' : RuntimeControlState}

theorem FaithfulDiscovery.left (h : FaithfulDiscovery packageOf live (t₁ ++ t₂)) :
    FaithfulDiscovery packageOf live t₁ := by
  intro pre uid answer post ht
  exact h pre uid answer (post ++ t₂) (by simp [ht])

/-- Every discovery of a faithful trace succeeds. -/
theorem FaithfulDiscovery.ok {pre post : Trace} {uid : Nat}
    {answer : Except DaemonError (List RuntimeProcess)}
    (h : FaithfulDiscovery packageOf live (pre ++ listed uid answer :: post)) :
    Lists packageOf (live pre.length) uid answer := h pre uid answer post rfl

/-- A faithful discovery never fails. -/
theorem Lists.not_error {live : ProcessKey → Prop} {uid : Nat} {error : DaemonError} :
    ¬ Lists packageOf live uid (.error error) := by
  rintro ⟨ps, hps, -⟩
  cases hps

/-- A live process of the uid is in the list. -/
theorem Lists.mem {live : ProcessKey → Prop} {uid : Nat} (h : Lists packageOf live uid (.ok ps))
    (hk : live k) (huid : k.uid = uid) : ∃ p ∈ ps, p.key = k := by
  obtain ⟨ps', hps, -, hlive⟩ := h
  cases hps
  exact (hlive k huid).mp hk

/-- A listed process is live. -/
theorem Lists.alive {live : ProcessKey → Prop} {uid : Nat} (h : Lists packageOf live uid (.ok ps))
    {p : RuntimeProcess} (hp : p ∈ ps) : live p.key := by
  obtain ⟨ps', hps, hown, hlive⟩ := h
  cases hps
  exact (hlive p.key (hown p hp).1).mpr ⟨p, hp, rfl⟩

/-- And it lists nothing of another uid. -/
theorem Lists.own {live : ProcessKey → Prop} {uid : Nat} (h : Lists packageOf live uid (.ok ps))
    {p : RuntimeProcess} (hp : p ∈ ps) : p.uid = uid ∧ p.packageName = packageOf uid := by
  obtain ⟨ps', hps, hown, -⟩ := h
  cases hps
  exact hown p hp

/-! ## The invariant -/

/-- Whatever is held has been seen alive, and as long as it may still live its
    app is tracked. -/
structure Custody (packageOf : Nat → String) (live : Nat → ProcessKey → Prop) (past : Trace)
    (s : RuntimeControlState) : Prop where
  seen    : ∀ k, Held past k → ∃ m < past.length, live m k
  tracked : ∀ k n, Held past k → past.length ≤ n → live n k → owner packageOf k ∈ s.frozenApps

/-- A process that is held after the calls `t` and has been alive all along, so that the
    hold is on this process and not on an earlier one with its key. -/
structure Survivor (live : Nat → ProcessKey → Prop) (past t : Trace) (k : ProcessKey) : Prop where
  held  : Held (past ++ t) k
  alive : ∀ m, past.length ≤ m → m ≤ (past ++ t).length → live m k

/-- What a step has to show: it takes only processes that live at its start,
    and tracks the owners of the survivors. -/
theorem Custody.step (h : Custody packageOf live past s) (honce : LivesOnce live)
    (htaken : ∀ k, Taken t k → live past.length k)
    (hkept : ∀ k, Survivor live past t k → (Held past k → owner packageOf k ∈ s.frozenApps) →
      owner packageOf k ∈ s'.frozenApps) :
    Custody packageOf live (past ++ t) s' := by
  constructor
  · intro k hk
    rcases Holding.held_append.mp hk with hnew | ⟨hold, -⟩
    · obtain ⟨call, hcall, -⟩ := hnew.taken
      have hpos : 0 < t.length := List.length_pos_of_mem hcall
      exact ⟨past.length, by rw [List.length_append]; omega, htaken k hnew.taken⟩
    · obtain ⟨m, hm, hlive⟩ := h.seen k hold
      exact ⟨m, by rw [List.length_append]; omega, hlive⟩
  · intro k n hk hn hlive
    have hstart : ∃ m ≤ past.length, live m k := by
      rcases Holding.held_append.mp hk with hnew | ⟨hold, -⟩
      · exact ⟨_, le_rfl, htaken k hnew.taken⟩
      · obtain ⟨m, hm, hlive⟩ := h.seen k hold
        exact ⟨m, by omega, hlive⟩
    obtain ⟨m, hm, hlive₀⟩ := hstart
    refine hkept k ⟨hk, fun j hj hj' => ?_⟩ fun hold => ?_
    · exact honce k m j n hlive₀ hlive (by omega) (by omega)
    · refine h.tracked k n hold ?_ hlive
      rw [List.length_append] at hn
      omega

/-- Steps that take nothing. -/
theorem Custody.step_of_not_taken (h : Custody packageOf live past s) (honce : LivesOnce live)
    (htaken : ∀ k, ¬ Taken t k)
    (hkept : ∀ k, Survivor live past t k → Held past k → ¬ Released t k →
      owner packageOf k ∈ s.frozenApps → owner packageOf k ∈ s'.frozenApps) :
    Custody packageOf live (past ++ t) s' := by
  refine h.step honce (fun k hk => absurd hk (htaken k)) fun k hsurvivor htracked => ?_
  obtain ⟨hold, hunreleased⟩ := Holding.held_append_of_not_taken (htaken k) hsurvivor.held
  exact hkept k hsurvivor hold hunreleased (htracked hold)

/-- Calls that touch nothing, while the tracked apps stay the same. -/
theorem Custody.of_harmless (h : Custody packageOf live past s) (honce : LivesOnce live)
    (ht : ∀ call ∈ t, Call.Harmless call) (happs : s'.frozenApps = s.frozenApps) :
    Custody packageOf live (past ++ t) s' := by
  refine h.step_of_not_taken honce (fun k => not_taken_of_harmless ht) fun k _ _ _ htracked => ?_
  rw [happs]
  exact htracked

/-! ## Thaws -/

/-- What is alive at the end of a step was alive at its start, as no process starts twice. -/
theorem Survivor.live_start (h : Survivor live past t k) : live past.length k :=
  h.alive _ le_rfl (by simp)

/-- A thaw that clears an identity has let go of its processes. -/
theorem Survivor.not_thawed {package : String} {ownership : FrozenOwnership}
    {outcome : UnfreezeOutcome} {uid : Nat} {t : Trace}
    (h : Survivor live past (listed uid (.ok ps) :: t) k) (hkept : ¬ Released t k)
    (hlists : Lists packageOf (live past.length) uid (.ok ps))
    (hexec : Exec (unfreezeIdentityProcesses package ps ownership) t outcome)
    (huid : k.uid = uid) : outcome.failures.isEmpty = false := by
  by_contra hok
  obtain ⟨p, hp, rfl⟩ := hlists.mem h.live_start huid
  exact hkept (unfreezeIdentityProcesses_released hexec (by simpa using hok) hp)

/-- A thaw untracks an app only when every process that was listed was thawed, so no
    survivor of the app is still held. -/
theorem ThawStep.custody {identity : RuntimeIdentity} (h : ThawStep identity s t s')
    (hcustody : Custody packageOf live past s) (honce : LivesOnce live)
    (hfaithful : FaithfulDiscovery packageOf live (past ++ t)) :
    Custody packageOf live (past ++ t) s' := by
  refine hcustody.step_of_not_taken honce (fun k => not_taken_of_harmless h.harmless) ?_
  intro k hsurvivor _ hunreleased htracked
  by_cases hid : owner packageOf k = identity
  · have huid : k.uid = identity.uid := congrArg RuntimeIdentity.uid hid
    cases h with
    | undiscovered => exact htracked
    | exited =>
      obtain ⟨p, hp, -⟩ := hfaithful.ok.mem hsurvivor.live_start huid
      simp at hp
    | @tried t processes outcome _ _ _ hexec =>
      have hrest : ¬ Released t k := fun hr => hunreleased (released_listed_cons.mpr hr)
      simp only [hsurvivor.not_thawed hrest hfaithful.ok hexec huid]
      exact htracked
  · exact (h.frame hid).tracked.mpr htracked

/-- The same for a list of identities, by induction on it. -/
theorem ThawSteps.custody {identities : List RuntimeIdentity} (h : ThawSteps identities s t s')
    (hcustody : Custody packageOf live past s) (honce : LivesOnce live)
    (hfaithful : FaithfulDiscovery packageOf live (past ++ t)) :
    Custody packageOf live (past ++ t) s' := by
  induction h generalizing past with
  | nil => simpa using hcustody
  | cons hstep _ ih =>
    rw [← List.append_assoc] at hfaithful ⊢
    exact ih (hstep.custody hcustody honce hfaithful.left) hfaithful

/-! ## Decisions -/

variable {ctx : RecordContext} {r : Except DaemonError Unit}

/-- A failure that leaves nothing behind came before the loop. -/
theorem FreezeRun.refusal {outcome : FreezeTransactionOutcome} {failure : String}
    (h : FreezeRun control ps t outcome) (hfailure : outcome.failure = some failure)
    (hresidual : outcome.residualPossible = false) :
    PreflightRefusal ps t := by
  cases h with
  | refused failure hrefusal => exact hrefusal
  | frozen => cases hfailure
  | rolledBack => cases hresidual

/-- After the decision the app is tracked, or the step holds nothing; then a
    freeze was refused before it began. -/
theorem DecisionStep.tracked_or_idle {decision : FreezeDecision}
    (h : DecisionStep ctx decision s t r s')
    (hfaithful : FaithfulDiscovery packageOf live (past ++ t))
    (hsurvivor : Survivor live past t k) (huid : k.uid = ctx.record.uid) :
    ctx.identity ∈ s'.frozenApps ∨ (∀ k', ¬ Held t k') ∧
      (decision.action = .freeze →
        ∃ refused rest, t = refused ++ rest ∧ PreflightRefusal ctx.pendingProcesses refused) := by
  cases h with
  | idle _ hfreeze =>
    exact .inr ⟨fun k' => Holding.not_held_nil, fun hd => absurd hd hfreeze⟩
  | fallbackStopped => exact .inl (by simp)
  -- Both transactions failed. If either may have left something frozen the app is tracked;
  -- otherwise nothing is held.
  | @fallbackFailed t₁ t₂ outcome stopped failure _ _ _ hrun hfailure hstop hfailure' =>
    by_cases hresidual : outcome.residualPossible = true
    · exact .inl (by simp [RecordContext.mem_trackResidual, hresidual])
    · by_cases hrollback : stopped.rollbackFailures > 0
      · exact .inl (by simp [RecordContext.mem_trackResidual, hrollback])
      · have hrefusal := hrun.refusal hfailure (by simpa using hresidual)
        refine .inr ⟨fun k' hk' => ?_, fun _ => ⟨t₁, t₂, rfl, hrefusal⟩⟩
        rcases Holding.held_append.mp hk' with hk' | ⟨hk', -⟩
        · rcases hstop.held hk' with hnone | hpos
          · rw [hfailure'] at hnone
            cases hnone
          · exact hrollback hpos
        · exact hrefusal.not_taken hk'.taken
  -- This would untrack a frozen app, but discovery does not fail.
  | rescanFailed error =>
    rw [← List.append_assoc] at hfaithful
    exact absurd hfaithful.ok Lists.not_error
  | frozen => exact .inl (by simp)
  | @rescanThawed t₁ t₂ outcome post rollback _ _ hrun _ _ hexec =>
    by_cases hok : rollback.failures.isEmpty = true
    · -- The rescan listed the survivor, and everything it listed was thawed.
      rw [← List.append_assoc] at hfaithful
      have hlive := hsurvivor.alive (past ++ t₁).length (by simp) (by simp)
      obtain ⟨p, hp, rfl⟩ := hfaithful.ok.mem hlive huid
      have hreleased : Released (listed ctx.record.uid (.ok post) :: t₂) p.key :=
        released_listed_cons.mpr (unfreezeIdentityProcesses_released hexec hok hp)
      have hnot : ¬ Taken (listed ctx.record.uid (.ok post) :: t₂) p.key := fun hk =>
        not_taken_of_thaw hexec (taken_listed_cons.mp hk)
      have hheld := hsurvivor.held
      rw [← List.append_assoc] at hheld
      exact absurd hreleased (Holding.held_append_of_not_taken hnot hheld).2
    · exact .inl (by simp [hok, RecordContext.mem_trackResidual])
  | stopped => exact .inl (by simp)
  -- A SIGSTOP whose rollback went through holds nothing.
  | @stopFailed t₁ t₂ outcome failure _ hd hledger hstop hfailure =>
    by_cases hrollback : outcome.rollbackFailures > 0
    · exact .inl (by simp [RecordContext.mem_trackResidual, hrollback])
    · refine .inr ⟨fun k' hk' => ?_, fun hd' => ?_⟩
      · rcases Holding.held_append.mp hk' with hk' | ⟨hk', -⟩
        · rcases hstop.held hk' with hnone | hpos
          · rw [hfailure] at hnone
            cases hnone
          · exact hrollback hpos
        · exact not_taken_of_harmless (fun call hc => (hledger call hc).harmless) hk'.taken
      · rw [hd] at hd'
        cases hd'
  -- Kills hold nothing.
  | terminated _ hd hrun =>
    refine .inr ⟨fun k' hk' => hrun.not_taken hk'.taken, fun hd' => ?_⟩
    rw [hd] at hd'
    cases hd'
  | terminateFailed _ hd hrun =>
    refine .inr ⟨fun k' hk' => hrun.not_taken hk'.taken, fun hd' => ?_⟩
    rw [hd] at hd'
    cases hd'

/-- A transaction takes listed processes only. -/
theorem DecisionStep.taken {decision : FreezeDecision} (h : DecisionStep ctx decision s t r s')
    (hk : Taken t k) : ∃ p ∈ ctx.processes, p.key = k := by
  have hpending : (∃ p ∈ ctx.pendingProcesses, p.key = k) → ∃ p ∈ ctx.processes, p.key = k := by
    rintro ⟨p, hp, hpk⟩
    obtain ⟨q, hq, rfl⟩ := List.mem_map.mp hp
    exact ⟨q, hq, hpk⟩
  -- Every branch takes from the list that it was given: its transactions work on it, and
  -- what comes before or after them takes nothing.
  cases h with
  | idle => exact absurd hk Holding.not_taken_nil
  | fallbackStopped _ _ hrun _ hstop =>
    rcases Holding.taken_append.mp hk with hk | hk
    · exact hpending (hrun.taken (fun _ => rfl) hk)
    · exact hpending (hstop.taken hk)
  | fallbackFailed _ _ hrun _ hstop =>
    rcases Holding.taken_append.mp hk with hk | hk
    · exact hpending (hrun.taken (fun _ => rfl) hk)
    · exact hpending (hstop.taken hk)
  | rescanFailed _ _ hrun =>
    rcases Holding.taken_append.mp hk with hk | hk
    · exact hpending (hrun.taken (fun _ => rfl) hk)
    · exact absurd (taken_listed_cons.mp hk) Holding.not_taken_nil
  | frozen _ _ hrun =>
    rcases Holding.taken_append.mp hk with hk | hk
    · exact hpending (hrun.taken (fun _ => rfl) hk)
    · exact absurd (taken_listed_cons.mp hk) Holding.not_taken_nil
  | rescanThawed _ _ hrun _ _ hexec =>
    rcases Holding.taken_append.mp hk with hk | hk
    · exact hpending (hrun.taken (fun _ => rfl) hk)
    · exact absurd (taken_listed_cons.mp hk) (not_taken_of_thaw hexec)
  | stopped _ _ hledger hstop =>
    rcases Holding.taken_append.mp hk with hk | hk
    · exact absurd hk (not_taken_of_harmless fun call hc => (hledger call hc).harmless)
    · exact hpending (hstop.taken hk)
  | stopFailed _ _ hledger hstop =>
    rcases Holding.taken_append.mp hk with hk | hk
    · exact absurd hk (not_taken_of_harmless fun call hc => (hledger call hc).harmless)
    · exact hpending (hstop.taken hk)
  | terminated _ _ hrun => exact absurd hk hrun.not_taken
  | terminateFailed _ _ hrun => exact absurd hk hrun.not_taken

/-! ## The audit

    The audit untracks an app before it knows whether the app will be frozen
    again.  Nothing is lost if nothing was held, or if the freeze gets far
    enough to track the app again. -/

/-- The question for the traffic of a uid. -/
def Call.IsSample (call : Call) : Prop := ∃ uid package, call.query = .sampleRxBytes uid package

/-- How a step with the calls `t` after `past` keeps what was held. -/
inductive Refreezes (ctx : RecordContext) (past t : Trace) : Prop where
  /-- The step lets go of every listed process that was held. -/
  | released : (∀ p ∈ ctx.processes, Held past p.key → Released t p.key) → Refreezes ctx past t
  /-- The freezer is chosen, and every process validates at first. -/
  | validated : ∀ (samples : Trace) (binder : Bool) (rest : Trace),
      (∀ call ∈ samples, Call.IsSample call) →
      t = samples ++ ⟨.binderAvailable, binder⟩ :: (validatedCalls ctx.pendingProcesses ++ rest) →
      (ctx.decide binder).action = .freeze → Refreezes ctx past t
  /-- A freeze succeeds and is not rolled back. -/
  | lasting : ∀ p ∈ ctx.processes, Held t p.key → Refreezes ctx past t

theorem Call.IsSample.effect {call : Call} (h : call.IsSample) : call.effect = .none := by
  obtain ⟨query, answer⟩ := call
  obtain ⟨uid, package, rfl⟩ := h
  rfl

/-- Samples hold and release nothing. -/
theorem held_samples_append (h : ∀ call ∈ t₁, Call.IsSample call) :
    Held (t₁ ++ t₂) k ↔ Held t₂ k := by
  have hnone : ¬ Held t₁ k := by
    intro hk
    rw [← List.nil_append t₁, Held, Holding.held_append_of_idle fun call hc => (h call hc).effect]
      at hk
    exact Holding.not_held_nil hk
  exact Holding.held_append.trans (or_iff_left fun hk => hnone hk.1)

theorem held_binder_cons {binder : Bool} : Held (⟨.binderAvailable, binder⟩ :: t) k ↔ Held t k := by
  have hnone : ¬ Held [⟨.binderAvailable, binder⟩] k := by
    intro hk
    obtain ⟨call, hcall, heff⟩ := hk.taken
    obtain rfl := List.mem_singleton.mp hcall
    cases heff
  have hsplit : Held ([⟨.binderAvailable, binder⟩] ++ t) k ↔ _ := Holding.held_append
  exact hsplit.trans (or_iff_left fun hk => hnone hk.1)

/-- A list of one package whose processes all validate is not refused. -/
theorem PreflightRefusal.not_validated {refused rest rest' : Trace}
    (h : PreflightRefusal ps refused) (hu : Uniform ps) :
    refused ++ rest ≠ validatedCalls ps ++ rest' := by
  obtain ⟨done, p, others, rfl, ⟨-, hmixed⟩ | ⟨answer, hanswer, rfl⟩⟩ := h
  · exact absurd hu hmixed
  · intro heq
    simp only [validatedCalls, List.map_append, List.append_assoc, List.map_cons] at heq
    have htail := List.append_cancel_left heq
    simp only [List.cons_append, List.cons.injEq, validated, Event.mk.injEq, true_and] at htail
    exact hanswer (eq_of_heq htail.1)

/-- Before the binder question there are only samples, so it is in one place. -/
theorem binder_split {samples samples' rest rest' : Trace} {binder binder' : Bool}
    (hs : ∀ call ∈ samples, Call.IsSample call) (hs' : ∀ call ∈ samples', Call.IsSample call)
    (h : samples ++ ⟨.binderAvailable, binder⟩ :: rest
      = samples' ++ ⟨.binderAvailable, binder'⟩ :: rest') :
    binder = binder' ∧ rest = rest' := by
  have hbinder : ∀ b, ¬ Call.IsSample ⟨.binderAvailable, b⟩ := by
    rintro b ⟨uid, package, hq⟩
    cases hq
  rcases List.append_eq_append_iff.mp h with ⟨mid, rfl, hmid⟩ | ⟨mid, rfl, hmid⟩
  · cases mid with
    | nil =>
      cases hmid
      exact ⟨rfl, rfl⟩
    | cons call mid =>
      obtain ⟨rfl, -⟩ := List.cons.inj hmid
      exact absurd (hs' ⟨.binderAvailable, binder⟩ (by simp)) (hbinder _)
  · cases mid with
    | nil =>
      cases hmid
      exact ⟨rfl, rfl⟩
    | cons call mid =>
      obtain ⟨rfl, -⟩ := List.cons.inj hmid
      exact absurd (hs ⟨.binderAvailable, binder'⟩ (by simp)) (hbinder _)

/-- Before the decision nothing changes, so only what was not held is kept. -/
theorem Refreezes.unheld_of_samples (h : Refreezes ctx past t)
    (ht : ∀ call ∈ t, Call.IsSample call) {p : RuntimeProcess} (hp : p ∈ ctx.processes) :
    ¬ Held (past ++ t) p.key := by
  rw [Held, Holding.held_append_of_idle fun call hc => (ht call hc).effect]
  cases h with
  | released hreleased =>
    intro hheld
    obtain ⟨call, hcall, heff⟩ := hreleased p hp hheld
    rw [(ht call hcall).effect] at heff
    cases heff
  | validated samples binder rest _ heq =>
    obtain ⟨uid, package, hq⟩ := ht ⟨.binderAvailable, binder⟩ (by simp [heq])
    cases hq
  | lasting q _ hq =>
    have hnil : Held (t ++ []) q.key := by simpa using hq
    exact absurd ((held_samples_append ht).mp hnil) Holding.not_held_nil

/-- After a background step the app of a survivor is tracked. A step that stops early
    leaves tracking alone; one that decides tracks what it holds. -/
theorem BackgroundStep.tracked {abnormalThaw : Bool} (h : BackgroundStep ctx abnormalThaw s t r s')
    (huniform : Uniform ctx.pendingProcesses)
    (hfaithful : FaithfulDiscovery packageOf live (past ++ t)) (hrefreezes : Refreezes ctx past t)
    {p : RuntimeProcess} (hp : p ∈ ctx.processes) (huid : p.uid = ctx.record.uid)
    (hsurvivor : Survivor live past t p.key) : ctx.identity ∈ s'.frozenApps := by
  have hsamples : (∀ call ∈ t, Call.IsSample call) → ctx.identity ∈ s'.frozenApps := fun ht =>
    absurd hsurvivor.held (hrefreezes.unheld_of_samples ht hp)
  cases h with
  | waiting => exact hsamples (by simp)
  | delayed => exact hsamples (by simp)
  | downloading =>
    refine hsamples fun call hc => ?_
    obtain rfl := List.mem_singleton.mp hc
    exact ⟨_, _, rfl⟩
  | @decided t₁ t₂ _ _ deferral binder hsample hdecision =>
    have ht₁ : ∀ call ∈ t₁, Call.IsSample call := fun call hc => ⟨_, _, hsample call hc⟩
    have hassoc : past ++ (t₁ ++ ⟨.binderAvailable, binder⟩ :: t₂)
        = past ++ (t₁ ++ [⟨.binderAvailable, binder⟩]) ++ t₂ := by simp
    have hrest : Survivor live (past ++ (t₁ ++ [⟨.binderAvailable, binder⟩])) t₂ p.key := by
      refine ⟨hassoc ▸ hsurvivor.held, fun m hm hm' => hsurvivor.alive m ?_ (hassoc ▸ hm')⟩
      rw [List.length_append] at hm
      omega
    rw [hassoc] at hfaithful
    -- If nothing is held after all, the survivor was held before, and then the step was a
    -- refreeze of the audit.
    rcases hdecision.tracked_or_idle hfaithful hrest huid with htracked | ⟨hnothing, hrefused⟩
    · exact htracked
    · have hheld : ∀ {k}, Held (t₁ ++ ⟨.binderAvailable, binder⟩ :: t₂) k ↔ Held t₂ k :=
        (held_samples_append ht₁).trans held_binder_cons
      cases hrefreezes with
      | released hreleased =>
        rcases Holding.held_append.mp hsurvivor.held with hnew | ⟨hold, hkept⟩
        · exact absurd (hheld.mp hnew) (hnothing _)
        · exact absurd (hreleased p hp hold) hkept
      | validated samples binder' rest hs heq hd =>
        obtain ⟨rfl, rfl⟩ := binder_split ht₁ hs heq
        obtain ⟨refused, rest', hsplit, hrefusal⟩ := hrefused hd
        exact absurd hsplit.symm (hrefusal.not_validated huniform)
      | lasting q _ hq => exact absurd (hheld.mp hq) (hnothing _)

/-! ## Records -/

/-- A background step takes from the list only. -/
theorem BackgroundStep.taken {abnormalThaw : Bool} (h : BackgroundStep ctx abnormalThaw s t r s')
    (hk : Taken t k) : ∃ p ∈ ctx.processes, p.key = k := by
  cases h with
  | waiting => exact absurd hk Holding.not_taken_nil
  | delayed => exact absurd hk Holding.not_taken_nil
  | downloading =>
    refine absurd hk (not_taken_of_harmless fun call hc => ?_)
    obtain rfl := List.mem_singleton.mp hc
    exact ⟨nofun, nofun⟩
  | @decided t₁ t₂ _ _ deferral binder hsample hdecision =>
    obtain ⟨q, hmem, hqk⟩ := taken_iff.mp hk
    rcases List.mem_append.mp hmem with hmem | hmem
    · have hquery := hsample _ hmem
      cases hquery
    · rcases List.mem_cons.mp hmem with hmem | hmem
      · cases hmem
      · exact hdecision.taken (taken_iff.mpr ⟨q, hmem, hqk⟩)

/-- So does the loop body. -/
theorem ListedStep.taken {auditDue : Bool} (h : ListedStep ctx auditDue s t r s')
    (hk : Taken t k) : ∃ p ∈ ctx.processes, p.key = k := by
  cases h with
  | released _ hexec =>
    obtain ⟨s₁, hsteps, -⟩ := releaseProtected_steps hexec
    exact absurd hk (not_taken_of_harmless hsteps.harmless)
  | blocked => exact absurd hk Holding.not_taken_nil
  | foreground => exact absurd hk Holding.not_taken_nil
  | opened _ _ _ _ _ hthaw => exact absurd hk (not_taken_of_thaw hthaw)
  | wokenUp _ _ _ _ _ _ hthaw => exact absurd hk (not_taken_of_thaw hthaw)
  | kept => exact absurd hk Holding.not_taken_nil
  | refrozen _ _ _ _ _ _ _ hbackground => exact hbackground.taken hk
  | background _ _ _ _ hbackground => exact hbackground.taken hk

/-- A survivor of a record that is not released keeps its app tracked, provided
    the audit does. -/
theorem ListedStep.tracked {auditDue : Bool} (h : ListedStep ctx auditDue s t r s')
    (hallowed : ctx.allowed = true) (huniform : Uniform ctx.pendingProcesses)
    (hfaithful : FaithfulDiscovery packageOf live (past ++ t))
    (hold : ∀ p ∈ ctx.processes, Held past p.key → ctx.identity ∈ s.frozenApps)
    (haudit : AuditUntracks ctx auditDue s → Refreezes ctx past t)
    {p : RuntimeProcess} (hp : p ∈ ctx.processes) (huid : p.uid = ctx.record.uid)
    (hsurvivor : Survivor live past t p.key) : ctx.identity ∈ s'.frozenApps := by
  -- A step that takes nothing leaves the survivor as it was held before.
  have hquiet : (∀ k, ¬ Taken t k) → ¬ Released t p.key ∧ ctx.identity ∈ s.frozenApps := by
    intro hnot
    obtain ⟨hheld, hkept⟩ := Holding.held_append_of_not_taken (hnot _) hsurvivor.held
    exact ⟨hkept, hold p hp hheld⟩
  cases h with
  | released hblocked => rw [hallowed] at hblocked; cases hblocked
  | blocked => exact (hquiet fun _ => Holding.not_taken_nil).2
  | foreground _ hs _ hnot =>
    rw [hs.frozenApps] at hnot
    exact absurd (hquiet fun _ => Holding.not_taken_nil).2 hnot
  -- The app is untracked when every process was thawed, and then the survivor is not held
  -- any more.
  | @opened s₀ _ outcome _ _ hs _ htracked hthaw =>
    by_cases hok : outcome.failures.isEmpty = true
    · exact absurd (unfreezeIdentityProcesses_released hthaw hok hp)
        (hquiet fun _ => not_taken_of_thaw hthaw).1
    · simpa [hok] using htracked
  | @wokenUp s₀ _ outcome _ _ _ hs _ htracked hthaw =>
    by_cases hok : outcome.failures.isEmpty = true
    · exact absurd (unfreezeIdentityProcesses_released hthaw hok hp)
        (hquiet fun _ => not_taken_of_thaw hthaw).1
    · simpa [hok] using htracked
  | kept _ _ _ htracked => exact htracked
  -- The audit untracks the app before it knows that the freeze works out: this is the step
  -- that the hypothesis is about.
  | refrozen _ hs hfg htracked hasleep hdue hrunning hbackground =>
    rw [hs.periodicWakeupDue] at hasleep
    rw [hs.frozenApps] at htracked
    exact hbackground.tracked huniform hfaithful
      (haudit ⟨hallowed, hs.1, hfg, htracked, hasleep, hdue, hrunning⟩) hp huid hsurvivor
  -- The app was not tracked, so none of its processes was held.
  | background _ hs _ hnot hbackground =>
    rw [hs.frozenApps] at hnot
    refine hbackground.tracked huniform hfaithful (.released fun q hq hheld => ?_) hp huid
      hsurvivor
    exact absurd (hold q hq hheld) hnot

/-- The processes of a uid share their package name. -/
theorem Lists.uniform {record : ManagerAppConfigRecord} {live : ProcessKey → Prop}
    {first : RuntimeProcess} {rest : List RuntimeProcess}
    (h : Lists packageOf live record.uid (.ok (first :: rest))) (input : PassInput) :
    Uniform (listedContext input record first rest).pendingProcesses := by
  intro p hp
  obtain ⟨q, hq, rfl⟩ := List.mem_map.mp hp
  show some q.packageName = some first.packageName
  rw [(h.own hq).2, (h.own List.mem_cons_self).2]

/-- The context of a faithful list has the identity that owns its processes. -/
theorem Lists.identity {record : ManagerAppConfigRecord} {live : ProcessKey → Prop}
    {first : RuntimeProcess} {rest : List RuntimeProcess}
    (h : Lists packageOf live record.uid (.ok (first :: rest))) (input : PassInput) :
    (listedContext input record first rest).identity = ⟨packageOf record.uid, record.uid⟩ := by
  have hname : minPackageName first rest = packageOf record.uid :=
    (packageName_of_uniform (h.uniform input) List.mem_cons_self).symm.trans
      (h.own List.mem_cons_self).2
  rw [← hname]
  rfl

/-- The step lemma for a record: what it holds is of its uid, and every other survivor
    stays tracked because the step does not touch its app. -/
theorem RecordStep.custody {input : PassInput} {auditDue : Bool} {record : ManagerAppConfigRecord}
    (h : RecordStep input auditDue record s t r s') (hcustody : Custody packageOf live past s)
    (honce : LivesOnce live) (hfaithful : FaithfulDiscovery packageOf live (past ++ t))
    (haudit : ∀ first rest t', t = listed record.uid (.ok (first :: rest)) :: t' →
      AuditUntracks (listedContext input record first rest) auditDue s →
      Refreezes (listedContext input record first rest)
        (past ++ [listed record.uid (.ok (first :: rest))]) t') :
    Custody packageOf live (past ++ t) s' := by
  have hframe : ∀ k, k.uid ≠ record.uid → owner packageOf k ∈ s.frozenApps →
      owner packageOf k ∈ s'.frozenApps := fun k hne htracked => (h.frame hne).tracked.mpr htracked
  cases h with
  | uncontrolled => simpa using hcustody
  | undiscovered error => exact absurd hfaithful.ok Lists.not_error
  -- No process of the uid is alive, so there is no survivor of it.
  | exited =>
    refine hcustody.step_of_not_taken honce
      (fun k hk => Holding.not_taken_nil (taken_listed_cons.mp hk)) fun k hsurvivor _ _ htracked => ?_
    by_cases huid : k.uid = record.uid
    · obtain ⟨p, hp, -⟩ := hfaithful.ok.mem hsurvivor.live_start huid
      simp at hp
    · exact hframe k huid htracked
  | @occupied t _ _ first rest _ hlisted =>
    have hlists := hfaithful.ok
    have hassoc : past ++ listed record.uid (.ok (first :: rest)) :: t
        = past ++ [listed record.uid (.ok (first :: rest))] ++ t := by simp
    -- An allowed record works on its own app.
    by_cases hallowed : (listedContext input record first rest).allowed = true
    · have hmember : ∀ {k}, Taken t k → ∃ p ∈ first :: rest, p.key = k := hlisted.taken
      refine hcustody.step honce (fun k hk => ?_) fun k hsurvivor hheld => ?_
      · obtain ⟨p, hp, rfl⟩ := hmember (taken_listed_cons.mp hk)
        exact hlists.alive hp
      · by_cases huid : k.uid = record.uid
        · obtain ⟨p, hp, rfl⟩ := hlists.mem hsurvivor.live_start huid
          have hidentity := hlists.identity input
          have howner : ∀ q ∈ first :: rest, owner packageOf q.key
              = (listedContext input record first rest).identity := by
            intro q hq
            rw [hidentity]
            exact congrArg (fun uid => (⟨packageOf uid, uid⟩ : RuntimeIdentity)) (hlists.own hq).1
          rw [howner p hp]
          rw [hassoc] at hfaithful
          refine hlisted.tracked hallowed (hlists.uniform input) hfaithful (fun q hq hq' => ?_)
            (haudit first rest t rfl) hp huid ⟨hassoc ▸ hsurvivor.held, fun m hm hm' => ?_⟩
          · rw [← howner q hq]
            exact hcustody.tracked q.key _ (held_concat_listed.mp hq') le_rfl (hlists.alive hq)
          · rw [List.length_append] at hm
            exact hsurvivor.alive m (by omega) (hassoc ▸ hm')
        · have hnot : ¬ Taken (listed record.uid (.ok (first :: rest)) :: t) k := by
            intro hk
            obtain ⟨p, hp, rfl⟩ := hmember (taken_listed_cons.mp hk)
            exact huid (hlists.own hp).1
          exact hframe k huid (hheld (Holding.held_append_of_not_taken hnot hsurvivor.held).1)
    · -- The record is not to be controlled: its app is thawed, whatever is tracked.
      rw [hassoc] at hfaithful ⊢
      have hstart : Custody packageOf live (past ++ [listed record.uid (.ok (first :: rest))])
          (s.clearTransientControlStateForUid record.uid) :=
        hcustody.of_harmless honce (by simpa using harmless_listed _ _) rfl
      obtain ⟨s₁, hsteps, rfl⟩ :=
        releaseProtected_steps (hlisted.of_not_allowed (by simpa using hallowed))
      have hthawed := hsteps.custody hstart honce hfaithful
      exact ⟨hthawed.seen, by simpa using hthawed.tracked⟩

/-! ## Runs -/

/-- If the audit untracks an app in this step, the step keeps what was held. -/
def Moment.AuditKeeps (past : Trace) (m : Moment) : Prop :=
  ∀ input auditDue record first rest t, m.work = .record input auditDue record →
    m.calls = listed record.uid (.ok (first :: rest)) :: t →
    AuditUntracks (listedContext input record first rest) auditDue m.before →
    Refreezes (listedContext input record first rest)
      (past ++ [listed record.uid (.ok (first :: rest))]) t

/-- The step lemma of the invariant: what is held at the end of a step was taken by it, or
    it was held before and the step has not released it. -/
theorem Moment.Valid.custody {m : Moment} (h : m.Valid)
    (hcustody : Custody packageOf live past m.before) (honce : LivesOnce live)
    (hfaithful : FaithfulDiscovery packageOf live (past ++ m.calls)) (haudit : m.AuditKeeps past) :
    Custody packageOf live (past ++ m.calls) m.after := by
  cases h with
  | @release s t s₁ input hexec =>
    obtain ⟨s₂, hsteps, rfl⟩ := releaseStale_steps hexec
    have hstart : Custody packageOf live past
        (s.retainControlled (controlledUids input.appConfig)) :=
      ⟨hcustody.seen, hcustody.tracked⟩
    have hthawed := hsteps.custody hstart honce hfaithful
    exact ⟨hthawed.seen, by simpa using hthawed.tracked⟩
  | record hstep =>
    exact hstep.custody hcustody honce hfaithful fun first rest t' ht =>
      haudit _ _ _ first rest t' rfl ht
  | thawAll timestampMs hexec =>
    obtain ⟨s₁, hsteps, rfl⟩ := thawAllFrozen_steps hexec
    have hthawed := hsteps.custody hcustody honce hfaithful
    exact ⟨hthawed.seen, by simpa using hthawed.tracked⟩
  | freezeStatus => exact hcustody.of_harmless honce (by simp) rfl
  | takeNetworkRestrictions => exact hcustody.of_harmless honce (by simp) rfl
  | requeueNetworkRestriction => exact hcustody.of_harmless honce (by simp) rfl

/-- The run lemma, by induction on the steps. -/
theorem Run.custody {ms : List Moment} (h : Run ms s) (honce : LivesOnce live)
    (hfaithful : FaithfulDiscovery packageOf live (Moment.traceOf ms))
    (haudit : ∀ pre m post, ms = pre ++ m :: post → m.AuditKeeps (Moment.traceOf pre)) :
    Custody packageOf live (Moment.traceOf ms) s := by
  refine Run.induct (P := fun ms s => FaithfulDiscovery packageOf live (Moment.traceOf ms) →
    (∀ pre m post, ms = pre ++ m :: post → m.AuditKeeps (Moment.traceOf pre)) →
    Custody packageOf live (Moment.traceOf ms) s) ?_ ?_ h hfaithful haudit
  · intro _ _
    exact ⟨fun k hk => absurd hk Holding.not_held_nil, fun k _ hk => absurd hk Holding.not_held_nil⟩
  · intro past m ih hvalid hfaithful haudit
    have htrace : Moment.traceOf (past ++ [m]) = Moment.traceOf past ++ m.calls := by simp
    rw [htrace] at hfaithful ⊢
    refine hvalid.custody (ih hfaithful.left fun pre m' post hsplit => ?_) honce hfaithful
      (haudit past m [] rfl)
    exact haudit pre m' (post ++ [m]) (by simp [hsplit])

/-- As long as no audit loses what it untracks, every held process that still
    lives belongs to a tracked app. -/
theorem held_processes_are_tracked {ms : List Moment} (h : Run ms s) (honce : LivesOnce live)
    (hfaithful : FaithfulDiscovery packageOf live (Moment.traceOf ms))
    (haudit : ∀ pre m post, ms = pre ++ m :: post → m.AuditKeeps (Moment.traceOf pre)) :
    ∀ k, Held (Moment.traceOf ms) k → live (Moment.traceOf ms).length k →
      owner packageOf k ∈ s.frozenApps := fun k hheld hlive =>
  (h.custody honce hfaithful haudit).tracked k _ hheld le_rfl hlive

/-! ## A forgotten process

    Two processes of one app are frozen.  One of them is woken up and busy when
    the audit looks, so the refreeze is put off; the other stays frozen and
    is tracked no more. -/

def secondProcess : RuntimeProcess := backgroundProcess "com.example.app" 10123 502

def pairEnvironment : StaticEnvironment where
  discover uid := .ok (if uid = 10123 then [sampleProcess, secondProcess] else [])

/-- The first process still runs, and the second is busy: the audit thinks that the app
    was thawed behind its back, and cannot freeze it again. -/
def wokenPair : List RuntimeProcess :=
  [{ sampleProcess with controlState := .frozen },
    { secondProcess with binderState := some "binder_queue active_sync_transaction" }]

def wokenEnvironment : StaticEnvironment where
  discover uid := .ok (if uid = 10123 then wokenPair else [])

def auditPass : PassInput := { samplePass 30 with timestampMs := 61000 }

def pairFrozen : Trace × Except DaemonError Unit × RuntimeControlState :=
  run pairEnvironment.answer [] (runControlPass (samplePass 30) .default)

def pairAudited : Trace × Except DaemonError Unit × RuntimeControlState :=
  run wokenEnvironment.answer [] (runControlPass auditPass pairFrozen.2.2)

/-- Both processes live all the time. -/
def pairLive (_n : Nat) (k : ProcessKey) : Prop := k = sampleProcess.key ∨ k = secondProcess.key

theorem pairLive_once : LivesOnce pairLive := fun _ _ _ _ hl _ _ _ => hl

/-- A list of the two processes is faithful for their uid, an empty one for the others. -/
theorem pair_lists (hps : ps.map RuntimeProcess.key = [sampleProcess.key, secondProcess.key])
    (hown : ∀ p ∈ ps, p.packageName = "com.example.app") (n uid : Nat) :
    Lists (fun _ => "com.example.app") (pairLive n) uid (.ok (if uid = 10123 then ps else [])) := by
  have hkeys : ∀ k, pairLive n k ↔ ∃ p ∈ ps, p.key = k := by
    intro k
    rw [← List.mem_map, hps]
    simp [pairLive]
  by_cases huid : uid = 10123
  · rw [if_pos huid]
    refine ⟨ps, rfl, fun p hp => ⟨?_, hown p hp⟩, fun k _ => hkeys k⟩
    rcases (hkeys p.key).mpr ⟨p, hp, rfl⟩ with hk | hk
    · exact (congrArg ProcessKey.uid hk).trans huid.symm
    · exact (congrArg ProcessKey.uid hk).trans huid.symm
  · rw [if_neg huid]
    refine ⟨[], rfl, by simp, fun k hk => ⟨?_, by simp⟩⟩
    rintro (rfl | rfl)
    · exact absurd hk.symm huid
    · exact absurd hk.symm huid

/-- Both environments list what lives. -/
theorem pairFrozen_faithful {uid n : Nat} {answer : Except DaemonError (List RuntimeProcess)}
    (h : listed uid answer ∈ pairFrozen.1) :
    Lists (fun _ => "com.example.app") (pairLive n) uid answer := by
  obtain ⟨past, hanswer⟩ := mem_run h
  have heq : answer = .ok (if uid = 10123 then [sampleProcess, secondProcess] else []) := hanswer
  rw [heq]
  exact pair_lists rfl (by decide) n uid

theorem pairAudited_faithful {uid n : Nat} {answer : Except DaemonError (List RuntimeProcess)}
    (h : listed uid answer ∈ pairAudited.1) :
    Lists (fun _ => "com.example.app") (pairLive n) uid answer := by
  obtain ⟨past, hanswer⟩ := mem_run h
  have heq : answer = .ok (if uid = 10123 then wokenPair else []) := hanswer
  rw [heq]
  exact pair_lists rfl (by decide) n uid

def pairMoments : List Moment :=
  let released := run pairEnvironment.answer [] (releaseStale (samplePass 30) .default)
  let s := (refreezeAuditDue released.2 [] 1000).2
  let controlled := run pairEnvironment.answer []
    (controlRecord (samplePass 30) false ⟨10123, 30, false⟩ s)
  [⟨.default, .release (samplePass 30), released.1, s⟩,
    ⟨s, .record (samplePass 30) false ⟨10123, 30, false⟩, controlled.1, controlled.2.2⟩]

theorem held_processes_are_tracked_sample :
    owner (fun _ => "com.example.app") sampleProcess.key ∈ pairFrozen.2.2.frozenApps := by
  have hrun : Run pairMoments pairFrozen.2.2 :=
    .pass (samplePass 30) .default (.pass (exec_run _ _ _) (.cons (exec_run _ _ _) (.nil _)))
  have hheld : Held (Moment.traceOf pairMoments) sampleProcess.key := by
    have hkept : ∀ call ∈ (Moment.traceOf pairMoments).drop 6,
        call.effect ≠ .release sampleProcess.key := by decide
    refine ⟨(Moment.traceOf pairMoments).take 5, frozen sampleProcess.pendingFreeze,
      (Moment.traceOf pairMoments).drop 6, rfl, rfl, ?_⟩
    rintro ⟨call, hcall, heff⟩
    exact hkept call hcall heff
  refine held_processes_are_tracked hrun pairLive_once ?_ ?_ sampleProcess.key hheld (.inl rfl)
  · intro pre uid answer post ht
    have htrace : Moment.traceOf pairMoments = pairFrozen.1 := rfl
    exact pairFrozen_faithful (by simp [← htrace, ht])
  · -- The first pass is not due for an audit.
    intro pre m post hsplit input auditDue record first rest t hwork _ haudit
    have hmem : m ∈ pairMoments := by simp [hsplit]
    rcases List.mem_cons.mp hmem with rfl | hmem
    · cases hwork
    · obtain rfl := List.mem_singleton.mp hmem
      cases hwork
      cases haudit.due

/-- A process that was frozen, and never thawed, is not tracked any more. -/
theorem audit_forgets_a_held_process :
    ¬ ∀ packageOf live t s, Reachable t s → LivesOnce live → FaithfulDiscovery packageOf live t →
      ∀ k, Held t k → live t.length k → owner packageOf k ∈ s.frozenApps := by
  intro hclaim
  have hfrozen : Reachable pairFrozen.1 pairFrozen.2.2 :=
    .pass (samplePass 30) .default (exec_run _ _ _)
  have hreachable : Reachable (pairFrozen.1 ++ pairAudited.1) pairAudited.2.2 :=
    .pass auditPass hfrozen (exec_run _ _ _)
  have hfaithful : FaithfulDiscovery (fun _ => "com.example.app") pairLive
      (pairFrozen.1 ++ pairAudited.1) := by
    intro pre uid answer post ht
    have hmem : listed uid answer ∈ pairFrozen.1 ++ pairAudited.1 := by simp [ht]
    exact (List.mem_append.mp hmem).elim pairFrozen_faithful pairAudited_faithful
  have hheld : Held (pairFrozen.1 ++ pairAudited.1) sampleProcess.key := by
    have hkept : ∀ call ∈ (pairFrozen.1 ++ pairAudited.1).drop 6,
        call.effect ≠ .release sampleProcess.key := by decide
    refine ⟨pairFrozen.1.take 5, frozen sampleProcess.pendingFreeze,
      (pairFrozen.1 ++ pairAudited.1).drop 6, rfl, rfl, ?_⟩
    rintro ⟨call, hcall, heff⟩
    exact hkept call hcall heff
  have htracked := hclaim _ _ _ _ hreachable pairLive_once hfaithful _ hheld (.inl rfl)
  revert htracked
  decide

end Freezeit
