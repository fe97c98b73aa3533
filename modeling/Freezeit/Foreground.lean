import Freezeit.Frames
import Freezeit.Targets

/-! # Opening a frozen app

    A pass that finds the uid of a frozen app in the foreground thaws the app
    and forgets it.  The app is looked up under the package name that its
    processes have now, and the thaw refuses processes of another package. -/

namespace Freezeit

open Prog

variable {s s' : RuntimeControlState} {t : Trace} {r : Except DaemonError Unit}
  {ctx : RecordContext} {i : RuntimeIdentity}

/-! ## In the foreground nothing new is tracked -/

/-- A thaw tracks nobody. -/
theorem ThawStep.untracks {identity : RuntimeIdentity} (h : ThawStep identity s t s')
    (hi : i ∈ s'.frozenApps) : i ∈ s.frozenApps := by
  cases h with
  | undiscovered => exact hi
  | exited => exact (SortedMap.mem_erase.mp hi).2
  | @tried _ _ outcome =>
    by_cases hok : outcome.failures.isEmpty = true
    · have hcleared : i ∈ (s.clearFrozen identity).frozenApps := by simpa [hok] using hi
      exact (SortedMap.mem_erase.mp hcleared).2
    · simpa [hok] using hi

/-- Thaws track nobody. -/
theorem ThawSteps.untracks {identities : List RuntimeIdentity} (h : ThawSteps identities s t s')
    (hi : i ∈ s'.frozenApps) : i ∈ s.frozenApps := by
  induction h with
  | nil => exact hi
  | cons hstep _ ih => exact hstep.untracks (ih hi)

/-- The start of a pass tracks nobody. -/
theorem releaseStale_untracks {input : PassInput} (h : Exec (releaseStale input s) t s')
    (hi : i ∈ s'.frozenApps) : i ∈ s.frozenApps := by
  obtain ⟨s₁, hsteps, rfl⟩ := releaseStale_steps h
  exact hsteps.untracks (by simpa using hi)

/-- The release of a protected app tracks nobody. -/
theorem releaseProtected_untracks (h : Exec (ctx.releaseProtected s) t (r, s'))
    (hi : i ∈ s'.frozenApps) : i ∈ s.frozenApps := by
  obtain ⟨s₁, hsteps, rfl⟩ := releaseProtected_steps h
  exact hsteps.untracks (by simpa using hi)

/-- What a record does in the foreground. -/
theorem ListedStep.foreground_cases {auditDue : Bool} (h : ListedStep ctx auditDue s t r s')
    (hfg : ctx.record.uid ∈ ctx.input.foregroundUids) (hallowed : ctx.allowed = true) :
    s.blockedProcessSignatures.get? ctx.identity = some ctx.signature ∧ s' = s
    ∨ ctx.identity ∉ s.frozenApps ∧ s'.frozenApps = s.frozenApps
    ∨ ∃ outcome ownership, Exec (unfreezeIdentityProcesses ctx.packageName ctx.processes ownership)
        t outcome
      ∧ s'.frozenApps = if outcome.failures.isEmpty then s.frozenApps.erase ctx.identity
          else s.frozenApps := by
  cases h with
  | released hblocked => rw [hallowed] at hblocked; cases hblocked
  | blocked _ hblocked => exact .inl ⟨hblocked, rfl⟩
  | foreground _ hs _ hnot =>
    rw [hs.frozenApps] at hnot
    exact .inr (.inl ⟨hnot, hs.frozenApps⟩)
  | @opened s₀ _ outcome _ _ hs _ _ hexec =>
    refine .inr (.inr ⟨outcome, _, hexec, ?_⟩)
    by_cases hok : outcome.failures.isEmpty = true
    · simp [hok, hs.frozenApps]
    · simp [hok, hs.frozenApps]
  | wokenUp _ _ _ _ hnot => exact absurd hfg hnot
  | kept _ _ hnot => exact absurd hfg hnot
  | refrozen _ _ hnot => exact absurd hfg hnot
  | background _ _ hnot => exact absurd hfg hnot

/-- The loop body tracks nobody for an app that is open. -/
theorem ListedStep.untracks {auditDue : Bool} (h : ListedStep ctx auditDue s t r s')
    (hfg : ctx.record.uid ∈ ctx.input.foregroundUids) (hi : i ∈ s'.frozenApps) :
    i ∈ s.frozenApps := by
  by_cases hallowed : ctx.allowed = true
  · rcases h.foreground_cases hfg hallowed with ⟨-, rfl⟩ | ⟨-, hsame⟩ | ⟨outcome, _, -, hthawed⟩
    · exact hi
    · rwa [hsame] at hi
    · rw [hthawed] at hi
      split at hi
      · exact (SortedMap.mem_erase.mp hi).2
      · exact hi
  · exact releaseProtected_untracks (h.of_not_allowed (by simpa using hallowed)) hi

/-- A record tracks no app of an open uid. -/
theorem RecordStep.untracks {input : PassInput} {auditDue : Bool} {record : ManagerAppConfigRecord}
    (h : RecordStep input auditDue record s t r s') (hfg : i.uid ∈ input.foregroundUids)
    (hi : i ∈ s'.frozenApps) : i ∈ s.frozenApps := by
  by_cases huid : i.uid = record.uid
  · cases h with
    | uncontrolled => exact hi
    | undiscovered => exact hi
    | exited => exact (RuntimeControlState.mem_clearExited_frozenApps.mp hi).1
    | occupied _ _ _ hlisted => exact hlisted.untracks (huid ▸ hfg) hi
  · exact (h.frame huid).tracked.mp hi

/-- Around a step of the loop the foreground apps that are tracked only get fewer. -/
theorem RecordMoments.untracks {input : PassInput} {auditDue : Bool}
    {records : List ManagerAppConfigRecord} {ms : List Moment}
    (h : RecordMoments input auditDue records s ms r s') (hfg : i.uid ∈ input.foregroundUids) :
    (i ∈ s'.frozenApps → i ∈ s.frozenApps)
      ∧ ∀ m ∈ ms, (i ∈ s'.frozenApps → i ∈ m.after.frozenApps)
        ∧ (i ∈ m.before.frozenApps → i ∈ s.frozenApps) := by
  induction h with
  | nil => exact ⟨id, by simp⟩
  | failed hexec =>
    refine ⟨(controlRecord_step hexec).untracks hfg, fun m hm => ?_⟩
    obtain rfl := List.mem_singleton.mp hm
    exact ⟨id, id⟩
  | cons hexec _ ih =>
    have hfirst := (controlRecord_step hexec).untracks hfg
    refine ⟨fun hi => hfirst (ih.1 hi), fun m hm => ?_⟩
    rcases List.mem_cons.mp hm with rfl | hm
    · exact ⟨ih.1, id⟩
    · exact ⟨(ih.2 m hm).1, fun hi => hfirst ((ih.2 m hm).2 hi)⟩

/-! ## The app of the listed processes -/

/-- An app in the foreground that is not blocked is thawed and forgotten, or a
    call for one of its processes failed. -/
theorem ListedStep.opened_app {auditDue : Bool} (h : ListedStep ctx auditDue s t r s')
    (hfg : ctx.record.uid ∈ ctx.input.foregroundUids) (hallowed : ctx.allowed = true)
    (hunblocked : s.blockedProcessSignatures.get? ctx.identity ≠ some ctx.signature)
    (hone : ∀ p ∈ ctx.processes, p.packageName = ctx.packageName) :
    ctx.identity ∉ s'.frozenApps ∨ ∃ p ∈ ctx.processes, ∃ call ∈ t, FailedThaw p call := by
  rcases h.foreground_cases hfg hallowed with
    ⟨hblocked, -⟩ | ⟨hnot, hsame⟩ | ⟨outcome, ownership, hexec, hthawed⟩
  · exact absurd hblocked hunblocked
  · exact .inl (by rwa [hsame])
  · by_cases hok : outcome.failures.isEmpty = true
    · refine .inl ?_
      rw [hthawed, if_pos hok, SortedMap.mem_erase]
      exact fun hi => hi.1 rfl
    · refine .inr ?_
      rcases unfreezeIdentityProcesses_spec hexec with ⟨⟨p, hp, hne⟩, -⟩ | ⟨-, hattempts⟩
      · exact absurd (hone p hp) hne
      · exact hattempts.exists_failed (by simpa using hok) ownership.controlProcess_key
          ownership.controlProcess_key

/-- After a pass that lists processes of one package for a foreground app, what
    is still tracked for its uid was tracked before, under another package,
    unless a validation or a thaw of one of the processes failed. -/
theorem foreground_app_is_thawed {input : PassInput} {ms : List Moment}
    (h : PassMoments input s ms r s') {m : Moment} (hm : m ∈ ms) {auditDue : Bool}
    {record : ManagerAppConfigRecord} (hwork : m.work = .record input auditDue record)
    {first : RuntimeProcess} {rest : List RuntimeProcess}
    (hcalls : m.calls = listed record.uid (.ok (first :: rest)) :: t)
    (hfg : record.uid ∈ input.foregroundUids)
    (hallowed : (listedContext input record first rest).allowed = true)
    (hone : ∀ p ∈ first :: rest, p.packageName = first.packageName)
    (hunblocked : m.before.blockedProcessSignatures.get? ⟨first.packageName, record.uid⟩
      ≠ some (listedContext input record first rest).signature) :
    ∀ i ∈ s'.frozenApps, i.uid = record.uid →
      i ∈ s.frozenApps ∧ i.packageName ≠ first.packageName
        ∨ ∃ p ∈ first :: rest, ∃ call ∈ t, FailedThaw p call := by
  -- All processes have one package name, so the identity of the record is theirs.
  have hpackage : minPackageName first rest = first.packageName := by
    obtain ⟨p, hp, hmin⟩ := minPackageName_mem first rest
    rw [← hmin, hone p hp]
  have hidentity : (listedContext input record first rest).identity
      = ⟨first.packageName, record.uid⟩ := by
    rw [← hpackage]
    rfl
  intro i hi huid
  cases h with
  | pass hrelease hrecords =>
    rcases List.mem_cons.mp hm with rfl | hm
    · cases hwork
    · obtain ⟨record', -, r', hwork', hstep⟩ := hrecords.steps hm
      obtain ⟨-, rfl, rfl⟩ := Work.record.inj (hwork.symm.trans hwork')
      -- Records of other uids, before and after, do not track anything with this uid.
      have haround := hrecords.untracks (i := i) (huid ▸ hfg)
      rw [hcalls] at hstep
      cases hstep with
      | occupied _ _ _ hlisted =>
        have hopened := hlisted.opened_app hfg hallowed (hidentity ▸ hunblocked)
          fun p hp => (hone p hp).trans hpackage.symm
        rcases hopened with hgone | hfailed
        · refine .inl ⟨releaseStale_untracks hrelease (by simpa using haround.1 hi), ?_⟩
          rintro hname
          rw [hidentity, ← hname, ← huid] at hgone
          exact hgone ((haround.2 m hm).1 hi)
        · exact .inr hfailed

/-! ## A second package

    A frozen app is opened while a process of another package runs under the
    same uid. -/

/-- The state after the sample app was frozen. -/
def sampleFrozen : RuntimeControlState :=
  (run sampleEnvironment.answer [] (runControlPass (samplePass 30) .default)).2.2

/-- A pass in which it is open. -/
def openedPass : PassInput := { samplePass 30 with foregroundUids := [10123], timestampMs := 2000 }

/-- It is thawed. -/
theorem foreground_app_is_thawed_sample :
    ⟨"com.example.app", 10123⟩
      ∉ (sampleEnvironment.passMoments openedPass sampleFrozen).2.2.frozenApps := by
  let pass := sampleEnvironment.passMoments openedPass sampleFrozen
  have hwork : pass.1[1].work = .record openedPass false ⟨10123, 30, false⟩ := rfl
  have hcalls : pass.1[1].calls = listed 10123 (.ok [sampleProcess])
      :: [validated sampleProcess, thawed sampleProcess] := rfl
  intro hi
  rcases foreground_app_is_thawed (sampleEnvironment.passMoments_spec openedPass sampleFrozen)
    (List.getElem_mem _) hwork hcalls (by decide) (by decide) (by decide) (by decide) _ hi rfl with
    ⟨-, hname⟩ | ⟨p, -, call, hcall, q, -, hfailed⟩
  · exact hname rfl
  · -- Both calls for the process succeeded.
    rcases List.mem_cons.mp hcall with rfl | hcall
    · rcases hfailed with ⟨answer, heq, hanswer⟩ | ⟨error, heq⟩
      · cases heq
        exact hanswer rfl
      · cases heq
    · obtain rfl := List.mem_singleton.mp hcall
      rcases hfailed with ⟨answer, heq, -⟩ | ⟨error, heq⟩
      · cases heq
      · cases heq

/-- Two processes of the uid have different package names. -/
def mixedEnvironment : StaticEnvironment where
  discover _ := .ok [sampleProcess, backgroundProcess "com.example.other" 10123 502]

/-- The app stays frozen, and no call for it failed. -/
theorem opened_app_stays_frozen :
    ¬ ∀ past s, Reachable past s → ∀ input ms s', PassMoments input s ms (.ok ()) s' →
      ∀ m ∈ ms, ∀ auditDue record first rest t, m.work = .record input auditDue record →
        m.calls = listed record.uid (.ok (first :: rest)) :: t →
        record.uid ∈ input.foregroundUids →
        (listedContext input record first rest).allowed = true →
        (∀ i ∈ s'.frozenApps, i.uid ≠ record.uid)
          ∨ ∃ p, p.uid = record.uid ∧ ∃ call ∈ Moment.traceOf ms, FailedThaw p call := by
  intro hclaim
  have hreachable : Reachable _ sampleFrozen :=
    .pass (samplePass 30) .default (exec_run sampleEnvironment.answer [] _)
  let pass := mixedEnvironment.passMoments openedPass sampleFrozen
  have hopened := hclaim _ _ hreachable openedPass pass.1 pass.2.2
    (mixedEnvironment.passMoments_spec openedPass sampleFrozen) pass.1[1] (List.getElem_mem _) false
    ⟨10123, 30, false⟩ sampleProcess [backgroundProcess "com.example.other" 10123 502] [] rfl rfl
    (by decide) (by decide)
  rcases hopened with hgone | ⟨p, -, call, hcall, hfailed⟩
  · exact hgone ⟨"com.example.app", 10123⟩ (by decide) rfl
  · obtain rfl : call = listed 10123 (.ok [sampleProcess,
        backgroundProcess "com.example.other" 10123 502]) := List.mem_singleton.mp hcall
    obtain ⟨q, -, ⟨answer, heq, -⟩ | ⟨error, heq⟩⟩ := hfailed
    · cases heq
    · cases heq

end Freezeit
