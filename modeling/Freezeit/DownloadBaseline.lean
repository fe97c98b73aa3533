import Freezeit.Lib.Since
import Freezeit.RecordBranches

/-! # The baseline of the download check

    A freeze of a download candidate rests on a rate between two samples.
    The first of them is kept in a map that freezing, thawing and the
    foreground leave alone. -/

namespace Freezeit

open Prog

variable {ctx : RecordContext} {s s' : RuntimeControlState} {t : Trace}
  {r : Except DaemonError Unit} {uid : Nat} {b : Sample}

/-- The sample of a uid that the next evaluation would compare with. -/
def RuntimeControlState.baseline (s : RuntimeControlState) (uid : Nat) : Option Sample :=
  s.downloadDeferral.samples.get? uid

/-! ## Who writes samples -/

/-- A sample that is there afterwards was there before, or it is the present one. -/
theorem evaluate_samples {deferral : DownloadDeferral} {other : Nat} {packageName : String}
    {sample : UidRxSample} {sampledAtMs : Nat}
    (h : (deferral.evaluate other packageName sample sampledAtMs).2.samples.get? uid = some b) :
    deferral.samples.get? uid = some b
      ∨ uid = other ∧ sample = .value b.rxBytes ∧ b.sampledAtMs = sampledAtMs := by
  have herased : (deferral.samples.erase other).get? uid = some b →
      deferral.samples.get? uid = some b := by
    intro hget
    rw [SortedMap.get?_erase] at hget
    split at hget
    · cases hget
    · exact hget
  have hinserted : ∀ rxBytes, (deferral.samples.insert other ⟨rxBytes, sampledAtMs⟩).get? uid = some b →
      deferral.samples.get? uid = some b
        ∨ uid = other ∧ rxBytes = b.rxBytes ∧ b.sampledAtMs = sampledAtMs := by
    intro rxBytes hget
    rw [SortedMap.get?_insert] at hget
    split at hget
    · next heq =>
      cases hget
      exact .inr ⟨heq.symm, rfl, rfl⟩
    · exact .inl hget
  unfold DownloadDeferral.evaluate at h
  -- An app that is no candidate loses its sample; a candidate keeps the present one, if any.
  split at h
  · exact .inl (herased h)
  · cases sample with
    | missing => exact .inl (herased h)
    | failed => exact .inl (herased h)
    | value rxBytes =>
      have hget : (deferral.samples.insert other ⟨rxBytes, sampledAtMs⟩).get? uid = some b := by
        dsimp only at h
        split at h
        · exact h
        · split at h
          · exact h
          · split at h
            · exact h
            · exact h
      exact (hinserted rxBytes hget).imp_right fun ⟨hother, hrx, hat⟩ => ⟨hother, by rw [hrx], hat⟩

/-- A decision leaves the samples alone. -/
theorem DecisionStep.downloadDeferral {decision : FreezeDecision}
    (h : DecisionStep ctx decision s t r s') : s'.downloadDeferral = s.downloadDeferral := by
  have hresidual : ∀ residual s, (ctx.trackResidual residual s).downloadDeferral
      = s.downloadDeferral := by
    intro residual s
    cases residual with
    | false => rfl
    | true  => rfl
  cases h with
  | idle => rfl
  | fallbackStopped => exact hresidual _ _
  | fallbackFailed => exact (hresidual _ _).trans (hresidual _ _)
  | rescanFailed => rfl
  | frozen => rfl
  | @rescanThawed _ _ _ _ rollback =>
    show (if rollback.failures.isEmpty then s.clearFrozen ctx.identity
      else ctx.trackResidual true s).downloadDeferral = _
    split
    · rfl
    · rfl
  | stopped => rfl
  | stopFailed => exact hresidual _ _
  | terminated => rfl
  | terminateFailed => rfl

/-- The step samples the traffic of the uid, and keeps what it was told. -/
def TakesSample (uid : Nat) (b : Sample) (m : Moment) : Prop :=
  ∃ input auditDue record packageName, m.work = .record input auditDue record ∧ record.uid = uid
    ∧ b.sampledAtMs = input.timestampMs
    ∧ ⟨.sampleRxBytes uid packageName, .ok (some b.rxBytes)⟩ ∈ m.calls

/-- A value was read from the system. -/
theorem sampleValue_eq_value {answer : Except DaemonError (Option Nat)} {rxBytes : Nat}
    (h : RecordContext.sampleValue answer = .value rxBytes) : answer = .ok (some rxBytes) := by
  match answer with
  | .ok (some value) =>
    cases h
    rfl
  | .ok none  => cases h
  | .error _ => cases h

/-- The background branch keeps the sample of a uid or takes a new one. -/
theorem BackgroundBranch.baseline {abnormalThaw : Bool}
    (h : BackgroundBranch ctx abnormalThaw s t r s') (hb : s'.baseline uid = some b) :
    s.baseline uid = some b ∨ uid = ctx.record.uid ∧ b.sampledAtMs = ctx.input.timestampMs
      ∧ ctx.sampled (.ok (some b.rxBytes)) ∈ t := by
  have hsampled : ∀ {answer t'}, (ctx.evaluated s answer).2.samples.get? uid = some b →
      s.baseline uid = some b ∨ uid = ctx.record.uid ∧ b.sampledAtMs = ctx.input.timestampMs
        ∧ ctx.sampled (.ok (some b.rxBytes)) ∈ ctx.sampled answer :: t' := by
    intro answer t' hget
    cases evaluate_samples hget with
    | inl hold => exact .inl hold
    | inr hnew =>
      obtain ⟨huid, hvalue, hat⟩ := hnew
      rw [sampleValue_eq_value hvalue]
      exact .inr ⟨huid, hat, List.mem_cons_self⟩
  unfold RuntimeControlState.baseline at hb
  -- A sample is taken in the branches that come past the delay.
  cases h with
  | delayed hdelay =>
    obtain ⟨-, -, ⟨_, -, -, rfl⟩ | ⟨-, _, rfl⟩⟩ := postponeForDelay_eq_some hdelay
    · exact .inl hb
    · exact .inl hb
  | downloading =>
    obtain ⟨operations, next, heq⟩ := postponeDownload_eq ctx _ _
    rw [heq] at hb
    exact hsampled hb
  | quiet _ _ _ hdecision =>
    rw [hdecision.downloadDeferral] at hb
    exact hsampled hb
  | unsampled _ _ hdecision =>
    rw [hdecision.downloadDeferral] at hb
    refine .inl ?_
    have hget : (s.downloadDeferral.samples.erase ctx.record.uid).get? uid = some b := hb
    rw [SortedMap.get?_erase] at hget
    split at hget
    · cases hget
    · exact hget

/-- Unblocking leaves the samples alone. -/
theorem Unblocked.baseline {s₀ : RuntimeControlState} (h : Unblocked ctx s s₀) (uid : Nat) :
    s₀.baseline uid = s.baseline uid := by
  cases h.2 with
  | inl heq => rw [heq]
  | inr heq => rw [heq]; rfl

/-- Thaws leave the samples alone. -/
theorem ThawSteps.downloadDeferral {identities : List RuntimeIdentity}
    (h : ThawSteps identities s t s') : s'.downloadDeferral = s.downloadDeferral := by
  obtain ⟨_, _, _, _, _, rfl, -⟩ := h.exists_eq
  rfl

/-- Clearing a uid adds no sample. -/
theorem clearUid_samples {deferral : DownloadDeferral} {other : Nat}
    (h : (deferral.clearUid other).samples.get? uid = some b) : deferral.samples.get? uid = some b := by
  have hget : (deferral.samples.erase other).get? uid = some b := h
  rw [SortedMap.get?_erase] at hget
  split at hget
  · cases hget
  · exact hget

/-- Clearing several of them adds none either. -/
theorem clearUids_samples {uids : List Nat} {deferral : DownloadDeferral}
    (h : (uids.foldl DownloadDeferral.clearUid deferral).samples.get? uid = some b) :
    deferral.samples.get? uid = some b := by
  induction uids generalizing deferral with
  | nil => exact h
  | cons other uids ih => exact clearUid_samples (ih h)

/-- The release of a protected app adds no sample. -/
theorem releaseProtected_baseline (h : Exec (ctx.releaseProtected s) t (r, s'))
    (hb : s'.baseline uid = some b) : s.baseline uid = some b := by
  obtain ⟨s₁, hsteps, rfl⟩ := releaseProtected_steps h
  unfold RuntimeControlState.baseline at hb
  rw [RuntimeControlState.clearDetached_eq] at hb
  dsimp only at hb
  rw [hsteps.downloadDeferral] at hb
  exact clearUid_samples hb

/-- A record keeps the sample of a uid or takes a new one, and only of its own uid. -/
theorem RecordBranch.baseline {auditDue : Bool} (h : RecordBranch ctx auditDue s t r s')
    (hb : s'.baseline uid = some b) :
    s.baseline uid = some b ∨ uid = ctx.record.uid ∧ b.sampledAtMs = ctx.input.timestampMs
      ∧ ctx.sampled (.ok (some b.rxBytes)) ∈ t := by
  cases h with
  | protectedApp _ hexec => exact .inl (releaseProtected_baseline hexec hb)
  | blocked => exact .inl hb
  -- In the foreground the sample stays as it is.
  | @foreground s₀ _ _ _ _ hcleared _ hexec =>
    rw [← hcleared.unblocked.baseline]
    refine .inl ?_
    obtain ⟨-, ⟨-, -, rfl⟩ | ⟨-, outcome, operation, -, rfl⟩⟩ := thawForeground_spec hexec
    · exact hb
    · unfold RuntimeControlState.baseline at hb
      rw [RuntimeControlState.pushOperation_downloadDeferral] at hb
      split at hb
      · exact hb
      · exact hb
  | @wakeup s₀ _ _ _ _ hcleared _ _ _ hexec =>
    rw [← hcleared.unblocked.baseline]
    refine .inl ?_
    obtain ⟨-, outcome, operation, -, rfl⟩ := wakeUp_spec hexec
    unfold RuntimeControlState.baseline at hb
    rw [RuntimeControlState.pushOperation_downloadDeferral] at hb
    split at hb
    · exact hb
    · exact hb
  | kept _ hcleared =>
    rw [hcleared.unblocked.baseline] at hb
    exact .inl hb
  | audited hcleared _ hbranch =>
    rw [← hcleared.unblocked.baseline]
    exact hbranch.baseline hb
  | background _ hcleared _ _ hbranch =>
    rw [← hcleared.unblocked.baseline]
    exact hbranch.baseline hb

/-- A sample that is kept after a step was kept before it, or is taken in it. -/
theorem Moment.Exact.baseline {m : Moment} (h : m.Exact) (hb : m.after.baseline uid = some b) :
    m.before.baseline uid = some b ∨ TakesSample uid b m := by
  -- Only the record of the uid takes a sample, every other step keeps it or drops it.
  cases h with
  | release input hexec =>
    refine .inl ?_
    obtain ⟨s₁, hsteps, rfl⟩ := releaseStale_steps hexec
    obtain ⟨startedAt, next, haudit⟩ := refreezeAuditDue_eq _ input.settings input.timestampMs
    dsimp only at hb
    rw [haudit] at hb
    unfold RuntimeControlState.baseline at hb
    dsimp only at hb
    rw [RuntimeControlState.clearDetached_eq] at hb
    dsimp only at hb
    rw [hsteps.downloadDeferral] at hb
    exact clearUids_samples hb
  | record hexec =>
    cases controlRecord_run hexec with
    | uncontrolled => exact .inl hb
    | undiscovered => exact .inl hb
    | exited =>
      refine .inl ?_
      unfold RuntimeControlState.baseline RuntimeControlState.clearExited at hb
      dsimp only at hb
      rw [RuntimeControlState.clearFrozenAll_eq] at hb
      exact clearUid_samples hb
    | occupied first rest _ hbranch =>
      cases hbranch.baseline hb with
      | inl hold => exact .inl hold
      | inr hnew =>
        obtain ⟨huid, hat, hcall⟩ := hnew
        subst huid
        exact .inr ⟨_, _, _, _, rfl, rfl, hat, List.mem_cons_of_mem _ hcall⟩
  | thawAll timestampMs hexec =>
    obtain ⟨s₁, -, rfl⟩ := thawAllFrozen_steps hexec
    cases hb
  | freezeStatus => exact .inl hb
  | takeNetworkRestrictions => exact .inl hb
  | requeueNetworkRestriction => exact .inl hb

/-! ## What the rate is computed from -/

/-- The step works on the app, whose processes were just listed. -/
def WorksOn (i : RuntimeIdentity) (t : Trace) (m : Moment) : Prop :=
  ∃ input auditDue record first rest, m.work = .record input auditDue record
    ∧ m.calls = listed record.uid (.ok (first :: rest)) :: t
    ∧ i = (listedContext input record first rest).identity

/-- A download candidate is frozen or killed. -/
def ActsOnCandidate (i : RuntimeIdentity) (m : Moment) : Prop :=
  isCandidatePackage i.packageName = true ∧ ∃ t, WorksOn i t m ∧ ∃ call ∈ t, ¬ call.Harmless

/-- The traffic of a download candidate is evaluated. -/
def SamplesValue (i : RuntimeIdentity) (m : Moment) : Prop :=
  isCandidatePackage i.packageName = true ∧ ∃ t, WorksOn i t m
    ∧ ∃ rxBytes, ⟨.sampleRxBytes i.uid i.packageName, .ok (some rxBytes)⟩ ∈ t

/-- A candidate goes on only if there is a value and an older one to compare it with. -/
theorem evaluate_proceed {deferral : DownloadDeferral} {packageName : String}
    {sample : UidRxSample} {sampledAtMs : Nat} (hcandidate : isCandidatePackage packageName = true)
    (h : (deferral.evaluate uid packageName sample sampledAtMs).1 = .proceed) :
    ∃ rxBytes b, sample = .value rxBytes ∧ deferral.samples.get? uid = some b := by
  unfold DownloadDeferral.evaluate at h
  rw [if_neg (by simp [hcandidate])] at h
  cases sample with
  | missing => cases h
  | failed  => cases h
  | value rxBytes =>
    dsimp only at h
    cases hprevious : deferral.samples.get? uid with
    | none =>
      rw [hprevious] at h
      cases h
    | some b => exact ⟨rxBytes, b, rfl, rfl⟩

/-- If a candidate is touched, its traffic was compared in this step. -/
theorem BackgroundBranch.evaluates {abnormalThaw : Bool}
    (h : BackgroundBranch ctx abnormalThaw s t r s')
    (hcandidate : isCandidatePackage ctx.packageName = true) {call : Call} (hcall : call ∈ t)
    (hacts : ¬ call.Harmless) :
    (∃ rxBytes, ctx.sampled (.ok (some rxBytes)) ∈ t) ∧ ∃ b, s.baseline ctx.record.uid = some b := by
  cases h with
  | delayed => cases hcall
  | downloading =>
    rw [List.mem_singleton.mp hcall] at hacts
    exact absurd ⟨by simp [RecordContext.sampled], by simp [RecordContext.sampled]⟩ hacts
  | quiet _ _ hproceed =>
    obtain ⟨rxBytes, b, hvalue, hb⟩ := evaluate_proceed hcandidate hproceed
    rw [sampleValue_eq_value hvalue]
    exact ⟨⟨rxBytes, List.mem_cons_self⟩, b, hb⟩
  | unsampled _ hother =>
    rw [hcandidate] at hother
    cases hother

/-- A candidate is frozen or killed after an evaluation that found a baseline. -/
theorem ActsOnCandidate.evaluates {i : RuntimeIdentity} {m : Moment} (h : ActsOnCandidate i m)
    (hexact : m.Exact) : SamplesValue i m ∧ ∃ b, m.before.baseline i.uid = some b := by
  obtain ⟨hcandidate, t, ⟨input, auditDue, record, first, rest, hwork, hcalls, rfl⟩, call, hcall,
    hacts⟩ := h
  obtain ⟨before, work, calls, after⟩ := m
  dsimp only at hwork hcalls ⊢
  subst hwork hcalls
  have hfound : (∃ rxBytes, (listedContext input record first rest).sampled (.ok (some rxBytes)) ∈ t)
      ∧ ∃ b, before.baseline record.uid = some b := by
    cases hexact with
    | record hexec =>
      generalize hall : listed record.uid (.ok (first :: rest)) :: t = all at hexec
      cases controlRecord_run hexec with
      | uncontrolled => cases hall
      | undiscovered => cases hall
      | exited => cases hall
      | occupied first' rest' _ hbranch =>
        obtain ⟨hlisted, rfl⟩ := List.cons.inj hall
        cases hlisted
        obtain ⟨-, -, s₀, hcleared, hrest⟩ := hbranch.deciding hcall hacts
        rw [← hcleared.unblocked.baseline]
        cases hrest with
        | inl haudited => exact haudited.2.evaluates hcandidate hcall hacts
        | inr hbackground => exact hbackground.2.evaluates hcandidate hcall hacts
  obtain ⟨⟨rxBytes, hsampled⟩, hb⟩ := hfound
  exact ⟨⟨hcandidate, t, ⟨input, auditDue, record, first, rest, rfl, rfl, rfl⟩, rxBytes, hsampled⟩, hb⟩

/-! ## Observed periods -/

/-- The app is opened, or is frozen when the step comes to it. -/
def Disturbed (i : RuntimeIdentity) (m : Moment) : Prop :=
  i.uid ∈ m.foregroundUids ∨ i ∈ m.before.frozenApps

/-- A sample of the uid is kept when the step comes. -/
def KeepsSample (uid : Nat) (m : Moment) : Prop := ∃ b, m.before.baseline uid = some b

/-- Whenever the traffic of a candidate is evaluated, no sample has been kept
    ever since the app was opened or frozen. -/
def DropsStaleSamples (ms : List Moment) : Prop :=
  ∀ pre m post, ms = pre ++ m :: post → ∀ i, SamplesValue i m →
    ¬ Since (fun q => Disturbed i q ∧ KeepsSample i.uid q) (KeepsSample i.uid) (pre ++ [m])

/-- The baseline of the next evaluation was taken in some step, and kept since. -/
def BaselineKept (past : List Moment) (s : RuntimeControlState) : Prop :=
  ∀ uid b, s.baseline uid = some b →
    Since (TakesSample uid b) (fun q => q.before.baseline uid = some b) past

/-- A step keeps the account of who took a sample. -/
theorem BaselineKept.step {past : List Moment} {m : Moment} (h : BaselineKept past m.before)
    (hexact : m.Exact) : BaselineKept (past ++ [m]) m.after := by
  intro uid b hb
  apply Since.concat_iff.mpr
  cases hexact.baseline hb with
  | inl hold => exact .inr ⟨h uid b hold, hold⟩
  | inr htaken => exact .inl htaken

/-- In every run a sample was taken in some step, with nothing since that drops it. -/
theorem Run.baseline {ms : List Moment} (h : Run ms s) :
    ∀ pre m post, ms = pre ++ m :: post → BaselineKept pre m.before ∧ m.Exact := by
  have hstart : BaselineKept [] .default := by
    intro uid b hb
    cases hb
  exact (h.each_exact (Q := fun pre m => BaselineKept pre m.before ∧ m.Exact) hstart
    fun past m hpast hexact => ⟨hpast.step hexact, hpast, hexact⟩).2

/-- A candidate is frozen or killed on a baseline from the same period in the
    background and unfrozen, as long as stale samples are dropped. -/
theorem baseline_is_observed {ms pre post : List Moment} {m : Moment} {i : RuntimeIdentity}
    (hrun : Run ms s) (hdropped : DropsStaleSamples ms) (hsplit : ms = pre ++ m :: post)
    (hacts : ActsOnCandidate i m) :
    ∃ b, m.before.baseline i.uid = some b
      ∧ Since (TakesSample i.uid b) (fun q => ¬ Disturbed i q) pre ∧ ¬ Disturbed i m := by
  obtain ⟨hkept, hexact⟩ := hrun.baseline pre m post hsplit
  obtain ⟨hsamples, b, hb⟩ := hacts.evaluates hexact
  have hnot := hdropped pre m post hsplit i hsamples
  rw [Since.concat_iff, not_or] at hnot
  have hkeeps : KeepsSample i.uid m := ⟨b, hb⟩
  refine ⟨b, hb, ?_, ?_⟩
  · apply (hkept i.uid b hb).of_not_since
    intro hstale
    refine hnot.2 ⟨hstale.imp ?_ ?_, hkeeps⟩
    · intro q hq
      exact ⟨hq.1, b, hq.2⟩
    · intro q hq
      exact ⟨b, hq⟩
  · intro hdisturbed
    exact hnot.1 ⟨hdisturbed, hkeeps⟩

/-! ## A download that is opened in between -/

/-- A pass over a download candidate. -/
def downloadPass (foregroundUids : List Nat) (timestampMs : Nat) : PassInput where
  appConfig      := [⟨10123, 30, false⟩]
  settings       := []
  foregroundUids := foregroundUids
  timestampMs    := timestampMs

/-- The app of the samples. -/
def netdisk : RuntimeIdentity := ⟨"com.baidu.netdisk", 10123⟩

/-- The candidate has received so many bytes. -/
def downloadEnvironment (rxBytes : Nat) : StaticEnvironment where
  discover _ := .ok [backgroundProcess "com.baidu.netdisk" 10123 501]
  sample _   := .ok (some rxBytes)

/-- Sampled at one second and at two. -/
def quietDownload : List (StaticEnvironment × PassInput) :=
  [(downloadEnvironment 0, downloadPass [] 1000), (downloadEnvironment 5000, downloadPass [] 2000)]

/-- Passes in which it downloads nothing. -/
def quietMoments : List Moment := (StaticEnvironment.passesMoments quietDownload .default).1

/-- Its freeze compares with the sample of the pass before. -/
theorem baseline_is_observed_sample :
    ∃ pre m, quietMoments = pre ++ [m] ∧ ActsOnCandidate netdisk m
      ∧ ∃ b, m.before.baseline netdisk.uid = some b
        ∧ Since (TakesSample netdisk.uid b) (fun q => ¬ Disturbed netdisk q) pre
        ∧ ¬ Disturbed netdisk m := by
  have hrun : Run quietMoments _ := StaticEnvironment.passesMoments_run .default quietDownload
  have hsplit : quietMoments = quietMoments.take 3 ++ quietMoments[3] :: [] := rfl
  have hacts : ActsOnCandidate netdisk quietMoments[3] := by
    refine ⟨by decide, quietMoments[3].calls.tail, ⟨downloadPass [] 2000, false, ⟨10123, 30, false⟩,
      backgroundProcess "com.baidu.netdisk" 10123 501, [], rfl, rfl, rfl⟩, quietMoments[3].calls[5],
      List.mem_of_getElem? (i := 4) rfl, ?_⟩
    intro hharmless
    exact hharmless.1 _ rfl
  have hdropped : DropsStaleSamples quietMoments := by
    have hundisturbed : ∀ q ∈ quietMoments, q.foregroundUids = [] ∧ q.before.frozenApps = ∅ := by
      decide
    intro pre m post hms i hsamples hsince
    obtain ⟨q, hq, hdisturbed, -⟩ := hsince.exists_mem
    have hmem : q ∈ quietMoments := by
      rw [hms]
      have hpre : pre ++ m :: post = (pre ++ [m]) ++ post := by simp
      rw [hpre]
      exact List.mem_append_left _ hq
    obtain ⟨hfg, happs⟩ := hundisturbed q hmem
    cases hdisturbed with
    | inl hopened =>
      rw [hfg] at hopened
      cases hopened
    | inr hfrozen =>
      rw [happs] at hfrozen
      exact SortedMap.not_mem_empty _ hfrozen
  exact ⟨_, _, hsplit, hacts, baseline_is_observed hrun hdropped hsplit hacts⟩

/-- Sampled at one second, opened, and closed a quarter of an hour later. -/
def openedDownload : List (StaticEnvironment × PassInput) :=
  [(downloadEnvironment 0, downloadPass [] 1000),
    (downloadEnvironment 0, downloadPass [10123] 2000),
    (downloadEnvironment 4000000000, downloadPass [] 1001000)]

/-- Passes in which it is opened in between. -/
def openedMoments : List Moment := (StaticEnvironment.passesMoments openedDownload .default).1

/-- The gigabytes of the last seconds are spread over the time in the foreground. -/
theorem baseline_spans_the_foreground :
    ¬ ∀ ms s, Run ms s → ∀ pre m post, ms = pre ++ m :: post → ∀ i, ActsOnCandidate i m →
      ∃ b, m.before.baseline i.uid = some b
        ∧ Since (TakesSample i.uid b) (fun q => ¬ Disturbed i q) pre ∧ ¬ Disturbed i m := by
  intro hclaim
  have hrun : Run openedMoments _ := StaticEnvironment.passesMoments_run .default openedDownload
  have hacts : ActsOnCandidate netdisk openedMoments[5] := by
    refine ⟨by decide, openedMoments[5].calls.tail, ⟨downloadPass [] 1001000, false,
      ⟨10123, 30, false⟩, backgroundProcess "com.baidu.netdisk" 10123 501, [], rfl, rfl, rfl⟩,
      openedMoments[5].calls[5], List.mem_of_getElem? (i := 4) rfl, ?_⟩
    intro hharmless
    exact hharmless.1 _ rfl
  obtain ⟨b, -, hsince, -⟩ := hclaim _ _ hrun (openedMoments.take 5) openedMoments[5] [] rfl netdisk
    hacts
  have hpre : openedMoments.take 5
      = (openedMoments.take 3 ++ [openedMoments[3]]) ++ [openedMoments[4]] := rfl
  rw [hpre, Since.concat_iff] at hsince
  -- The sample is older than the time in the foreground.
  cases hsince with
  | inl htakes =>
    -- The pass begins with no record.
    obtain ⟨input, auditDue, record, packageName, hwork, -⟩ := htakes
    cases hwork
  | inr hearlier =>
    cases Since.concat_iff.mp hearlier.1 with
    | inl htakes =>
      -- The foreground is not sampled.
      obtain ⟨input, auditDue, record, packageName, -, -, -, hcall⟩ := htakes
      have hcalls : openedMoments[3].calls
          = [listed 10123 (.ok [backgroundProcess "com.baidu.netdisk" 10123 501])] := rfl
      rw [hcalls] at hcall
      cases List.mem_singleton.mp hcall
    | inr hopened =>
      apply hopened.2
      exact .inl (by decide)

end Freezeit
