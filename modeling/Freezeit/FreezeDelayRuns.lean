import Freezeit.FreezeDelay

/-! # Runs and the freeze delay

    Every due time rests on a step in the background that lies the delay
    before it, or on an audit whose refreeze was put off.  A pass that finds
    the app opened leaves no due time behind. -/

namespace Freezeit

open Prog

variable {s s' : RuntimeControlState} {t : Trace} {r : Except DaemonError Unit}
  {past ms : List Moment} {i : RuntimeIdentity} {record : ManagerAppConfigRecord}
  {delayMs : Nat} {m : Moment}

/-! ## What a step tells about an app -/

/-- The input that a step works with, if it is part of a pass. -/
def Work.input? : Work → Option PassInput
  | .release input    => some input
  | .record input _ _ => some input
  | .thawAll          => none
  | .other            => none

/-- The step finds the uid in the background, at some time. -/
def BackgroundAt (uid timestampMs : Nat) (m : Moment) : Prop :=
  ∃ input auditDue record first rest t, m.work = .record input auditDue record ∧ record.uid = uid
    ∧ input.timestampMs = timestampMs ∧ uid ∉ input.foregroundUids
    ∧ m.calls = listed uid (.ok (first :: rest)) :: t

/-- The step lists no process for the uid of its record. -/
def FoundAbsent (uid : Nat) (m : Moment) : Prop :=
  ∃ input auditDue record, m.work = .record input auditDue record ∧ record.uid = uid
    ∧ listed uid (.ok []) ∈ m.calls

/-- The pass lists the uid as foreground, or finds no process for it. -/
def Interrupts (uid : Nat) (m : Moment) : Prop := uid ∈ m.foregroundUids ∨ FoundAbsent uid m

/-- The audit untracks the app in this step. -/
def AuditUntracked (i : RuntimeIdentity) (m : Moment) : Prop :=
  ∃ input auditDue record first rest t, m.work = .record input auditDue record
    ∧ m.calls = listed record.uid (.ok (first :: rest)) :: t
    ∧ i = (listedContext input record first rest).identity
    ∧ AuditUntracks (listedContext input record first rest) auditDue m.before

/-- A refreeze of the audit was put off, and has been due ever since. -/
def RetriesAudit (i : RuntimeIdentity) (past : List Moment) : Prop :=
  Since (fun q => AuditUntracked i q ∧ i ∈ q.after.pendingFreezes)
    (fun q => i ∈ q.after.pendingFreezes) past

/-- The app has been in the background for the delay before a time, without a break. -/
def WaitedSince (i : RuntimeIdentity) (delayMs timestampMs : Nat) (past : List Moment) : Prop :=
  Since (fun q => ∃ start, BackgroundAt i.uid start q ∧ saturatingAdd start delayMs ≤ timestampMs)
    (fun q => ¬ Interrupts i.uid q) past

/-- Who has waited until a time has waited until any later one. -/
theorem WaitedSince.mono {timestampMs timestampMs' : Nat}
    (h : WaitedSince i delayMs timestampMs past) (hle : timestampMs ≤ timestampMs') :
    WaitedSince i delayMs timestampMs' past := by
  refine h.imp ?_ (fun _ hnot => hnot)
  intro q hq
  obtain ⟨start, hstart, hdue⟩ := hq
  exact ⟨start, hstart, Nat.le_trans hdue hle⟩

/-! ## Fixed inputs and faithful listings -/

/-- All passes have the same config and settings, and discovery never fails and
    finds one package for each uid. -/
structure SteadyRun (config : List ManagerAppConfigRecord) (settings : List UInt8)
    (packageOf : Nat → String) (ms : List Moment) : Prop where
  input : ∀ m ∈ ms, ∀ input, m.work.input? = some input →
    input.appConfig = config ∧ input.settings = settings
  found : ∀ m ∈ ms, ∀ uid error, listed uid (.error error) ∉ m.calls
  named : ∀ m ∈ ms, ∀ uid processes, listed uid (.ok processes) ∈ m.calls →
    ∀ p ∈ processes, p.packageName = packageOf uid

section steady
variable {config : List ManagerAppConfigRecord} {settings : List UInt8} {packageOf : Nat → String}

/-- The first part of a steady run is steady. -/
theorem SteadyRun.left {ms' : List Moment} (h : SteadyRun config settings packageOf (ms ++ ms')) :
    SteadyRun config settings packageOf ms :=
  ⟨fun m hm => h.input m (List.mem_append_left _ hm), fun m hm => h.found m (List.mem_append_left _ hm),
    fun m hm => h.named m (List.mem_append_left _ hm)⟩

/-- The second part of a steady run is steady. -/
theorem SteadyRun.right {ms' : List Moment} (h : SteadyRun config settings packageOf (ms ++ ms')) :
    SteadyRun config settings packageOf ms' :=
  ⟨fun m hm => h.input m (List.mem_append_right _ hm),
    fun m hm => h.found m (List.mem_append_right _ hm),
    fun m hm => h.named m (List.mem_append_right _ hm)⟩

/-- In a steady run all processes of a uid have one package name, so the record works on
    one app throughout. -/
theorem SteadyRun.identity (h : SteadyRun config settings packageOf ms) (hm : m ∈ ms)
    (input : PassInput) {first : RuntimeProcess} {rest : List RuntimeProcess}
    (hlisted : listed record.uid (.ok (first :: rest)) ∈ m.calls) :
    (listedContext input record first rest).identity = ⟨packageOf record.uid, record.uid⟩ := by
  obtain ⟨p, hp, hname⟩ := minPackageName_mem first rest
  have hown : minPackageName first rest = packageOf record.uid := by
    rw [← hname]
    exact h.named m hm record.uid _ hlisted p hp
  rw [← hown]
  rfl

end steady

/-! ## The invariant

    `foreground` says that the pass lists the app as such, and `settled` that the
    app's own record has been worked on. -/

/-- The invariant between two records of a pass. What an open app should look like after
    its record holds only once the record was done (`settled`), since the release at the start
    of the pass may set a timer anew. -/
structure Midway (foreground settled : Prop) (record : ManagerAppConfigRecord) (i : RuntimeIdentity)
    (delayMs : Nat) (past : List Moment) (s : RuntimeControlState) : Prop where
  quiet  : Quiet record i s
  opened : foreground → settled → s.pendingFreezes.get? i = none
  due    : ¬ foreground → ∀ dueAtMs, s.pendingFreezes.get? i = some dueAtMs →
    WaitedSince i delayMs dueAtMs past ∨ RetriesAudit i past

/-- Between passes. -/
abbrev Waiting : ManagerAppConfigRecord → RuntimeIdentity → Nat → List Moment →
    RuntimeControlState → Prop :=
  Midway False True

/-- After the pass all records are done, and the app waits as it does between passes. -/
theorem Midway.waiting {foreground : Prop} (h : Midway foreground True record i delayMs past s) :
    Waiting record i delayMs past s := by
  refine ⟨h.quiet, False.elim, ?_⟩
  intro _ dueAtMs hdue
  by_cases hopened : foreground
  · rw [h.opened hopened trivial] at hdue
    cases hdue
  · exact h.due hopened dueAtMs hdue

/-- Before its record the app waits as it did at the start of the pass. -/
theorem Waiting.midway {foreground settled : Prop} (h : Waiting record i delayMs past s)
    (hsettled : ¬ settled) : Midway foreground settled record i delayMs past s :=
  ⟨h.quiet, fun _ hs => absurd hs hsettled, fun _ => h.due id⟩

/-- What does not touch the timers and tracks nothing new keeps an app quiet. -/
theorem Quiet.frame (h : Quiet record i s) (hsame : SameWait i s s')
    (htracked : i ∈ s'.frozenApps → i ∈ s.frozenApps) : Quiet record i s' := by
  refine ⟨?_, ?_⟩
  · rw [hsame.blocked, hsame.pending]
    exact h.blocked
  · intro hmode hi
    exact h.killed hmode (htracked hi)

/-- A step that leaves the app alone. -/
theorem Midway.frame {foreground settled : Prop} (h : Midway foreground settled record i delayMs past m.before)
    (hsame : SameWait i m.before m.after)
    (htracked : i ∈ m.after.frozenApps → i ∈ m.before.frozenApps)
    (hnot : ¬ foreground → ¬ Interrupts i.uid m) :
    Midway foreground settled record i delayMs (past ++ [m]) m.after := by
  refine ⟨h.quiet.frame hsame htracked, ?_, ?_⟩
  · intro ho hs
    rw [hsame.pending]
    exact h.opened ho hs
  · intro ho dueAtMs hdue
    have hpending : i ∈ m.after.pendingFreezes := SortedMap.mem_of_get? hdue
    rw [hsame.pending] at hdue
    cases h.due ho dueAtMs hdue with
    | inl hwaited => exact .inl (Since.concat_iff.mpr (.inr ⟨hwaited, hnot ho⟩))
    | inr hretries => exact .inr (Since.concat_iff.mpr (.inr ⟨hretries, hpending⟩))

/-- A step that leaves nothing due. -/
theorem Midway.dropped {foreground settled : Prop} (hquiet : Quiet record i s)
    (hnone : s.pendingFreezes.get? i = none) : Midway foreground settled record i delayMs past s := by
  refine ⟨hquiet, fun _ _ => hnone, ?_⟩
  intro _ dueAtMs hdue
  rw [hnone] at hdue
  cases hdue

/-! ## The step for the app itself -/

/-- What the step for a record does to what is due, seen from the listing. -/
theorem Midway.occupied {input : PassInput} {auditDue : Bool} {first : RuntimeProcess}
    {rest : List RuntimeProcess}
    (h : Midway (i.uid ∈ input.foregroundUids) False record i
      (managerPolicyDelayMs record input.settings) past s)
    (hi : (listedContext input record first rest).identity = i)
    (hbranch : RecordBranch (listedContext input record first rest) auditDue s t r s') :
    Midway (i.uid ∈ input.foregroundUids) True record i
      (managerPolicyDelayMs record input.settings)
      (past ++ [⟨s, .record input auditDue record, listed record.uid (.ok (first :: rest)) :: t, s'⟩])
      s' := by
  have huid : record.uid = i.uid := by
    rw [← hi]
    rfl
  subst hi
  refine ⟨hbranch.quiet h.quiet, fun ho _ => hbranch.opened h.quiet ho, ?_⟩
  intro hbackground dueAtMs hdue
  have hpending := SortedMap.mem_of_get? hdue
  -- The old timer was waited for, and this step does not interrupt it; a new timer starts
  -- from this step; and a timer after an audit is a retry.
  rcases hbranch.due h.quiet hbackground hdue with ⟨old, hold, hle⟩ | hnew | haudit
  · have hnot : ¬ Interrupts record.uid
        ⟨s, .record input auditDue record, listed record.uid (.ok (first :: rest)) :: t, s'⟩ := by
      intro hinterrupts
      cases hinterrupts with
      | inl hfg => exact hbackground hfg
      | inr habsent =>
        obtain ⟨_, _, _, -, -, hmem⟩ := habsent
        cases List.mem_cons.mp hmem with
        | inl heq =>
          have hsame : some (record.uid, []) = some (record.uid, first :: rest) :=
            congrArg (Call.listing none) heq
          cases hsame
        | inr hmem =>
          rw [hbranch.dropped_of_listed hmem] at hdue
          cases hdue
    cases h.due hbackground old hold with
    | inl hwaited => exact .inl (Since.concat_iff.mpr (.inr ⟨hwaited.mono hle, hnot⟩))
    | inr hretries => exact .inr (Since.concat_iff.mpr (.inr ⟨hretries, hpending⟩))
  · have hstart : BackgroundAt record.uid input.timestampMs
        ⟨s, .record input auditDue record, listed record.uid (.ok (first :: rest)) :: t, s'⟩ :=
      ⟨input, auditDue, record, first, rest, t, rfl, rfl, rfl, hbackground, rfl⟩
    exact .inl (Since.concat ⟨input.timestampMs, hstart, hnew⟩)
  · exact .inr (Since.concat ⟨⟨input, auditDue, record, first, rest, t, rfl, rfl, rfl, haudit⟩, hpending⟩)

/-- An app without processes has no timer and is not blocked. -/
theorem Quiet.exited (h : Quiet record i s) (huid : i.uid = record.uid) :
    Quiet record i (s.clearExited record.uid)
      ∧ (s.clearExited record.uid).pendingFreezes.get? i = none := by
  have hnone : (s.clearExited record.uid).pendingFreezes.get? i = none := by
    rw [(clearExited_sameWait s record.uid).pending,
      RuntimeControlState.clearTransientControlStateForUid_pendingFreezes, clearTransient_get?,
      if_pos huid]
  refine ⟨⟨fun _ => hnone, ?_⟩, hnone⟩
  intro hmode hi
  exact h.killed hmode (RuntimeControlState.mem_clearExited_frozenApps.mp hi).1

/-! ## A pass -/

/-- A freeze or a kill of the app, unless it is a refreeze that the audit began,
    comes after the delay. -/
def ActsInTime (record : ManagerAppConfigRecord) (i : RuntimeIdentity) (past : List Moment)
    (m : Moment) : Prop :=
  ∀ input auditDue, m.work = .record input auditDue record →
    (∃ call ∈ m.calls, ¬ call.Harmless) → ¬ AuditUntracked i m → ¬ RetriesAudit i past →
    0 < managerPolicyDelayMs record input.settings →
    WaitedSince i (managerPolicyDelayMs record input.settings) input.timestampMs past
      ∧ BackgroundAt i.uid input.timestampMs m

/-- A step that is not about the record cannot act on its app. -/
theorem actsInTime_of_work (h : ∀ input auditDue, m.work ≠ .record input auditDue record) :
    ActsInTime record i past m := by
  intro input auditDue hwork
  exact absurd hwork (h input auditDue)

/-- If the step does act on the app, it has waited for the delay. -/
theorem Midway.acts {input : PassInput} {auditDue : Bool} {first : RuntimeProcess}
    {rest : List RuntimeProcess}
    (h : Midway (i.uid ∈ input.foregroundUids) False record i
      (managerPolicyDelayMs record input.settings) past s)
    (hi : (listedContext input record first rest).identity = i)
    (hbranch : RecordBranch (listedContext input record first rest) auditDue s t r s') :
    ActsInTime record i past
      ⟨s, .record input auditDue record, listed record.uid (.ok (first :: rest)) :: t, s'⟩ := by
  subst hi
  intro input' auditDue' hwork hacts haudit hretries hdelay
  cases hwork
  obtain ⟨call, hcall, hacts⟩ := hacts
  have hmem : call ∈ t := by
    cases List.mem_cons.mp hcall with
    | inl heq =>
      rw [heq] at hacts
      exact absurd (harmless_listed _ _) hacts
    | inr hmem => exact hmem
  have hnot : ¬ AuditUntracks (listedContext input record first rest) auditDue s :=
    fun huntracks => haudit ⟨input, auditDue, record, first, rest, t, rfl, rfl, rfl, huntracks⟩
  obtain ⟨hbackground, dueAtMs, hdue, hle⟩ := hbranch.acts_when_due hmem hacts hdelay hnot
  refine ⟨?_, input, auditDue, record, first, rest, t, rfl, rfl, rfl, hbackground, rfl⟩
  cases h.due hbackground dueAtMs hdue with
  | inl hwaited => exact hwaited.mono hle
  | inr hretried => exact absurd hretried hretries

section pass
variable {config : List ManagerAppConfigRecord} {settings : List UInt8} {packageOf : Nat → String}

/-- The step for the record itself: with no processes it clears the app, otherwise it is
    the branch above. -/
theorem RecordRun.midway {input : PassInput} {auditDue : Bool}
    (h : RecordRun input auditDue record s t r s')
    (hmode : isControlPolicyMode record.mode = true)
    (hsteady : SteadyRun config settings packageOf [⟨s, .record input auditDue record, t, s'⟩])
    (hmid : Midway (record.uid ∈ input.foregroundUids) False record ⟨packageOf record.uid, record.uid⟩
      (managerPolicyDelayMs record input.settings) past s) :
    Midway (record.uid ∈ input.foregroundUids) True record ⟨packageOf record.uid, record.uid⟩
        (managerPolicyDelayMs record input.settings)
        (past ++ [⟨s, .record input auditDue record, t, s'⟩]) s'
      ∧ ActsInTime record ⟨packageOf record.uid, record.uid⟩ past
        ⟨s, .record input auditDue record, t, s'⟩ := by
  cases h with
  | uncontrolled huncontrolled =>
    rw [hmode] at huncontrolled
    cases huncontrolled
  | undiscovered error =>
    exact absurd List.mem_cons_self (hsteady.found _ List.mem_cons_self record.uid error)
  | exited =>
    have hexited := hmid.quiet.exited rfl
    refine ⟨.dropped hexited.1 hexited.2, ?_⟩
    intro _ _ _ hacts
    obtain ⟨call, hcall, hacts⟩ := hacts
    rw [List.mem_singleton.mp hcall] at hacts
    exact absurd (harmless_listed _ _) hacts
  | occupied first rest _ hbranch =>
    have hi := hsteady.identity List.mem_cons_self input List.mem_cons_self
    exact ⟨hmid.occupied hi hbranch, hmid.acts hi hbranch⟩

/-- The loop over the records: whether the app's own record is still to come
    tells whether its due time is settled. -/
theorem RecordMoments.midway {input : PassInput} {auditDue : Bool}
    {records : List ManagerAppConfigRecord} (h : RecordMoments input auditDue records s ms r s')
    (hmode : isControlPolicyMode record.mode = true)
    (hdistinct : ∀ other ∈ records, other.uid = record.uid → other = record)
    (hsteady : SteadyRun config settings packageOf ms)
    (hmid : Midway (record.uid ∈ input.foregroundUids) (record ∉ records) record
      ⟨packageOf record.uid, record.uid⟩ (managerPolicyDelayMs record input.settings) past s)
    (hacts : Everywhere (ActsInTime record ⟨packageOf record.uid, record.uid⟩) past) :
    Midway (record.uid ∈ input.foregroundUids) True record ⟨packageOf record.uid, record.uid⟩
        (managerPolicyDelayMs record input.settings) (past ++ ms) s'
      ∧ Everywhere (ActsInTime record ⟨packageOf record.uid, record.uid⟩) (past ++ ms) := by
  -- Over the records of the pass; `past` grows with each of them.
  induction h generalizing past with
  | nil =>
    rw [List.append_nil]
    exact ⟨⟨hmid.quiet, fun ho _ => hmid.opened ho (by simp), hmid.due⟩, hacts⟩
  | failed hexec =>
    obtain ⟨uid, error, hlisted⟩ := (controlRecord_run hexec).listed_of_error
    exact absurd hlisted (hsteady.found _ List.mem_cons_self uid error)
  | @cons other rest s t s₁ ms _ _ hexec _ ih =>
    have hsplit : SteadyRun config settings packageOf
        ([⟨s, .record input auditDue other, t, s₁⟩] ++ ms) := hsteady
    have hfirst := hsplit.left
    have hrest := hsplit.right
    have hassoc : past ++ ⟨s, .record input auditDue other, t, s₁⟩ :: ms
        = (past ++ [⟨s, .record input auditDue other, t, s₁⟩]) ++ ms := by simp
    rw [hassoc]
    have hlater : ∀ x ∈ rest, x.uid = record.uid → x = record :=
      fun x hx => hdistinct x (List.mem_cons_of_mem _ hx)
    -- The record of the app moves its timers, every other record leaves them alone.
    by_cases hown : other = record
    · subst hown
      have hpending : Midway (other.uid ∈ input.foregroundUids) False other
          ⟨packageOf other.uid, other.uid⟩ (managerPolicyDelayMs other input.settings) past s :=
        ⟨hmid.quiet, fun _ => False.elim, hmid.due⟩
      obtain ⟨hnext, hact⟩ := (controlRecord_run hexec).midway hmode hfirst hpending
      refine ih hlater hrest ⟨hnext.quiet, ?_, hnext.due⟩ (hacts.concat hact)
      intro ho _
      exact hnext.opened ho trivial
    · have huid : record.uid ≠ other.uid :=
        fun heq => hown (hdistinct other List.mem_cons_self heq.symm)
      have hsame := (controlRecord_run hexec).sameWait (i := ⟨packageOf record.uid, record.uid⟩) huid
      have hframe := (controlRecord_step hexec).frame (i := ⟨packageOf record.uid, record.uid⟩) huid
      have hnot : record.uid ∉ input.foregroundUids →
          ¬ Interrupts record.uid ⟨s, .record input auditDue other, t, s₁⟩ := by
        intro hbackground hinterrupts
        cases hinterrupts with
        | inl hfg => exact hbackground hfg
        | inr habsent =>
          obtain ⟨_, _, _, hwork, hsameUid, -⟩ := habsent
          cases hwork
          exact huid hsameUid.symm
      have hstill : Midway (record.uid ∈ input.foregroundUids) (record ∉ rest) record
          ⟨packageOf record.uid, record.uid⟩ (managerPolicyDelayMs record input.settings) past s := by
        refine ⟨hmid.quiet, ?_, hmid.due⟩
        intro ho hnotin
        apply hmid.opened ho
        intro hmem
        cases List.mem_cons.mp hmem with
        | inl heq => exact hown heq.symm
        | inr hmem => exact hnotin hmem
      refine ih hlater hrest (hstill.frame hsame hframe.tracked.mp hnot) (hacts.concat ?_)
      apply actsInTime_of_work
      intro input' auditDue' hwork
      cases hwork
      exact hown rfl

/-- A whole pass, release and records, takes a waiting app to a waiting app. -/
theorem PassMoments.waiting {input : PassInput} (h : PassMoments input s ms r s')
    (hrecord : record ∈ config) (hmode : isControlPolicyMode record.mode = true)
    (hdistinct : (config.map ManagerAppConfigRecord.uid).Nodup)
    (hsteady : SteadyRun config settings packageOf ms)
    (hwaiting : Waiting record ⟨packageOf record.uid, record.uid⟩
      (managerPolicyDelayMs record settings) past s)
    (hacts : Everywhere (ActsInTime record ⟨packageOf record.uid, record.uid⟩) past) :
    Waiting record ⟨packageOf record.uid, record.uid⟩ (managerPolicyDelayMs record settings)
        (past ++ ms) s'
      ∧ Everywhere (ActsInTime record ⟨packageOf record.uid, record.uid⟩) (past ++ ms) := by
  cases h with
  | @pass t s₁ ms _ _ hrelease hrecords =>
    obtain ⟨hconfig, hsettings⟩ := hsteady.input _ List.mem_cons_self input rfl
    subst hconfig hsettings
    have hmid : Midway (record.uid ∈ input.foregroundUids) (record ∉ input.appConfig) record
        ⟨packageOf record.uid, record.uid⟩ (managerPolicyDelayMs record input.settings) past s :=
      hwaiting.midway (fun hnot => hnot hrecord)
    obtain ⟨startedAt, next, haudit⟩ := refreezeAuditDue_eq s₁ input.settings input.timestampMs
    -- The release and the audit marker keep the timers; from there the records take over.
    have hreleased : Midway (record.uid ∈ input.foregroundUids) (record ∉ input.appConfig) record
        ⟨packageOf record.uid, record.uid⟩ (managerPolicyDelayMs record input.settings)
        (past ++ [⟨s, .release input, t, (refreezeAuditDue s₁ input.settings input.timestampMs).2⟩])
        (refreezeAuditDue s₁ input.settings input.timestampMs).2 := by
      have hsame : SameWait ⟨packageOf record.uid, record.uid⟩ s s₁ :=
        releaseStale_sameWait hrelease (mem_controlledUids hrecord hmode)
      refine hmid.frame ?_ ?_ ?_
      · rw [haudit]
        exact hsame.trans (.of_eq rfl rfl)
      · rw [haudit]
        intro htracked
        obtain ⟨s₂, hsteps, rfl⟩ := releaseStale_steps hrelease
        obtain ⟨apps, _, _, _, _, rfl, hsub⟩ := hsteps.exists_eq
        rw [RuntimeControlState.clearDetached_eq] at htracked
        exact hsub _ htracked
      · intro hbackground hinterrupts
        cases hinterrupts with
        | inl hfg => exact hbackground hfg
        | inr habsent =>
          obtain ⟨_, _, _, hwork, -⟩ := habsent
          cases hwork
    have hassoc : past ++ ⟨s, .release input, t,
          (refreezeAuditDue s₁ input.settings input.timestampMs).2⟩ :: ms
        = (past ++ [⟨s, .release input, t,
          (refreezeAuditDue s₁ input.settings input.timestampMs).2⟩]) ++ ms := by simp
    have hsplit : SteadyRun input.appConfig input.settings packageOf
        ([⟨s, .release input, t, (refreezeAuditDue s₁ input.settings input.timestampMs).2⟩] ++ ms) :=
      hsteady
    have hone : ∀ other ∈ input.appConfig, other.uid = record.uid → other = record :=
      fun other hother => List.inj_on_of_nodup_map hdistinct hother hrecord
    rw [hassoc]
    have hrun := hrecords.midway hmode hone hsplit.right hreleased
      (hacts.concat (actsInTime_of_work (by simp)))
    exact ⟨hrun.1.waiting, hrun.2⟩

end pass

/-! ## Runs -/

/-- Nothing waits at the start. -/
theorem Waiting.start : Waiting record i delayMs [] .default :=
  .dropped ⟨fun _ => rfl, fun _ => SortedMap.not_mem_empty i⟩ rfl

/-- Calls between passes that leave the app alone. -/
theorem Waiting.other {calls : Trace} (h : Waiting record i delayMs past s)
    (hsame : SameWait i s s') (happs : s'.frozenApps = s.frozenApps) :
    Waiting record i delayMs (past ++ [⟨s, .other, calls, s'⟩]) s' := by
  refine h.frame hsame ?_ ?_
  · rw [happs]
    exact id
  · intro _ hinterrupts
    cases hinterrupts with
    | inl hfg => cases hfg
    | inr habsent =>
      obtain ⟨_, _, _, hwork, -⟩ := habsent
      cases hwork

/-- In every steady run an app waits as it should, and whatever acts on it acts in time. -/
theorem Run.waiting {config : List ManagerAppConfigRecord} {settings : List UInt8}
    {packageOf : Nat → String} (h : Run ms s) (hrecord : record ∈ config)
    (hmode : isControlPolicyMode record.mode = true)
    (hdistinct : (config.map ManagerAppConfigRecord.uid).Nodup)
    (hsteady : SteadyRun config settings packageOf ms) :
    Waiting record ⟨packageOf record.uid, record.uid⟩ (managerPolicyDelayMs record settings) ms s
      ∧ Everywhere (ActsInTime record ⟨packageOf record.uid, record.uid⟩) ms := by
  have hother : ∀ {past : List Moment} {s s' : RuntimeControlState},
      Waiting record ⟨packageOf record.uid, record.uid⟩ (managerPolicyDelayMs record settings) past s
        ∧ Everywhere (ActsInTime record ⟨packageOf record.uid, record.uid⟩) past →
      SameWait ⟨packageOf record.uid, record.uid⟩ s s' → s'.frozenApps = s.frozenApps →
      Waiting record ⟨packageOf record.uid, record.uid⟩ (managerPolicyDelayMs record settings)
          (past ++ [⟨s, .other, [], s'⟩]) s'
        ∧ Everywhere (ActsInTime record ⟨packageOf record.uid, record.uid⟩)
          (past ++ [⟨s, .other, [], s'⟩]) := by
    intro past s s' hpast hsame happs
    exact ⟨hpast.1.other hsame happs, hpast.2.concat (actsInTime_of_work (by simp))⟩
  -- By the steps of the run; only a pass and the thaw of all apps touch the timers.
  induction h with
  | default => exact ⟨.start, .nil⟩
  | pass input _ hms ih =>
    obtain ⟨hwaiting, hacts⟩ := ih hsteady.left
    exact hms.waiting hrecord hmode hdistinct hsteady.right hwaiting hacts
  | thawAll timestampMs _ hexec ih =>
    obtain ⟨hwaiting, hacts⟩ := ih hsteady.left
    refine ⟨?_, hacts.concat (actsInTime_of_work (by simp))⟩
    obtain ⟨s₁, hsteps, rfl⟩ := thawAllFrozen_steps hexec
    refine .dropped ⟨fun _ => rfl, ?_⟩ rfl
    intro hmode htracked
    obtain ⟨apps, _, _, _, _, rfl, hsub⟩ := hsteps.exists_eq
    rw [RuntimeControlState.clearDetached_eq] at htracked
    exact hwaiting.quiet.killed hmode (hsub _ htracked)
  | freezeStatus appConfig processesByUid foregroundUids timestampMs _ ih =>
    exact hother (ih hsteady.left) (.of_eq rfl rfl) rfl
  | takeNetworkRestrictions _ ih => exact hother (ih hsteady.left) (.of_eq rfl rfl) rfl
  | requeueNetworkRestriction uid _ ih => exact hother (ih hsteady.left) (.of_eq rfl rfl) rfl

/-- The record of a step stands in the config of its pass. -/
theorem Run.record_mem (h : Run ms s) (hm : m ∈ ms) {input : PassInput} {auditDue : Bool}
    (hwork : m.work = .record input auditDue record) : record ∈ input.appConfig := by
  -- Only a pass works on records.
  induction h with
  | default => cases hm
  | pass input' _ hms ih =>
    cases List.mem_append.mp hm with
    | inl hm => exact ih hm
    | inr hm =>
      rcases hms.steps hm with ⟨_, -, hrelease, -⟩ | ⟨_, record', hmem, _, hwork', -⟩
      · rw [hwork] at hrelease
        cases hrelease
      · rw [hwork] at hwork'
        cases hwork'
        exact hmem
  | thawAll _ _ _ ih =>
    cases List.mem_append.mp hm with
    | inl hm => exact ih hm
    | inr hm =>
      rw [List.mem_singleton.mp hm] at hwork
      cases hwork
  | freezeStatus _ _ _ _ _ ih =>
    cases List.mem_append.mp hm with
    | inl hm => exact ih hm
    | inr hm =>
      rw [List.mem_singleton.mp hm] at hwork
      cases hwork
  | takeNetworkRestrictions _ ih =>
    cases List.mem_append.mp hm with
    | inl hm => exact ih hm
    | inr hm =>
      rw [List.mem_singleton.mp hm] at hwork
      cases hwork
  | requeueNetworkRestriction _ _ ih =>
    cases List.mem_append.mp hm with
    | inl hm => exact ih hm
    | inr hm =>
      rw [List.mem_singleton.mp hm] at hwork
      cases hwork

/-- Only the modes of control have a delay. -/
theorem controlled_of_delay {settings : List UInt8}
    (h : 0 < managerPolicyDelayMs record settings) : isControlPolicyMode record.mode = true := by
  unfold managerPolicyDelayMs at h
  unfold isControlPolicyMode
  split at h
  · next hmode => simp [hmode]
  · split at h
    · next hmode =>
      rcases hmode with hmode | hmode | hmode | hmode
      · simp [hmode]
      · simp [hmode]
      · simp [hmode]
      · simp [hmode]
    · cases h

/-- A freeze or a kill of an app with a delay, which is not the refreeze of an
    audit, comes when the app has been in the background for the delay. -/
theorem freeze_waits_for_delay {config : List ManagerAppConfigRecord} {settings : List UInt8}
    {packageOf : Nat → String} {pre post : List Moment} (hrun : Run ms s)
    (hdistinct : (config.map ManagerAppConfigRecord.uid).Nodup)
    (hsteady : SteadyRun config settings packageOf ms) (hsplit : ms = pre ++ m :: post)
    {input : PassInput} {auditDue : Bool} (hwork : m.work = .record input auditDue record)
    (hacts : ∃ call ∈ m.calls, ¬ call.Harmless)
    (hdelay : 0 < managerPolicyDelayMs record settings)
    (haudit : ¬ AuditUntracked ⟨packageOf record.uid, record.uid⟩ m)
    (hretry : ¬ RetriesAudit ⟨packageOf record.uid, record.uid⟩ pre) :
    Since (fun q => ∃ start, BackgroundAt record.uid start q
        ∧ saturatingAdd start (managerPolicyDelayMs record settings) ≤ input.timestampMs)
      (fun q => ¬ Interrupts record.uid q) pre
    ∧ BackgroundAt record.uid input.timestampMs m := by
  have hm : m ∈ ms := by
    rw [hsplit]
    exact List.mem_append_right _ List.mem_cons_self
  obtain ⟨hconfig, hsettings⟩ := hsteady.input m hm input (by rw [hwork]; rfl)
  have hrecord : record ∈ config := by
    rw [← hconfig]
    exact hrun.record_mem hm hwork
  have hall := (hrun.waiting hrecord (controlled_of_delay hdelay) hdistinct hsteady).2
  have hintime := hall pre m post hsplit input auditDue hwork hacts haudit hretry
  rw [hsettings] at hintime
  exact hintime hdelay

/-! ## A frozen app and a retried refreeze -/

/-- Discovery answers with one package for each uid. -/
def Call.finds (packageOf : Nat → String) : Call → Bool
  | ⟨.discoverProcesses _ _, .error _⟩        => false
  | ⟨.discoverProcesses _ uid, .ok processes⟩ => processes.all fun p => p.packageName = packageOf uid
  | _                                         => true

/-- Whether a run is steady can be checked call by call. -/
theorem SteadyRun.of_calls {config : List ManagerAppConfigRecord} {settings : List UInt8}
    {packageOf : Nat → String}
    (hinput : ∀ m ∈ ms, ∀ input, m.work.input? = some input →
      input.appConfig = config ∧ input.settings = settings)
    (hcalls : ∀ m ∈ ms, ∀ call ∈ m.calls, call.finds packageOf = true) :
    SteadyRun config settings packageOf ms := by
  refine ⟨hinput, ?_, ?_⟩
  · intro m hm uid error hlisted
    cases hcalls m hm _ hlisted
  · intro m hm uid processes hlisted p hp
    have hall : (processes.all fun p => decide (p.packageName = packageOf uid)) = true :=
      hcalls m hm _ hlisted
    exact of_decide_eq_true (List.all_eq_true.mp hall p hp)

/-- A pass with ten seconds of delay. -/
def delayedPass (foregroundUids : List Nat) (timestampMs : Nat) : PassInput where
  appConfig      := [⟨10123, 30, false⟩]
  settings       := [0, 0, 10]
  foregroundUids := foregroundUids
  timestampMs    := timestampMs

/-- Answers for one downloader: what it received so far, and whether it can be thawed. -/
def delayedEnvironment (rxBytes : Nat) (unfreeze : Except DaemonError Unit) :
    StaticEnvironment where
  discover _ := .ok [backgroundProcess "com.baidu.netdisk" 10123 501]
  sample _   := .ok (some rxBytes)
  unfreeze _ := unfreeze

/-- In the background at one second, sampled at eleven and frozen at twelve. -/
def delayedFreeze : List (StaticEnvironment × PassInput) :=
  [(delayedEnvironment 0 (.ok ()), delayedPass [] 1000),
    (delayedEnvironment 0 (.ok ()), delayedPass [] 11000),
    (delayedEnvironment 0 (.ok ()), delayedPass [] 12000)]

/-- The steps of three passes in which its freeze is put off and then done. -/
def delayedMoments : List Moment := (StaticEnvironment.passesMoments delayedFreeze .default).1

/-- The steps of the passes have the inputs of the passes. -/
theorem StaticEnvironment.input_of_mem {passes : List (StaticEnvironment × PassInput)}
    (hm : m ∈ (StaticEnvironment.passesMoments passes s).1) :
    ∃ pass ∈ passes, m.work.input? = some pass.2 := by
  induction passes generalizing s with
  | nil => cases hm
  | cons pass rest ih =>
    cases List.mem_append.mp hm with
    | inl hfirst =>
      have hspec := pass.1.passMoments_spec pass.2 s
      rcases hspec.steps hfirst with ⟨_, -, hwork, -⟩ | ⟨_, _, -, _, hwork, -⟩
      · exact ⟨pass, List.mem_cons_self, by rw [hwork]; rfl⟩
      · exact ⟨pass, List.mem_cons_self, by rw [hwork]; rfl⟩
    | inr hrest =>
      obtain ⟨other, hother, hinput⟩ := ih hrest
      exact ⟨other, List.mem_cons_of_mem _ hother, hinput⟩

/-- The steps of sample passes are steady, if discovery is. -/
theorem delayed_steady {passes : List (StaticEnvironment × PassInput)}
    (hpasses : ∀ pass ∈ passes, pass.2 = delayedPass pass.2.foregroundUids pass.2.timestampMs)
    (hcalls : ∀ m ∈ (StaticEnvironment.passesMoments passes .default).1, ∀ call ∈ m.calls,
      call.finds (fun _ => "com.baidu.netdisk") = true) :
    SteadyRun [⟨10123, 30, false⟩] [0, 0, 10] (fun _ => "com.baidu.netdisk")
      (StaticEnvironment.passesMoments passes .default).1 := by
  refine .of_calls ?_ hcalls
  intro m hm input hinput
  obtain ⟨pass, hpass, hof⟩ := StaticEnvironment.input_of_mem hm
  rw [hinput] at hof
  cases hof
  rw [hpasses pass hpass]
  exact ⟨rfl, rfl⟩

/-- Whether the step is a record of a pass that audits. -/
def Work.auditDue : Work → Bool
  | .record _ auditDue _ => auditDue
  | _                    => false

/-- Only such a step is one in which the audit untracks an app. -/
theorem AuditUntracked.auditDue (h : AuditUntracked i m) : m.work.auditDue = true := by
  obtain ⟨input, auditDue, record, first, rest, t, hwork, -, -, haudit⟩ := h
  rw [hwork]
  exact haudit.due

/-- In the sample run the app is frozen after the delay that an earlier pass has started. -/
theorem freeze_waits_for_delay_sample :
    Since (fun q => ∃ start, BackgroundAt 10123 start q ∧ saturatingAdd start 10000 ≤ 12000)
      (fun q => ¬ Interrupts 10123 q) (delayedMoments.take 5)
    ∧ BackgroundAt 10123 12000 delayedMoments[5] := by
  have hrun : Run delayedMoments _ := StaticEnvironment.passesMoments_run .default delayedFreeze
  have hsteady : SteadyRun _ _ _ delayedMoments :=
    delayed_steady (by simp [delayedFreeze, delayedPass]) (by decide)
  have hsplit : delayedMoments = delayedMoments.take 5 ++ delayedMoments[5] :: [] := rfl
  have hunaudited : ∀ q ∈ delayedMoments, q.work.auditDue ≠ true := by decide
  have hacts : ∃ call ∈ delayedMoments[5].calls, ¬ call.Harmless :=
    ⟨delayedMoments[5].calls[5], List.mem_of_getElem? (i := 5) rfl, fun h => h.1 _ rfl⟩
  have hwork : delayedMoments[5].work = .record (delayedPass [] 12000) false ⟨10123, 30, false⟩ := rfl
  refine freeze_waits_for_delay hrun (by decide) hsteady hsplit hwork hacts (by decide) ?_ ?_
  · intro haudited
    exact hunaudited _ (List.mem_of_getElem? (i := 5) rfl) haudited.auditDue
  · intro hretries
    obtain ⟨q, hq, haudited, -⟩ := hretries.exists_mem
    exact hunaudited q (List.mem_of_mem_take hq) haudited.auditDue

/-- Frozen at twelve seconds and opened at fifty-nine, where the thaw fails.  The
    audit finds it running at sixty-two; traffic puts the refreeze off. -/
def retriedFreeze : List (StaticEnvironment × PassInput) :=
  delayedFreeze ++
    [(delayedEnvironment 0 (.error (.system "EACCES")), delayedPass [10123] 59000),
      (delayedEnvironment 1000000000000 (.ok ()), delayedPass [] 62000),
      (delayedEnvironment 1000000000000 (.ok ()), delayedPass [] 63000)]

/-- A run in which the freeze fails once and is retried by the audit. -/
def retriedMoments : List Moment := (StaticEnvironment.passesMoments retriedFreeze .default).1

/-- The times of the passes that the steps belong to do not decrease. -/
def Nondecreasing (ms : List Moment) : Prop :=
  (ms.filterMap fun m => m.work.input?.map PassInput.timestampMs).Pairwise (· ≤ ·)

/-- Four seconds after the foreground, the app is frozen. -/
theorem refreeze_skips_the_delay :
    ¬ ∀ config settings packageOf ms s, Run ms s →
      (config.map ManagerAppConfigRecord.uid).Nodup → SteadyRun config settings packageOf ms →
      Nondecreasing ms → ∀ pre m post, ms = pre ++ m :: post → ∀ input auditDue record,
      m.work = .record input auditDue record → (∃ call ∈ m.calls, ¬ call.Harmless) →
      0 < managerPolicyDelayMs record settings →
      ¬ AuditUntracked ⟨packageOf record.uid, record.uid⟩ m →
      Since (fun q => ∃ start, BackgroundAt record.uid start q
          ∧ start + managerPolicyDelayMs record settings ≤ input.timestampMs)
        (fun q => ¬ Interrupts record.uid q) pre := by
  intro hclaim
  have hrun : Run retriedMoments _ := StaticEnvironment.passesMoments_run .default retriedFreeze
  have hsteady : SteadyRun _ _ _ retriedMoments :=
    delayed_steady (by simp [retriedFreeze, delayedFreeze, delayedPass]) (by decide)
  have hordered : Nondecreasing retriedMoments := by
    unfold Nondecreasing
    decide
  have hacts : ∃ call ∈ retriedMoments[11].calls, ¬ call.Harmless :=
    ⟨retriedMoments[11].calls[5], List.mem_of_getElem? (i := 5) rfl, fun h => h.1 _ rfl⟩
  have haudit : ∀ i, ¬ AuditUntracked i retriedMoments[11] :=
    fun i haudited => absurd haudited.auditDue (by decide)
  have hsince := hclaim _ _ _ _ _ hrun (by decide) hsteady hordered (retriedMoments.take 11)
    retriedMoments[11] [] rfl (delayedPass [] 63000) false ⟨10123, 30, false⟩ rfl hacts (by decide)
    (haudit _)
  have hpre : retriedMoments.take 11 = (((retriedMoments.take 7 ++ [retriedMoments[7]])
      ++ [retriedMoments[8]]) ++ [retriedMoments[9]]) ++ [retriedMoments[10]] := rfl
  rw [hpre, Since.concat_iff, Since.concat_iff, Since.concat_iff, Since.concat_iff] at hsince
  -- Each earlier step either is no record of the app, or started the delay too late, or
  -- interrupted it.
  rcases hsince with ⟨start, hstart, -⟩ | ⟨⟨start, hstart, hdue⟩ | ⟨⟨start, hstart, -⟩
    | ⟨⟨start, hstart, -⟩ | ⟨-, hopened⟩, -⟩, -⟩, -⟩
  · obtain ⟨_, _, _, _, _, _, hwork, -⟩ := hstart
    cases hwork
  · -- The pass of the audit lies one second before.
    obtain ⟨_, _, _, _, _, _, hwork, -, hat, -⟩ := hstart
    cases hwork
    cases hat
    revert hdue
    decide
  · obtain ⟨_, _, _, _, _, _, hwork, -⟩ := hstart
    cases hwork
  · obtain ⟨_, _, _, _, _, _, hwork, -, -, hbackground, -⟩ := hstart
    cases hwork
    exact hbackground (by decide)
  · exact hopened (.inl (by decide))

end Freezeit
