import Freezeit.RecordSteps

/-! # Runs of the controller

    Passes, thaws of everything and status reads, in any order, from the
    default state.  `Reachable` counts calls to the controller; `Run` keeps
    the single steps of each pass, and `reachable_iff_run` says that the two
    describe the same runs. -/

namespace Freezeit

open Prog

variable {s s' : RuntimeControlState} {t : Trace} {r : Except DaemonError Unit}

/-! ## Thawing a list of identities -/

/-- The loop body of `thaw_frozen_identities`. -/
inductive ThawStep (identity : RuntimeIdentity) (s : RuntimeControlState) :
    Trace → RuntimeControlState → Prop where
  | undiscovered : ∀ (error : DaemonError) (operation : ControlOperation) (timestampMs : Nat),
      ThawStep identity s [listed identity.uid (.error error)]
        (s.pushOperation operation timestampMs)
  | exited : ThawStep identity s [listed identity.uid (.ok [])] (s.clearFrozen identity)
  | tried : ∀ {t processes outcome} (operation : ControlOperation) (timestampMs : Nat),
      processes ≠ [] →
      Exec (unfreezeIdentityProcesses identity.packageName processes
        (s.frozenOwnershipOf identity)) t outcome →
      ThawStep identity s (listed identity.uid (.ok processes) :: t)
        ((if outcome.failures.isEmpty then s.clearFrozen identity else s).pushOperation operation
          timestampMs)

/-- The thaws of a list of identities, one after the other. -/
inductive ThawSteps : List RuntimeIdentity → RuntimeControlState → Trace → RuntimeControlState →
    Prop where
  | nil : ∀ s, ThawSteps [] s [] s
  | cons : ∀ {identity rest s t₁ s₁ t₂ s₂}, ThawStep identity s t₁ s₁ → ThawSteps rest s₁ t₂ s₂ →
      ThawSteps (identity :: rest) s (t₁ ++ t₂) s₂

/-- The loop over the identities takes these steps. -/
theorem thawFrozenIdentities_steps {timestampMs : Nat} {reason : String}
    {identities : List RuntimeIdentity} {failures : List String}
    (h : Exec (thawFrozenIdentities timestampMs reason identities s failures) t (r, s')) :
    ThawSteps identities s t s' := by
  induction identities generalizing s t failures with
  | nil =>
    obtain ⟨rfl, heq⟩ := exec_pure.mp h
    obtain ⟨rfl, rfl⟩ := Prod.mk.inj heq
    exact .nil _
  | cons identity rest ih =>
    obtain ⟨answer, t₁, rfl, hrest⟩ := exec_ask_bind.mp h
    match answer with
    | .error error => exact .cons (.undiscovered error _ timestampMs) (ih hrest)
    | .ok [] => exact .cons .exited (ih hrest)
    | .ok (first :: others) =>
      obtain ⟨t₂, t₃, outcome, rfl, h₂, h₃⟩ := exec_bind.mp hrest
      exact .cons (.tried _ timestampMs (by simp) h₂) (ih h₃)

/-- `thaw_frozen_identities` reports success or failure after any steps. -/
theorem releaseProtected_steps {ctx : RecordContext}
    (h : Exec (ctx.releaseProtected s) t (r, s')) :
    ∃ s₁, ThawSteps (s.frozenApps.keys.filter (·.uid = ctx.record.uid))
        (s.clearTransientControlStateForUid ctx.record.uid) t s₁
      ∧ s' = s₁.clearDetached (s₁.detachedIdentities.filter (·.uid = ctx.record.uid)) := by
  obtain ⟨t₁, t₂, ⟨x, s₁⟩, rfl, h₁, h₂⟩ := exec_bind.mp h
  obtain ⟨rfl, heq⟩ := exec_pure.mp h₂
  obtain ⟨rfl, rfl⟩ := Prod.mk.inj heq
  rw [List.append_nil]
  exact ⟨s₁, thawFrozenIdentities_steps h₁, rfl⟩

/-- The start of a pass: what left the configuration is thawed, and what is detached of it
    is dropped. -/
theorem releaseStale_steps {input : PassInput} (h : Exec (releaseStale input s) t s') :
    ∃ s₁, ThawSteps (s.frozenApps.keys.filter fun i => i.uid ∉ controlledUids input.appConfig)
        (s.retainControlled (controlledUids input.appConfig)) t s₁
      ∧ s' = s₁.clearDetached
        (s₁.detachedIdentities.filter fun i => i.uid ∉ controlledUids input.appConfig) := by
  obtain ⟨t₁, t₂, ⟨x, s₁⟩, rfl, h₁, h₂⟩ := exec_bind.mp h
  obtain ⟨rfl, rfl⟩ := exec_pure.mp h₂
  rw [List.append_nil]
  exact ⟨s₁, thawFrozenIdentities_steps h₁, rfl⟩

/-- The thaw of all apps: every tracked identity, then everything else is emptied. -/
theorem thawAllFrozen_steps {timestampMs : Nat}
    (h : Exec (s.thawAllFrozen timestampMs) t (r, s')) :
    ∃ s₁, ThawSteps s.frozenApps.keys s t s₁ ∧ s' =
      { s₁.clearDetached s₁.detachedIdentities with
        pendingFreezes             := ∅
        networkRestrictionRequests := ∅
        blockedProcessSignatures   := ∅
        downloadDeferral           := .default } := by
  obtain ⟨t₁, t₂, ⟨x, s₁⟩, rfl, h₁, h₂⟩ := exec_bind.mp h
  obtain ⟨rfl, heq⟩ := exec_pure.mp h₂
  obtain ⟨rfl, rfl⟩ := Prod.mk.inj heq
  rw [List.append_nil]
  exact ⟨s₁, thawFrozenIdentities_steps h₁, rfl⟩

/-! ## Calls to the controller -/

/-- The states that the daemon can be in, with all calls that led there. The passes may
    have any input and any answers. -/
inductive Reachable : Trace → RuntimeControlState → Prop where
  | default : Reachable [] .default
  | pass : ∀ {past s t r s'} (input : PassInput), Reachable past s →
      Exec (runControlPass input s) t (r, s') → Reachable (past ++ t) s'
  | thawAll : ∀ {past s t r s'} (timestampMs : Nat), Reachable past s →
      Exec (s.thawAllFrozen timestampMs) t (r, s') → Reachable (past ++ t) s'
  | freezeStatus : ∀ {past s} (appConfig : List ManagerAppConfigRecord)
      (processesByUid : SortedMap Nat (List RuntimeProcess)) (foregroundUids : List Nat)
      (timestampMs : Nat), Reachable past s →
      Reachable past (s.freezeStatusRecords appConfig processesByUid foregroundUids timestampMs).2
  | takeNetworkRestrictions : ∀ {past s}, Reachable past s →
      Reachable past s.takeNetworkRestrictionUids.2
  | requeueNetworkRestriction : ∀ {past s} (uid : Nat), Reachable past s →
      Reachable past (s.requeueNetworkRestrictionUid uid)

/-! ## Single steps -/

/-- The steps that a run is made of. -/
inductive Work where
  /-- The part of a pass before its loop. -/
  | release (input : PassInput)
  /-- One record of a pass. -/
  | record (input : PassInput) (auditDue : Bool) (record : ManagerAppConfigRecord)
  /-- `thaw_all_frozen`. -/
  | thawAll
  /-- A status read, or a change of the network requests. -/
  | other

/-- One step of a run: what it was, the states around it and its calls. -/
structure Moment where
  before : RuntimeControlState
  work   : Work
  calls  : Trace
  after  : RuntimeControlState

/-- The uids in the foreground of the pass that the step belongs to. -/
def Moment.foregroundUids (m : Moment) : List Nat :=
  match m.work with
  | .release input    => input.foregroundUids
  | .record input _ _ => input.foregroundUids
  | .thawAll          => []
  | .other            => []

/-- The calls of several steps. -/
def Moment.traceOf (moments : List Moment) : Trace := moments.flatMap Moment.calls

@[simp] theorem Moment.traceOf_nil : Moment.traceOf [] = [] := rfl

@[simp] theorem Moment.traceOf_append (ms ms' : List Moment) :
    Moment.traceOf (ms ++ ms') = Moment.traceOf ms ++ Moment.traceOf ms' :=
  List.flatMap_append

@[simp] theorem Moment.traceOf_cons (m : Moment) (ms : List Moment) :
    Moment.traceOf (m :: ms) = m.calls ++ Moment.traceOf ms := rfl

/-- The loop over the records, step by step; it ends early at an error. -/
inductive RecordMoments (input : PassInput) (auditDue : Bool) :
    List ManagerAppConfigRecord → RuntimeControlState → List Moment → Except DaemonError Unit →
      RuntimeControlState → Prop where
  | nil : ∀ s, RecordMoments input auditDue [] s [] (.ok ()) s
  | failed : ∀ {record rest s t error s₁},
      Exec (controlRecord input auditDue record s) t (.error error, s₁) →
      RecordMoments input auditDue (record :: rest) s
        [⟨s, .record input auditDue record, t, s₁⟩] (.error error) s₁
  | cons : ∀ {record rest s t s₁ ms r s₂},
      Exec (controlRecord input auditDue record s) t (.ok (), s₁) →
      RecordMoments input auditDue rest s₁ ms r s₂ →
      RecordMoments input auditDue (record :: rest) s
        (⟨s, .record input auditDue record, t, s₁⟩ :: ms) r s₂

/-- The loop over the records, cut into one step for each. -/
theorem exec_controlRecords_iff {input : PassInput} {auditDue : Bool}
    {records : List ManagerAppConfigRecord} :
    Exec (controlRecords input auditDue records s) t (r, s') ↔
      ∃ ms, RecordMoments input auditDue records s ms r s' ∧ Moment.traceOf ms = t := by
  induction records generalizing s t with
  | nil =>
    constructor
    · intro h
      obtain ⟨rfl, heq⟩ := exec_pure.mp h
      obtain ⟨rfl, rfl⟩ := Prod.mk.inj heq
      exact ⟨[], .nil _, rfl⟩
    · rintro ⟨ms, h, rfl⟩
      cases h
      exact .done _
  | cons record rest ih =>
    constructor
    · intro h
      obtain ⟨t₁, t₂, ⟨r₁, s₁⟩, rfl, h₁, h₂⟩ := exec_bind.mp h
      match r₁ with
      -- The record that fails is the last one, and its moment closes the list.
      | .error error =>
        obtain ⟨rfl, heq⟩ := exec_pure.mp h₂
        obtain ⟨rfl, rfl⟩ := Prod.mk.inj heq
        exact ⟨_, .failed h₁, by simp⟩
      | .ok () =>
        obtain ⟨ms, hms, rfl⟩ := ih.mp h₂
        exact ⟨_, .cons h₁ hms, rfl⟩
    · rintro ⟨ms, h, rfl⟩
      cases h with
      | failed h₁ => exact exec_bind.mpr ⟨_, [], _, rfl, h₁, .done _⟩
      | cons h₁ hms => exact exec_bind.mpr ⟨_, _, _, rfl, h₁, ih.mpr ⟨_, hms, rfl⟩⟩

/-- A pass, step by step. -/
inductive PassMoments (input : PassInput) (s : RuntimeControlState) :
    List Moment → Except DaemonError Unit → RuntimeControlState → Prop where
  | pass : ∀ {t s₁ ms r s'}, Exec (releaseStale input s) t s₁ →
      RecordMoments input (refreezeAuditDue s₁ input.settings input.timestampMs).1 input.appConfig
        (refreezeAuditDue s₁ input.settings input.timestampMs).2 ms r s' →
      PassMoments input s
        (⟨s, .release input, t, (refreezeAuditDue s₁ input.settings input.timestampMs).2⟩ :: ms) r s'

/-- The pass, cut into its release and its records. -/
theorem exec_runControlPass_iff {input : PassInput} :
    Exec (runControlPass input s) t (r, s') ↔
      ∃ ms, PassMoments input s ms r s' ∧ Moment.traceOf ms = t := by
  constructor
  · intro h
    obtain ⟨t₁, t₂, s₁, rfl, h₁, h₂⟩ := exec_bind.mp h
    obtain ⟨ms, hms, rfl⟩ := exec_controlRecords_iff.mp h₂
    exact ⟨_, .pass h₁ hms, rfl⟩
  · rintro ⟨ms, h, rfl⟩
    cases h with
    | pass h₁ hms =>
      exact exec_bind.mpr ⟨_, _, _, rfl, h₁, exec_controlRecords_iff.mpr ⟨_, hms, rfl⟩⟩

/-- The same runs as `Reachable`, but as a list of steps, so that a property may speak of
    the steps before it. -/
inductive Run : List Moment → RuntimeControlState → Prop where
  | default : Run [] .default
  | pass : ∀ {past s ms r s'} (input : PassInput), Run past s →
      PassMoments input s ms r s' → Run (past ++ ms) s'
  | thawAll : ∀ {past s t r s'} (timestampMs : Nat), Run past s →
      Exec (s.thawAllFrozen timestampMs) t (r, s') → Run (past ++ [⟨s, .thawAll, t, s'⟩]) s'
  | freezeStatus : ∀ {past s} (appConfig : List ManagerAppConfigRecord)
      (processesByUid : SortedMap Nat (List RuntimeProcess)) (foregroundUids : List Nat)
      (timestampMs : Nat), Run past s →
      Run (past ++ [⟨s, .other, [],
        (s.freezeStatusRecords appConfig processesByUid foregroundUids timestampMs).2⟩])
        (s.freezeStatusRecords appConfig processesByUid foregroundUids timestampMs).2
  | takeNetworkRestrictions : ∀ {past s}, Run past s →
      Run (past ++ [⟨s, .other, [], s.takeNetworkRestrictionUids.2⟩]) s.takeNetworkRestrictionUids.2
  | requeueNetworkRestriction : ∀ {past s} (uid : Nat), Run past s →
      Run (past ++ [⟨s, .other, [], s.requeueNetworkRestrictionUid uid⟩])
        (s.requeueNetworkRestrictionUid uid)

/-! ## Induction over the steps of a run -/

/-- The step is one that the controller takes. -/
inductive Moment.Valid : Moment → Prop where
  | release : ∀ {s t s₁} (input : PassInput), Exec (releaseStale input s) t s₁ →
      Moment.Valid ⟨s, .release input, t, (refreezeAuditDue s₁ input.settings input.timestampMs).2⟩
  | record : ∀ {input auditDue record s t r s'}, RecordStep input auditDue record s t r s' →
      Moment.Valid ⟨s, .record input auditDue record, t, s'⟩
  | thawAll : ∀ {s t r s'} (timestampMs : Nat), Exec (s.thawAllFrozen timestampMs) t (r, s') →
      Moment.Valid ⟨s, .thawAll, t, s'⟩
  | freezeStatus : ∀ {s} (appConfig : List ManagerAppConfigRecord)
      (processesByUid : SortedMap Nat (List RuntimeProcess)) (foregroundUids : List Nat)
      (timestampMs : Nat),
      Moment.Valid ⟨s, .other, [],
        (s.freezeStatusRecords appConfig processesByUid foregroundUids timestampMs).2⟩
  | takeNetworkRestrictions : ∀ {s}, Moment.Valid ⟨s, .other, [], s.takeNetworkRestrictionUids.2⟩
  | requeueNetworkRestriction : ∀ {s} (uid : Nat),
      Moment.Valid ⟨s, .other, [], s.requeueNetworkRestrictionUid uid⟩

/-- The step, with the program that it ran. -/
inductive Moment.Exact : Moment → Prop where
  | release : ∀ {s t s₁} (input : PassInput), Exec (releaseStale input s) t s₁ →
      Moment.Exact ⟨s, .release input, t, (refreezeAuditDue s₁ input.settings input.timestampMs).2⟩
  | record : ∀ {input auditDue record s t r s'},
      Exec (controlRecord input auditDue record s) t (r, s') →
      Moment.Exact ⟨s, .record input auditDue record, t, s'⟩
  | thawAll : ∀ {s t r s'} (timestampMs : Nat), Exec (s.thawAllFrozen timestampMs) t (r, s') →
      Moment.Exact ⟨s, .thawAll, t, s'⟩
  | freezeStatus : ∀ {s} (appConfig : List ManagerAppConfigRecord)
      (processesByUid : SortedMap Nat (List RuntimeProcess)) (foregroundUids : List Nat)
      (timestampMs : Nat),
      Moment.Exact ⟨s, .other, [],
        (s.freezeStatusRecords appConfig processesByUid foregroundUids timestampMs).2⟩
  | takeNetworkRestrictions : ∀ {s}, Moment.Exact ⟨s, .other, [], s.takeNetworkRestrictionUids.2⟩
  | requeueNetworkRestriction : ∀ {s} (uid : Nat),
      Moment.Exact ⟨s, .other, [], s.requeueNetworkRestrictionUid uid⟩

/-- A step that is given by its program is a valid one. -/
theorem Moment.Exact.valid {m : Moment} (h : m.Exact) : m.Valid := by
  cases h with
  | release input hexec => exact .release input hexec
  | record hexec => exact .record (controlRecord_step hexec)
  | thawAll timestampMs hexec => exact .thawAll timestampMs hexec
  | freezeStatus appConfig processesByUid foregroundUids timestampMs =>
    exact .freezeStatus appConfig processesByUid foregroundUids timestampMs
  | takeNetworkRestrictions => exact .takeNetworkRestrictions
  | requeueNetworkRestriction uid => exact .requeueNetworkRestriction uid

/-- Each step of the loop is that of a record. -/
theorem RecordMoments.steps {input : PassInput} {auditDue : Bool}
    {records : List ManagerAppConfigRecord} {ms : List Moment}
    (h : RecordMoments input auditDue records s ms r s') {m : Moment} (hm : m ∈ ms) :
    ∃ record ∈ records, ∃ r', m.work = .record input auditDue record
      ∧ RecordStep input auditDue record m.before m.calls r' m.after := by
  induction h with
  | nil => simp at hm
  | failed hexec =>
    obtain rfl := List.mem_singleton.mp hm
    exact ⟨_, List.mem_cons_self, _, rfl, controlRecord_step hexec⟩
  | cons hexec _ ih =>
    rcases List.mem_cons.mp hm with rfl | hm
    · exact ⟨_, List.mem_cons_self, _, rfl, controlRecord_step hexec⟩
    · obtain ⟨record, hrecord, hstep⟩ := ih hm
      exact ⟨record, List.mem_cons_of_mem _ hrecord, hstep⟩

/-- A step of a pass releases what is stale, or works on one of its records. -/
theorem PassMoments.steps {input : PassInput} {ms : List Moment}
    (h : PassMoments input s ms r s') {m : Moment} (hm : m ∈ ms) :
    (∃ s₁, Exec (releaseStale input m.before) m.calls s₁ ∧ m.work = .release input
        ∧ m.after = (refreezeAuditDue s₁ input.settings input.timestampMs).2)
      ∨ ∃ auditDue, ∃ record ∈ input.appConfig, ∃ r', m.work = .record input auditDue record
        ∧ RecordStep input auditDue record m.before m.calls r' m.after := by
  cases h with
  | pass hrelease hrecords =>
    rcases List.mem_cons.mp hm with rfl | hm
    · exact .inl ⟨_, hrelease, rfl, rfl⟩
    · exact .inr ⟨_, hrecords.steps hm⟩

/-- Each step of the loop is given by its program. -/
theorem RecordMoments.exact {input : PassInput} {auditDue : Bool}
    {records : List ManagerAppConfigRecord} {ms : List Moment}
    (h : RecordMoments input auditDue records s ms r s') : ∀ m ∈ ms, m.Exact := by
  induction h with
  | nil =>
    intro m hm
    cases hm
  | failed hexec =>
    intro m hm
    rw [List.mem_singleton.mp hm]
    exact .record hexec
  | cons hexec _ ih =>
    intro m hm
    cases hm with
    | head => exact .record hexec
    | tail _ hm => exact ih m hm

/-- Each step of a pass is given by its program. -/
theorem PassMoments.exact {input : PassInput} {ms : List Moment}
    (h : PassMoments input s ms r s') : ∀ m ∈ ms, m.Exact := by
  cases h with
  | pass hrelease hrecords =>
    intro m hm
    cases hm with
    | head => exact .release input hrelease
    | tail _ hm => exact hrecords.exact m hm

/-- Each step of a pass is valid. -/
theorem PassMoments.valid {input : PassInput} {ms : List Moment}
    (h : PassMoments input s ms r s') {m : Moment} (hm : m ∈ ms) : m.Valid :=
  (h.exact m hm).valid

section induction
variable {P : List Moment → RuntimeControlState → Prop}

/-- What each step preserves, the loop preserves. -/
theorem RecordMoments.induct {input : PassInput} {auditDue : Bool}
    {records : List ManagerAppConfigRecord} {ms past : List Moment}
    (hstep : ∀ past m, P past m.before → m.Exact → P (past ++ [m]) m.after)
    (h : RecordMoments input auditDue records s ms r s') (hpast : P past s) :
    P (past ++ ms) s' := by
  induction h generalizing past with
  | nil => simpa using hpast
  | failed hexec => exact hstep past ⟨_, _, _, _⟩ hpast (.record hexec)
  | cons hexec _ ih =>
    have hnext := ih (hstep past ⟨_, _, _, _⟩ hpast (.record hexec))
    simpa using hnext

/-- What holds at the start and is kept by every step holds after every run. -/
theorem Run.induct_exact {ms : List Moment} (hstart : P [] .default)
    (hstep : ∀ past m, P past m.before → m.Exact → P (past ++ [m]) m.after)
    (h : Run ms s) : P ms s := by
  induction h with
  | default => exact hstart
  | pass input _ hms ih =>
    cases hms with
    | pass hrelease hrecords =>
      have hnext := hstep _ ⟨_, _, _, _⟩ ih (.release input hrelease)
      simpa using hrecords.induct hstep hnext
  | thawAll timestampMs _ hexec ih => exact hstep _ ⟨_, _, _, _⟩ ih (.thawAll timestampMs hexec)
  | freezeStatus appConfig processesByUid foregroundUids timestampMs _ ih =>
    exact hstep _ ⟨_, _, _, _⟩ ih (.freezeStatus appConfig processesByUid foregroundUids timestampMs)
  | takeNetworkRestrictions _ ih => exact hstep _ ⟨_, _, _, _⟩ ih .takeNetworkRestrictions
  | requeueNetworkRestriction uid _ ih =>
    exact hstep _ ⟨_, _, _, _⟩ ih (.requeueNetworkRestriction uid)

/-- The induction rule for runs: what holds at the start and is preserved by each valid
    step holds at the end. -/
theorem Run.induct {ms : List Moment} (hstart : P [] .default)
    (hstep : ∀ past m, P past m.before → m.Valid → P (past ++ [m]) m.after)
    (h : Run ms s) : P ms s :=
  h.induct_exact hstart fun past m hpast hexact => hstep past m hpast hexact.valid

/-- What every step does under an invariant, it does at every place of a run. -/
theorem Run.each_exact {Q : List Moment → Moment → Prop} {ms : List Moment} (hstart : P [] .default)
    (hstep : ∀ past m, P past m.before → m.Exact → P (past ++ [m]) m.after ∧ Q past m)
    (h : Run ms s) : P ms s ∧ ∀ pre m post, ms = pre ++ m :: post → Q pre m := by
  refine Run.induct_exact (P := fun ms s => P ms s ∧ ∀ pre m post, ms = pre ++ m :: post → Q pre m)
    ⟨hstart, by simp⟩ ?_ h
  rintro past m ⟨hpast, hall⟩ hexact
  obtain ⟨hnext, hnew⟩ := hstep past m hpast hexact
  refine ⟨hnext, fun pre m' post hsplit => ?_⟩
  rcases List.eq_nil_or_concat post with rfl | ⟨post, last, rfl⟩
  · obtain ⟨rfl, hm⟩ := List.append_inj' hsplit rfl
    cases hm
    exact hnew
  · have hassoc : pre ++ m' :: (post ++ [last]) = (pre ++ m' :: post) ++ [last] := by simp
    rw [List.concat_eq_append, hassoc] at hsplit
    obtain ⟨rfl, -⟩ := List.append_inj' hsplit rfl
    exact hall pre m' post rfl

/-- The same with a property `Q` of each step and the steps before it. -/
theorem Run.each {Q : List Moment → Moment → Prop} {ms : List Moment} (hstart : P [] .default)
    (hstep : ∀ past m, P past m.before → m.Valid → P (past ++ [m]) m.after ∧ Q past m)
    (h : Run ms s) : P ms s ∧ ∀ pre m post, ms = pre ++ m :: post → Q pre m :=
  h.each_exact hstart fun past m hpast hexact => hstep past m hpast hexact.valid

end induction

/-! ## Calls and steps describe the same runs -/

/-- Both descriptions of a run agree. -/
theorem reachable_iff_run : Reachable t s ↔ ∃ ms, Run ms s ∧ Moment.traceOf ms = t := by
  constructor
  -- Each call of the daemon becomes the steps that it is cut into.
  · intro h
    induction h with
    | default => exact ⟨[], .default, rfl⟩
    | pass input _ hexec ih =>
      obtain ⟨ms, hrun, rfl⟩ := ih
      obtain ⟨new, hnew, rfl⟩ := exec_runControlPass_iff.mp hexec
      exact ⟨_, .pass input hrun hnew, by simp⟩
    | thawAll timestampMs _ hexec ih =>
      obtain ⟨ms, hrun, rfl⟩ := ih
      exact ⟨_, .thawAll timestampMs hrun hexec, by simp⟩
    | freezeStatus appConfig processesByUid foregroundUids timestampMs _ ih =>
      obtain ⟨ms, hrun, rfl⟩ := ih
      exact ⟨_, .freezeStatus appConfig processesByUid foregroundUids timestampMs hrun, by simp⟩
    | takeNetworkRestrictions _ ih =>
      obtain ⟨ms, hrun, rfl⟩ := ih
      exact ⟨_, .takeNetworkRestrictions hrun, by simp⟩
    | requeueNetworkRestriction uid _ ih =>
      obtain ⟨ms, hrun, rfl⟩ := ih
      exact ⟨_, .requeueNetworkRestriction uid hrun, by simp⟩
  -- The steps of each call are put together again.
  · rintro ⟨ms, h, rfl⟩
    induction h with
    | default => exact .default
    | pass input _ hms ih =>
      rw [Moment.traceOf_append]
      exact .pass input ih (exec_runControlPass_iff.mpr ⟨_, hms, rfl⟩)
    | thawAll timestampMs _ hexec ih => simpa using Reachable.thawAll timestampMs ih hexec
    | freezeStatus appConfig processesByUid foregroundUids timestampMs _ ih =>
      simpa using Reachable.freezeStatus appConfig processesByUid foregroundUids timestampMs ih
    | takeNetworkRestrictions _ ih => simpa using Reachable.takeNetworkRestrictions ih
    | requeueNetworkRestriction uid _ ih =>
      simpa using Reachable.requeueNetworkRestriction uid ih

/-! ## Running a pass step by step -/

namespace StaticEnvironment

/-- The steps that the loop takes against an environment. -/
def recordMoments (environment : StaticEnvironment) (input : PassInput) (auditDue : Bool) :
    List ManagerAppConfigRecord → RuntimeControlState →
      List Moment × Except DaemonError Unit × RuntimeControlState
  | [], s => ([], .ok (), s)
  | record :: rest, s =>
    let step := run environment.answer [] (controlRecord input auditDue record s)
    let moment : Moment := ⟨s, .record input auditDue record, step.1, step.2.2⟩
    match step.2.1 with
    | .error error => ([moment], .error error, step.2.2)
    | .ok () =>
      let more := environment.recordMoments input auditDue rest step.2.2
      (moment :: more.1, more.2)

/-- The steps of a pass with fixed answers. -/
def passMoments (environment : StaticEnvironment) (input : PassInput) (s : RuntimeControlState) :
    List Moment × Except DaemonError Unit × RuntimeControlState :=
  let released := run environment.answer [] (releaseStale input s)
  let audit := refreezeAuditDue released.2 input.settings input.timestampMs
  let more := environment.recordMoments input audit.1 input.appConfig audit.2
  (⟨s, .release input, released.1, audit.2⟩ :: more.1, more.2)

/-- They are steps of the loop over the records. -/
theorem recordMoments_spec (environment : StaticEnvironment) (input : PassInput) (auditDue : Bool)
    (records : List ManagerAppConfigRecord) (s : RuntimeControlState) :
    RecordMoments input auditDue records s (environment.recordMoments input auditDue records s).1
      (environment.recordMoments input auditDue records s).2.1
      (environment.recordMoments input auditDue records s).2.2 := by
  induction records generalizing s with
  | nil => exact .nil s
  | cons record rest ih =>
    have hexec := exec_run environment.answer [] (controlRecord input auditDue record s)
    unfold recordMoments
    dsimp only
    generalize run environment.answer [] (controlRecord input auditDue record s) = step at hexec
    obtain ⟨t, result, s₁⟩ := step
    match result with
    | .error error => exact .failed hexec
    | .ok () => exact .cons hexec (ih s₁)

/-- They are steps of the pass. -/
theorem passMoments_spec (environment : StaticEnvironment) (input : PassInput)
    (s : RuntimeControlState) :
    PassMoments input s (environment.passMoments input s).1 (environment.passMoments input s).2.1
      (environment.passMoments input s).2.2 :=
  .pass (exec_run _ _ _) (environment.recordMoments_spec _ _ _ _)

/-- A pass leaves what its loop leaves, once the audit is settled. -/
theorem passMoments_after {environment : StaticEnvironment} {input : PassInput}
    {s s₁ : RuntimeControlState} {auditDue : Bool}
    (h : refreezeAuditDue (run environment.answer [] (releaseStale input s)).2 input.settings
      input.timestampMs = (auditDue, s₁)) :
    (environment.passMoments input s).2.2
      = (environment.recordMoments input auditDue input.appConfig s₁).2.2 := by
  unfold passMoments
  dsimp only
  rw [h]

/-- The steps of one pass after another, each against its own environment. -/
def passesMoments : List (StaticEnvironment × PassInput) → RuntimeControlState →
    List Moment × RuntimeControlState
  | [], s => ([], s)
  | (environment, input) :: rest, s =>
    let pass := environment.passMoments input s
    let more := passesMoments rest pass.2.2
    (pass.1 ++ more.1, more.2)

/-- Several passes are a run. -/
theorem passesMoments_run {past : List Moment} (h : Run past s)
    (passes : List (StaticEnvironment × PassInput)) :
    Run (past ++ (passesMoments passes s).1) (passesMoments passes s).2 := by
  induction passes generalizing past s with
  | nil => simpa [passesMoments] using h
  | cons pass rest ih =>
    obtain ⟨environment, input⟩ := pass
    have hpass := ih (.pass input h (environment.passMoments_spec input s))
    simpa [passesMoments] using hpass

end StaticEnvironment

/-! ## A sample pass

    One record, one process: what the results below are tried on. -/

/-- A pass over one app in a given mode. -/
def samplePass (mode : Int) : PassInput where
  appConfig      := [⟨10123, mode, false⟩]
  settings       := []
  foregroundUids := []
  timestampMs    := 1000

/-- Its process. -/
def sampleProcess : RuntimeProcess := backgroundProcess "com.example.app" 10123 501

/-- Discovery finds that process, and everything succeeds. -/
def sampleEnvironment : StaticEnvironment where
  discover uid := .ok (if uid = 10123 then [sampleProcess] else [])

/-- A process in the middle of a Binder transaction. -/
def busyProcess : RuntimeProcess :=
  { sampleProcess with binderState := some "binder_queue active_sync_transaction" }

/-- Discovery finds a process that takes part in a binder transaction. -/
def busyEnvironment : StaticEnvironment where
  discover _ := .ok [busyProcess]

end Freezeit
