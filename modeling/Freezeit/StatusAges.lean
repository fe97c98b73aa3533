import Freezeit.FreezeDelayRuns

/-! # The ages that the status rows show

    `freeze_status_records` keeps, for each uid, the state it last showed and
    since when.  A pending freeze skips that bookkeeping: the row of the uid
    counts down to the due time instead. -/

namespace Freezeit

open Prog

variable {ctx : RecordContext} {s s' : RuntimeControlState} {t : Trace}
  {r : Except DaemonError Unit} {uid : Nat}

/-! ## Passes -/

/-- The step changes no start, though it may forget one. -/
def KeepsStarts (s s' : RuntimeControlState) : Prop :=
  ∀ uid start, s'.statusSinceMs.get? uid = some start → s.statusSinceMs.get? uid = some start

namespace KeepsStarts

variable {s'' : RuntimeControlState}

theorem of_eq (h : s'.statusSinceMs = s.statusSinceMs) : KeepsStarts s s' := by
  intro uid start hget
  rw [h] at hget
  exact hget

theorem trans (h : KeepsStarts s s') (h' : KeepsStarts s' s'') : KeepsStarts s s'' :=
  fun uid start hget => h uid start (h' uid start hget)

/-- Clearing a uid forgets its start and keeps the others. -/
theorem clearTransient (s : RuntimeControlState) (uid : Nat) :
    KeepsStarts s (s.clearTransientControlStateForUid uid) := by
  intro uid' start hget
  rw [RuntimeControlState.clearTransientControlStateForUid_statusSinceMs] at hget
  by_cases huid : uid' = uid
  · rw [SortedMap.get?_erase, if_pos huid] at hget
    cases hget
  · rw [SortedMap.get?_erase_ne _ huid] at hget
    exact hget

/-- A uid that left the configuration loses its start, and the others keep theirs. -/
theorem retainControlled (s : RuntimeControlState) (controlled : SortedSet Nat) :
    KeepsStarts s (s.retainControlled controlled) := by
  intro uid start hget
  change (s.statusSinceMs.retain _).get? uid = some start at hget
  rw [SortedMap.get?_retain] at hget
  exact (Option.filter_eq_some_iff.mp hget).1

/-- Tracking residual processes is not part of the status. -/
theorem trackResidual (ctx : RecordContext) (residual : Bool) (s : RuntimeControlState) :
    (ctx.trackResidual residual s).statusSinceMs = s.statusSinceMs := by
  cases residual with
  | false => rfl
  | true  => rfl

end KeepsStarts

/-- A decision does not touch the start times. -/
theorem DecisionStep.statusSinceMs {decision : FreezeDecision}
    (h : DecisionStep ctx decision s t r s') : s'.statusSinceMs = s.statusSinceMs := by
  cases h with
  | idle => rfl
  | fallbackStopped => exact KeepsStarts.trackResidual ctx _ _
  | fallbackFailed =>
    exact (KeepsStarts.trackResidual ctx _ _).trans (KeepsStarts.trackResidual ctx _ _)
  | rescanFailed => rfl
  | frozen => rfl
  -- The timer of the status belongs to reports, and no decision writes it.
  | @rescanThawed _ _ _ _ rollback =>
    by_cases hfailures : rollback.failures.isEmpty = true
    · simp only [hfailures, if_true]
      rfl
    · simp only [hfailures]
      rfl
  | stopped => rfl
  | stopFailed => exact KeepsStarts.trackResidual ctx _ _
  | terminated => rfl
  | terminateFailed => rfl

/-- The background branch does not touch the start times. -/
theorem BackgroundBranch.statusSinceMs {abnormalThaw : Bool}
    (h : BackgroundBranch ctx abnormalThaw s t r s') : s'.statusSinceMs = s.statusSinceMs := by
  cases h with
  | delayed hdelay =>
    obtain ⟨-, -, ⟨_, -, -, rfl⟩ | ⟨-, _, rfl⟩⟩ := postponeForDelay_eq_some hdelay
    · rfl
    · rfl
  | downloading =>
    obtain ⟨operations, next, heq⟩ := postponeDownload_eq ctx _ _
    rw [heq]
    rfl
  | quiet _ _ _ hdecision => exact hdecision.statusSinceMs
  | unsampled _ _ hdecision => exact hdecision.statusSinceMs

/-- Clearing the markers of a record does not touch the start times. -/
theorem Cleared.statusSinceMs {s₀ : RuntimeControlState} (h : Cleared ctx s s₀) :
    s₀.statusSinceMs = s.statusSinceMs := by
  cases h.unblocked.2 with
  | inl heq => rw [heq]
  | inr heq =>
    rw [heq]
    rfl

/-- Thaws do not touch the start times. -/
theorem ThawSteps.statusSinceMs {identities : List RuntimeIdentity}
    (h : ThawSteps identities s t s') : s'.statusSinceMs = s.statusSinceMs := by
  obtain ⟨_, _, _, _, _, rfl, -⟩ := h.exists_eq
  rfl

/-- Dropping detached ownership does not touch the start times. -/
theorem clearDetached_statusSinceMs (s : RuntimeControlState) (identities : List RuntimeIdentity) :
    (s.clearDetached identities).statusSinceMs = s.statusSinceMs := by
  rw [RuntimeControlState.clearDetached_eq]

/-- An app that exited loses at most its start. -/
theorem clearExited_keepsStarts (s : RuntimeControlState) (uid : Nat) :
    KeepsStarts s (s.clearExited uid) := by
  apply (KeepsStarts.clearTransient s uid).trans
  unfold RuntimeControlState.clearExited
  dsimp only
  rw [RuntimeControlState.clearFrozenAll_eq]
  exact .of_eq rfl

/-- The same for a protected app. -/
theorem releaseProtected_keepsStarts (h : Exec (ctx.releaseProtected s) t (r, s')) :
    KeepsStarts s s' := by
  obtain ⟨s₁, hsteps, rfl⟩ := releaseProtected_steps h
  apply (KeepsStarts.clearTransient s ctx.record.uid).trans
  apply KeepsStarts.of_eq
  rw [clearDetached_statusSinceMs, hsteps.statusSinceMs]

/-- A record forgets starts or keeps them; it never sets one. -/
theorem RecordBranch.keepsStarts {auditDue : Bool} (h : RecordBranch ctx auditDue s t r s') :
    KeepsStarts s s' := by
  cases h with
  | protectedApp _ hexec => exact releaseProtected_keepsStarts hexec
  | blocked => exact .of_eq rfl
  | @foreground s₀ _ _ _ _ hcleared _ hexec =>
    apply KeepsStarts.of_eq
    rw [← hcleared.statusSinceMs]
    obtain ⟨-, ⟨-, -, rfl⟩ | ⟨-, outcome, operation, -, rfl⟩⟩ := thawForeground_spec hexec
    · rfl
    · split
      · rfl
      · rfl
  | @wakeup s₀ _ _ _ _ hcleared _ _ _ hexec =>
    apply KeepsStarts.of_eq
    rw [← hcleared.statusSinceMs]
    obtain ⟨-, outcome, operation, -, rfl⟩ := wakeUp_spec hexec
    split
    · rfl
    · rfl
  | kept _ hcleared => exact .of_eq hcleared.statusSinceMs
  | @audited s₀ _ _ _ hcleared _ hbranch =>
    have hmarked : (s₀.markAbnormalThawForRefreeze ctx.identity).statusSinceMs = s₀.statusSinceMs :=
      rfl
    exact .of_eq (hbranch.statusSinceMs.trans (hmarked.trans hcleared.statusSinceMs))
  | background _ hcleared _ _ hbranch =>
    exact .of_eq (hbranch.statusSinceMs.trans hcleared.statusSinceMs)

/-- A record with the listing of its processes sets no start. -/
theorem RecordRun.keepsStarts {input : PassInput} {auditDue : Bool} {record : ManagerAppConfigRecord}
    (h : RecordRun input auditDue record s t r s') : KeepsStarts s s' := by
  cases h with
  | uncontrolled => exact .of_eq rfl
  | undiscovered => exact .of_eq rfl
  | exited => exact clearExited_keepsStarts s record.uid
  | occupied _ _ _ hbranch => exact hbranch.keepsStarts

/-- The records of a pass set no start. -/
theorem RecordMoments.keepsStarts {input : PassInput} {auditDue : Bool}
    {records : List ManagerAppConfigRecord} {ms : List Moment}
    (h : RecordMoments input auditDue records s ms r s') : KeepsStarts s s' := by
  induction h with
  | nil => exact .of_eq rfl
  | failed hexec => exact (controlRecord_run hexec).keepsStarts
  | cons hexec _ ih => exact (controlRecord_run hexec).keepsStarts.trans ih

/-- No pass changes a start; it can only drop those of apps that are no longer controlled. -/
theorem runControlPass_keepsStarts {input : PassInput}
    (h : Exec (runControlPass input s) t (r, s')) : KeepsStarts s s' := by
  obtain ⟨ms, hpass, -⟩ := exec_runControlPass_iff.mp h
  cases hpass with
  | @pass _ s₁ _ _ _ hrelease hrecords =>
    obtain ⟨s₂, hsteps, rfl⟩ := releaseStale_steps hrelease
    have hstale : KeepsStarts s (s₂.clearDetached
        (s₂.detachedIdentities.filter fun i => i.uid ∉ controlledUids input.appConfig)) := by
      apply (KeepsStarts.retainControlled s (controlledUids input.appConfig)).trans
      apply KeepsStarts.of_eq
      rw [clearDetached_statusSinceMs, hsteps.statusSinceMs]
    have haudit : ∀ s₀ : RuntimeControlState,
        (refreezeAuditDue s₀ input.settings input.timestampMs).2.statusSinceMs
          = s₀.statusSinceMs := by
      intro s₀
      obtain ⟨startedAt, next, heq⟩ :=
        refreezeAuditDue_eq s₀ input.settings input.timestampMs
      rw [heq]
    exact hstale.trans ((KeepsStarts.of_eq (haudit _)).trans hrecords.keepsStarts)

/-! ## A status call -/

/-- A call of `freeze_status_records`, with the state before it. -/
structure StatusCall where
  before         : RuntimeControlState
  appConfig      : List ManagerAppConfigRecord
  processesByUid : SortedMap Nat (List RuntimeProcess)
  foregroundUids : List Nat
  timestampMs    : Nat

namespace StatusCall

variable (c : StatusCall)

/-- The rows that the call shows. -/
def rows : List ManagerFreezeStatusRecord :=
  (c.before.freezeStatusRecords c.appConfig c.processesByUid c.foregroundUids c.timestampMs).1

/-- The state that the call leaves. -/
def after : RuntimeControlState :=
  (c.before.freezeStatusRecords c.appConfig c.processesByUid c.foregroundUids c.timestampMs).2

/-- The uids with a tracked app. -/
def frozenUids : SortedSet Nat :=
  c.before.frozenApps.keys.foldl (fun uids i => uids.insert i.uid ()) (∅ : SortedSet Nat)

/-- When the earliest pending freeze of the uid is due. -/
def due (uid : Nat) : Option Nat := c.before.pendingByUid.get? uid

/-- An app that has no process, is not open, does not wait and is not tracked has no row. -/
def hidden (uid : Nat) : Bool :=
  ((c.processesByUid.get? uid).getD []).isEmpty && !c.foregroundUids.contains uid
    && (c.due uid).isNone && !c.frozenUids.contains uid

/-- The state that a row of the uid shows. -/
def stateOf (uid : Nat) : Int :=
  if c.foregroundUids.contains uid then RuntimeControlState.stateForeground
  else if (c.due uid).isSome then RuntimeControlState.statePending
  else if c.frozenUids.contains uid then RuntimeControlState.stateFrozen
  else RuntimeControlState.stateRunningBackground

/-- The call has a row of the uid. -/
def Shows (configs : List ManagerAppConfigRecord) (uid : Nat) : Prop :=
  ∃ config ∈ configs, isControlPolicyMode config.mode = true ∧ config.uid = uid
    ∧ c.hidden uid = false

/-- Since when the uid is in its state, by the bookkeeping. -/
def startOf (since : SortedMap Nat (Int × Nat)) (uid : Nat) : Nat :=
  match since.get? uid with
  | some (previousState, start) => if previousState = c.stateOf uid then start else c.timestampMs
  | none => c.timestampMs

/-- The loop over the configuration, from given start times. -/
def loop (configs : List ManagerAppConfigRecord) (since : SortedMap Nat (Int × Nat)) :
    List ManagerFreezeStatusRecord × SortedSet Nat × SortedMap Nat (Int × Nat) :=
  RuntimeControlState.freezeStatusLoop c.before.pendingByUid c.frozenUids c.processesByUid
    c.foregroundUids c.timestampMs configs since

/-- The row of a uid with the seconds that it shows. -/
def row (uid seconds : Nat) : ManagerFreezeStatusRecord :=
  ⟨uid, c.foregroundUids.contains uid, c.stateOf uid, seconds,
    min ((c.processesByUid.get? uid).getD []).length i32Max⟩

/-- A record without a row is passed over. -/
theorem loop_cons_hidden {config : ManagerAppConfigRecord} {rest : List ManagerAppConfigRecord}
    {since : SortedMap Nat (Int × Nat)}
    (h : ¬ (isControlPolicyMode config.mode = true ∧ c.hidden config.uid = false)) :
    c.loop (config :: rest) since = c.loop rest since := by
  unfold loop
  rw [RuntimeControlState.freezeStatusLoop]
  dsimp only
  by_cases hmode : isControlPolicyMode config.mode = true
  · have hhidden : c.hidden config.uid = true := by
      cases hcase : c.hidden config.uid with
      | true => rfl
      | false => exact absurd ⟨hmode, hcase⟩ h
    rw [if_neg (by simp [hmode])]
    exact if_pos hhidden
  · rw [if_pos (by simp [hmode])]

/-- A waiting app shows what is left of its delay, and its start is forgotten. -/
theorem loop_cons_due {config : ManagerAppConfigRecord} {rest : List ManagerAppConfigRecord}
    {since : SortedMap Nat (Int × Nat)} {dueAtMs : Nat}
    (hmode : isControlPolicyMode config.mode = true) (hshown : c.hidden config.uid = false)
    (hdue : c.due config.uid = some dueAtMs) :
    c.loop (config :: rest) since =
      (c.row config.uid (min ((dueAtMs - c.timestampMs + 999) / 1000) i32Max)
          :: (c.loop rest since).1,
        (c.loop rest since).2.1.insert config.uid (), (c.loop rest since).2.2) := by
  unfold loop
  rw [RuntimeControlState.freezeStatusLoop]
  dsimp only
  rw [if_neg (by simp [hmode]), if_neg (by rw [Bool.not_eq_true]; exact hshown)]
  have hdue' : c.before.pendingByUid.get? config.uid = some dueAtMs := hdue
  rw [hdue']
  dsimp only
  unfold row stateOf due
  rw [hdue']

/-- Any other app shows the age of its state, from the start that is kept or set now. -/
theorem loop_cons_start {config : ManagerAppConfigRecord} {rest : List ManagerAppConfigRecord}
    {since : SortedMap Nat (Int × Nat)}
    (hmode : isControlPolicyMode config.mode = true) (hshown : c.hidden config.uid = false)
    (hdue : c.due config.uid = none) :
    c.loop (config :: rest) since =
      let since' := since.insert config.uid (c.stateOf config.uid, c.startOf since config.uid)
      (c.row config.uid (min ((c.timestampMs - c.startOf since config.uid) / 1000) i32Max)
          :: (c.loop rest since').1,
        (c.loop rest since').2.1.insert config.uid (), (c.loop rest since').2.2) := by
  unfold loop
  rw [RuntimeControlState.freezeStatusLoop]
  dsimp only
  rw [if_neg (by simp [hmode]), if_neg (by rw [Bool.not_eq_true]; exact hshown)]
  have hdue' : c.before.pendingByUid.get? config.uid = none := hdue
  rw [hdue']
  dsimp only
  unfold row startOf stateOf due
  rewrite [hdue']
  rfl

/-- The start of a uid stays the same when it is written down. -/
theorem startOf_insert (since : SortedMap Nat (Int × Nat)) (uid uid' : Nat) :
    c.startOf (since.insert uid (c.stateOf uid, c.startOf since uid)) uid' = c.startOf since uid' := by
  by_cases huid : uid = uid'
  · subst huid
    have hget : (since.insert uid (c.stateOf uid, c.startOf since uid)).get? uid
        = some (c.stateOf uid, c.startOf since uid) := SortedMap.get?_insert_self _ _ _
    conv_lhs => rw [startOf, hget]
    dsimp only
    rw [if_pos rfl]
  · unfold startOf
    rw [SortedMap.get?_insert_ne _ _ huid]

/-- A row shows the state of its uid, and its age unless a freeze is pending, when it
    shows how long the freeze still has to wait. -/
structure RowOk (since : SortedMap Nat (Int × Nat)) (row : ManagerFreezeStatusRecord) : Prop where
  state   : row.state = c.stateOf row.uid
  seconds : c.due row.uid = none →
    row.seconds = (min ((c.timestampMs - c.startOf since row.uid) / 1000) i32Max : Nat)

/-- What the loop returns. -/
structure LoopOk (configs : List ManagerAppConfigRecord) (since : SortedMap Nat (Int × Nat)) :
    Prop where
  rows    : ∀ row ∈ (c.loop configs since).1, c.Shows configs row.uid ∧ c.RowOk since row
  shown   : ∀ uid, c.Shows configs uid → ∃ row ∈ (c.loop configs since).1, row.uid = uid
  visible : ∀ uid, uid ∈ (c.loop configs since).2.1 ↔ c.Shows configs uid
  starts  : ∀ uid, c.Shows configs uid → c.due uid = none →
    (c.loop configs since).2.2.get? uid = some (c.stateOf uid, c.startOf since uid)
  skipped : ∀ uid, ¬ c.Shows configs uid ∨ c.due uid ≠ none →
    (c.loop configs since).2.2.get? uid = since.get? uid

variable {c}

/-- A uid is shown for the first record or for a later one. -/
theorem shows_cons {config : ManagerAppConfigRecord} {rest : List ManagerAppConfigRecord}
    {uid : Nat} : c.Shows (config :: rest) uid ↔
      (isControlPolicyMode config.mode = true ∧ config.uid = uid ∧ c.hidden config.uid = false)
        ∨ c.Shows rest uid := by
  unfold Shows
  constructor
  · intro ⟨config', hmem, hmode, huid, hshown⟩
    cases hmem with
    | head => exact .inl ⟨hmode, huid, by rw [huid]; exact hshown⟩
    | tail _ hmem => exact .inr ⟨config', hmem, hmode, huid, hshown⟩
  · intro h
    cases h with
    | inl h =>
      obtain ⟨hmode, huid, hshown⟩ := h
      exact ⟨config, List.mem_cons_self, hmode, huid, by rw [← huid]; exact hshown⟩
    | inr h =>
      obtain ⟨config', hmem, hrest⟩ := h
      exact ⟨config', List.mem_cons_of_mem _ hmem, hrest⟩

/-- What a row says about its app depends on the start of that app alone. -/
theorem RowOk.congr {since since' : SortedMap Nat (Int × Nat)} {row : ManagerFreezeStatusRecord}
    (h : c.RowOk since row) (hstart : c.startOf since' row.uid = c.startOf since row.uid) :
    c.RowOk since' row := ⟨h.state, by rw [hstart]; exact h.seconds⟩

/-- Every row of the loop is right, every shown app has a row, and its start is what the
    row counts from. This is one induction for all rows, whatever the order of the
    configuration. -/
theorem loopOk (configs : List ManagerAppConfigRecord) (since : SortedMap Nat (Int × Nat)) :
    c.LoopOk configs since := by
  -- Over the records, with the start times as they are changed by the earlier ones.
  induction configs generalizing since with
  | nil =>
    refine ⟨nofun, ?_, ?_, ?_, ?_⟩
    · intro uid ⟨config, hmem, _⟩
      cases hmem
    · intro uid
      constructor
      · intro hmem
        exact absurd hmem (SortedMap.not_mem_empty _)
      · intro ⟨config, hmem, _⟩
        cases hmem
    · intro uid ⟨config, hmem, _⟩
      cases hmem
    · intro uid _
      rfl
  | cons config rest ih =>
    by_cases hshown : isControlPolicyMode config.mode = true ∧ c.hidden config.uid = false
    · obtain ⟨hmode, hvisible⟩ := hshown
      have hself : c.Shows (config :: rest) config.uid := shows_cons.mpr (.inl ⟨hmode, rfl, hvisible⟩)
      have hmore : ∀ {uid}, c.Shows rest uid → c.Shows (config :: rest) uid :=
        fun h => shows_cons.mpr (.inr h)
      cases hdue : c.due config.uid with
      -- The app waits for its freeze, so its row shows the time that is left.
      | some dueAtMs =>
        have hrest := ih since
        have heq : c.loop (config :: rest) since = _ := c.loop_cons_due hmode hvisible hdue
        refine ⟨?_, ?_, ?_, ?_, ?_⟩
        · rw [heq]
          intro row hrow
          cases hrow with
          | head => exact ⟨hself, rfl, fun hnone => absurd (hdue.symm.trans hnone) nofun⟩
          | tail _ hrow => exact ⟨hmore (hrest.rows row hrow).1, (hrest.rows row hrow).2⟩
        · rw [heq]
          intro uid h
          rcases shows_cons.mp h with ⟨-, huid, -⟩ | h
          · exact ⟨_, List.mem_cons_self, huid⟩
          · obtain ⟨row, hrow, huid⟩ := hrest.shown uid h
            exact ⟨row, List.mem_cons_of_mem _ hrow, huid⟩
        · rw [heq]
          intro uid
          rw [SortedMap.mem_insert, hrest.visible, shows_cons]
          simp [hmode, hvisible, eq_comm]
        · rw [heq]
          intro uid h hnone
          rcases shows_cons.mp h with ⟨-, rfl, -⟩ | h
          · rw [hdue] at hnone
            cases hnone
          · exact hrest.starts uid h hnone
        · rw [heq]
          intro uid h
          apply hrest.skipped
          exact h.imp_left fun hnot hshows => hnot (hmore hshows)
      -- The row shows a state with an age, and its start is kept for the records to come.
      | none =>
        have hrest := ih (since.insert config.uid (c.stateOf config.uid, c.startOf since config.uid))
        have hstart := c.startOf_insert since config.uid
        have heq : c.loop (config :: rest) since = _ := c.loop_cons_start hmode hvisible hdue
        dsimp only at heq
        refine ⟨?_, ?_, ?_, ?_, ?_⟩
        · rw [heq]
          intro row hrow
          cases hrow with
          | head => exact ⟨hself, rfl, fun _ => rfl⟩
          | tail _ hrow =>
            obtain ⟨hshows, hok⟩ := hrest.rows row hrow
            exact ⟨hmore hshows, hok.congr (hstart _).symm⟩
        · rw [heq]
          intro uid h
          rcases shows_cons.mp h with ⟨-, huid, -⟩ | h
          · exact ⟨_, List.mem_cons_self, huid⟩
          · obtain ⟨row, hrow, huid⟩ := hrest.shown uid h
            exact ⟨row, List.mem_cons_of_mem _ hrow, huid⟩
        · rw [heq]
          intro uid
          rw [SortedMap.mem_insert, hrest.visible, shows_cons]
          simp [hmode, hvisible, eq_comm]
        · rw [heq]
          intro uid h hnone
          dsimp only
          by_cases hrests : c.Shows rest uid
          · rw [hrest.starts uid hrests hnone, hstart]
          · rw [hrest.skipped uid (.inl hrests)]
            rcases shows_cons.mp h with ⟨-, rfl, -⟩ | h
            · exact SortedMap.get?_insert_self _ _ _
            · exact absurd h hrests
        · rw [heq]
          intro uid h
          dsimp only
          have hne : config.uid ≠ uid := by
            rintro rfl
            rcases h with hnot | hsome
            · exact hnot hself
            · exact hsome hdue
          rw [hrest.skipped uid (h.imp_left fun hnot hshows => hnot (hmore hshows)),
            SortedMap.get?_insert_ne _ _ hne]
    -- The record gets no row.
    · have hrest := ih since
      have heq : c.loop (config :: rest) since = _ := c.loop_cons_hidden hshown
      have hiff : ∀ uid, c.Shows (config :: rest) uid ↔ c.Shows rest uid := by
        intro uid
        rw [shows_cons]
        constructor
        · intro h
          rcases h with ⟨hmode, -, hvisible⟩ | h
          · exact absurd ⟨hmode, hvisible⟩ hshown
          · exact h
        · exact .inr
      refine ⟨?_, ?_, ?_, ?_, ?_⟩
      · intro row hrow
        rw [heq] at hrow
        rw [hiff]
        exact hrest.rows row hrow
      · intro uid h
        rw [heq]
        exact hrest.shown uid ((hiff uid).mp h)
      · intro uid
        rw [heq, hiff]
        exact hrest.visible uid
      · intro uid h
        rw [heq]
        exact hrest.starts uid ((hiff uid).mp h)
      · intro uid h
        rw [heq]
        rw [hiff] at h
        exact hrest.skipped uid h

/-- The rows are those of the loop, sorted. -/
theorem rows_eq : c.rows
    = RuntimeControlState.sortFreezeStatus (c.loop c.appConfig c.before.statusSinceMs).1 := rfl

/-- The starts that stay are those of the loop for the uids that were reported. -/
theorem after_statusSinceMs : c.after.statusSinceMs
    = (c.loop c.appConfig c.before.statusSinceMs).2.2.retain fun uid _ =>
      (c.loop c.appConfig c.before.statusSinceMs).2.1.contains uid := rfl

/-- Sorting loses no row. -/
theorem mem_rows {row : ManagerFreezeStatusRecord} :
    row ∈ c.rows ↔ row ∈ (c.loop c.appConfig c.before.statusSinceMs).1 := by
  rw [rows_eq]
  exact (List.perm_insertionSort _ _).mem_iff

/-! ## What a call reports -/

/-- The call has a row that shows the uid in this state. -/
def reports (c : StatusCall) (uid : Nat) (state : Int) : Bool :=
  c.rows.any fun row => row.uid = uid && row.state = state

/-- A call reports a state for a uid if it shows the uid in that state. -/
theorem reports_iff {uid : Nat} {state : Int} :
    c.reports uid state = true ↔ c.Shows c.appConfig uid ∧ c.stateOf uid = state := by
  have hok := loopOk (c := c) c.appConfig c.before.statusSinceMs
  unfold reports
  rw [List.any_eq_true]
  constructor
  · intro ⟨row, hrow, hmatch⟩
    rw [Bool.and_eq_true, decide_eq_true_eq, decide_eq_true_eq] at hmatch
    obtain ⟨hshows, hrowOk⟩ := hok.rows row (mem_rows.mp hrow)
    rw [hmatch.1] at hshows
    refine ⟨hshows, ?_⟩
    rw [← hmatch.2, hrowOk.state, hmatch.1]
  · intro ⟨hshows, hstate⟩
    obtain ⟨row, hrow, huid⟩ := hok.shown uid hshows
    refine ⟨row, mem_rows.mpr hrow, ?_⟩
    rw [Bool.and_eq_true, decide_eq_true_eq, decide_eq_true_eq]
    refine ⟨huid, ?_⟩
    rw [(hok.rows row hrow).2.state, huid, hstate]

/-- A start that the call leaves behind. -/
theorem get?_after {uid : Nat} {state : Int} {start : Nat}
    (h : c.after.statusSinceMs.get? uid = some (state, start))
    (hreports : c.reports uid state = true) (hdue : c.due uid = none) :
    start = c.startOf c.before.statusSinceMs uid := by
  have hok := loopOk (c := c) c.appConfig c.before.statusSinceMs
  rw [after_statusSinceMs, SortedMap.get?_retain] at h
  have hstart := hok.starts uid (reports_iff.mp hreports).1 hdue
  have hget := (Option.filter_eq_some_iff.mp h).1
  rw [hstart] at hget
  exact (congrArg Prod.snd (Option.some.inj hget)).symm

end StatusCall

/-! ## Runs -/

/-- Control passes and status calls at times that do not decrease. -/
inductive StatusRun : List StatusCall → RuntimeControlState → Prop where
  | default : StatusRun [] .default
  | pass : ∀ {calls s t r s'} (input : PassInput), StatusRun calls s →
      Exec (runControlPass input s) t (r, s') → StatusRun calls s'
  | status : ∀ {calls s} (c : StatusCall), StatusRun calls s → c.before = s →
      (∀ d ∈ calls, d.timestampMs ≤ c.timestampMs) → StatusRun (calls ++ [c]) c.after

/-- The time of the first call of the uninterrupted run of calls, up to `c`, that
    report the uid in this state. -/
def runStart (past : List StatusCall) (c : StatusCall) (uid : Nat) (state : Int) : Nat :=
  (((past.reverse.takeWhile fun d => d.reports uid state).getLast?).getD c).timestampMs

/-- Every row without a countdown shows how long its uid has been in its state. -/
def AgesShown (past : List StatusCall) (c : StatusCall) : Prop :=
  ∀ row ∈ c.rows, row.state ≠ RuntimeControlState.statePending →
    row.seconds
      = (min ((c.timestampMs - runStart past c row.uid row.state) / 1000) i32Max : Nat)

/-- The bookkeeping agrees with the calls: no freeze of the uid is pending, and a
    start is kept for its state exactly when the last call reported that state. -/
def Tracked (past : List StatusCall) (c : StatusCall) : Prop :=
  ∀ uid state, c.reports uid state = true → state ≠ RuntimeControlState.statePending →
    c.due uid = none ∧ ((∃ d ∈ past.getLast?, d.reports uid state = true) ↔
      ∃ start, c.before.statusSinceMs.get? uid = some (state, start))

/-- One more call continues the run of equal reports, or ends it. The induction over a run
    goes from call to call by this. -/
theorem runStart_concat (past : List StatusCall) (d c : StatusCall) (uid : Nat) (state : Int) :
    runStart (past ++ [d]) c uid state =
      if d.reports uid state = true then runStart past d uid state else c.timestampMs := by
  unfold runStart
  rw [List.reverse_append, List.reverse_singleton, List.singleton_append, List.takeWhile_cons]
  split
  · rw [List.getLast?_cons, Option.getD_some]
  · rfl

/-- A start that is kept for the state of the last call is where its run began. This is
    what a pass must not disturb, and what the next call relies on. -/
def StartsOk (calls : List StatusCall) (s : RuntimeControlState) : Prop :=
  ∀ uid state start past d, state ≠ RuntimeControlState.statePending →
    s.statusSinceMs.get? uid = some (state, start) → calls = past ++ [d] →
    d.reports uid state = true → start = runStart past d uid state

/-- Between two calls starts may be forgotten, but not changed. -/
theorem StartsOk.keepsStarts {calls : List StatusCall} (h : StartsOk calls s)
    (hkeeps : KeepsStarts s s') : StartsOk calls s' := by
  intro uid state start past d hstate hget
  exact h uid state start past d hstate (hkeeps uid (state, start) hget)

/-- The start of a row that is tracked is where its run began. -/
theorem startOf_eq_runStart {calls : List StatusCall} {c : StatusCall}
    (h : StartsOk calls c.before) (htracked : Tracked calls c) {uid : Nat} {state : Int}
    (hreports : c.reports uid state = true)
    (hstate : state ≠ RuntimeControlState.statePending) :
    c.startOf c.before.statusSinceMs uid = runStart calls c uid state := by
  obtain ⟨-, hlast⟩ := htracked uid state hreports hstate
  have hshown := (StatusCall.reports_iff.mp hreports).2
  unfold StatusCall.startOf
  -- Either the start was kept with the same state, and then the last call showed that
  -- state, or the state is new and its run begins now.
  by_cases hkept : ∃ start, c.before.statusSinceMs.get? uid = some (state, start)
  · obtain ⟨d, hd, hdreports⟩ := hlast.mpr hkept
    obtain ⟨start, hget⟩ := hkept
    obtain ⟨past, rfl⟩ : ∃ past, calls = past ++ [d] := List.getLast?_eq_some_iff.mp hd
    rw [hget]
    dsimp only
    rw [if_pos hshown.symm, runStart_concat, if_pos hdreports]
    exact h uid state start past d hstate hget rfl hdreports
  · have hfresh : runStart calls c uid state = c.timestampMs := by
      induction calls using List.reverseRecOn with
      | nil => rfl
      | append_singleton past d _ =>
        rw [runStart_concat, if_neg]
        intro hdreports
        exact hkept (hlast.mp ⟨d, by simp, hdreports⟩)
    rw [hfresh]
    split
    · next previous start hget =>
      rw [if_neg]
      intro heq
      exact hkept ⟨start, by rw [hget, heq, hshown]⟩
    · rfl

/-- In a tracked call every age is right. -/
theorem agesShown_of_tracked {calls : List StatusCall} {c : StatusCall}
    (h : StartsOk calls c.before) (htracked : Tracked calls c) : AgesShown calls c := by
  intro row hrow hstate
  obtain ⟨hshows, hok⟩ :=
    (StatusCall.loopOk (c := c) c.appConfig c.before.statusSinceMs).rows row
      (StatusCall.mem_rows.mp hrow)
  have hreports : c.reports row.uid row.state = true :=
    StatusCall.reports_iff.mpr ⟨hshows, hok.state.symm⟩
  obtain ⟨hdue, -⟩ := htracked row.uid row.state hreports hstate
  rw [hok.seconds hdue, startOf_eq_runStart h htracked hreports hstate]

/-- A tracked call keeps the starts right. -/
theorem StartsOk.status {calls : List StatusCall} {c : StatusCall}
    (h : StartsOk calls c.before) (htracked : Tracked calls c) :
    StartsOk (calls ++ [c]) c.after := by
  intro uid state start past d hstate hget hsplit hreports
  obtain ⟨rfl, hlast⟩ := List.append_inj' hsplit rfl
  obtain rfl := (List.cons.inj hlast).1
  obtain ⟨hdue, -⟩ := htracked uid state hreports hstate
  rw [StatusCall.get?_after hget hreports hdue, startOf_eq_runStart h htracked hreports hstate]

/-- If every call of a run is tracked, every age shown in it is right: it is the time
    since the app was first shown in the state in which it has been shown ever since. -/
theorem status_ages_are_right {calls : List StatusCall} (h : StatusRun calls s)
    (htracked : Everywhere Tracked calls) : Everywhere AgesShown calls := by
  have hall : StartsOk calls s ∧ Everywhere AgesShown calls := by
    induction h with
    | default =>
      refine ⟨?_, .nil⟩
      intro uid state start past d _ hget
      cases hget
    -- A pass changes no start, it can only drop some.
    | pass input _ hexec ih =>
      obtain ⟨hstarts, hages⟩ := ih htracked
      exact ⟨hstarts.keepsStarts (runControlPass_keepsStarts hexec), hages⟩
    | @status calls s c _ hbefore _ ih =>
      subst hbefore
      obtain ⟨hstarts, hages⟩ := ih htracked.init
      have hc : Tracked calls c := htracked calls c [] rfl
      exact ⟨hstarts.status hc, hages.concat (agesShown_of_tracked hstarts hc)⟩
  exact hall.2

/-! ## An app that is opened -/

/-- A call about the one app of the samples. -/
def delayedCall (before : RuntimeControlState) (foregroundUids : List Nat) (timestampMs : Nat) :
    StatusCall where
  before         := before
  appConfig      := [⟨10123, 30, false⟩]
  processesByUid :=
    SortedMap.insert ∅ 10123 [backgroundProcess "com.baidu.netdisk" 10123 501]
  foregroundUids := foregroundUids
  timestampMs    := timestampMs

/-- The state after a pass over that app. -/
def afterDelayedPass (s : RuntimeControlState) (foregroundUids : List Nat) (timestampMs : Nat) :
    RuntimeControlState :=
  ((delayedEnvironment 0 (.ok ())).passMoments (delayedPass foregroundUids timestampMs) s).2.2

/-- Such a pass may come between two calls. -/
theorem StatusRun.delayedPass {calls : List StatusCall} (h : StatusRun calls s)
    (foregroundUids : List Nat) (timestampMs : Nat) :
    StatusRun calls (afterDelayedPass s foregroundUids timestampMs) := by
  have hms := (delayedEnvironment 0 (.ok ())).passMoments_spec
    (Freezeit.delayedPass foregroundUids timestampMs) s
  exact .pass _ h (exec_runControlPass_iff.mpr ⟨_, hms, rfl⟩)

/-- The call reports that app only. -/
theorem reports_delayedCall {before : RuntimeControlState} {foregroundUids : List Nat}
    {timestampMs uid : Nat} {state : Int}
    (h : (delayedCall before foregroundUids timestampMs).reports uid state = true) :
    uid = 10123 ∧ state = (delayedCall before foregroundUids timestampMs).stateOf 10123 := by
  obtain ⟨⟨config, hmem, -, rfl, -⟩, hstate⟩ := StatusCall.reports_iff.mp h
  rw [List.mem_singleton.mp hmem] at hstate ⊢
  exact ⟨rfl, hstate.symm⟩

/-- In the foreground at the start and five seconds later. -/
def openCall : StatusCall := delayedCall .default [10123] 0

/-- The app is still open after two seconds. -/
def stillOpenCall : StatusCall :=
  delayedCall (afterDelayedPass openCall.after [10123] 3000) [10123] 5000

/-- Its age is shown in both calls. -/
theorem status_ages_sample : stillOpenCall.rows = [⟨10123, true, 1, 5, 1⟩]
    ∧ Everywhere AgesShown [openCall, stillOpenCall] := by
  have hopen : StatusRun [openCall] openCall.after := .status openCall .default rfl nofun
  have hrun : StatusRun [openCall, stillOpenCall] stillOpenCall.after :=
    .status stillOpenCall (hopen.delayedPass [10123] 3000) rfl (by decide)
  refine ⟨by decide, status_ages_are_right hrun ?_⟩
  have hnil : Everywhere Tracked ([] : List StatusCall) := .nil
  have hfirst : Tracked [] openCall := by
    intro uid state hreports _
    obtain ⟨rfl, -⟩ := reports_delayedCall hreports
    refine ⟨by decide, ?_⟩
    constructor
    · intro ⟨d, hd, _⟩
      cases hd
    · intro ⟨start, hget⟩
      cases hget
  have hsecond : Tracked [openCall] stillOpenCall := by
    intro uid state hreports _
    obtain ⟨rfl, rfl⟩ := reports_delayedCall hreports
    refine ⟨by decide, ?_⟩
    constructor
    · intro _
      exact ⟨0, by decide⟩
    · intro _
      exact ⟨openCall, rfl, by decide⟩
  exact (hnil.concat hfirst).concat hsecond

/-- Put in the background, where its freeze waits, and opened again. -/
def waitingCall : StatusCall := delayedCall (afterDelayedPass openCall.after [] 1000) [] 2000

/-- The app has been opened again after it waited. -/
def reopenedCall : StatusCall :=
  delayedCall (afterDelayedPass waitingCall.after [10123] 3000) [10123] 200000

/-- The app that has just been opened again is shown as open for 200 seconds. -/
theorem reopened_app_keeps_its_age :
    StatusRun [openCall, waitingCall, reopenedCall] reopenedCall.after
      ∧ waitingCall.reports 10123 RuntimeControlState.statePending = true
      ∧ reopenedCall.rows = [⟨10123, true, RuntimeControlState.stateForeground, 200, 1⟩]
      ∧ ¬ Everywhere AgesShown [openCall, waitingCall, reopenedCall] := by
  have hopen : StatusRun [openCall] openCall.after := .status openCall .default rfl nofun
  have hwaiting : StatusRun [openCall, waitingCall] waitingCall.after :=
    .status waitingCall (hopen.delayedPass [] 1000) rfl (by decide)
  have hrun : StatusRun [openCall, waitingCall, reopenedCall] reopenedCall.after :=
    .status reopenedCall (hwaiting.delayedPass [10123] 3000) rfl (by decide)
  have hrows : reopenedCall.rows = [⟨10123, true, RuntimeControlState.stateForeground, 200, 1⟩] := by
    decide
  refine ⟨hrun, by decide, hrows, ?_⟩
  intro hages
  have hage := hages [openCall, waitingCall] reopenedCall [] rfl
    ⟨10123, true, RuntimeControlState.stateForeground, 200, 1⟩
    (by rw [hrows]; exact List.mem_cons_self) (by decide)
  have hstart : runStart [openCall, waitingCall] reopenedCall 10123
      RuntimeControlState.stateForeground = 200000 := by decide
  dsimp only at hage
  rw [hstart] at hage
  exact absurd hage (by decide)

end Freezeit
