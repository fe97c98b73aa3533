import Freezeit.Frames
import Freezeit.ManagerState
import Freezeit.RestartRecovery
import Freezeit.Targets

/-! # The live control pass

    `run_live_control_pass`: the pass with the callbacks that the control loop
    builds.  Discovery reads `/proc` once, for the uids in a control mode, and
    the callback answers from that map. -/

namespace Freezeit

open Prog

/-! ## What the live pass asks its environment -/

/-- What a live pass asks of the system. A callback of the control pass is a query too,
    apart from the listing, which is answered from what discovery found. -/
inductive LiveQuery where
  /-- One reading of `/proc`, by `discover_managed_uid_processes`. -/
  | readProc
  | readFreezeState (path : String)
  | readProcStateChar (pid : Int)
  | queryForegroundUids
  | now
  | sampleUidRxBytesMap
  /-- A callback of the pass that is not answered from the map. -/
  | control (query : Query)
  deriving DecidableEq, Repr

/-- The answers to these queries, with the errors that the daemon can see. -/
@[reducible] def LiveQuery.Answer : LiveQuery → Type
  | .readProc            => ProcReading
  | .readFreezeState _   => Except DaemonError CgroupFreezeState
  | .readProcStateChar _ => Except DaemonError Char
  | .queryForegroundUids => Except DaemonError (List Nat)
  | .now                 => Nat
  | .sampleUidRxBytesMap => Except IoError (SortedMap Nat Nat)
  | .control query       => query.Answer

/-- Programs that ask live queries. -/
abbrev Live (α : Type) : Type := Prog LiveQuery LiveQuery.Answer α

/-- A live query with its answer. -/
abbrev LiveCall : Type := Event LiveQuery LiveQuery.Answer

/-- The queries of a live run with their answers, in order. -/
abbrev LiveTrace : Type := List LiveCall

/-- To ask one query. -/
def liveCall (query : LiveQuery) : Live query.Answer := Prog.ask query

/-! ## The pass -/

/-- Control is allowed, the hook works with the present configuration, and some app is in
    a control mode. -/
def shouldRunControlPass (state : ReadOnlyState) : Bool :=
  state.controlAllowed && state.hookHealth = "active" && state.hookConfigSynced
    && state.appConfig.any fun record => isControlPolicyMode record.mode

/-- Without a cgroup freezer only the signal state can tell. -/
def readCgroupState : Option String → Live (Option CgroupFreezeState)
  | some path => do return (← liveCall (.readFreezeState path)).toOption
  | none      => pure (some .thawed)

/-- A process counts as frozen if its cgroup is, or if it is stopped; as running only if
    both readings say so. -/
def reconcileControlState (process : RuntimeProcess) : Live RuntimeProcess := do
  let cgroupState ← readCgroupState process.cgroupFreezePath
  if cgroupState = some .frozen then return { process with controlState := .frozen }
  else
    let procState := (← liveCall (.readProcStateChar process.pid)).toOption
    let controlState : ControlState :=
      if procState = some 'T' ∨ procState = some 't' then .frozen
      else if cgroupState = some .thawed ∧ procState.isSome then .running
      else .unknown
    return { process with controlState := controlState }

/-- The processes of one uid, one after the other. -/
def reconcileProcesses : List RuntimeProcess → Live (List RuntimeProcess)
  | [] => pure []
  | process :: rest => do
    let process ← reconcileControlState process
    return process :: (← reconcileProcesses rest)

/-- `reconcile_live_process_control_states` on the processes of each uid. -/
def reconcileByUid : List (Nat × List RuntimeProcess) → SortedMap Nat (List RuntimeProcess) →
    Live (SortedMap Nat (List RuntimeProcess))
  | [], byUid => pure byUid
  | (uid, processes) :: rest, byUid => do
    reconcileByUid rest (byUid.insert uid (← reconcileProcesses processes))

/-- The discovery and sampling closures answer from what was read; the other
    callbacks act on the system. -/
def liveCallback (processesByUid : SortedMap Nat (List RuntimeProcess))
    (uidRxBytes : Option (Except IoError (SortedMap Nat Nat))) : (query : Query) → Live query.Answer
  | .discoverProcesses _ uid => pure (.ok ((processesByUid.get? uid).getD []))
  | .sampleRxBytes uid _ =>
    match uidRxBytes with
    | some (.ok values)   => pure (.ok (values.get? uid))
    | some (.error error) => pure (.error (.system error.message))
    | none                => pure (.ok none)
  | query => liveCall (.control query)

/-- The discovery closure of the disabled pass: `/proc` is read for each uid. -/
def disabledCallback : (query : Query) → Live query.Answer
  | .discoverProcesses _ uid => do
    let reading ← liveCall .readProc
    return (discoverManagedUidProcesses reading (SortedMap.insert ∅ uid ())).map
      fun byUid => (byUid.get? uid).getD []
  | query => liveCall (.control query)

/-- Without control everything tracked is thawed, and the status that the app shows is
    emptied. -/
def thawDisabledControlState (state : ReadOnlyState) (s : RuntimeControlState) :
    Live (Except DaemonError Unit × ReadOnlyState × RuntimeControlState) := do
  let timestampMs ← liveCall .now
  let (result, s) ← (s.thawAllFrozen timestampMs).interpret disabledCallback
  return (result, { state with freezeStatus := [] }, s)

/-- The traffic of all uids is read once, and only for a download candidate. -/
def sampleForCandidates (processesByUid : SortedMap Nat (List RuntimeProcess)) :
    Live (Option (Except IoError (SortedMap Nat Nat))) :=
  if processesByUid.values.flatten.any fun process => isCandidatePackage process.packageName then
    do return some (← liveCall .sampleUidRxBytesMap)
  else pure none

/-- Discovery, the control state of each process, the foreground, the traffic, and then
    the control pass with its callbacks. -/
def runLiveControlPass (state : ReadOnlyState) (s : RuntimeControlState) :
    Live (Except DaemonError Unit × ReadOnlyState × RuntimeControlState) := do
  if !shouldRunControlPass state then thawDisabledControlState state s
  else
    let reading ← liveCall .readProc
    match discoverManagedUidProcesses reading (controlledUids state.appConfig) with
    | .error error => return (.error error, state, s)
    | .ok discovered =>
      let processesByUid ← reconcileByUid discovered.entries discovered
      match ← liveCall .queryForegroundUids with
      | .error error => return (.error error, state, s)
      | .ok foregroundUids =>
        let timestampMs ← liveCall .now
        let uidRxBytes ← sampleForCandidates processesByUid
        let input : PassInput := ⟨state.appConfig, state.settings, foregroundUids, timestampMs⟩
        let (result, s) ← (runControlPass input s).interpret (liveCallback processesByUid uidRxBytes)
        match result with
        | .error error => return (.error error, state, s)
        | .ok () =>
          let (rows, s) := s.freezeStatusRecords state.appConfig processesByUid foregroundUids
            timestampMs
          return (.ok (), { state with freezeStatus := rows }, s)

/-! ## Whom a pass can reach

    Whatever a pass validates, freezes, thaws or kills is a process that one of
    its discoveries listed. -/

/-- The process that a call acts on. -/
def Query.subject : Query → Option RuntimeProcess
  | .freezeProcess p | .unfreezeProcess p | .validateProcess p | .terminateProcess p => some p
  | _ => none

/-- The calls act on processes with a key in `K`. -/
def ActsOn (K : ProcessKey → Prop) (t : Trace) : Prop :=
  ∀ call ∈ t, ∀ p, call.query.subject = some p → K p.key

/-- The discoveries list processes with a key in `K`. -/
def ListsOnly (K : ProcessKey → Prop) (t : Trace) : Prop :=
  ∀ uid ps, listed uid (.ok ps) ∈ t → ∀ p ∈ ps, K p.key

variable {K : ProcessKey → Prop} {t t₁ t₂ : Trace} {ps : List RuntimeProcess}
  {s s' : RuntimeControlState} {r : Except DaemonError Unit} {ctx : RecordContext}

/-- No call is a call on other processes. -/
theorem actsOn_nil : ActsOn K [] := by
  intro call hc
  simp at hc

/-- Two parts are on the allowed processes if both are. -/
theorem ActsOn.append (h₁ : ActsOn K t₁) (h₂ : ActsOn K t₂) : ActsOn K (t₁ ++ t₂) := by
  intro call hc
  exact (List.mem_append.mp hc).elim (h₁ call) (h₂ call)

/-- A call that acts on no process. -/
theorem ActsOn.cons {call : Call} (hc : call.query.subject = none) (h : ActsOn K t) :
    ActsOn K (call :: t) := by
  intro call' hc' p hp
  rcases List.mem_cons.mp hc' with rfl | hc'
  · rw [hc] at hp
    cases hp
  · exact h call' hc' p hp

/-- What is listed in a part is listed in the whole. -/
theorem ListsOnly.left (h : ListsOnly K (t₁ ++ t₂)) : ListsOnly K t₁ := fun uid ps hmem =>
  h uid ps (List.mem_append_left _ hmem)

/-- What is listed in the second part is listed in the whole. -/
theorem ListsOnly.right (h : ListsOnly K (t₁ ++ t₂)) : ListsOnly K t₂ := fun uid ps hmem =>
  h uid ps (List.mem_append_right _ hmem)

/-- The first call of a trace lists allowed processes only. -/
theorem ListsOnly.head {uid : Nat} (h : ListsOnly K (listed uid (.ok ps) :: t)) :
    ∀ p ∈ ps, K p.key := h uid ps List.mem_cons_self

/-- The calls after the first one list allowed processes only. -/
theorem ListsOnly.tail {call : Call} (h : ListsOnly K (call :: t)) : ListsOnly K t :=
  fun uid ps hmem => h uid ps (List.mem_cons_of_mem _ hmem)

/-- A thaw acts on the processes it is given. -/
theorem unfreezeIdentityProcesses_actsOn {package : String} {ownership : FrozenOwnership}
    {outcome : UnfreezeOutcome} (hps : ∀ p ∈ ps, K p.key)
    (h : Exec (unfreezeIdentityProcesses package ps ownership) t outcome) : ActsOn K t := by
  rcases unfreezeIdentityProcesses_spec h with ⟨-, rfl, -⟩ | ⟨-, hattempts⟩
  · exact actsOn_nil
  · intro call hc p hp
    obtain ⟨q, hq, hquery | hquery⟩ := hattempts.calls hc
    · rw [hquery] at hp
      cases hp
      simpa using hps q hq
    · rw [hquery] at hp
      cases hp
      simpa using hps q hq

/-- A freeze acts on the processes it is given, its rollback included. -/
theorem FreezeRun.actsOn {control : RuntimeProcess → RuntimeProcess}
    {outcome : FreezeTransactionOutcome} (hkey : ∀ p, (control p).key = p.key)
    (hps : ∀ p ∈ ps, K p.key) (h : FreezeRun control ps t outcome) : ActsOn K t := by
  intro call hc p hp
  obtain ⟨q, hq, hquery | hquery | hquery⟩ := h.calls hc
  · rw [hquery] at hp
    cases hp
    exact hps _ hq
  · rw [hquery] at hp
    cases hp
    rw [hkey]
    exact hps q hq
  · rw [hquery] at hp
    cases hp
    rw [hkey]
    exact hps q hq

/-- The calls to the ledger act on no process. -/
theorem actsOn_of_ledger (h : ∀ call ∈ t, LedgerCall call) : ActsOn K t := by
  intro call hc p hp
  obtain ⟨pid, start, hquery⟩ | ⟨pid, start, hquery⟩ := h call hc
  · rw [hquery] at hp
    cases hp
  · rw [hquery] at hp
    cases hp

/-- A stop acts on the processes it is given, its rollback included. -/
theorem StopRun.actsOn {outcome : FreezeTransactionOutcome} (hps : ∀ p ∈ ps, K p.key)
    (h : StopRun ps t outcome) : ActsOn K t := by
  obtain ⟨stops, ledger, rfl, hstops, hledger⟩ := h.split
  exact (hstops.actsOn signalControlProcess_key hps).append (actsOn_of_ledger hledger)

/-- A kill acts on the processes it is given. -/
theorem TerminateRun.actsOn {outcome : TerminateTransactionOutcome} (hps : ∀ p ∈ ps, K p.key)
    (h : TerminateRun ps t outcome) : ActsOn K t := by
  intro call hc p hp
  obtain ⟨q, hq, hquery⟩ | ⟨-, q, hq, hquery⟩ := h.calls hc
  · rw [hquery] at hp
    cases hp
    exact hps _ hq
  · rw [hquery] at hp
    cases hp
    exact hps _ hq

/-- The context's processes were listed by the discovery of its record. -/
theorem pendingProcesses_keys (hps : ∀ p ∈ ctx.processes, K p.key) :
    ∀ p ∈ ctx.pendingProcesses, K p.key := by
  intro p hp
  obtain ⟨q, hq, rfl⟩ := List.mem_map.mp hp
  exact hps q hq

/-- A decision acts on the processes of the record, or on what it lists again. -/
theorem DecisionStep.actsOn {decision : FreezeDecision} (hps : ∀ p ∈ ctx.processes, K p.key)
    (h : DecisionStep ctx decision s t r s') (hlists : ListsOnly K t) : ActsOn K t := by
  have hpending := pendingProcesses_keys hps
  have hid : ∀ p : RuntimeProcess, (id p).key = p.key := fun p => rfl
  cases h with
  | idle => exact actsOn_nil
  | fallbackStopped operation _ hfreeze _ hstop =>
    exact (hfreeze.actsOn hid hpending).append (hstop.actsOn hpending)
  | fallbackFailed operation _ hfreeze _ hstop =>
    exact (hfreeze.actsOn hid hpending).append (hstop.actsOn hpending)
  | rescanFailed error _ hfreeze =>
    exact (hfreeze.actsOn hid hpending).append (actsOn_nil.cons rfl)
  | frozen operation _ hfreeze =>
    exact (hfreeze.actsOn hid hpending).append (actsOn_nil.cons rfl)
  -- The rescan is a listing of its own, which also holds controlled uids only.
  | rescanThawed operation _ hfreeze _ _ hthaw =>
    have hpost := hlists.right.head
    exact (hfreeze.actsOn hid hpending).append
      ((unfreezeIdentityProcesses_actsOn hpost hthaw).cons rfl)
  | stopped operation _ hledger hstop =>
    exact (actsOn_of_ledger hledger).append (hstop.actsOn hpending)
  | stopFailed operation _ hledger hstop =>
    exact (actsOn_of_ledger hledger).append (hstop.actsOn hpending)
  | terminated operation _ hrun => exact hrun.actsOn hpending
  | terminateFailed operation _ hrun => exact hrun.actsOn hpending

/-- A background step acts on the processes of the record, or on what it lists again. -/
theorem BackgroundStep.actsOn {abnormalThaw : Bool} (hps : ∀ p ∈ ctx.processes, K p.key)
    (h : BackgroundStep ctx abnormalThaw s t r s') (hlists : ListsOnly K t) : ActsOn K t := by
  cases h with
  | waiting => exact actsOn_nil
  | delayed => exact actsOn_nil
  | downloading => exact actsOn_nil.cons rfl
  | decided deferral binder hsample hdecision =>
    have hsampled : ActsOn K _ := fun call hc p hp => by
      rw [hsample call hc] at hp
      cases hp
    exact hsampled.append ((hdecision.actsOn hps hlists.right.tail).cons rfl)

/-- A thaw of one identity lists the processes itself, and acts on those. -/
theorem ThawStep.actsOn {identity : RuntimeIdentity} (h : ThawStep identity s t s')
    (hlists : ListsOnly K t) : ActsOn K t := by
  cases h with
  | undiscovered => exact actsOn_nil.cons rfl
  | exited => exact actsOn_nil.cons rfl
  | tried operation timestampMs _ hthaw =>
    exact (unfreezeIdentityProcesses_actsOn hlists.head hthaw).cons rfl

/-- Thaws of many identities act on what they list. -/
theorem ThawSteps.actsOn {identities : List RuntimeIdentity} (h : ThawSteps identities s t s')
    (hlists : ListsOnly K t) : ActsOn K t := by
  induction h with
  | nil => exact actsOn_nil
  | cons hstep _ ih => exact (hstep.actsOn hlists.left).append (ih hlists.right)

/-- What the loop body does once the processes are listed stays within that list. -/
theorem ListedStep.actsOn {auditDue : Bool} (hps : ∀ p ∈ ctx.processes, K p.key)
    (h : ListedStep ctx auditDue s t r s') (hlists : ListsOnly K t) : ActsOn K t := by
  cases h with
  | released _ hexec =>
    obtain ⟨s₁, hsteps, -⟩ := releaseProtected_steps hexec
    exact hsteps.actsOn hlists
  | blocked => exact actsOn_nil
  | foreground => exact actsOn_nil
  | opened _ _ _ _ _ hthaw => exact unfreezeIdentityProcesses_actsOn hps hthaw
  | wokenUp _ _ _ _ _ _ hthaw => exact unfreezeIdentityProcesses_actsOn hps hthaw
  | kept => exact actsOn_nil
  | refrozen _ _ _ _ _ _ _ hbackground => exact hbackground.actsOn hps hlists
  | background _ _ _ _ hbackground => exact hbackground.actsOn hps hlists

/-- A record acts on listed processes only. -/
theorem RecordStep.actsOn {input : PassInput} {auditDue : Bool} {record : ManagerAppConfigRecord}
    (h : RecordStep input auditDue record s t r s') (hlists : ListsOnly K t) : ActsOn K t := by
  cases h with
  | uncontrolled => exact actsOn_nil
  | undiscovered => exact actsOn_nil.cons rfl
  | exited => exact actsOn_nil.cons rfl
  | occupied first rest _ hlisted => exact (hlisted.actsOn hlists.head hlists.tail).cons rfl

/-- A control pass acts on listed processes only. -/
theorem runControlPass_actsOn {input : PassInput} (h : Exec (runControlPass input s) t (r, s'))
    (hlists : ListsOnly K t) : ActsOn K t := by
  obtain ⟨ms, hms, rfl⟩ := exec_runControlPass_iff.mp h
  intro call hc
  obtain ⟨m, hm, hcm⟩ := List.mem_flatMap.mp hc
  have hsub : ListsOnly K m.calls := fun uid ps hmem =>
    hlists uid ps (List.mem_flatMap.mpr ⟨m, hm, hmem⟩)
  rcases hms.steps hm with ⟨s₁, hrelease, -, -⟩ | ⟨auditDue, record, -, r', -, hstep⟩
  · obtain ⟨s₂, hsteps, -⟩ := releaseStale_steps hrelease
    exact hsteps.actsOn hsub call hcm
  · exact hstep.actsOn hsub call hcm

/-! ## Whom the live pass can reach

    The map of the pass has the uids in a control mode only, so no callback
    ever acts on another uid. -/

variable {state state' : ReadOnlyState} {lt : LiveTrace}

/-- The call is a callback of the control pass. -/
def LiveCall.IsControl (call : LiveCall) : Prop := ∃ query, call.query = .control query

/-- Reconciling a process keeps who it is, and asks no callback. -/
theorem reconcileControlState_spec {p p' : RuntimeProcess}
    (h : Exec (reconcileControlState p) lt p') :
    p'.key = p.key ∧ ∀ call ∈ lt, ¬ LiveCall.IsControl call := by
  have hread : ∀ {path t state}, Exec (readCgroupState path) t state →
      ∀ call ∈ t, ¬ LiveCall.IsControl call := by
    rintro (- | path) t state hexec
    · obtain ⟨rfl, -⟩ := exec_pure.mp hexec
      simp
    · obtain ⟨answer, t₁, rfl, hrest⟩ := exec_ask_bind.mp hexec
      obtain ⟨rfl, -⟩ := exec_pure.mp hrest
      simp [LiveCall.IsControl]
  obtain ⟨t₁, t₂, cgroupState, rfl, h₁, h₂⟩ := exec_bind.mp h
  split at h₂
  · obtain ⟨rfl, rfl⟩ := exec_pure.mp h₂
    refine ⟨rfl, ?_⟩
    simpa using hread h₁
  · obtain ⟨answer, t₃, rfl, h₃⟩ := exec_ask_bind.mp h₂
    obtain ⟨rfl, rfl⟩ := exec_pure.mp h₃
    refine ⟨rfl, fun call hc => ?_⟩
    rcases List.mem_append.mp hc with hc | hc
    · exact hread h₁ call hc
    · obtain rfl := List.mem_singleton.mp hc
      simp [LiveCall.IsControl]

/-- The same for all of them. -/
theorem reconcileProcesses_spec {ps' : List RuntimeProcess}
    (h : Exec (reconcileProcesses ps) lt ps') :
    (∀ p' ∈ ps', ∃ p ∈ ps, p'.key = p.key) ∧ ∀ call ∈ lt, ¬ LiveCall.IsControl call := by
  induction ps generalizing lt ps' with
  | nil =>
    obtain ⟨rfl, rfl⟩ := exec_pure.mp h
    simp
  | cons p ps ih =>
    obtain ⟨t₁, t₂, p', rfl, h₁, h₂⟩ := exec_bind.mp h
    obtain ⟨t₃, t₄, ps'', rfl, h₃, h₄⟩ := exec_bind.mp h₂
    obtain ⟨rfl, rfl⟩ := exec_pure.mp h₄
    obtain ⟨hkey, hcalls⟩ := reconcileControlState_spec h₁
    obtain ⟨hkeys, hrest⟩ := ih h₃
    constructor
    · intro q hq
      rcases List.mem_cons.mp hq with rfl | hq
      · exact ⟨p, List.mem_cons_self, hkey⟩
      · obtain ⟨q', hq', heq⟩ := hkeys q hq
        exact ⟨q', List.mem_cons_of_mem _ hq', heq⟩
    · intro call hc
      rw [List.append_nil] at hc
      exact (List.mem_append.mp hc).elim (hcalls call) (hrest call)

/-- Reconciling changes no key and calls nothing that acts on a process. -/
theorem reconcileByUid_spec {entries : List (Nat × List RuntimeProcess)}
    {byUid byUid' : SortedMap Nat (List RuntimeProcess)}
    (h : Exec (reconcileByUid entries byUid) lt byUid')
    (hentries : ∀ e ∈ entries, ∀ p ∈ e.2, K p.key)
    (hbyUid : ∀ uid ps, byUid.get? uid = some ps → ∀ p ∈ ps, K p.key) :
    (∀ uid ps, byUid'.get? uid = some ps → ∀ p ∈ ps, K p.key)
      ∧ ∀ call ∈ lt, ¬ LiveCall.IsControl call := by
  induction entries generalizing lt byUid with
  | nil =>
    obtain ⟨rfl, rfl⟩ := exec_pure.mp h
    exact ⟨hbyUid, by simp⟩
  | cons e rest ih =>
    obtain ⟨t₁, t₂, ps, rfl, h₁, h₂⟩ := exec_bind.mp h
    obtain ⟨hkeys, hcalls⟩ := reconcileProcesses_spec h₁
    have hps : ∀ p ∈ ps, K p.key := by
      intro p hp
      obtain ⟨q, hq, heq⟩ := hkeys p hp
      rw [heq]
      exact hentries e List.mem_cons_self q hq
    obtain ⟨hmap, hrest⟩ := ih h₂ (fun e' he' => hentries e' (List.mem_cons_of_mem _ he')) (by
      intro uid ps' hget
      rw [SortedMap.get?_insert] at hget
      split at hget
      · obtain rfl := Option.some.inj hget
        exact hps
      · exact hbyUid uid ps' hget)
    exact ⟨hmap, fun call hc => (List.mem_append.mp hc).elim (hcalls call) (hrest call)⟩

/-- The handler of a call either answers from the map or passes the call on. -/
theorem liveCallback_spec {byUid : SortedMap Nat (List RuntimeProcess)}
    {rx : Option (Except IoError (SortedMap Nat Nat))} {query : Query} {answer : query.Answer}
    (h : Exec (liveCallback byUid rx query) lt answer) :
    lt = [] ∨ lt = [⟨.control query, answer⟩] := by
  cases query with
  | discoverProcesses package uid => exact .inl (exec_pure.mp h).1
  | sampleRxBytes uid package =>
    match rx with
    | some (.ok values)   => exact .inl (exec_pure.mp h).1
    | some (.error error) => exact .inl (exec_pure.mp h).1
    | none                => exact .inl (exec_pure.mp h).1
  | _ => exact .inr (exec_ask.mp h)

/-- A pass over the map acts on processes of the map. -/
theorem interpret_liveCallback_actsOn {input : PassInput}
    {byUid : SortedMap Nat (List RuntimeProcess)}
    {rx : Option (Except IoError (SortedMap Nat Nat))}
    (hmap : ∀ uid ps, byUid.get? uid = some ps → ∀ p ∈ ps, K p.key)
    (h : Exec ((runControlPass input s).interpret (liveCallback byUid rx)) lt (r, s'))
    {query : Query} {answer : query.Answer} (hc : (⟨.control query, answer⟩ : LiveCall) ∈ lt)
    {p : RuntimeProcess} (hp : query.subject = some p) : K p.key := by
  obtain ⟨t, hexec, hhandled⟩ := exec_interpret.mp h
  have hlists : ListsOnly K t := by
    intro uid ps hmem q hq
    obtain ⟨t', hanswer⟩ := hhandled.exec hmem
    obtain ⟨-, heq⟩ := exec_pure.mp hanswer
    obtain rfl := Except.ok.inj heq
    cases hget : byUid.get? uid with
    | none => simp [hget] at hq
    | some ps => exact hmap uid ps hget q (by simpa [hget] using hq)
  obtain ⟨call, hmem, t', hanswer, hin⟩ := hhandled.source hc
  rcases liveCallback_spec hanswer with rfl | rfl
  · simp at hin
  · have hsame : query = call.query := by
      have heq := congrArg Event.query (List.mem_singleton.mp hin)
      exact LiveQuery.control.inj heq
    exact runControlPass_actsOn hexec hlists call hmem p (hsame ▸ hp)

/-- Discovery for a set of uids lists processes of these uids. -/
theorem uid_of_discovered {reading : ProcReading} {managed : SortedSet Nat}
    {byUid : SortedMap Nat (List RuntimeProcess)}
    (h : discoverManagedUidProcesses reading managed = .ok byUid) {uid : Nat}
    {ps : List RuntimeProcess} (hget : byUid.get? uid = some ps) {p : RuntimeProcess}
    (hp : p ∈ ps) : p.uid = uid ∧ uid ∈ managed := by
  unfold discoverManagedUidProcesses at h
  split at h
  · obtain rfl := Except.ok.inj h
    simp at hget
  · split at h
    · cases h
    · rcases (mem_discoverEntries h).mp (by simpa [hget] using hp : p ∈ (byUid.get? uid).getD [])
        with hp | ⟨rfl, entry, -, hentry⟩
      · simp at hp
      · exact ⟨rfl, (discoverEntry_eq_some hentry).2.2.1⟩

/-- Every call of a live pass acts on a process of a uid in a control mode. -/
theorem runLiveControlPass_controlled (hrun : shouldRunControlPass state = true)
    (h : Exec (runLiveControlPass state s) lt (r, state', s'))
    {query : Query} {answer : query.Answer} (hc : (⟨.control query, answer⟩ : LiveCall) ∈ lt)
    {p : RuntimeProcess} (hp : query.subject = some p) :
    p.uid ∈ controlledUids state.appConfig := by
  unfold runLiveControlPass at h
  rw [if_neg (by simp [hrun])] at h
  obtain ⟨reading, t₁, rfl, h₁⟩ := exec_ask_bind.mp h
  have hcontrol : LiveCall.IsControl (⟨.control query, answer⟩ : LiveCall) := ⟨query, rfl⟩
  replace hc : (⟨.control query, answer⟩ : LiveCall) ∈ t₁ := by
    rcases List.mem_cons.mp hc with heq | hc
    · cases congrArg Event.query heq
    · exact hc
  -- A failed discovery ends the pass before its first callback.
  cases hdiscover : discoverManagedUidProcesses reading (controlledUids state.appConfig) with
  | error error =>
    rw [hdiscover] at h₁
    obtain ⟨rfl, -⟩ := exec_pure.mp h₁
    simp at hc
  | ok discovered =>
    rw [hdiscover] at h₁
    obtain ⟨t₂, t₃, byUid, rfl, h₂, h₃⟩ := exec_bind.mp h₁
    -- The listing answers from this map, and it holds controlled uids only.
    obtain ⟨hmap, hplain⟩ := reconcileByUid_spec
      (K := fun key => key.uid ∈ controlledUids state.appConfig) h₂
      (fun e he p hp => by
        have hget := (SortedMap.lookupEntry_eq_some_iff discovered.sorted).mpr he
        obtain ⟨huid, hmem⟩ := uid_of_discovered hdiscover hget hp
        show p.uid ∈ _
        rw [huid]
        exact hmem)
      (fun uid ps hget p hp => by
        obtain ⟨huid, hmem⟩ := uid_of_discovered hdiscover hget hp
        show p.uid ∈ _
        rw [huid]
        exact hmem)
    replace hc := (List.mem_append.mp hc).resolve_left fun hc => hplain _ hc hcontrol
    obtain ⟨foreground, t₄, rfl, h₄⟩ := exec_ask_bind.mp h₃
    replace hc : (⟨.control query, answer⟩ : LiveCall) ∈ t₄ := by
      rcases List.mem_cons.mp hc with heq | hc
      · cases congrArg Event.query heq
      · exact hc
    -- Without the foreground no record is looked at.
    match foreground with
    | .error error =>
      obtain ⟨rfl, -⟩ := exec_pure.mp h₄
      simp at hc
    | .ok foregroundUids =>
      obtain ⟨timestampMs, t₅, rfl, h₅⟩ := exec_ask_bind.mp h₄
      replace hc : (⟨.control query, answer⟩ : LiveCall) ∈ t₅ := by
        rcases List.mem_cons.mp hc with heq | hc
        · cases congrArg Event.query heq
        · exact hc
      obtain ⟨t₆, t₇, rx, rfl, h₆, h₇⟩ := exec_bind.mp h₅
      -- Sampling asks for traffic, and that is no callback either.
      have hsample : ∀ call ∈ t₆, ¬ LiveCall.IsControl call := by
        unfold sampleForCandidates at h₆
        split at h₆
        · obtain ⟨answer, t₈, rfl, h₈⟩ := exec_ask_bind.mp h₆
          obtain ⟨rfl, -⟩ := exec_pure.mp h₈
          simp [LiveCall.IsControl]
        · obtain ⟨rfl, -⟩ := exec_pure.mp h₆
          simp
      replace hc := (List.mem_append.mp hc).resolve_left fun hc => hsample _ hc hcontrol
      -- What is left is the pass itself, whose calls are answered by handlers.
      obtain ⟨t₈, t₉, ⟨r₁, s₁⟩, rfl, h₈, h₉⟩ := exec_bind.mp h₇
      have hend : t₉ = [] := by
        match r₁ with
        | .error error => exact (exec_pure.mp h₉).1
        | .ok () => exact (exec_pure.mp h₉).1
      subst hend
      rw [List.append_nil] at hc
      exact interpret_liveCallback_actsOn
        (K := fun key => key.uid ∈ controlledUids state.appConfig) hmap h₈ hc hp

/-! ## Releasing what is no longer controlled -/

/-- The processes that `/proc` lists for a uid. -/
def procProcesses (reading : ProcReading) (uid : Nat) : List RuntimeProcess :=
  match discoverManagedUidProcesses reading (SortedMap.insert ∅ uid ()) with
  | .ok byUid => (byUid.get? uid).getD []
  | .error _  => []

/-- What `/proc` shows for a uid has that uid. -/
theorem uid_of_mem_procProcesses {reading : ProcReading} {uid : Nat} {p : RuntimeProcess}
    (hp : p ∈ procProcesses reading uid) : p.uid = uid := by
  unfold procProcesses at hp
  split at hp
  · next byUid hdiscover =>
    cases hget : byUid.get? uid with
    | none => simp [hget] at hp
    | some ps => exact (uid_of_discovered hdiscover hget (by simpa [hget] using hp)).1
  · simp at hp

/-- The process was validated and, being the one expected, tried to be thawed. -/
def ThawTried (t : LiveTrace) (p : RuntimeProcess) : Prop :=
  ∃ q answer, q.key = p.key ∧ (⟨.control (.validateProcess q), answer⟩ : LiveCall) ∈ t
    ∧ (answer = .ok true → ∃ q' answer', q'.key = p.key
      ∧ (⟨.control (.unfreezeProcess q'), answer'⟩ : LiveCall) ∈ t)

/-- A successful thaw of the process is in the trace. -/
def ThawDone (t : LiveTrace) (p : RuntimeProcess) : Prop :=
  ∃ q, q.key = p.key ∧ (⟨.control (.unfreezeProcess q), .ok ()⟩ : LiveCall) ∈ t

/-- The frozen identities whose uid is in no control mode are released: each of
    their listed processes is tried, and none is forgotten frozen. -/
def ReleasesRemoved (appConfig : List ManagerAppConfigRecord) (s : RuntimeControlState)
    (t : LiveTrace) (s' : RuntimeControlState) : Prop :=
  ∀ i ∈ s.frozenApps, i.uid ∉ controlledUids appConfig →
    ∀ reading, (⟨.readProc, reading⟩ : LiveCall) ∈ t →
      (∀ p ∈ procProcesses reading i.uid, ThawTried t p)
        ∧ (i ∉ s'.frozenApps → ∀ p ∈ procProcesses reading i.uid, ThawDone t p)

/-- `/proc` lists no process of a frozen identity that is no longer controlled. -/
def RemovedHaveExited (appConfig : List ManagerAppConfigRecord) (s : RuntimeControlState)
    (t : LiveTrace) : Prop :=
  ∀ i ∈ s.frozenApps, i.uid ∉ controlledUids appConfig →
    ∀ reading, (⟨.readProc, reading⟩ : LiveCall) ∈ t → procProcesses reading i.uid = []

/-- The pass releases the apps that the policy no longer controls only when
    there is nothing left to release. -/
theorem removed_apps_are_released_iff (hrun : shouldRunControlPass state = true)
    (h : Exec (runLiveControlPass state s) lt (r, state', s')) :
    ReleasesRemoved state.appConfig s lt s' ↔ RemovedHaveExited state.appConfig s lt := by
  constructor
  · intro hreleases i hi huid reading hreading
    by_contra hne
    obtain ⟨p, hp⟩ := List.exists_mem_of_ne_nil _ hne
    obtain ⟨q, answer, hkey, hcall, -⟩ := (hreleases i hi huid reading hreading).1 p hp
    have hq : q.uid = i.uid := (congrArg ProcessKey.uid hkey).trans (uid_of_mem_procProcesses hp)
    exact huid (hq ▸ runLiveControlPass_controlled hrun h hcall rfl)
  · intro hexited i hi huid reading hreading
    have hnone := hexited i hi huid reading hreading
    constructor
    · intro p hp
      simp [hnone] at hp
    · intro _ p hp
      simp [hnone] at hp

/-! ### A sample -/

/-- `/proc` lists one process, 501 of uid 10123. -/
def removedReading : ProcReading where
  procExists := true
  entries    := .ok [.ok
    { fileName        := some "501"
      status          := .ok "Name:\tcom.example.app\nUid:\t10123\t10123\t10123\t10123\n"
      cmdline         := .ok "com.example.app\x00"
      stat            := .ok "501 (com.example.app) S 1 501 0 0 -1 0 0 0 0 0 0 0 0 0 20 0 1 0 4242 0"
      binderSnapshots := [] }]
  pathExists := fun _ => false

/-- Every call of the live pass succeeds; nothing is in the foreground. -/
def liveAnswer (reading : ProcReading) (_past : LiveTrace) : (query : LiveQuery) → query.Answer
  | .readProc            => reading
  | .readFreezeState _   => .ok .thawed
  | .readProcStateChar _ => .ok 'S'
  | .queryForegroundUids => .ok []
  | .now                 => 1000
  | .sampleUidRxBytesMap => .ok ∅
  | .control query       => sampleEnvironment.answer [] query

/-- One record, for another app than the frozen one. -/
def otherAppState : ReadOnlyState :=
  { ReadOnlyState.default with
    appConfig        := [⟨10124, 30, false⟩]
    controlAllowed   := true
    hookHealth       := "active"
    hookConfigSynced := true }

/-- One app is tracked as frozen. -/
def removedAppState (uid : Nat) : RuntimeControlState :=
  RuntimeControlState.default.trackFrozen ⟨"com.example.app", uid⟩ 0 .cgroupBinder

/-- In the sample runs every look at `/proc` sees the same. -/
theorem readProc_liveAnswer {reading reading' : ProcReading} {past : LiveTrace} {α : Type}
    {p : Live α} (h : (⟨.readProc, reading'⟩ : LiveCall) ∈ (run (liveAnswer reading) past p).1) :
    reading' = reading := by
  obtain ⟨past', hanswer⟩ := mem_run h
  exact hanswer

/-- A tracked app that left the configuration and `/proc` counts as released. -/
theorem removed_apps_are_released_iff_sample :
    ReleasesRemoved otherAppState.appConfig (removedAppState 10125)
      (run (liveAnswer removedReading) []
        (runLiveControlPass otherAppState (removedAppState 10125))).1
      (run (liveAnswer removedReading) []
        (runLiveControlPass otherAppState (removedAppState 10125))).2.2.2 := by
  refine (removed_apps_are_released_iff rfl (exec_run _ _ _)).mpr fun i hi _ reading hreading => ?_
  obtain rfl := readProc_liveAnswer hreading
  have huid : i.uid = 10125 := by
    have hmem : i = ⟨"com.example.app", 10125⟩ ∨ i ∈ (∅ : SortedSet RuntimeIdentity) :=
      SortedMap.mem_insert.mp hi
    rcases hmem with rfl | hmem
    · rfl
    · simp at hmem
  rw [huid]
  rfl

/-- The record of uid 10123 was removed while its app is frozen: the pass drops
    the identity without validating or thawing the process that runs. -/
theorem removed_app_is_dropped_frozen :
    shouldRunControlPass otherAppState = true
      ∧ ¬ ReleasesRemoved otherAppState.appConfig (removedAppState 10123)
        (run (liveAnswer removedReading) []
          (runLiveControlPass otherAppState (removedAppState 10123))).1
        (run (liveAnswer removedReading) []
          (runLiveControlPass otherAppState (removedAppState 10123))).2.2.2
      ∧ ((run (liveAnswer removedReading) []
          (runLiveControlPass otherAppState (removedAppState 10123))).2.2.2.frozenApps).isEmpty := by
  refine ⟨rfl, fun hreleases => ?_, by decide +kernel⟩
  have hfrozen : (⟨"com.example.app", 10123⟩ : RuntimeIdentity)
      ∈ (removedAppState 10123).frozenApps := SortedMap.mem_insert.mpr (.inl rfl)
  obtain ⟨hstart, -⟩ := hreleases _ hfrozen (by decide) removedReading List.mem_cons_self
  obtain ⟨p, hp⟩ : ∃ p, p ∈ procProcesses removedReading 10123 :=
    List.exists_mem_of_ne_nil _ (by decide)
  obtain ⟨q, answer, hkey, hcall, -⟩ := hstart p hp
  have hq : q.uid = 10123 := (congrArg ProcessKey.uid hkey).trans (uid_of_mem_procProcesses hp)
  have hcontrolled := runLiveControlPass_controlled rfl (exec_run _ _ _) hcall rfl
  rw [hq] at hcontrolled
  exact absurd hcontrolled (by decide)

end Freezeit
