import Freezeit.ConfigAtomicity

/-! # What the requests change in the shared state

    Every field of `ReadOnlyState` but the log and the claim that the hook is
    synchronized is written by the requests of the manager alone, or by the
    control loop alone.  Both only add to the log, and `ClearLog` empties it. -/

namespace Freezeit

open Prog

/-! ## Who writes what -/

namespace ReadOnlyState

/-- What the requests leave alone: the rest is blanked. -/
def controlPart (state : ReadOnlyState) : ReadOnlyState :=
  { state with
    settings              := []
    appConfig             := []
    appConfigSourceTokens := ∅
    configRevision        := 0
    hookConfigSynced      := false
    managerLog            := .default
    uidTimeTotals         := ∅ }

/-- What the control loop leaves alone: the rest is blanked. -/
def managerPart (state : ReadOnlyState) : ReadOnlyState :=
  { state with
    daemonHealth            := ""
    hookHealth              := ""
    xpLog                   := ""
    healthReportJson        := ""
    capabilityReportJson    := ""
    compatibilityReportJson := ""
    selfCheckJson           := ""
    controlAllowed          := false
    hookConfigSynced        := false
    managerLog              := .default
    operationLogJson        := ""
    freezeStatus            := [] }

end ReadOnlyState

/-- The log got some records, one after the other. -/
def Pushed (log log' : ManagerLog) : Prop :=
  ∃ records : List LogRecord, log' = records.foldl ManagerLog.push log

/-- A log is itself with nothing pushed. -/
theorem Pushed.refl (log : ManagerLog) : Pushed log log := ⟨[], rfl⟩

/-- What is pushed twice is pushed. -/
theorem Pushed.trans {log log₁ log' : ManagerLog} (h₁ : Pushed log log₁) (h₂ : Pushed log₁ log') :
    Pushed log log' := by
  obtain ⟨records₁, rfl⟩ := h₁
  obtain ⟨records₂, rfl⟩ := h₂
  exact ⟨records₁ ++ records₂, by rw [List.foldl_append]⟩

/-- A push is a push. -/
theorem pushed_push (log : ManagerLog) (record : LogRecord) : Pushed log (log.push record) :=
  ⟨[record], rfl⟩

/-- A push of a record that is there already is none. -/
theorem pushed_pushOnce (log : ManagerLog) (record : LogRecord) :
    Pushed log (log.pushOnce record) := by
  unfold ManagerLog.pushOnce
  split
  · exact .refl log
  · exact pushed_push log record

/-- A request wrote only what is its own, and added to the log. What the control loop
    writes is not its own. -/
structure Edits (state state' : ReadOnlyState) : Prop where
  control : state'.controlPart = state.controlPart
  log     : Pushed state.managerLog state'.managerLog

variable {state state₁ state' : ReadOnlyState} {t t₁ t₂ : ManagerTrace}

/-- To do nothing is an edit of the manager. -/
theorem Edits.refl (state : ReadOnlyState) : Edits state state := ⟨rfl, .refl _⟩

/-- Two edits are one. -/
theorem Edits.trans (h₁ : Edits state state₁) (h₂ : Edits state₁ state') : Edits state state' :=
  ⟨h₂.control.trans h₁.control, h₁.log.trans h₂.log⟩

/-- To ask for another synchronisation is an edit of the manager. -/
theorem edits_unsync (state : ReadOnlyState) : Edits state (unsync state) := ⟨rfl, .refl _⟩

/-- To commit settings is an edit of the manager. -/
theorem edits_commitSettings (state : ReadOnlyState) (settings : Bytes) :
    Edits state (commitSettings state settings) := by
  unfold commitSettings
  split
  · exact ⟨rfl, .refl _⟩
  · exact ⟨rfl, .refl _⟩

/-- To commit a policy is an edit of the manager. -/
theorem edits_commitAppConfig (state : ReadOnlyState) (records : List ManagerAppConfigRecord)
    (sourceTokens : SortedMap Nat String) :
    Edits state (commitAppConfig state records sourceTokens) := by
  unfold commitAppConfig
  dsimp only
  split
  · exact ⟨rfl, .refl _⟩
  · exact ⟨rfl, .refl _⟩

/-- Neither the configuration nor the claim about the hook changed. -/
structure KeepsPolicy (state state' : ReadOnlyState) : Prop where
  config : SameConfig state state'
  synced : state'.hookConfigSynced = state.hookConfigSynced

/-- A state has its own policy. -/
theorem KeepsPolicy.refl (state : ReadOnlyState) : KeepsPolicy state state := ⟨.refl _, rfl⟩

/-- To have the same configuration is transitive. -/
theorem SameConfig.trans (h₁ : SameConfig state state₁) (h₂ : SameConfig state₁ state') :
    SameConfig state state' where
  settings     := h₂.settings.trans h₁.settings
  appConfig    := h₂.appConfig.trans h₁.appConfig
  sourceTokens := h₂.sourceTokens.trans h₁.sourceTokens
  revision     := h₂.revision.trans h₁.revision

/-- To have the same policy is transitive. -/
theorem KeepsPolicy.trans (h₁ : KeepsPolicy state state₁) (h₂ : KeepsPolicy state₁ state') :
    KeepsPolicy state state' :=
  ⟨h₁.config.trans h₂.config, h₂.synced.trans h₁.synced⟩

/-- A log message keeps the policy and asks the hook nothing. -/
theorem appendLegacyLogMessage_edits {message : String}
    (h : Exec (appendLegacyLogMessage state message) t state') :
    Edits state state' ∧ KeepsPolicy state state' ∧ ∀ call ∈ t, ¬ HookCall call := by
  obtain ⟨nowMs, rfl, rfl⟩ := appendLegacyLogMessage_spec h
  refine ⟨⟨rfl, pushed_push _ _⟩, ⟨⟨rfl, rfl, rfl, rfl⟩, rfl⟩, ?_⟩
  intro call hcall
  obtain rfl := List.mem_singleton.mp hcall
  simp [HookCall]

/-! ## What becomes of the claim about the hook -/

/-- After a request the hook is not claimed to be synchronized, or it was not
    asked and nothing it knows of changed, or the last that it was sent, and
    took, is the new configuration. -/
inductive Resynced (state : ReadOnlyState) : ManagerTrace → ReadOnlyState → Prop where
  | unsynced : ∀ {t state'}, state'.hookConfigSynced = false → Resynced state t state'
  | untouched : ∀ {t state'}, KeepsPolicy state state' → (∀ call ∈ t, ¬ HookCall call) →
      Resynced state t state'
  | taken : ∀ {t₁ t₂ state' payload}, currentXposedPayload state' = .ok payload →
      (∀ call ∈ t₂, ¬ HookCall call) →
      Resynced state (t₁ ++ ⟨.setAppConfig payload, .ok true⟩ :: t₂) state'

/-! ## SetAppCfg -/

/-- Reading a file asks the hook nothing. -/
theorem readExistingFile_calls (path : Option String) :
    Calls (fun call => ¬ HookCall call) (readExistingFile path) := by
  unfold readExistingFile
  split
  · exact calls_pure
  · refine calls_ask_bind (fun ans => by simp [HookCall]) fun ans => ?_
    split
    · exact calls_pure
    · exact calls_pure

/-- A rollback leaves the hook marked as not synced. -/
theorem rollbackFailedAppConfigUpdate_edits {previousFile : Option Bytes}
    {previousXposedPayload : Bytes} {r : Except DaemonError Unit}
    (h : Exec (rollbackFailedAppConfigUpdate state previousFile previousXposedPayload) t
      (r, state')) : Edits state state' ∧ state'.hookConfigSynced = false := by
  obtain ⟨t₁, t₂, diskResult, rfl, -, h₂⟩ := exec_bind.mp h
  obtain ⟨hookResult, t₃, rfl, h₃⟩ := exec_ask_bind.mp h₂
  match diskResult with
  | .error diskError =>
    obtain ⟨-, heq⟩ := exec_pure.mp h₃
    obtain ⟨-, rfl⟩ := Prod.mk.inj heq
    exact ⟨edits_unsync state, rfl⟩
  | .ok () =>
    match hookResult with
    | .ok true =>
      obtain ⟨-, heq⟩ := exec_pure.mp h₃
      obtain ⟨-, rfl⟩ := Prod.mk.inj heq
      exact ⟨edits_unsync state, rfl⟩
    | .ok false | .error _ =>
      obtain ⟨t₄, t₅, state₁, rfl, h₄, h₅⟩ := exec_bind.mp h₃
      obtain ⟨-, heq⟩ := exec_pure.mp h₅
      obtain ⟨-, rfl⟩ := Prod.mk.inj heq
      obtain ⟨hedits, hkeeps, -⟩ := appendLegacyLogMessage_edits h₄
      exact ⟨(edits_unsync state).trans hedits, hkeeps.synced⟩

/-- The log of a change keeps the policy. -/
theorem logConfigChange_edits {records : List ManagerAppConfigRecord}
    (h : Exec (logConfigChange state records) t state') :
    Edits state state' ∧ KeepsPolicy state state' ∧ ∀ call ∈ t, ¬ HookCall call := by
  unfold logConfigChange at h
  split at h
  · exact appendLegacyLogMessage_edits h
  · obtain ⟨rfl, rfl⟩ := exec_pure.mp h
    exact ⟨.refl _, .refl _, by simp⟩

/-- The end of the request: synced only if the hook accepted what the policy now is, and
    asked nothing after that. -/
theorem finishAppConfig_edits {records : List ManagerAppConfigRecord}
    {sourceTokens : SortedMap Nat String} {previousFile : Option Bytes}
    {previousXposedPayload xposedPayload : Bytes} {r : Except DaemonError Bytes}
    (hpayload : encodeXposedConfigPayload state.settings (encodeAppConfig records)
      = .ok xposedPayload)
    (h : Exec (finishAppConfig state records sourceTokens previousFile previousXposedPayload
      xposedPayload) t (r, state')) :
    Edits state state' ∧ (state'.hookConfigSynced = false ∨ ∃ t₁, t
      = ⟨.setAppConfig xposedPayload, .ok true⟩ :: t₁ ∧ currentXposedPayload state'
        = .ok xposedPayload ∧ ∀ call ∈ t₁, ¬ HookCall call) := by
  obtain ⟨answer, t₁, rfl, h₁⟩ := exec_ask_bind.mp h
  match answer with
  | .ok true =>
    obtain ⟨t₂, t₃, state₁, rfl, h₂, h₃⟩ := exec_bind.mp h₁
    obtain ⟨rfl, heq⟩ := exec_pure.mp h₃
    obtain ⟨-, rfl⟩ := Prod.mk.inj heq
    obtain ⟨hedits, hkeeps, hnohook⟩ := logConfigChange_edits h₂
    refine ⟨hedits.trans ((edits_commitAppConfig _ records sourceTokens).trans ⟨rfl, .refl _⟩),
      .inr ⟨t₂, by rw [List.append_nil], ?_, hnohook⟩⟩
    show encodeXposedConfigPayload (commitAppConfig state₁ records sourceTokens).settings
      (encodeAppConfig (commitAppConfig state₁ records sourceTokens).appConfig) = .ok xposedPayload
    rw [commitAppConfig_settings, commitAppConfig_appConfig, hkeeps.config.settings, hpayload]
  -- A refusal and an error both end in a rollback.
  | .ok false =>
    obtain ⟨t₂, t₃, ⟨rollback, state₁⟩, rfl, h₂, h₃⟩ := exec_bind.mp h₁
    obtain ⟨hedits, hsynced⟩ := rollbackFailedAppConfigUpdate_edits h₂
    match rollback with
    | .error _ | .ok () =>
      obtain ⟨t₄, t₅, state₂, rfl, h₄, h₅⟩ := exec_bind.mp h₃
      obtain ⟨-, heq⟩ := exec_pure.mp h₅
      obtain ⟨-, rfl⟩ := Prod.mk.inj heq
      obtain ⟨hlogged, hkeeps, -⟩ := appendLegacyLogMessage_edits h₄
      exact ⟨hedits.trans hlogged, .inl (hkeeps.synced.trans hsynced)⟩
  | .error _ =>
    obtain ⟨t₂, t₃, ⟨rollback, state₁⟩, rfl, h₂, h₃⟩ := exec_bind.mp h₁
    obtain ⟨hedits, hsynced⟩ := rollbackFailedAppConfigUpdate_edits h₂
    match rollback with
    | .error _ | .ok () =>
      obtain ⟨-, heq⟩ := exec_pure.mp h₃
      obtain ⟨-, rfl⟩ := Prod.mk.inj heq
      exact ⟨hedits, .inl hsynced⟩

/-- The request to set the policy edits the manager's part, and accounts for the hook. -/
theorem setAppConfig_edits {payload : Bytes} {r : Except DaemonError Bytes}
    (h : Exec (setAppConfig state payload) t (r, state')) :
    Edits state state' ∧ Resynced state t state' := by
  unfold setAppConfig at h
  dsimp only at h
  split at h
  · obtain ⟨rfl, heq⟩ := exec_pure.mp h
    obtain ⟨-, rfl⟩ := Prod.mk.inj heq
    exact ⟨.refl _, .untouched (.refl _) (by simp)⟩
  · split at h
    · obtain ⟨rfl, heq⟩ := exec_pure.mp h
      obtain ⟨-, rfl⟩ := Prod.mk.inj heq
      exact ⟨.refl _, .untouched (.refl _) (by simp)⟩
    · split at h
      · obtain ⟨rfl, heq⟩ := exec_pure.mp h
        obtain ⟨-, rfl⟩ := Prod.mk.inj heq
        exact ⟨.refl _, .untouched (.refl _) (by simp)⟩
      · next xposedPayload hpayload =>
        obtain ⟨t₁, t₂, previous, rfl, h₁, h₂⟩ := exec_bind.mp h
        have hread := readExistingFile_calls _ _ _ h₁
        match previous with
        | .error error =>
          obtain ⟨rfl, heq⟩ := exec_pure.mp h₂
          obtain ⟨-, rfl⟩ := Prod.mk.inj heq
          rw [List.append_nil]
          exact ⟨.refl _, .untouched (.refl _) hread⟩
        | .ok previousFile =>
          obtain ⟨t₃, t₄, persisted, rfl, -, h₄⟩ := exec_bind.mp h₂
          match persisted with
          | .error error =>
            obtain ⟨-, heq⟩ := exec_pure.mp h₄
            obtain ⟨-, rfl⟩ := Prod.mk.inj heq
            exact ⟨edits_unsync state, .unsynced rfl⟩
          | .ok (.committedButUnconfirmed sourceTokens) =>
            obtain ⟨t₅, t₆, state₁, rfl, h₅, h₆⟩ := exec_bind.mp h₄
            obtain ⟨-, heq⟩ := exec_pure.mp h₆
            obtain ⟨-, rfl⟩ := Prod.mk.inj heq
            obtain ⟨hlogged, hkeeps, -⟩ := appendLegacyLogMessage_edits h₅
            exact ⟨((edits_commitAppConfig state _ sourceTokens).trans (edits_unsync _)).trans
              hlogged, .unsynced hkeeps.synced⟩
          | .ok (.durable sourceTokens) =>
            obtain ⟨hedits, hsynced | ⟨t₅, rfl, htaken, hnohook⟩⟩ := finishAppConfig_edits hpayload h₄
            · exact ⟨hedits, .unsynced hsynced⟩
            · rw [← List.append_assoc]
              exact ⟨hedits, .taken htaken hnohook⟩

/-! ## SetSettingsVar -/

/-- A setting is written and committed, or nothing happens, or the hook has to be synced. -/
theorem setSettingsVar_edits {payload : Bytes} {response : String}
    (h : Exec (setSettingsVar state payload) t (response, state')) :
    Edits state state' ∧ (response = "success" ∨ state'.hookConfigSynced = false
      ∨ t = [] ∧ state' = state) := by
  unfold setSettingsVar at h
  split at h
  · next index value =>
    split at h
    · obtain ⟨rfl, heq⟩ := exec_pure.mp h
      obtain ⟨-, rfl⟩ := Prod.mk.inj heq
      exact ⟨.refl _, .inr (.inr ⟨rfl, rfl⟩)⟩
    · dsimp only at h
      split at h
      · obtain ⟨rfl, heq⟩ := exec_pure.mp h
        obtain ⟨-, rfl⟩ := Prod.mk.inj heq
        exact ⟨edits_unsync state, .inr (.inl rfl)⟩
      · obtain ⟨t₁, t₂, written, rfl, -, h₂⟩ := exec_bind.mp h
        match written with
        | .ok () =>
          obtain ⟨-, heq⟩ := exec_pure.mp h₂
          obtain ⟨rfl, rfl⟩ := Prod.mk.inj heq
          exact ⟨edits_commitSettings _ _, .inl rfl⟩
        | .error error =>
          obtain ⟨t₃, t₄, persisted, rfl, -, h₄⟩ := exec_bind.mp h₂
          obtain ⟨-, heq⟩ := exec_pure.mp h₄
          obtain ⟨-, rfl⟩ := Prod.mk.inj heq
          cases persisted with
          | true => exact ⟨(edits_commitSettings _ _).trans (edits_unsync _), .inr (.inl rfl)⟩
          | false => exact ⟨edits_unsync _, .inr (.inl rfl)⟩
  · obtain ⟨rfl, heq⟩ := exec_pure.mp h
    obtain ⟨-, rfl⟩ := Prod.mk.inj heq
    exact ⟨.refl _, .inr (.inr ⟨rfl, rfl⟩)⟩

/-- The log of the response; a success marks the hook as not synced. -/
theorem logSettingsResponse_edits {response : String}
    (h : Exec (logSettingsResponse state response) t state') :
    Edits state state' ∧ (∀ call ∈ t, ¬ HookCall call)
      ∧ (response ≠ "success" → KeepsPolicy state state') ∧ (response = "success" →
        state'.hookConfigSynced = false) ∧ (state.hookConfigSynced = false →
        state'.hookConfigSynced = false) := by
  unfold logSettingsResponse at h
  split at h
  · next hsuccess =>
    obtain ⟨hedits, hkeeps, hnohook⟩ := appendLegacyLogMessage_edits h
    exact ⟨(edits_unsync state).trans hedits, hnohook, fun hne => absurd hsuccess hne,
      fun _ => hkeeps.synced, fun _ => hkeeps.synced⟩
  · next hfailed =>
    obtain ⟨hedits, hkeeps, hnohook⟩ := appendLegacyLogMessage_edits h
    exact ⟨hedits, hnohook, fun _ => hkeeps, fun heq => absurd heq hfailed,
      fun hfalse => hkeeps.synced.trans hfalse⟩

/-- The request to write a setting, with its log. -/
theorem setSettingsVar_resynced {payload : Bytes} {response : String} {state₁ : ReadOnlyState}
    (h₁ : Exec (setSettingsVar state payload) t₁ (response, state₁))
    (h₂ : Exec (logSettingsResponse state₁ response) t₂ state') :
    Edits state state' ∧ Resynced state (t₁ ++ t₂) state' := by
  obtain ⟨hset, hkind⟩ := setSettingsVar_edits h₁
  obtain ⟨hlogged, hnohook, hkeeps, hsuccess, hfalse⟩ := logSettingsResponse_edits h₂
  refine ⟨hset.trans hlogged, ?_⟩
  by_cases hr : response = "success"
  · exact .unsynced (hsuccess hr)
  · -- Nothing was written: the payload was refused, or the claim is given up.
    obtain hsynced | ⟨rfl, rfl⟩ := hkind.resolve_left hr
    · exact .unsynced (hfalse hsynced)
    · exact .untouched (hkeeps hr) hnohook

/-! ## All requests -/

/-- What a request may have changed, whatever it was and whatever the files and the hook
    answered. -/
structure RequestEffect (frame : ManagerFrame) (state : ReadOnlyState) (t : ManagerTrace)
    (state' : ReadOnlyState) : Prop where
  control  : state'.controlPart = state.controlPart
  pushed   : frame.command ≠ .clearLog → Pushed state.managerLog state'.managerLog
  cleared  : frame.command = .clearLog →
    ∃ nowMs, state'.managerLog = state.managerLog.clear nowMs
  resynced : Resynced state t state'
  policy   : isPolicyMutationCommand frame.command = false → KeepsPolicy state state'
  hookCalls : isPolicyMutationCommand frame.command = false → ∀ call ∈ t, ¬ HookCall call

/-- A request that edits the state without the hook or the policy. -/
theorem RequestEffect.of_edits {frame : ManagerFrame} (hclear : frame.command ≠ .clearLog)
    (hedits : Edits state state') (hkeeps : KeepsPolicy state state')
    (hnohook : ∀ call ∈ t, ¬ HookCall call) : RequestEffect frame state t state' where
  control     := hedits.control
  pushed _    := hedits.log
  cleared h   := absurd h hclear
  resynced    := .untouched hkeeps hnohook
  policy _    := hkeeps
  hookCalls _ := hnohook

/-- A write asks the hook nothing. -/
theorem atomicWrite_noHook (path : String) (payload : Bytes) :
    Calls (fun call => ¬ HookCall call) (atomicWrite path payload) := by
  intro t r h call hcall
  exact (atomicWrite_calls h call hcall).not_hook

/-- New labels keep the policy. -/
theorem setAppLabel_edits {payload : Bytes} {r : Except DaemonError Bytes}
    (h : Exec (setAppLabel state payload) t (r, state')) :
    Edits state state' ∧ KeepsPolicy state state' ∧ ∀ call ∈ t, ¬ HookCall call := by
  unfold setAppLabel at h
  split at h
  · obtain ⟨rfl, heq⟩ := exec_pure.mp h
    obtain ⟨-, rfl⟩ := Prod.mk.inj heq
    exact ⟨.refl _, .refl _, by simp⟩
  · obtain ⟨t₁, t₂, written, rfl, h₁, h₂⟩ := exec_bind.mp h
    have hwrite := atomicWrite_noHook _ _ _ _ h₁
    match written with
    | .error error =>
      obtain ⟨rfl, heq⟩ := exec_pure.mp h₂
      obtain ⟨-, rfl⟩ := Prod.mk.inj heq
      exact ⟨.refl _, .refl _, by simpa using hwrite⟩
    | .ok () =>
      obtain ⟨t₃, t₄, state₁, rfl, h₃, h₄⟩ := exec_bind.mp h₂
      obtain ⟨rfl, heq⟩ := exec_pure.mp h₄
      obtain ⟨-, rfl⟩ := Prod.mk.inj heq
      obtain ⟨hedits, hkeeps, hlog⟩ := appendLegacyLogMessage_edits h₃
      refine ⟨hedits, hkeeps, ?_⟩
      intro call hcall
      rw [List.append_nil] at hcall
      exact (List.mem_append.mp hcall).elim (hwrite call) (hlog call)

/-- The times of the uids keep the policy. -/
theorem encodeUidTime_edits {r : Except DaemonError Bytes}
    (h : Exec (encodeUidTime state) t (r, state')) :
    Edits state state' ∧ KeepsPolicy state state' ∧ ∀ call ∈ t, ¬ HookCall call := by
  obtain ⟨answer, t₁, rfl, h₁⟩ := exec_ask_bind.mp h
  have hnohook : ∀ call ∈ [(⟨.readUidTime state.uidTimePath, answer⟩ : ManagerCall)],
      ¬ HookCall call := by simp [HookCall]
  dsimp only at h₁
  split at h₁
  · obtain ⟨rfl, heq⟩ := exec_pure.mp h₁
    obtain ⟨-, rfl⟩ := Prod.mk.inj heq
    exact ⟨⟨rfl, .refl _⟩, ⟨⟨rfl, rfl, rfl, rfl⟩, rfl⟩, hnohook⟩
  · obtain ⟨rfl, heq⟩ := exec_pure.mp h₁
    obtain ⟨-, rfl⟩ := Prod.mk.inj heq
    exact ⟨⟨rfl, .refl _⟩, ⟨⟨rfl, rfl, rfl, rfl⟩, rfl⟩, hnohook⟩

/-- The requests that only read. -/
theorem handleReadOnlyCommand_noHook (command : ManagerCommand) :
    Calls (fun call => ¬ HookCall call) (handleReadOnlyCommand command state) := by
  cases command with
  | getLog => exact calls_ask_bind (fun text => by simp [HookCall]) fun text => calls_pure
  | _ => exact calls_pure

/-- What any request may do to the shared state. -/
theorem handleManagerCommand_effect {frame : ManagerFrame} {r : Except DaemonError Bytes}
    (h : Exec (handleManagerCommand frame state) t (r, state')) :
    RequestEffect frame state t state' := by
  obtain ⟨command, payload⟩ := frame
  unfold handleManagerCommand at h
  -- The commands that only read.
  have hreads : ∀ {t r}, Exec (do return (← handleReadOnlyCommand command state, state)) t
      (r, state') → command ≠ .clearLog → RequestEffect ⟨command, payload⟩ state t state' := by
    intro t r h hclear
    obtain ⟨t₁, t₂, response, rfl, h₁, h₂⟩ := exec_bind.mp h
    obtain ⟨rfl, heq⟩ := exec_pure.mp h₂
    obtain ⟨-, rfl⟩ := Prod.mk.inj heq
    have hnohook := handleReadOnlyCommand_noHook command _ _ h₁
    exact .of_edits hclear (.refl _) (.refl _) (by simpa using hnohook)
  -- Only two commands change the policy, and only one clears the log.
  cases command with
  | setAppCfg =>
    obtain ⟨hedits, hresynced⟩ := setAppConfig_edits h
    exact {
      control   := hedits.control
      pushed    := fun _ => hedits.log
      cleared   := fun h => by cases h
      resynced  := hresynced
      policy    := fun h => by cases h
      hookCalls := fun h => by cases h }
  -- The change and the line in the log are two steps, and both are accounted for.
  | setSettingsVar =>
    obtain ⟨t₁, t₂, ⟨response, state₁⟩, rfl, h₁, h₂⟩ := exec_bind.mp h
    obtain ⟨t₃, t₄, state₂, rfl, h₃, h₄⟩ := exec_bind.mp h₂
    obtain ⟨rfl, heq⟩ := exec_pure.mp h₄
    obtain ⟨-, rfl⟩ := Prod.mk.inj heq
    obtain ⟨hedits, hresynced⟩ := setSettingsVar_resynced h₁ h₃
    rw [List.append_nil]
    exact {
      control   := hedits.control
      pushed    := fun _ => hedits.log
      cleared   := fun h => by cases h
      resynced  := hresynced
      policy    := fun h => by cases h
      hookCalls := fun h => by cases h }
  | setAppLabel =>
    obtain ⟨hedits, hkeeps, hnohook⟩ := setAppLabel_edits h
    exact .of_edits (by simp) hedits hkeeps hnohook
  | getUidTime =>
    obtain ⟨hedits, hkeeps, hnohook⟩ := encodeUidTime_edits h
    exact .of_edits (by simp) hedits hkeeps hnohook
  | getRealTimeInfo =>
    obtain ⟨answer, t₁, rfl, h₁⟩ := exec_ask_bind.mp h
    obtain ⟨rfl, heq⟩ := exec_pure.mp h₁
    obtain ⟨-, rfl⟩ := Prod.mk.inj heq
    exact .of_edits (by simp) (.refl _) (.refl _) (by simp [HookCall])
  | getFreezeStatus =>
    obtain ⟨rfl, heq⟩ := exec_pure.mp h
    obtain ⟨-, rfl⟩ := Prod.mk.inj heq
    exact .of_edits (by simp) (.refl _) (.refl _) (by simp)
  | clearLog =>
    obtain ⟨nowMs, t₁, rfl, h₁⟩ := exec_ask_bind.mp h
    obtain ⟨rfl, heq⟩ := exec_pure.mp h₁
    obtain ⟨-, rfl⟩ := Prod.mk.inj heq
    have hkeeps : KeepsPolicy state { state with managerLog := state.managerLog.clear nowMs } :=
      ⟨⟨rfl, rfl, rfl, rfl⟩, rfl⟩
    have hnohook : ∀ call ∈ [(⟨.now, nowMs⟩ : ManagerCall)], ¬ HookCall call := by simp [HookCall]
    exact {
      control   := rfl
      pushed    := fun hne => absurd rfl hne
      cleared   := fun _ => ⟨nowMs, rfl⟩
      resynced  := .untouched hkeeps hnohook
      policy    := fun _ => hkeeps
      hookCalls := fun _ => hnohook }
  | getProcState =>
    obtain ⟨t₁, t₂, state₁, rfl, h₁, h₂⟩ := exec_bind.mp h
    obtain ⟨text, t₃, rfl, h₃⟩ := exec_ask_bind.mp h₂
    obtain ⟨rfl, heq⟩ := exec_pure.mp h₃
    obtain ⟨-, rfl⟩ := Prod.mk.inj heq
    obtain ⟨hedits, hkeeps, hnohook⟩ := appendLegacyLogMessage_edits h₁
    refine .of_edits (by simp) hedits hkeeps ?_
    intro call hcall
    rcases List.mem_append.mp hcall with hcall | hcall
    · exact hnohook call hcall
    · obtain rfl := List.mem_singleton.mp hcall
      simp [HookCall]
  | getPropInfo => exact hreads h (by decide)
  | getChangelog => exact hreads h (by decide)
  | getLog => exact hreads h (by decide)
  | getAppCfg => exact hreads h (by decide)
  | getSettings => exact hreads h (by decide)
  | getXpLog => exact hreads h (by decide)
  | getHealthReport => exact hreads h (by decide)
  | getCapabilityReport => exact hreads h (by decide)
  | getCompatibilityBaseline => exact hreads h (by decide)
  | getOperationLogJson => exact hreads h (by decide)
  | runSelfCheck => exact hreads h (by decide)

end Freezeit
