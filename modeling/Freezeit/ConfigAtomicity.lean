import Freezeit.ManagerRequests

/-! # Configuration requests are atomic

    `SetAppCfg` and `SetSettingsVar` against the files and the hook: what they
    report, what they leave in memory and what they leave on disk. -/

namespace Freezeit

open Prog

/-! ## The configuration files -/

/-- The files that the configuration requests read and write. -/
abbrev ConfigFiles : Type := FileSystem ConfigFile Bytes

/-- The file operation in a call of the manager thread, if it is one. -/
def fileView : ManagerCall → Option (FileEvent ConfigFile Bytes IoError)
  | ⟨.file op, answer⟩ => some ⟨op, answer⟩
  | _                  => none

/-- The error by which a read says that there is no file. -/
def ReportsMissing (error : IoError) : Prop := error.kind = .notFound

/-- The file operations of a trace take the files from one state to another; the other
    calls do not touch them. -/
abbrev FilesRun : ConfigFiles → ManagerTrace → ConfigFiles → Prop :=
  FileRun ReportsMissing ([] : Bytes) fileView

/-- The bytes of a configuration file, if it exists. -/
def fileBytes (fs : ConfigFiles) (path : String) : Option Bytes :=
  (fs (.target path)).map FileNode.content

/-- A call that failed.  Removing a file that is not there does not count. -/
inductive FailedCall : ManagerCall → Prop where
  | truncate : ∀ {path} (error : IoError), FailedCall ⟨.file (.truncate path), .error error⟩
  | write : ∀ {path content} (error : IoError), FailedCall ⟨.file (.write path content), .error error⟩
  | sync : ∀ {path} (error : IoError), FailedCall ⟨.file (.sync path), .error error⟩
  | rename : ∀ {source target} (error : IoError),
      FailedCall ⟨.file (.rename source target), .error error⟩
  | remove : ∀ {path} (error : IoError), ¬ ReportsMissing error →
      FailedCall ⟨.file (.remove path), .error error⟩
  | syncParent : ∀ {path} (error : IoError), FailedCall ⟨.syncParent path, .error error⟩

/-- The calls of the writer. -/
inductive WriteCall (path : String) : ManagerCall → Prop where
  | truncate : ∀ answer, WriteCall path ⟨.file (.truncate (.temporary path)), answer⟩
  | write : ∀ content answer, WriteCall path ⟨.file (.write (.temporary path) content), answer⟩
  | sync : ∀ answer, WriteCall path ⟨.file (.sync (.temporary path)), answer⟩
  | rename : ∀ answer, WriteCall path ⟨.file (.rename (.temporary path) (.target path)), answer⟩
  | syncParent : ∀ answer, WriteCall path ⟨.syncParent path, answer⟩

variable {fs fs' : ConfigFiles} {t t₁ t₂ : ManagerTrace} {path : String} {payload : Bytes}
  {state state' : ReadOnlyState}

/-- A file operation at the head of a trace is one step of the files. -/
theorem filesRun_file {op : FileOp ConfigFile Bytes} {answer : op.Answer IoError} :
    FilesRun fs (⟨.file op, answer⟩ :: t) fs' ↔
      ∃ fs₁, FileStep ReportsMissing [] fs op answer fs₁ ∧ FilesRun fs₁ t fs' :=
  FileRun.cons_of_some (show fileView ⟨.file op, answer⟩ = some ⟨op, answer⟩ from rfl)

/-- Any other call leaves them as they are. -/
theorem filesRun_other {e : ManagerCall} (he : fileView e = none) :
    FilesRun fs (e :: t) fs' ↔ FilesRun fs t fs' := FileRun.cons_of_none he

/-- The file is as it was when no call of the trace can have changed it. -/
theorem bytes_frame (h : FilesRun fs t fs')
    (ht : ∀ e ∈ t, ∀ call, fileView e = some call → ¬ call.query.Touches (.target path)) :
    fileBytes fs' path = fileBytes fs path := by
  unfold fileBytes
  rw [h.frame ht]

/-- The parent directory is synced, or the path has none and nothing is asked. -/
theorem syncParent_spec {r : Except DaemonError Unit} (h : Exec (syncParent path) t r) :
    (t = [] ∧ (∃ error, r = .error error) ∧ pathHasParent path = false)
      ∨ ∃ answer, t = [⟨.syncParent path, answer⟩] ∧ r = answer.mapError .io := by
  unfold syncParent at h
  by_cases hparent : pathHasParent path = true
  · rw [if_neg (by simp [hparent])] at h
    obtain ⟨answer, t₁, rfl, hrest⟩ := exec_ask_bind.mp h
    obtain ⟨rfl, rfl⟩ := exec_pure.mp hrest
    exact .inr ⟨answer, rfl, rfl⟩
  · rw [if_pos (by simpa using hparent)] at h
    obtain ⟨rfl, rfl⟩ := exec_pure.mp h
    exact .inl ⟨rfl, ⟨_, rfl⟩, by simpa using hparent⟩

/-- The writer replaces the file as a whole or leaves it; it reports success
    only when it has replaced it. -/
theorem atomicWrite_effect {r : Except DaemonError Unit}
    (h : Exec (atomicWrite path payload) t r) (hfs : FilesRun fs t fs') :
    pathFileName path ≠ none ∧ fileBytes fs' path = some payload
      ∨ fileBytes fs' path = fileBytes fs path ∧ (∃ error, r = .error error)
        ∧ ((∃ call ∈ t, FailedCall call) ∨ pathFileName path = none) := by
  unfold atomicWrite at h
  by_cases hname : pathFileName path = none
  · rw [if_pos (by simp [hname])] at h
    obtain ⟨rfl, rfl⟩ := exec_pure.mp h
    obtain rfl := FileRun.nil_iff.mp hfs
    exact .inr ⟨rfl, ⟨_, rfl⟩, .inr hname⟩
  · rw [if_neg (by simp [hname])] at h
    obtain ⟨truncated, t₁, rfl, h₁⟩ := exec_ask_bind.mp h
    -- The target changes with the rename alone. Before it every failure leaves the old
    -- bytes, after it only the sync of the directory can fail.
    match truncated with
    | .error error =>
      obtain ⟨rfl, rfl⟩ := exec_pure.mp h₁
      refine .inr ⟨bytes_frame hfs ?_, ⟨_, rfl⟩, .inl ⟨_, List.mem_cons_self, .truncate error⟩⟩
      simp [fileView, FileOp.Touches]
    | .ok () =>
      obtain ⟨written, t₂, rfl, h₂⟩ := exec_ask_bind.mp h₁
      match written with
      | .error error =>
        obtain ⟨rfl, rfl⟩ := exec_pure.mp h₂
        refine .inr ⟨bytes_frame hfs ?_, ⟨_, rfl⟩, .inl ⟨_, List.mem_of_getElem? (i := 1) rfl, .write error⟩⟩
        simp [fileView, FileOp.Touches]
      | .ok () =>
        obtain ⟨synced, t₃, rfl, h₃⟩ := exec_ask_bind.mp h₂
        match synced with
        | .error error =>
          obtain ⟨rfl, rfl⟩ := exec_pure.mp h₃
          refine .inr ⟨bytes_frame hfs ?_, ⟨_, rfl⟩, .inl ⟨_, List.mem_of_getElem? (i := 2) rfl, .sync error⟩⟩
          simp [fileView, FileOp.Touches]
        | .ok () =>
          obtain ⟨renamed, t₄, rfl, h₄⟩ := exec_ask_bind.mp h₃
          match renamed with
          | .error error =>
            obtain ⟨rfl, rfl⟩ := exec_pure.mp h₄
            refine .inr ⟨?_, ⟨_, rfl⟩,
              .inl ⟨_, List.mem_of_getElem? (i := 3) rfl, .rename error⟩⟩
            obtain ⟨before, hbefore, hrename⟩ :=
              FileRun.append_iff.mp (show FilesRun fs ([_, _, _] ++ [_]) fs' from hfs)
            obtain ⟨fs₂, hstep, hend⟩ := filesRun_file.mp hrename
            obtain rfl := hstep.rename_error
            obtain rfl := FileRun.nil_iff.mp hend
            refine bytes_frame hbefore ?_
            simp [fileView, FileOp.Touches]
          | .ok () =>
            obtain ⟨fs₁, -, hfs₁⟩ := filesRun_file.mp hfs
            obtain ⟨fs₂, hwrite, hfs₂⟩ := filesRun_file.mp hfs₁
            obtain ⟨fs₃, hsync, hfs₃⟩ := filesRun_file.mp hfs₂
            obtain ⟨fs₄, hrename, hfs₄⟩ := filesRun_file.mp hfs₃
            refine .inl ⟨hname, ?_⟩
            have hlast : fileBytes fs' path = fileBytes fs₄ path := by
              refine bytes_frame hfs₄ ?_
              rcases syncParent_spec h₄ with ⟨rfl, -⟩ | ⟨answer, rfl, -⟩
              · simp
              · simp [fileView]
            have hcontent : ∃ inode, fs₂ (.temporary path) = some ⟨inode, payload⟩ := by
              cases hwrite with
              | written hfill => exact hfill.content
            cases hsync
            cases hrename with
            | renamed hsource =>
              obtain ⟨inode, hinode⟩ := hcontent
              obtain rfl := Option.some.inj (hsource.symm.trans hinode)
              rw [hlast]
              simp [fileBytes]

/-- An atomic write makes no other calls than those on its temporary file, its target and
    their directory. -/
theorem atomicWrite_calls {r : Except DaemonError Unit}
    (h : Exec (atomicWrite path payload) t r) : ∀ call ∈ t, WriteCall path call := by
  unfold atomicWrite at h
  split at h
  · obtain ⟨rfl, rfl⟩ := exec_pure.mp h
    simp
  · obtain ⟨truncated, t₁, rfl, h₁⟩ := exec_ask_bind.mp h
    match truncated with
    | .error error =>
      obtain ⟨rfl, rfl⟩ := exec_pure.mp h₁
      simpa using WriteCall.truncate _
    | .ok () =>
      obtain ⟨written, t₂, rfl, h₂⟩ := exec_ask_bind.mp h₁
      match written with
      | .error error =>
        obtain ⟨rfl, rfl⟩ := exec_pure.mp h₂
        simpa using ⟨WriteCall.truncate _, WriteCall.write _ _⟩
      | .ok () =>
        obtain ⟨synced, t₃, rfl, h₃⟩ := exec_ask_bind.mp h₂
        match synced with
        | .error error =>
          obtain ⟨rfl, rfl⟩ := exec_pure.mp h₃
          simpa using ⟨WriteCall.truncate _, WriteCall.write _ _, WriteCall.sync _⟩
        | .ok () =>
          obtain ⟨renamed, t₄, rfl, h₄⟩ := exec_ask_bind.mp h₃
          match renamed with
          | .error error =>
            obtain ⟨rfl, rfl⟩ := exec_pure.mp h₄
            simpa using
              ⟨WriteCall.truncate _, WriteCall.write _ _, WriteCall.sync _, WriteCall.rename _⟩
          | .ok () =>
            rcases syncParent_spec h₄ with ⟨rfl, -⟩ | ⟨answer, rfl, -⟩
            · simpa using
                ⟨WriteCall.truncate _, WriteCall.write _ _, WriteCall.sync _, WriteCall.rename _⟩
            · simpa using ⟨WriteCall.truncate _, WriteCall.write _ _, WriteCall.sync _,
                WriteCall.rename _, WriteCall.syncParent _⟩

/-! ## Which calls a request made -/

/-- The hook was asked. -/
def HookCall (call : ManagerCall) : Prop := ∃ payload, call.query = .setAppConfig payload

/-- The writer was called. -/
def WriterCall (call : ManagerCall) : Prop := ∃ file, call.query = .file (.truncate file)

/-- Restoring the previous file failed: a call after the hook's refusal did. -/
def RestoreFails (t : ManagerTrace) : Prop :=
  ∃ pre hook post, t = pre ++ hook :: post ∧ HookCall hook ∧ ∃ call ∈ post, FailedCall call

/-- The file was written to and could then not be read. -/
def ReadBackFails (t : ManagerTrace) : Prop :=
  ∃ pre file error post, t = pre ++ ⟨.file (.read file), .error error⟩ :: post
    ∧ ¬ ReportsMissing error ∧ ∃ call ∈ pre, WriterCall call

/-- A failed read-back in the first part of a trace is one of the whole trace. -/
theorem ReadBackFails.left (h : ReadBackFails t₁) : ReadBackFails (t₁ ++ t₂) := by
  obtain ⟨pre, file, error, post, rfl, hrest⟩ := h
  exact ⟨pre, file, error, post ++ t₂, by simp, hrest⟩

/-- A failed read-back in the second part of a trace is one of the whole trace. -/
theorem ReadBackFails.right (h : ReadBackFails t₂) : ReadBackFails (t₁ ++ t₂) := by
  obtain ⟨pre, file, error, post, rfl, hmissing, call, hcall, hwriter⟩ := h
  exact ⟨t₁ ++ pre, file, error, post, by simp, hmissing, call, List.mem_append_right _ hcall,
    hwriter⟩

/-- A write never talks to the hook. -/
theorem WriteCall.not_hook {call : ManagerCall} (h : WriteCall path call) : ¬ HookCall call := by
  rintro ⟨payload, hquery⟩
  cases h with
  | _ => cases hquery

/-- A writer that did anything opened the temporary file. -/
theorem atomicWrite_opens {r : Except DaemonError Unit} (h : Exec (atomicWrite path payload) t r)
    (hname : pathFileName path ≠ none) : ∃ call ∈ t, WriterCall call := by
  unfold atomicWrite at h
  rw [if_neg (by simpa using hname)] at h
  obtain ⟨truncated, t₁, rfl, -⟩ := exec_ask_bind.mp h
  exact ⟨_, List.mem_cons_self, .temporary path, rfl⟩

/-- Reading changes nothing and tells what the file holds. -/
theorem read_effect {answer : Except IoError Bytes}
    (h : FilesRun fs [⟨.file (.read (.target path)), answer⟩] fs') :
    fs' = fs ∧ (∀ bytes, answer = .ok bytes → fileBytes fs path = some bytes)
      ∧ ∀ error, answer = .error error → ReportsMissing error → fileBytes fs path = none := by
  obtain ⟨fs₁, hread, hnil⟩ := filesRun_file.mp h
  obtain rfl := FileRun.nil_iff.mp hnil
  cases hread with
  | read hnode =>
    refine ⟨rfl, fun bytes hbytes => ?_, nofun⟩
    obtain rfl := Except.ok.inj hbytes
    simp [fileBytes, hnode]
  | readFailed error hmissing =>
    refine ⟨rfl, nofun, fun error' herror hreports => ?_⟩
    obtain rfl := Except.error.inj herror
    simp [fileBytes, hmissing.mp hreports]

/-- The file is read once and not changed, and a successful answer is its content. -/
theorem readExistingFile_effect {r : Except DaemonError (Option Bytes)}
    (h : Exec (readExistingFile (some path)) t r) (hfs : FilesRun fs t fs') :
    fs' = fs ∧ (∃ answer, t = [⟨.file (.read (.target path)), answer⟩])
      ∧ ∀ previous, r = .ok previous → fileBytes fs path = previous := by
  obtain ⟨answer, t₁, rfl, hrest⟩ := exec_ask_bind.mp h
  match answer with
  | .ok bytes =>
    obtain ⟨rfl, rfl⟩ := exec_pure.mp hrest
    obtain ⟨hsame, hok, -⟩ := read_effect hfs
    refine ⟨hsame, ⟨_, rfl⟩, fun previous hprevious => ?_⟩
    obtain rfl := Except.ok.inj hprevious
    exact hok bytes rfl
  | .error error =>
    obtain ⟨rfl, rfl⟩ := exec_pure.mp hrest
    obtain ⟨hsame, -, hnone⟩ := read_effect hfs
    refine ⟨hsame, ⟨_, rfl⟩, fun previous hprevious => ?_⟩
    -- A missing file is a successful answer too.
    by_cases hkind : error.kind = .notFound
    · rw [if_pos hkind] at hprevious
      obtain rfl := Except.ok.inj hprevious
      exact hnone error rfl hkind
    · rw [if_neg hkind] at hprevious
      cases hprevious

/-- A write that reported failure, and the check of what the file holds. -/
theorem persistedBytesMatch_effect {persisted : Bool}
    (h : Exec (persistedBytesMatch path payload) t persisted) (hfs : FilesRun fs t fs') :
    fs' = fs ∧ (persisted = true → fileBytes fs path = some payload)
      ∧ (persisted = false → fileBytes fs path ≠ some payload
        ∨ ∃ error, t = [⟨.file (.read (.target path)), .error error⟩] ∧ ¬ ReportsMissing error) := by
  obtain ⟨answer, t₁, rfl, hrest⟩ := exec_ask_bind.mp h
  match answer with
  | .ok bytes =>
    obtain ⟨rfl, rfl⟩ := exec_pure.mp hrest
    obtain ⟨hsame, hok, -⟩ := read_effect hfs
    refine ⟨hsame, fun hpersisted => ?_, fun hpersisted => .inl ?_⟩
    · rw [hok bytes rfl, of_decide_eq_true hpersisted]
    · rw [hok bytes rfl]
      exact fun heq => of_decide_eq_false hpersisted (Option.some.inj heq)
  | .error error =>
    obtain ⟨rfl, rfl⟩ := exec_pure.mp hrest
    obtain ⟨hsame, -, hnone⟩ := read_effect hfs
    refine ⟨hsame, fun hpersisted => (Bool.false_ne_true hpersisted).elim, fun _ => ?_⟩
    -- The file is known to be absent, or it could not be read: then it counts as not
    -- persisted, whatever it holds.
    by_cases hmissing : ReportsMissing error
    · refine .inl ?_
      rw [hnone error rfl hmissing]
      simp
    · exact .inr ⟨error, rfl, hmissing⟩

/-- Restoring puts the previous file back, unless one of its calls fails. -/
theorem restoreFile_effect {previous : Option Bytes} {r : Except DaemonError Unit}
    (h : Exec (restoreFile (some path) previous) t r) (hfs : FilesRun fs t fs') :
    fileBytes fs' path = previous ∨ (∃ call ∈ t, FailedCall call)
      ∨ fileBytes fs' path = fileBytes fs path ∧ pathFileName path = none := by
  -- The old bytes are written back, or the file is removed if there was none.
  match previous with
  | some bytes =>
    rcases atomicWrite_effect h hfs with ⟨-, hbytes⟩ | ⟨hsame, -, hfailed | hname⟩
    · exact .inl hbytes
    · exact .inr (.inl hfailed)
    · exact .inr (.inr ⟨hsame, hname⟩)
  | none =>
    obtain ⟨answer, t₁, rfl, hrest⟩ := exec_ask_bind.mp h
    obtain ⟨fs₁, hremove, hfs₁⟩ := filesRun_file.mp hfs
    cases hremove with
    | removed hnode =>
      have hlast : fileBytes fs' path = none := by
        have hframe : fileBytes fs' path
            = fileBytes (Function.update fs (.target path) none) path := bytes_frame hfs₁ (by
          rcases syncParent_spec hrest with ⟨rfl, -⟩ | ⟨answer, rfl, -⟩
          · simp
          · simp [fileView])
        rw [hframe]
        simp [fileBytes]
      exact .inl hlast
    | removeFailed error hmissing =>
      obtain ⟨rfl, -⟩ := exec_pure.mp hrest
      obtain rfl := FileRun.nil_iff.mp hfs₁
      by_cases hreports : ReportsMissing error
      · refine .inl ?_
        simp [fileBytes, hmissing.mp hreports]
      · exact .inr (.inl ⟨_, List.mem_cons_self, .remove error hreports⟩)

/-- A log message costs one reading of the clock and touches only the log. -/
theorem appendLegacyLogMessage_spec {message : String}
    (h : Exec (appendLegacyLogMessage state message) t state') :
    ∃ nowMs, t = [⟨.now, nowMs⟩]
      ∧ state' = { state with managerLog := state.managerLog.push (.legacyText nowMs message) } := by
  obtain ⟨nowMs, t₁, rfl, hrest⟩ := exec_ask_bind.mp h
  obtain ⟨rfl, rfl⟩ := exec_pure.mp hrest
  exact ⟨nowMs, rfl, rfl⟩

/-! ## Committing in memory -/

section commit
variable (state : ReadOnlyState) (settings : Bytes) (records : List ManagerAppConfigRecord)
  (sourceTokens : SortedMap Nat String)

/-- The revision that follows is another one, also where it wraps around. -/
theorem advanceConfigRevision_ne :
    (advanceConfigRevision state).configRevision ≠ state.configRevision := by
  show (state.configRevision + 1) % 2 ^ 64 ≠ state.configRevision
  omega

@[simp] theorem commitSettings_settings : (commitSettings state settings).settings = settings := by
  unfold commitSettings
  split
  · rfl
  · rfl

@[simp] theorem commitSettings_appConfig :
    (commitSettings state settings).appConfig = state.appConfig := by
  unfold commitSettings
  split
  · rfl
  · rfl

@[simp] theorem commitSettings_sourceTokens :
    (commitSettings state settings).appConfigSourceTokens = state.appConfigSourceTokens := by
  unfold commitSettings
  split
  · rfl
  · rfl

/-- A commit of settings advances the revision exactly if the settings change. -/
theorem commitSettings_revision :
    (commitSettings state settings).configRevision ≠ state.configRevision
      ↔ settings ≠ state.settings := by
  unfold commitSettings
  split
  · next h => simp [h]
  · next h => exact ⟨fun _ => Ne.symm h, fun _ => advanceConfigRevision_ne _⟩

@[simp] theorem commitAppConfig_settings :
    (commitAppConfig state records sourceTokens).settings = state.settings := by
  unfold commitAppConfig
  dsimp only
  split
  · rfl
  · rfl

@[simp] theorem commitAppConfig_appConfig :
    (commitAppConfig state records sourceTokens).appConfig = records := by
  unfold commitAppConfig
  dsimp only
  split
  · rfl
  · rfl

@[simp] theorem commitAppConfig_sourceTokens :
    (commitAppConfig state records sourceTokens).appConfigSourceTokens = sourceTokens := by
  unfold commitAppConfig
  dsimp only
  split
  · rfl
  · rfl

/-- A commit of the policy advances it exactly if the policy changes. -/
theorem commitAppConfig_revision :
    (commitAppConfig state records sourceTokens).configRevision ≠ state.configRevision
      ↔ records ≠ state.appConfig := by
  unfold commitAppConfig
  dsimp only
  split
  · next h => simp [h]
  · next h => exact ⟨fun _ => Ne.symm h, fun _ => advanceConfigRevision_ne _⟩

end commit

/-- The configuration in memory did not change. -/
structure SameConfig (state state' : ReadOnlyState) : Prop where
  settings     : state'.settings = state.settings
  appConfig    : state'.appConfig = state.appConfig
  sourceTokens : state'.appConfigSourceTokens = state.appConfigSourceTokens
  revision     : state'.configRevision = state.configRevision

theorem SameConfig.refl (state : ReadOnlyState) : SameConfig state state := ⟨rfl, rfl, rfl, rfl⟩

/-! ## SetAppCfg -/

/-- What a new configuration is stored as: its source tokens and its bytes.  A
    file that exists is left alone when no record changes. -/
def persistedConfig (state : ReadOnlyState) (records : List ManagerAppConfigRecord)
    (previousFile : Option Bytes) : Except DaemonError (SortedMap Nat String × Bytes) :=
  match previousFile with
  | some bytes =>
    if records = state.appConfig then .ok (retainedSourceTokens state state.appConfig, bytes)
    else (renderAppConfig state state.appConfig records previousFile).map stored
  | none => (renderAppConfig state state.appConfig records previousFile).map stored
where
  stored : String × SortedMap Nat String → SortedMap Nat String × Bytes
    | (text, sourceTokens) =>
      (sourceTokens.retain fun uid _ => (recordsByUid records).contains uid, utf8Bytes text)

/-- The outcomes of persisting the policy, with what the file holds after each of them. An
    error means that the old file is in place; only a read-back that fails can hide that the
    new one is. -/
theorem persistAppConfig_effect {records : List ManagerAppConfigRecord}
    {previousFile : Option Bytes} {r : Except DaemonError AppConfigPersistenceOutcome}
    (hpath : state.appConfigPath = some path) (hprevious : fileBytes fs path = previousFile)
    (h : Exec (persistAppConfig state state.appConfig records previousFile) t r)
    (hfs : FilesRun fs t fs') :
    (∀ call ∈ t, ¬ HookCall call) ∧
      match r with
      | .error _ => fileBytes fs' path = previousFile ∨ ReadBackFails t
      | .ok (.durable sourceTokens) =>
        ∃ bytes, persistedConfig state records previousFile = .ok (sourceTokens, bytes)
          ∧ fileBytes fs' path = some bytes
          ∧ (fileBytes fs' path = previousFile ∨ pathFileName path ≠ none)
      | .ok (.committedButUnconfirmed sourceTokens) =>
        ∃ bytes, persistedConfig state records previousFile = .ok (sourceTokens, bytes)
          ∧ fileBytes fs' path = some bytes := by
  unfold persistAppConfig at h
  rw [hpath] at h
  dsimp only at h
  -- Nothing is written if the records are the same and there is a file.
  by_cases hkeep : previousFile.isSome ∧ records = state.appConfig
  · rw [if_pos hkeep] at h
    obtain ⟨rfl, rfl⟩ := exec_pure.mp h
    obtain rfl := FileRun.nil_iff.mp hfs
    obtain ⟨bytes, hbytes⟩ := Option.isSome_iff_exists.mp hkeep.1
    exact ⟨by simp, bytes, by simp [persistedConfig, hbytes, hkeep.2], hprevious.trans hbytes,
      .inl hprevious⟩
  · rw [if_neg hkeep] at h
    -- Otherwise the rendered text is written, and if that reports an error it is read
    -- back.
    have hstored : ∀ text sourceTokens,
        renderAppConfig state state.appConfig records previousFile = .ok (text, sourceTokens) →
        persistedConfig state records previousFile
          = .ok (persistedConfig.stored records (text, sourceTokens)) := by
      intro text sourceTokens hrender
      unfold persistedConfig
      cases previousFile with
      | none =>
        rw [hrender]
        rfl
      | some bytes =>
        dsimp only
        rw [hrender, if_neg fun hsame => hkeep ⟨rfl, hsame⟩]
        rfl
    cases hrender : renderAppConfig state state.appConfig records previousFile with
    | error error =>
      rw [hrender] at h
      obtain ⟨rfl, rfl⟩ := exec_pure.mp h
      obtain rfl := FileRun.nil_iff.mp hfs
      exact ⟨by simp, .inl hprevious⟩
    | ok rendered =>
      obtain ⟨text, sourceTokens⟩ := rendered
      rw [hrender] at h
      dsimp only at h
      obtain ⟨t₁, t₂, written, rfl, h₁, h₂⟩ := exec_bind.mp h
      obtain ⟨fs₁, hfs₁, hfs₂⟩ := FileRun.append_iff.mp hfs
      have hcalls := atomicWrite_calls h₁
      have heffect := atomicWrite_effect h₁ hfs₁
      match written with
      | .ok () =>
        obtain ⟨rfl, rfl⟩ := exec_pure.mp h₂
        obtain rfl := FileRun.nil_iff.mp hfs₂
        rcases heffect with ⟨hname, hbytes⟩ | ⟨-, ⟨error, herror⟩, -⟩
        · refine ⟨?_, _, hstored text sourceTokens hrender, hbytes, .inr hname⟩
          simpa using fun call hc => (hcalls call hc).not_hook
        · cases herror
      | .error error =>
        obtain ⟨t₃, t₄, persisted, rfl, h₃, h₄⟩ := exec_bind.mp h₂
        obtain ⟨fs₂, hfs₃, hfs₄⟩ := FileRun.append_iff.mp hfs₂
        obtain ⟨rfl, hyes, hno⟩ := persistedBytesMatch_effect h₃ hfs₃
        obtain ⟨answer, t₅, rfl, h₅⟩ := exec_ask_bind.mp h₃
        have hend : t₅ = [] ∧ t₄ = [] := by
          constructor
          · match answer with
            | .ok bytes    => exact (exec_pure.mp h₅).1
            | .error error => exact (exec_pure.mp h₅).1
          · cases persisted with
            | true  => exact (exec_pure.mp h₄).1
            | false => exact (exec_pure.mp h₄).1
        obtain ⟨rfl, rfl⟩ := hend
        obtain rfl := FileRun.nil_iff.mp hfs₄
        have hnohook : ∀ call ∈ t₁ ++ ([⟨.file (.read (.target path)), answer⟩] ++ []),
            ¬ HookCall call := by
          intro call hc
          rcases List.mem_append.mp hc with hc | hc
          · exact (hcalls call hc).not_hook
          · obtain rfl := List.mem_singleton.mp (by simpa using hc)
            simp [HookCall]
        refine ⟨hnohook, ?_⟩
        cases persisted with
        | true =>
          obtain ⟨-, rfl⟩ := exec_pure.mp h₄
          exact ⟨_, hstored text sourceTokens hrender, hyes rfl⟩
        | false =>
          obtain ⟨-, rfl⟩ := exec_pure.mp h₄
          rcases heffect with ⟨hname, hbytes⟩ | ⟨hsame, -⟩
          · rcases hno rfl with hne | ⟨error', hread, hmissing⟩
            · exact absurd hbytes hne
            · refine .inr ⟨t₁, .target path, error', [], ?_, hmissing, atomicWrite_opens h₁ hname⟩
              rw [hread, List.append_nil]
          · exact .inl (hsame.trans hprevious)

/-- A failed restore in the second part is one of the whole trace. -/
theorem RestoreFails.right (h : RestoreFails t₂) : RestoreFails (t₁ ++ t₂) := by
  obtain ⟨pre, hook, post, rfl, hrest⟩ := h
  exact ⟨t₁ ++ pre, hook, post, by simp, hrest⟩

/-- The calls of the hook, oldest first. -/
def hookCalls (t : ManagerTrace) : ManagerTrace :=
  t.filter fun call =>
    match call.query with
    | .setAppConfig _ => true
    | _               => false

/-- A part without calls to the hook adds nothing to them. -/
theorem hookCalls_eq_nil (h : ∀ call ∈ t, ¬ HookCall call) : hookCalls t = [] := by
  refine List.filter_eq_nil_iff.mpr fun call hc => ?_
  obtain ⟨query, answer⟩ := call
  cases query with
  | setAppConfig payload => exact absurd ⟨payload, rfl⟩ (h _ hc)
  | _ => simp

/-- What a rollback leaves: the configuration in memory, no claim about the
    hook, and the previous file unless restoring it failed. -/
theorem rollback_effect {previousFile : Option Bytes} {previousXposedPayload : Bytes}
    {r : Except DaemonError Unit} (hpath : state.appConfigPath = some path)
    (hwritten : fileBytes fs path = previousFile ∨ pathFileName path ≠ none)
    (h : Exec (rollbackFailedAppConfigUpdate state previousFile previousXposedPayload) t
      (r, state')) (hfs : FilesRun fs t fs') :
    SameConfig state state' ∧ state'.hookConfigSynced = false
      ∧ (fileBytes fs' path = previousFile ∨ ∃ call ∈ t, FailedCall call) := by
  unfold rollbackFailedAppConfigUpdate at h
  obtain ⟨t₁, t₂, disk, rfl, h₁, h₂⟩ := exec_bind.mp h
  rw [show (unsync state).appConfigPath = some path from hpath] at h₁
  obtain ⟨hook, t₃, rfl, h₃⟩ := exec_ask_bind.mp h₂
  obtain ⟨fs₁, hfs₁, hfs₂⟩ := FileRun.append_iff.mp hfs
  rw [FileRun.cons_of_none rfl] at hfs₂
  -- Whatever disk and hook answer, the state is only marked as not synced, and logged.
  have hend : SameConfig state state' ∧ state'.hookConfigSynced = false ∧ fs' = fs₁ := by
    have hlog : ∀ {state₁ state₂ t₄} {message : String}, FilesRun fs₁ t₄ fs' →
        Exec (appendLegacyLogMessage state₁ message) t₄ state₂ →
        SameConfig state₁ state₂ ∧ state₂.hookConfigSynced = state₁.hookConfigSynced
          ∧ fs' = fs₁ := by
      intro state₁ state₂ t₄ message hrun hexec
      obtain ⟨nowMs, rfl, rfl⟩ := appendLegacyLogMessage_spec hexec
      exact ⟨⟨rfl, rfl, rfl, rfl⟩, rfl, hrun.eq_of_none (by simp [fileView])⟩
    match disk with
    | .error diskError =>
      obtain ⟨rfl, heq⟩ := exec_pure.mp h₃
      obtain ⟨rfl, rfl⟩ := Prod.mk.inj heq
      exact ⟨⟨rfl, rfl, rfl, rfl⟩, rfl, FileRun.nil_iff.mp hfs₂⟩
    | .ok () =>
      match hook with
      | .ok true =>
        obtain ⟨rfl, heq⟩ := exec_pure.mp h₃
        obtain ⟨rfl, rfl⟩ := Prod.mk.inj heq
        exact ⟨⟨rfl, rfl, rfl, rfl⟩, rfl, FileRun.nil_iff.mp hfs₂⟩
      | .ok false =>
        obtain ⟨t₄, t₅, state₁, rfl, h₄, h₅⟩ := exec_bind.mp h₃
        obtain ⟨rfl, heq⟩ := exec_pure.mp h₅
        obtain ⟨rfl, rfl⟩ := Prod.mk.inj heq
        rw [List.append_nil] at hfs₂
        obtain ⟨hsame, hsynced, hfs₃⟩ := hlog hfs₂ h₄
        exact ⟨⟨hsame.1, hsame.2, hsame.3, hsame.4⟩, hsynced, hfs₃⟩
      | .error hookError =>
        obtain ⟨t₄, t₅, state₁, rfl, h₄, h₅⟩ := exec_bind.mp h₃
        obtain ⟨rfl, heq⟩ := exec_pure.mp h₅
        obtain ⟨rfl, rfl⟩ := Prod.mk.inj heq
        rw [List.append_nil] at hfs₂
        obtain ⟨hsame, hsynced, hfs₃⟩ := hlog hfs₂ h₄
        exact ⟨⟨hsame.1, hsame.2, hsame.3, hsame.4⟩, hsynced, hfs₃⟩
  obtain ⟨hsame, hsynced, rfl⟩ := hend
  refine ⟨hsame, hsynced, ?_⟩
  rcases restoreFile_effect h₁ hfs₁ with hback | ⟨call, hc, hfailed⟩ | ⟨hkept, hname⟩
  · exact .inl hback
  · exact .inr ⟨call, List.mem_append_left _ hc, hfailed⟩
  · exact .inl (hkept.trans (hwritten.resolve_right fun hne => hne hname))

/-- The hook takes the new configuration, which is then committed, or it does
    not, and the old one is put back. -/
theorem finishAppConfig_effect {records : List ManagerAppConfigRecord}
    {sourceTokens : SortedMap Nat String} {previousFile : Option Bytes}
    {previousXposedPayload xposedPayload : Bytes} {r : Except DaemonError Bytes}
    (hpath : state.appConfigPath = some path)
    (hwritten : fileBytes fs path = previousFile ∨ pathFileName path ≠ none)
    (h : Exec (finishAppConfig state records sourceTokens previousFile previousXposedPayload
      xposedPayload) t (r, state')) (hfs : FilesRun fs t fs') :
    (r = .ok (utf8Bytes "success") ∧ fileBytes fs' path = fileBytes fs path
        ∧ hookCalls t = [⟨.setAppConfig xposedPayload, .ok true⟩]
        ∧ state'.settings = state.settings ∧ state'.appConfig = records
        ∧ state'.appConfigSourceTokens = sourceTokens ∧ state'.hookConfigSynced = true
        ∧ (state'.configRevision ≠ state.configRevision ↔ records ≠ state.appConfig))
      ∨ (r ≠ .ok (utf8Bytes "success") ∧ SameConfig state state'
        ∧ state'.hookConfigSynced = false
        ∧ (fileBytes fs' path = previousFile ∨ RestoreFails t)) := by
  unfold finishAppConfig at h
  obtain ⟨hook, t₁, rfl, h₁⟩ := exec_ask_bind.mp h
  rw [filesRun_other rfl] at hfs
  have hhook : HookCall ⟨.setAppConfig xposedPayload, hook⟩ := ⟨_, rfl⟩
  match hook with
  -- The hook took the new policy: it is committed in memory.
  | .ok true =>
    refine .inl ?_
    obtain ⟨t₂, t₃, state₁, rfl, h₂, h₃⟩ := exec_bind.mp h₁
    obtain ⟨rfl, heq⟩ := exec_pure.mp h₃
    obtain ⟨rfl, rfl⟩ := Prod.mk.inj heq
    rw [List.append_nil] at hfs ⊢
    have hlogged : SameConfig state state₁ ∧ (∀ call ∈ t₂, fileView call = none)
        ∧ ∀ call ∈ t₂, ¬ HookCall call := by
      unfold logConfigChange at h₂
      cases hmessage : formatConfigChangeLog state.appConfig records with
      | none =>
        rw [hmessage] at h₂
        obtain ⟨rfl, rfl⟩ := exec_pure.mp h₂
        exact ⟨.refl _, by simp, by simp⟩
      | some message =>
        rw [hmessage] at h₂
        obtain ⟨nowMs, rfl, rfl⟩ := appendLegacyLogMessage_spec h₂
        exact ⟨⟨rfl, rfl, rfl, rfl⟩, by simp [fileView], by simp [HookCall]⟩
    obtain ⟨hsame, hview, hnohook⟩ := hlogged
    obtain rfl := hfs.eq_of_none hview
    refine ⟨rfl, rfl, ?_, ?_, ?_, ?_, rfl, ?_⟩
    · rw [hookCalls, List.filter_cons_of_pos rfl]
      exact congrArg _ (hookCalls_eq_nil hnohook)
    · exact (commitAppConfig_settings _ _ _).trans hsame.settings
    · exact commitAppConfig_appConfig _ _ _
    · exact commitAppConfig_sourceTokens _ _ _
    · rw [← hsame.revision, ← hsame.appConfig]
      exact commitAppConfig_revision _ _ _
  -- The hook refused it, so disk and hook are rolled back,
  | .ok false =>
    refine .inr ?_
    obtain ⟨t₂, t₃, ⟨r₁, state₁⟩, rfl, h₂, h₃⟩ := exec_bind.mp h₁
    obtain ⟨fs₁, hfs₁, hfs₂⟩ := FileRun.append_iff.mp hfs
    obtain ⟨hsame, hsynced, hback⟩ := rollback_effect hpath hwritten h₂ hfs₁
    have hend : ∃ nowMs, t₃ = [⟨.now, nowMs⟩] ∧ SameConfig state₁ state'
        ∧ state'.hookConfigSynced = state₁.hookConfigSynced
        ∧ r ≠ .ok (utf8Bytes "success") := by
      match r₁ with
      | .error error =>
        obtain ⟨t₄, t₅, state₂, rfl, h₄, h₅⟩ := exec_bind.mp h₃
        obtain ⟨rfl, heq⟩ := exec_pure.mp h₅
        obtain ⟨rfl, rfl⟩ := Prod.mk.inj heq
        obtain ⟨nowMs, rfl, rfl⟩ := appendLegacyLogMessage_spec h₄
        exact ⟨nowMs, by simp, ⟨rfl, rfl, rfl, rfl⟩, rfl, nofun⟩
      | .ok () =>
        obtain ⟨t₄, t₅, state₂, rfl, h₄, h₅⟩ := exec_bind.mp h₃
        obtain ⟨rfl, heq⟩ := exec_pure.mp h₅
        obtain ⟨rfl, rfl⟩ := Prod.mk.inj heq
        obtain ⟨nowMs, rfl, rfl⟩ := appendLegacyLogMessage_spec h₄
        exact ⟨nowMs, by simp, ⟨rfl, rfl, rfl, rfl⟩, rfl, by decide⟩
    obtain ⟨nowMs, rfl, hlog, hlogSynced, hr⟩ := hend
    obtain rfl := hfs₂.eq_of_none (by simp [fileView])
    refine ⟨hr, ⟨hlog.1.trans hsame.1, hlog.2.trans hsame.2, hlog.3.trans hsame.3,
      hlog.4.trans hsame.4⟩, hlogSynced.trans hsynced, ?_⟩
    rcases hback with hback | ⟨failed, hc, hfailed⟩
    · exact .inl hback
    · exact .inr ⟨[], _, _, rfl, hhook, failed, List.mem_append_left _ hc, hfailed⟩
  -- and likewise if it could not be reached.
  | .error hookError =>
    refine .inr ?_
    obtain ⟨t₂, t₃, ⟨r₁, state₁⟩, rfl, h₂, h₃⟩ := exec_bind.mp h₁
    obtain ⟨fs₁, hfs₁, hfs₂⟩ := FileRun.append_iff.mp hfs
    obtain ⟨hsame, hsynced, hback⟩ := rollback_effect hpath hwritten h₂ hfs₁
    have hend : t₃ = [] ∧ state' = state₁ ∧ r ≠ .ok (utf8Bytes "success") := by
      match r₁ with
      | .error error =>
        obtain ⟨rfl, heq⟩ := exec_pure.mp h₃
        obtain ⟨rfl, rfl⟩ := Prod.mk.inj heq
        exact ⟨rfl, rfl, nofun⟩
      | .ok () =>
        obtain ⟨rfl, heq⟩ := exec_pure.mp h₃
        obtain ⟨rfl, rfl⟩ := Prod.mk.inj heq
        exact ⟨rfl, rfl, nofun⟩
    obtain ⟨rfl, rfl, hr⟩ := hend
    obtain rfl := FileRun.nil_iff.mp hfs₂
    refine ⟨hr, hsame, hsynced, ?_⟩
    rcases hback with hback | ⟨failed, hc, hfailed⟩
    · exact .inl hback
    · exact .inr ⟨[], _, _, rfl, hhook, failed, List.mem_append_left _ hc, hfailed⟩

/-- The bytes of the policy file. -/
def appConfigBytes (state : ReadOnlyState) (fs : ConfigFiles) : Option Bytes :=
  state.appConfigPath.bind (fileBytes fs)

/-- The configuration that a payload asks for: its records, and what they are stored as. -/
structure RequestedConfig (state : ReadOnlyState) (fs : ConfigFiles) (payload : Bytes)
    (records : List ManagerAppConfigRecord) (sourceTokens : SortedMap Nat String) (bytes : Bytes) :
    Prop where
  merged : ∃ requested, decodeAppConfig payload = .ok requested
    ∧ records = mergeAppConfigRecords state.appConfig requested
  stored : persistedConfig state records (appConfigBytes state fs) = .ok (sourceTokens, bytes)

/-- `SetAppCfg` left memory, file and hook as one. After an answer of success all three
    have what was requested. After any other answer memory and file agree, on the old
    configuration or on the new one, and the hook does not count as synchronized if a file was
    written or the hook was called. -/
structure AppConfigAtomic (state : ReadOnlyState) (fs : ConfigFiles) (payload : Bytes)
    (t : ManagerTrace) (r : Except DaemonError Bytes) (state' : ReadOnlyState)
    (fs' : ConfigFiles) : Prop where
  /-- On success all three have the requested configuration. -/
  success : r = .ok (utf8Bytes "success") → ∃ records sourceTokens bytes xposedPayload,
    RequestedConfig state fs payload records sourceTokens bytes
      ∧ appConfigBytes state fs' = some bytes
      ∧ state'.settings = state.settings ∧ state'.appConfig = records
      ∧ encodeXposedConfigPayload state'.settings (encodeAppConfig state'.appConfig)
        = .ok xposedPayload
      ∧ (hookCalls t).getLast? = some ⟨.setAppConfig xposedPayload, .ok true⟩
      ∧ state'.hookConfigSynced = true
  /-- Otherwise memory and file both have the old one, or both the requested one. -/
  together : r ≠ .ok (utf8Bytes "success") →
    SameConfig state state' ∧ appConfigBytes state fs' = appConfigBytes state fs
      ∨ ∃ records sourceTokens bytes,
        RequestedConfig state fs payload records sourceTokens bytes
          ∧ appConfigBytes state fs' = some bytes
          ∧ state'.settings = state.settings ∧ state'.appConfig = records
          ∧ state'.appConfigSourceTokens = sourceTokens
  unsynced : r ≠ .ok (utf8Bytes "success") → (∃ call ∈ t, WriterCall call ∨ HookCall call) →
    state'.hookConfigSynced = false
  revision : state'.configRevision ≠ state.configRevision ↔
    state'.settings ≠ state.settings ∨ state'.appConfig ≠ state.appConfig

/-- A request that ended before anything was called but the file was read. -/
theorem AppConfigAtomic.refused {error : DaemonError} (hfs : fs' = fs)
    (ht : ∀ call ∈ t, ¬ WriterCall call ∧ ¬ HookCall call) :
    AppConfigAtomic state fs payload t (.error error) state fs' where
  success := nofun
  together _ := .inl ⟨.refl _, by rw [hfs]⟩
  unsynced _ hcalled := by
    obtain ⟨call, hc, hcalled⟩ := hcalled
    exact hcalled.elim (fun h => absurd h (ht call hc).1) fun h => absurd h (ht call hc).2
  revision := by simp

/-- The request to set the policy is atomic, if no rollback write and no read-back fails. -/
theorem setAppConfig_atomic {r : Except DaemonError Bytes}
    (h : Exec (setAppConfig state payload) t (r, state')) (hfs : FilesRun fs t fs')
    (hrestore : ¬ RestoreFails t) (hread : ¬ ReadBackFails t) :
    AppConfigAtomic state fs payload t r state' fs' := by
  unfold setAppConfig at h
  dsimp only at h
  cases hprevious : encodeXposedConfigPayload state.settings (encodeAppConfig state.appConfig) with
  | error error =>
    rw [hprevious] at h
    obtain ⟨rfl, heq⟩ := exec_pure.mp h
    obtain ⟨rfl, rfl⟩ := Prod.mk.inj heq
    exact .refused (FileRun.nil_iff.mp hfs) (by simp)
  -- From here on the request is decoded and merged; each error is refused before the first
  -- file operation.
  | ok previousXposedPayload =>
    rw [hprevious] at h
    dsimp only at h
    cases hrequested : decodeAppConfig payload with
    | error error =>
      rw [hrequested] at h
      obtain ⟨rfl, heq⟩ := exec_pure.mp h
      obtain ⟨rfl, rfl⟩ := Prod.mk.inj heq
      exact .refused (FileRun.nil_iff.mp hfs) (by simp)
    | ok requested =>
      rw [hrequested] at h
      dsimp only at h
      generalize hrecords : mergeAppConfigRecords state.appConfig requested = records at h
      cases hxposed : encodeXposedConfigPayload state.settings (encodeAppConfig records) with
      | error error =>
        rw [hxposed] at h
        obtain ⟨rfl, heq⟩ := exec_pure.mp h
        obtain ⟨rfl, rfl⟩ := Prod.mk.inj heq
        exact .refused (FileRun.nil_iff.mp hfs) (by simp)
      | ok xposedPayload =>
        rw [hxposed] at h
        dsimp only at h
        obtain ⟨t₁, t₂, existing, rfl, h₁, h₂⟩ := exec_bind.mp h
        obtain ⟨fs₁, hfs₁, hfs₂⟩ := FileRun.append_iff.mp hfs
        cases hpath : state.appConfigPath with
        | none =>
          rw [hpath] at h₁
          obtain ⟨rfl, rfl⟩ := exec_pure.mp h₁
          obtain ⟨rfl, heq⟩ := exec_pure.mp h₂
          obtain ⟨rfl, rfl⟩ := Prod.mk.inj heq
          exact .refused (FileRun.nil_iff.mp hfs) (by simp)
        | some path =>
          rw [hpath] at h₁
          obtain ⟨rfl, ⟨answer, rfl⟩, hfile⟩ := readExistingFile_effect h₁ hfs₁
          have hreadOnly : ∀ call ∈ ([⟨.file (.read (.target path)), answer⟩] : ManagerTrace),
              ¬ WriterCall call ∧ ¬ HookCall call := by
            simp [WriterCall, HookCall]
          match existing with
          | .error error =>
            obtain ⟨rfl, heq⟩ := exec_pure.mp h₂
            obtain ⟨rfl, rfl⟩ := Prod.mk.inj heq
            rw [List.append_nil]
            exact .refused (FileRun.nil_iff.mp hfs₂) hreadOnly
          | .ok previousFile =>
            dsimp only at h₂
            have hbefore := hfile previousFile rfl
            have hbytes : ∀ fs : ConfigFiles, appConfigBytes state fs = fileBytes fs path := by
              intro fs
              rw [appConfigBytes, hpath]
              rfl
            have hnew : ∀ {sourceTokens bytes},
                persistedConfig state records previousFile = .ok (sourceTokens, bytes) →
                RequestedConfig state fs₁ payload records sourceTokens bytes := by
              intro sourceTokens bytes hstored
              exact ⟨⟨requested, hrequested, hrecords.symm⟩, by rw [hbytes, hbefore, hstored]⟩
            obtain ⟨t₃, t₄, persisted, rfl, h₃, h₄⟩ := exec_bind.mp h₂
            obtain ⟨fs₂, hfs₃, hfs₄⟩ := FileRun.append_iff.mp hfs₂
            obtain ⟨hnohook, heffect⟩ := persistAppConfig_effect hpath hbefore h₃ hfs₃
            match persisted with
            | .error error =>
              obtain ⟨rfl, heq⟩ := exec_pure.mp h₄
              obtain ⟨rfl, rfl⟩ := Prod.mk.inj heq
              obtain rfl := FileRun.nil_iff.mp hfs₄
              have hsame : fileBytes fs' path = previousFile := by
                refine heffect.resolve_right fun hfails => hread ?_
                exact hfails.left.right
              exact {
                success := nofun
                together := fun _ => .inl ⟨⟨rfl, rfl, rfl, rfl⟩, by
                  rw [hbytes, hbytes, hsame, hbefore]⟩
                unsynced := fun _ _ => rfl
                revision := by simp [unsync] }
            | .ok (.committedButUnconfirmed sourceTokens) =>
              obtain ⟨bytes, hstored, hfile'⟩ := heffect
              obtain ⟨t₅, t₆, state₁, rfl, h₅, h₆⟩ := exec_bind.mp h₄
              obtain ⟨rfl, heq⟩ := exec_pure.mp h₆
              obtain ⟨rfl, rfl⟩ := Prod.mk.inj heq
              obtain ⟨nowMs, rfl, rfl⟩ := appendLegacyLogMessage_spec h₅
              obtain rfl := hfs₄.eq_of_none (by simp [fileView])
              exact {
                success := fun hr => absurd hr (by decide)
                together := fun _ => .inr ⟨records, sourceTokens, bytes, hnew hstored,
                  (hbytes _).trans hfile', commitAppConfig_settings _ _ _,
                  commitAppConfig_appConfig _ _ _, commitAppConfig_sourceTokens _ _ _⟩
                unsynced := fun _ _ => rfl
                revision := by
                  refine (commitAppConfig_revision state records sourceTokens).trans ?_
                  simp [unsync] }
            | .ok (.durable sourceTokens) =>
              obtain ⟨bytes, hstored, hfile', hwritten⟩ := heffect
              rcases finishAppConfig_effect hpath hwritten h₄ hfs₄ with
                ⟨rfl, hkept, hhook, hsettings, happ, htokens, hsynced, hrevision⟩
                | ⟨hr, hsame, hsynced, hback⟩
              · have hhooks : hookCalls (⟨.file (.read (.target path)), answer⟩ :: (t₃ ++ t₄))
                    = [⟨.setAppConfig xposedPayload, .ok true⟩] := by
                  have hread₁ : hookCalls (⟨.file (.read (.target path)), answer⟩ :: (t₃ ++ t₄))
                      = hookCalls t₃ ++ hookCalls t₄ := by
                    rw [hookCalls, List.filter_cons_of_neg (by simp), List.filter_append]
                    rfl
                  rw [hread₁, hookCalls_eq_nil hnohook, hhook]
                  rfl
                exact {
                  success := fun _ => ⟨records, sourceTokens, bytes, xposedPayload, hnew hstored,
                    (hbytes _).trans (hkept.trans hfile'), hsettings, happ, by
                      rw [hsettings, happ, hxposed], by
                      show (hookCalls (_ :: (t₃ ++ t₄))).getLast? = _
                      rw [hhooks]
                      rfl, hsynced⟩
                  together := fun hr => absurd rfl hr
                  unsynced := fun hr => absurd rfl hr
                  revision := by
                    rw [hrevision, hsettings, happ]
                    simp }
              · have hrestored : fileBytes fs' path = previousFile := by
                  refine hback.resolve_right fun hfails => hrestore ?_
                  exact hfails.right.right
                exact {
                  success := fun hok => absurd hok hr
                  together := fun _ => .inl ⟨hsame, by rw [hbytes, hbytes, hrestored, hbefore]⟩
                  unsynced := fun _ _ => hsynced
                  revision := by simp [hsame.1, hsame.2, hsame.4] }

/-! ## SetSettingsVar -/

/-- A response that starts with another letter is not the success response. -/
theorem append_ne_success {a b : String} (ha : ∃ c rest, a.toList = c :: rest ∧ c ≠ 's') :
    a ++ b ≠ "success" := by
  obtain ⟨c, rest, hlist, hne⟩ := ha
  intro h
  have hchars := congrArg String.toList h
  rw [String.toList_append, hlist] at hchars
  have hc : c = 's' := by simpa using congrArg List.head? hchars
  exact hne hc

/-- No complaint reads like a success. -/
theorem settingError_ne_success (index value : Nat) : settingError index value ≠ some "success" := by
  have hne : ∀ {a b : String}, (∃ c rest, a.toList = c :: rest ∧ c ≠ 's') →
      some (a ++ b) ≠ some "success" := fun ha h => append_ne_success ha (Option.some.inj h)
  unfold settingError
  split_ifs
  all_goals first
    | simp only [toString, String.append_assoc]
      exact hne ⟨_, _, rfl, by decide⟩
    | simp only [ne_eq, reduceCtorEq, not_false_eq_true]

/-- Texts are told apart by their bytes. -/
theorem utf8Bytes_inj {a b : String} (h : utf8Bytes a = utf8Bytes b) : a = b := by
  have hencode : ∀ s : String, s.toByteArray = (utf8Bytes s).toByteArray := by
    intro s
    conv_lhs => rw [← String.ofList_toList (s := s)]
    rw [String.toByteArray_ofList]
    rfl
  rw [← String.toByteArray_inj, hencode, hencode, h]

/-- The bytes of the settings file. -/
def settingsBytes (state : ReadOnlyState) (fs : ConfigFiles) : Option Bytes :=
  state.settingsPath.bind (fileBytes fs)

/-- The configuration after a settings change, in memory and on disk. -/
structure HasSettings (state state' : ReadOnlyState) (fs' : ConfigFiles) (payload : Bytes) :
    Prop where
  settings  : ∃ index value, payload = [index, value]
    ∧ state'.settings = updatedSettings state.settings index.toNat value
  stored    : settingsBytes state fs' = some state'.settings
  appConfig : state'.appConfig = state.appConfig
  sourceTokens : state'.appConfigSourceTokens = state.appConfigSourceTokens

/-- `SetSettingsVar` left memory and file as one. The hook is not part of this request:
    the control loop synchronizes it later, so it must not count as synchronized when anything
    was changed or tried. -/
structure SettingsAtomic (state : ReadOnlyState) (fs : ConfigFiles) (payload : Bytes)
    (t : ManagerTrace) (r : Except DaemonError Bytes) (state' : ReadOnlyState)
    (fs' : ConfigFiles) : Prop where
  success  : r = .ok (utf8Bytes "success") → HasSettings state state' fs' payload
  together : r ≠ .ok (utf8Bytes "success") →
    SameConfig state state' ∧ settingsBytes state fs' = settingsBytes state fs
      ∨ HasSettings state state' fs' payload
  unsynced : (∃ call ∈ t, WriterCall call ∨ HookCall call) → state'.hookConfigSynced = false
  revision : state'.configRevision ≠ state.configRevision ↔
    state'.settings ≠ state.settings ∨ state'.appConfig ≠ state.appConfig

/-- The same before the response is logged. Logging a success clears the flag of the hook,
    so that only failures are spoken of here. -/
structure SettingsOutcome (state : ReadOnlyState) (fs : ConfigFiles) (payload : Bytes)
    (t : ManagerTrace) (response : String) (state' : ReadOnlyState) (fs' : ConfigFiles) : Prop where
  success  : response = "success" → HasSettings state state' fs' payload
  together : response ≠ "success" →
    SameConfig state state' ∧ settingsBytes state fs' = settingsBytes state fs
      ∨ HasSettings state state' fs' payload
  unsynced : response ≠ "success" → (∃ call ∈ t, WriterCall call ∨ HookCall call) →
    state'.hookConfigSynced = false
  revision : state'.configRevision ≠ state.configRevision ↔
    state'.settings ≠ state.settings ∨ state'.appConfig ≠ state.appConfig

/-- A refused setting leaves everything as it was. -/
theorem SettingsOutcome.refused {response : String} (hr : response ≠ "success")
    (hfs : FilesRun fs [] fs') : SettingsOutcome state fs payload [] response state fs' where
  success h := absurd h hr
  together _ := .inl ⟨.refl _, by rw [FileRun.nil_iff.mp hfs]⟩
  unsynced _ hcalled := by simp at hcalled
  revision := by simp

/-- The outcome of writing one setting, before the log. -/
theorem setSettingsVar_outcome {response : String}
    (h : Exec (setSettingsVar state payload) t (response, state')) (hfs : FilesRun fs t fs')
    (hread : ¬ ReadBackFails t) : SettingsOutcome state fs payload t response state' fs' := by
  unfold setSettingsVar at h
  match payload with
  | [] | [_] | _ :: _ :: _ :: _ =>
    obtain ⟨rfl, heq⟩ := exec_pure.mp h
    obtain ⟨rfl, rfl⟩ := Prod.mk.inj heq
    exact .refused (append_ne_success ⟨_, _, rfl, by decide⟩) hfs
  -- A request of two bytes is checked for its range, then written.
  | [index, value] =>
    dsimp only at h
    cases herror : settingError index.toNat value.toNat with
    | some error =>
      rw [herror] at h
      obtain ⟨rfl, heq⟩ := exec_pure.mp h
      obtain ⟨rfl, rfl⟩ := Prod.mk.inj heq
      exact .refused (fun hok => settingError_ne_success _ _ (hok ▸ herror)) hfs
    | none =>
      rw [herror] at h
      dsimp only at h
      generalize hsettings : updatedSettings state.settings index.toNat value = settings at h
      cases hpath : state.settingsPath with
      | none =>
        rw [hpath] at h
        obtain ⟨rfl, heq⟩ := exec_pure.mp h
        obtain ⟨rfl, rfl⟩ := Prod.mk.inj heq
        have hr : s!"写入设置文件失败, [{index.toNat}]:{value.toNat}: persistence path missing"
            ≠ "success" := by
          simp only [toString, String.append_assoc]
          exact append_ne_success ⟨_, _, rfl, by decide⟩
        exact {
          success := fun hok => absurd hok hr
          together := fun _ => .inl ⟨⟨rfl, rfl, rfl, rfl⟩, by rw [FileRun.nil_iff.mp hfs]⟩
          unsynced := fun _ _ => rfl
          revision := by simp [unsync] }
      | some path =>
        rw [hpath] at h
        dsimp only at h
        have hbytes : ∀ fs : ConfigFiles, settingsBytes state fs = fileBytes fs path := by
          intro fs
          rw [settingsBytes, hpath]
          rfl
        have hrevision : (commitSettings state settings).configRevision ≠ state.configRevision ↔
            (commitSettings state settings).settings ≠ state.settings
              ∨ (commitSettings state settings).appConfig ≠ state.appConfig := by
          simp [commitSettings_revision]
        obtain ⟨t₁, t₂, written, rfl, h₁, h₂⟩ := exec_bind.mp h
        obtain ⟨fs₁, hfs₁, hfs₂⟩ := FileRun.append_iff.mp hfs
        have heffect := atomicWrite_effect h₁ hfs₁
        match written with
        | .ok () =>
          obtain ⟨rfl, heq⟩ := exec_pure.mp h₂
          obtain ⟨rfl, rfl⟩ := Prod.mk.inj heq
          obtain rfl := FileRun.nil_iff.mp hfs₂
          rcases heffect with ⟨-, hstored⟩ | ⟨-, ⟨error, herror⟩, -⟩
          · exact {
              success := fun _ => ⟨⟨index, value, rfl, by rw [hsettings]; simp⟩,
                by rw [hbytes, hstored]; simp, by simp, by simp⟩
              together := fun hr => absurd rfl hr
              unsynced := fun hr => absurd rfl hr
              revision := hrevision }
          · cases herror
        | .error error =>
          obtain ⟨t₃, t₄, persisted, rfl, h₃, h₄⟩ := exec_bind.mp h₂
          obtain ⟨rfl, heq⟩ := exec_pure.mp h₄
          obtain ⟨rfl, rfl⟩ := Prod.mk.inj heq
          rw [List.append_nil] at hfs₂ hread
          obtain ⟨rfl, hyes, hno⟩ := persistedBytesMatch_effect h₃ hfs₂
          have hr : s!"写入设置文件失败, [{index.toNat}]:{value.toNat}: {error}" ≠ "success" := by
            simp only [toString, String.append_assoc]
            exact append_ne_success ⟨_, _, rfl, by decide⟩
          cases persisted with
          | true =>
            exact {
              success := fun hok => absurd hok hr
              together := fun _ => .inr ⟨⟨index, value, rfl, by
                  rw [hsettings]
                  exact commitSettings_settings _ _⟩,
                by
                  rw [hbytes, hyes rfl]
                  exact congrArg some (commitSettings_settings _ _).symm,
                commitSettings_appConfig _ _, commitSettings_sourceTokens _ _⟩
              unsynced := fun _ _ => rfl
              revision := hrevision }
          | false =>
            have hsame : fileBytes fs' path = fileBytes fs path := by
              rcases heffect with ⟨hname, hstored⟩ | ⟨hsame, -⟩
              · rcases hno rfl with hne | ⟨error', rfl, hmissing⟩
                · exact absurd hstored hne
                · exact absurd ⟨t₁, .target path, error', [], rfl, hmissing,
                    atomicWrite_opens h₁ hname⟩ hread
              · exact hsame
            exact {
              success := fun hok => absurd hok hr
              together := fun _ => .inl ⟨⟨rfl, rfl, rfl, rfl⟩, by rw [hbytes, hbytes, hsame]⟩
              unsynced := fun _ _ => rfl
              revision := by simp [unsync] }

/-- The response is logged, and a success asks for another hook synchronisation. -/
theorem logSettingsResponse_spec {response : String}
    (h : Exec (logSettingsResponse state response) t state') :
    SameConfig state state' ∧ (∃ nowMs, t = [⟨.now, nowMs⟩])
      ∧ state'.hookConfigSynced
        = (if response = "success" then false else state.hookConfigSynced) := by
  unfold logSettingsResponse at h
  split at h
  · next hr =>
    obtain ⟨nowMs, rfl, rfl⟩ := appendLegacyLogMessage_spec h
    exact ⟨⟨rfl, rfl, rfl, rfl⟩, ⟨nowMs, rfl⟩, by rw [if_pos hr]; rfl⟩
  · next hr =>
    obtain ⟨nowMs, rfl, rfl⟩ := appendLegacyLogMessage_spec h
    exact ⟨⟨rfl, rfl, rfl, rfl⟩, ⟨nowMs, rfl⟩, by rw [if_neg hr]⟩

/-- The outcome survives the log line that follows it. -/
theorem SettingsOutcome.atomic {response : String} {state₁ : ReadOnlyState}
    (h : SettingsOutcome state fs payload t₁ response state₁ fs') (hsame : SameConfig state₁ state')
    (hlog : ∀ call ∈ t₂, ¬ (WriterCall call ∨ HookCall call))
    (hsynced : state'.hookConfigSynced
      = (if response = "success" then false else state₁.hookConfigSynced)) :
    SettingsAtomic state fs payload (t₁ ++ t₂) (.ok (utf8Bytes response)) state' fs' := by
  have hhas : HasSettings state state₁ fs' payload → HasSettings state state' fs' payload := by
    rintro ⟨hsettings, hstored, happ, htokens⟩
    rw [← hsame.settings] at hsettings hstored
    exact ⟨hsettings, hstored, hsame.appConfig.trans happ, hsame.sourceTokens.trans htokens⟩
  exact {
    success := fun hr => hhas (h.success (utf8Bytes_inj (Except.ok.inj hr)))
    together := fun hr => by
      rcases h.together fun hok => hr (by rw [hok]) with ⟨hkept, hfile⟩ | hnew
      · exact .inl ⟨⟨hsame.1.trans hkept.1, hsame.2.trans hkept.2, hsame.3.trans hkept.3,
          hsame.4.trans hkept.4⟩, hfile⟩
      · exact .inr (hhas hnew)
    unsynced := fun ⟨e, he, hcalled⟩ => by
      rw [hsynced]
      by_cases hr : response = "success"
      · exact if_pos hr
      · rw [if_neg hr]
        rcases List.mem_append.mp he with he | he
        · exact h.unsynced hr ⟨e, he, hcalled⟩
        · exact absurd hcalled (hlog e he)
    revision := by
      rw [hsame.settings, hsame.appConfig, hsame.revision]
      exact h.revision }

/-- `SetAppCfg` and `SetSettingsVar` are atomic over memory, file and hook,
    unless the previous file cannot be restored or what was written cannot be
    read back. -/
theorem config_requests_are_atomic {frame : ManagerFrame} {r : Except DaemonError Bytes}
    (h : Exec (handleManagerCommand frame state) t (r, state')) (hfs : FilesRun fs t fs')
    (hrestore : ¬ RestoreFails t) (hread : ¬ ReadBackFails t) :
    (frame.command = .setAppCfg → AppConfigAtomic state fs frame.payload t r state' fs')
      ∧ (frame.command = .setSettingsVar →
        SettingsAtomic state fs frame.payload t r state' fs') := by
  unfold handleManagerCommand at h
  constructor
  · intro hcommand
    rw [hcommand] at h
    exact setAppConfig_atomic h hfs hrestore hread
  -- A setting is written first, its response is logged afterwards.
  · intro hcommand
    rw [hcommand] at h
    dsimp only at h
    obtain ⟨t₁, t₂, ⟨response, state₁⟩, rfl, h₁, h₂⟩ := exec_bind.mp h
    obtain ⟨t₃, t₄, state₂, rfl, h₃, h₄⟩ := exec_bind.mp h₂
    obtain ⟨rfl, heq⟩ := exec_pure.mp h₄
    obtain ⟨rfl, rfl⟩ := Prod.mk.inj heq
    rw [List.append_nil] at hfs hread ⊢
    obtain ⟨fs₁, hfs₁, hfs₂⟩ := FileRun.append_iff.mp hfs
    obtain ⟨hsame, ⟨nowMs, rfl⟩, hsynced⟩ := logSettingsResponse_spec h₃
    obtain rfl := hfs₂.eq_of_none (by simp [fileView])
    have houtcome := setSettingsVar_outcome h₁ hfs₁ fun hfails => hread hfails.left
    exact houtcome.atomic hsame (by simp [WriterCall, HookCall]) hsynced

/-! ### A sample -/

/-- The files answer well; `flushed` and `readBack` are what follows the renaming. -/
def configAnswer (flushed : Except IoError Unit) (readBack : Except IoError Bytes)
    (past : ManagerTrace) : (query : ManagerQuery) → query.Answer
  | .file (.read _) => if past.isEmpty then .error ⟨.notFound, "no such file"⟩ else readBack
  | .file (.metadata _) => .ok 0
  | .file (.truncate _) | .file (.write _ _) | .file (.sync _) | .file (.createParents _)
  | .file (.rename _ _) | .file (.remove _) => .ok ()
  | .syncParent _     => flushed
  | .setAppConfig _   => .ok true
  | .now              => 0
  | .readUidTime _    => .ok ""
  | .realtimeInfo _ _ => .ok []
  | .renderLog _ _    => ""

/-- The file of the sample requests. -/
def samplePolicyPath : String := "/data/appcfg.txt"

/-- No record yet, and no file. -/
def emptyPolicyState : ReadOnlyState :=
  { ReadOnlyState.default with settings := [8], appConfigPath := some samplePolicyPath }

/-- A module directory without files. -/
def emptyFiles : ConfigFiles := fun _ => none

/-- A request that gives one app a mode. -/
def sampleFrame : ManagerFrame := ⟨.setAppCfg, encodeAppConfig [⟨10123, 30, false⟩]⟩

/-- The file text which that request leads to. -/
def samplePolicyText : Bytes := utf8Bytes "10123uid10123 30 0\n"

/-- The files after the renaming. -/
def renamedFiles : ConfigFiles :=
  Function.update (Function.update (Function.update (Function.update emptyFiles
    (.temporary samplePolicyPath) (some ⟨1, []⟩))
    (.temporary samplePolicyPath) (some ⟨1, samplePolicyText⟩))
    (.temporary samplePolicyPath) none) (.target samplePolicyPath) (some ⟨1, samplePolicyText⟩)

/-- The calls up to the renaming. -/
def renamingCalls : ManagerTrace :=
  [⟨.file (.read (.target samplePolicyPath)), .error ⟨.notFound, "no such file"⟩⟩,
    ⟨.file (.truncate (.temporary samplePolicyPath)), .ok ()⟩,
    ⟨.file (.write (.temporary samplePolicyPath) samplePolicyText), .ok ()⟩,
    ⟨.file (.sync (.temporary samplePolicyPath)), .ok ()⟩,
    ⟨.file (.rename (.temporary samplePolicyPath) (.target samplePolicyPath)), .ok ()⟩]

/-- The calls up to the rename put the new text in place. -/
theorem renamingCalls_run : FilesRun emptyFiles renamingCalls renamedFiles := by
  refine filesRun_file.mpr ⟨_, .readFailed _ ⟨fun _ => rfl, fun _ => rfl⟩, ?_⟩
  refine filesRun_file.mpr ⟨_, .truncated (.created 1 rfl nofun), ?_⟩
  refine filesRun_file.mpr ⟨_, .written (.kept (Function.update_self _ _ _)), ?_⟩
  refine filesRun_file.mpr ⟨_, .synced _, ?_⟩
  refine filesRun_file.mpr ⟨_, .renamed (Function.update_self _ _ _), ?_⟩
  exact .nil _

/-- What a run of the sample request does. -/
def sampleRequest (flushed : Except IoError Unit) (readBack : Except IoError Bytes) :
    ManagerTrace × Reply :=
  run (configAnswer flushed readBack) [] (handleManagerCommand sampleFrame emptyPolicyState)

/-- With a healthy disk and hook the request makes these calls. -/
theorem sampleRequest_ok : (sampleRequest (.ok ()) (.ok [])).1 = renamingCalls
    ++ [⟨.syncParent samplePolicyPath, .ok ()⟩,
      ⟨.setAppConfig (utf8Bytes "8\n10123uid10123\n "), .ok true⟩] := by
  rfl

/-- None of them fails, and none of them is for the hook. -/
theorem renamingCalls_spec {e : ManagerCall} (he : e ∈ renamingCalls) :
    ¬ FailedCall e ∧ ¬ HookCall e
      ∧ ∀ file error, e = ⟨.file (.read file), .error error⟩ → ReportsMissing error := by
  simp only [renamingCalls, List.mem_cons, List.not_mem_nil, or_false] at he
  rcases he with rfl | rfl | rfl | rfl | rfl
  · refine ⟨nofun, by simp [HookCall], fun file error heq => ?_⟩
    cases heq
    rfl
  all_goals exact ⟨nofun, by simp [HookCall], nofun⟩

/-- The sample request on a healthy disk meets both conditions. -/
theorem config_requests_are_atomic_sample :
    AppConfigAtomic emptyPolicyState emptyFiles sampleFrame.payload
      (sampleRequest (.ok ()) (.ok [])).1 (sampleRequest (.ok ()) (.ok [])).2.1
      (sampleRequest (.ok ()) (.ok [])).2.2 renamedFiles := by
  have hfiles : FilesRun emptyFiles (sampleRequest (.ok ()) (.ok [])).1 renamedFiles := by
    rw [sampleRequest_ok]
    exact FileRun.append_iff.mpr ⟨_, renamingCalls_run, .skip rfl (.skip rfl (.nil _))⟩
  refine (config_requests_are_atomic (exec_run _ _ _) hfiles ?_ ?_).1 rfl
  -- No call fails at all, so in particular no restore does,
  · rintro ⟨pre, hook, post, hsplit, -, e, he, hfailed⟩
    have hmem : e ∈ (sampleRequest (.ok ()) (.ok [])).1 := by
      rw [sampleRequest, hsplit]
      exact List.mem_append_right _ (List.mem_cons_of_mem _ he)
    rw [sampleRequest_ok] at hmem
    rcases List.mem_append.mp hmem with hmem | hmem
    · exact (renamingCalls_spec hmem).1 hfailed
    · simp only [List.mem_cons, List.not_mem_nil, or_false] at hmem
      rcases hmem with rfl | rfl
      all_goals cases hfailed
  -- and no read-back.
  · rintro ⟨pre, file, error, post, hsplit, hmissing, -⟩
    have hmem : (⟨.file (.read file), .error error⟩ : ManagerCall)
        ∈ (sampleRequest (.ok ()) (.ok [])).1 := by
      rw [sampleRequest, hsplit]
      exact List.mem_append_right _ List.mem_cons_self
    rw [sampleRequest_ok] at hmem
    rcases List.mem_append.mp hmem with hmem | hmem
    · exact hmissing ((renamingCalls_spec hmem).2.2 file error rfl)
    · simp at hmem

/-- An error that says nothing about whether a file exists. -/
def ioFailure : IoError := ⟨.other, "I/O error"⟩

/-- The same request if the directory cannot be synced and the file cannot be read back. -/
theorem sampleRequest_unreadable : (sampleRequest (.error ioFailure) (.error ioFailure)).1
    = renamingCalls ++ [⟨.syncParent samplePolicyPath, .error ioFailure⟩,
      ⟨.file (.read (.target samplePolicyPath)), .error ioFailure⟩] := by
  rfl

/-- The directory cannot be flushed and the renamed file cannot be read back:
    the file has the new configuration, memory the old one. -/
theorem unreadable_file_splits_config :
    ¬ ∀ (frame : ManagerFrame) (state state' : ReadOnlyState) (fs fs' : ConfigFiles)
      (t : ManagerTrace) (r : Except DaemonError Bytes),
      Exec (handleManagerCommand frame state) t (r, state') → FilesRun fs t fs' →
      ¬ RestoreFails t → frame.command = .setAppCfg →
      AppConfigAtomic state fs frame.payload t r state' fs' := by
  intro hclaim
  have hfiles : FilesRun emptyFiles (sampleRequest (.error ioFailure) (.error ioFailure)).1
      renamedFiles := by
    rw [sampleRequest_unreadable]
    refine FileRun.append_iff.mpr ⟨_, renamingCalls_run, .skip rfl (filesRun_file.mpr ⟨_, ?_, .nil _⟩)⟩
    exact .readFailed _ ⟨nofun, fun hnone => by simp [renamedFiles] at hnone⟩
  have hexec : Exec (handleManagerCommand sampleFrame emptyPolicyState)
      (sampleRequest (.error ioFailure) (.error ioFailure)).1
      (sampleRequest (.error ioFailure) (.error ioFailure)).2 := exec_run _ _ _
  have hcalls : ∀ e ∈ (sampleRequest (.error ioFailure) (.error ioFailure)).1, ¬ HookCall e := by
    intro e he
    rw [sampleRequest_unreadable] at he
    rcases List.mem_append.mp he with he | he
    · exact (renamingCalls_spec he).2.1
    · simp only [List.mem_cons, List.not_mem_nil, or_false] at he
      rcases he with rfl | rfl
      all_goals simp [HookCall]
  have hreply : (sampleRequest (.error ioFailure) (.error ioFailure)).2.1
      = .error (.io ioFailure) := rfl
  have happ : (sampleRequest (.error ioFailure) (.error ioFailure)).2.2.appConfig = [] := rfl
  generalize sampleRequest (.error ioFailure) (.error ioFailure) = result at hfiles hexec hcalls hreply happ
  have hatomic := hclaim sampleFrame emptyPolicyState result.2.2 emptyFiles renamedFiles _ _ hexec
    hfiles (fun ⟨pre, hook, post, hsplit, hhook, _⟩ => by
      refine hcalls hook ?_ hhook
      rw [hsplit]
      exact List.mem_append_right _ List.mem_cons_self) rfl
  -- The new text is on disk, but the policy in memory is the old one.
  rcases hatomic.together (fun hok => nomatch hreply.symm.trans hok) with
    ⟨-, hfile⟩ | ⟨records, sourceTokens, bytes, hnew, -, -, hrecords, -⟩
  · simp [appConfigBytes, emptyPolicyState, fileBytes, renamedFiles, emptyFiles] at hfile
  · obtain ⟨requested, hrequested, hmerged⟩ := hnew.merged
    have hdecoded : decodeAppConfig sampleFrame.payload = .ok [⟨10123, 30, false⟩] :=
      decodeAppConfig_encodeAppConfig (by simp [ManagerAppConfigRecord.inRange_iff])
    obtain rfl := Except.ok.inj (hdecoded.symm.trans hrequested)
    rw [← hrecords, happ] at hmerged
    exact absurd hmerged (by decide)

end Freezeit
