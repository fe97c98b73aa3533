import Freezeit.Callbacks
import Freezeit.Lib.SortedMap
import Freezeit.Lib.Text

/-! # What the daemon reads from /proc and from its SIGSTOP ledger

    Texts are parsed as the source parses them.  A reading of `/proc` is one
    value: discovery reads each file once, and `ProcReading` is what came back. -/

namespace Freezeit

/-! ## The files of a process -/

/-- The first number of the `Uid` line, which is the real uid. -/
def readUidFromStatus (statusText : String) : Except DaemonError Nat :=
  let uid := (Text.lines statusText).findSome? fun line =>
    (Text.stripPrefix line "Uid:").bind fun rest =>
      (Text.splitWhitespace rest).head?.bind (Text.parseUnsigned (2 ^ 32))
  match uid with
  | some uid => .ok uid
  | none     => .error (.system "proc status did not contain a readable Uid line")

/-- Field 22 of the stat line, counted from the end of the process name. -/
def parseProcessStartTime (statText : String) : Except DaemonError Nat :=
  match Text.afterLast ')' statText with
  | none      => .error (.system "proc stat did not contain a command terminator")
  | some rest =>
    match (Text.splitWhitespace rest)[19]?.bind (Text.parseUnsigned (2 ^ 64)) with
    | some ticks => .ok ticks
    | none       => .error (.system "proc stat did not contain a readable start time")

/-- Field 3 of the stat line, the first after the process name. -/
def parseProcStateChar (statText : String) : Except DaemonError Char :=
  match Text.afterLast ')' statText with
  | none      => .error (.system "proc stat did not contain a command terminator")
  | some rest =>
    match (Text.splitWhitespace rest).head?.bind fun token => token.toList.head? with
    | some c => .ok c
    | none   => .error (.system "proc stat did not contain a readable state field")

/-- The first field, which stands before the process name. -/
def parseProcessPid (statText : String) : Option Int :=
  (Text.splitWhitespace statText).head?.bind (Text.parseSigned 32)

/-! ## Idle evidence -/

/-- The number after a field name of the status file. -/
def readStatusU64 (statusText field : String) : Option Nat :=
  (Text.lines statusText).findSome? fun line =>
    (Text.stripPrefix line field).bind fun rest =>
      (Text.splitWhitespace rest).head?.bind (Text.parseUnsigned (2 ^ 64))

def processContextSwitchEvidence (statusText : String) : Option String := do
  let voluntary ← readStatusU64 statusText "voluntary_ctxt_switches:"
  let nonvoluntary ← readStatusU64 statusText "nonvoluntary_ctxt_switches:"
  return s!"context_switches voluntary={voluntary} nonvoluntary={nonvoluntary} "
    ++ s!"total={voluntary + nonvoluntary}"

/-- A snapshot that mentions a transaction is busy whatever else it says; one that only
    lists processes or threads is idle; any other text tells nothing. -/
def classifyBinderTransactionSnapshot (snapshot : String) : String :=
  let normalized := Text.asciiLower snapshot
  if Text.contains normalized "transaction stack" || Text.contains normalized "transaction_stack"
      || Text.contains normalized "sync_txn" then
    "binder_queue active_sync_transaction"
  else if Text.contains normalized "proc " || Text.contains normalized "thread " then
    "binder_queue idle"
  else "binder_queue unknown"

/-! ## A reading of /proc -/

/-- A directory entry of `/proc` with the files that discovery reads. -/
structure ProcEntry where
  /-- The file name, when it is valid UTF-8. -/
  fileName       : Option String
  status         : Except IoError String
  cmdline        : Except IoError String
  stat           : Except IoError String
  /-- The Binder snapshot of the pid under each of the two debug roots. -/
  binderSnapshots : List (Except IoError String)

/-- One pass over `/proc`: all that discovery reads, each file once. -/
structure ProcReading where
  procExists : Bool
  /-- The directory listing; reading it or one of its entries can fail. -/
  entries    : Except IoError (List (Except IoError ProcEntry))
  /-- Which of the candidate `cgroup.freeze` files exist. -/
  pathExists : String → Bool

/-- A directory whose name is not a number is no process. -/
def ProcEntry.pid (entry : ProcEntry) : Option Int := entry.fileName.bind (Text.parseSigned 32)

/-- The `Uid` of the status file, when it can be read. -/
def ProcEntry.statusUid (entry : ProcEntry) : Option Nat :=
  match entry.status with
  | .ok text => (readUidFromStatus text).toOption
  | .error _ => none

/-- The command line up to its first NUL; an unreadable one is empty. -/
def ProcEntry.processName (entry : ProcEntry) : String :=
  match entry.cmdline with
  | .ok text => Text.before '\x00' text
  | .error _ => ""

/-- The start time, when the stat file can be read and parsed. -/
def ProcEntry.startTimeTicks (entry : ProcEntry) : Option Nat :=
  match entry.stat with
  | .ok text => (parseProcessStartTime text).toOption
  | .error _ => none

/-- The first Binder snapshot that can be read is classified. Without one the context
    switches are reported, and the queue counts as unknown. -/
def ProcEntry.binderControlEvidence (entry : ProcEntry) : String :=
  match entry.binderSnapshots.findSome? Except.toOption with
  | some snapshot => classifyBinderTransactionSnapshot snapshot
  | none          =>
    let statusText := entry.status.toOption.getD ""
    "binder_queue unknown "
      ++ (processContextSwitchEvidence statusText).getD "context_switches unavailable"

def runtimeCgroupRoots : List String :=
  ["/sys/fs/cgroup/apps", "/sys/fs/cgroup/system", "/sys/fs/cgroup"]

/-- The first of the candidate files that exists. -/
def cgroupFreezePath (pathExists : String → Bool) (uid : Nat) (pid : Int) : Option String :=
  (runtimeCgroupRoots.map fun root => s!"{root}/uid_{uid}/pid_{pid}/cgroup.freeze").find? pathExists

/-- The loop body of discovery: a process of a managed uid, or nothing. -/
def discoverEntry (pathExists : String → Bool) (managedUids : SortedSet Nat) (entry : ProcEntry) :
    Option RuntimeProcess := do
  let pid ← entry.pid
  let uid ← entry.statusUid
  if uid ∉ managedUids then none
  else if entry.processName.isEmpty then none
  else
    some
      { pid              := pid
        uid              := uid
        packageName      := Text.before ':' entry.processName
        processName      := entry.processName
        procState        := .cached
        controlState     := .running
        cgroupFreezePath := cgroupFreezePath pathExists uid pid
        binderState      := some entry.binderControlEvidence
        startTimeTicks   := entry.startTimeTicks
        lastSeenAtMs     := 0 }

/-- `processes_by_uid.entry(uid).or_default().push(process)`. -/
def pushByUid (byUid : SortedMap Nat (List RuntimeProcess)) (process : RuntimeProcess) :
    SortedMap Nat (List RuntimeProcess) :=
  byUid.insert process.uid ((byUid.get? process.uid).getD [] ++ [process])

/-- The loop over `/proc`. An entry that cannot be listed ends it with an error, while an
    entry that is no process of a managed uid is passed over. -/
def discoverEntries (pathExists : String → Bool) (managedUids : SortedSet Nat) :
    List (Except IoError ProcEntry) → SortedMap Nat (List RuntimeProcess) →
      Except DaemonError (SortedMap Nat (List RuntimeProcess))
  | [], byUid => .ok byUid
  | .error error :: _, _ => .error (.io error)
  | .ok entry :: rest, byUid =>
    match discoverEntry pathExists managedUids entry with
    | none         => discoverEntries pathExists managedUids rest byUid
    | some process => discoverEntries pathExists managedUids rest (pushByUid byUid process)

/-- With no uid to look for, or without `/proc`, nothing is found and nothing fails. -/
def discoverManagedUidProcesses (reading : ProcReading) (managedUids : SortedSet Nat) :
    Except DaemonError (SortedMap Nat (List RuntimeProcess)) :=
  if managedUids.isEmpty || !reading.procExists then .ok ∅
  else
    match reading.entries with
    | .error error => .error (.io error)
    | .ok entries  => discoverEntries reading.pathExists managedUids entries ∅

/-! ### What discovery lists -/

/-- A process that is listed has a pid, a name, and the uid of its status file. -/
theorem discoverEntry_eq_some {pathExists : String → Bool} {managedUids : SortedSet Nat}
    {entry : ProcEntry} {process : RuntimeProcess}
    (h : discoverEntry pathExists managedUids entry = some process) :
    entry.pid = some process.pid ∧ entry.statusUid = some process.uid
      ∧ process.uid ∈ managedUids ∧ entry.processName ≠ "" := by
  unfold discoverEntry at h
  cases hpid : entry.pid with
  | none => simp [hpid] at h
  | some pid =>
    cases huid : entry.statusUid with
    | none => simp [hpid, huid] at h
    | some uid =>
      simp only [hpid, huid, Option.bind_eq_bind, Option.bind_some] at h
      by_cases hmanaged : uid ∈ managedUids
      · rw [if_neg (not_not_intro hmanaged)] at h
        by_cases hname : entry.processName.isEmpty = true
        · simp [hname] at h
        · rw [if_neg hname] at h
          obtain rfl := Option.some.inj h
          refine ⟨rfl, rfl, hmanaged, fun hempty => hname ?_⟩
          rw [hempty]
          rfl
      · simp [hmanaged] at h

/-- Those three things are also enough for it to be listed. -/
theorem discoverEntry_isSome {pathExists : String → Bool} {managedUids : SortedSet Nat}
    {entry : ProcEntry} {pid : Int} {uid : Nat} (hpid : entry.pid = some pid)
    (huid : entry.statusUid = some uid) (hmanaged : uid ∈ managedUids)
    (hname : entry.processName ≠ "") :
    ∃ process, discoverEntry pathExists managedUids entry = some process
      ∧ process.pid = pid ∧ process.uid = uid := by
  have hname : ¬ entry.processName.isEmpty = true := by
    simpa [String.isEmpty_iff] using hname
  unfold discoverEntry
  simp only [hpid, huid, Option.bind_eq_bind, Option.bind_some]
  rw [if_neg (not_not_intro hmanaged), if_neg hname]
  exact ⟨_, rfl, rfl, rfl⟩

/-- The list of one uid grows by the process, the other lists stay. -/
theorem mem_pushByUid {byUid : SortedMap Nat (List RuntimeProcess)} {process p : RuntimeProcess}
    {uid : Nat} :
    p ∈ ((pushByUid byUid process).get? uid).getD [] ↔
      p ∈ (byUid.get? uid).getD [] ∨ uid = process.uid ∧ p = process := by
  unfold pushByUid
  by_cases huid : process.uid = uid
  · subst huid
    simp
  · rw [SortedMap.get?_insert_ne _ _ huid]
    simp [Ne.symm huid]

/-- Discovery lists the processes of the entries it could read, and no others. -/
theorem mem_discoverEntries {pathExists : String → Bool} {managedUids : SortedSet Nat}
    {entries : List (Except IoError ProcEntry)} {byUid map : SortedMap Nat (List RuntimeProcess)}
    (h : discoverEntries pathExists managedUids entries byUid = .ok map) {uid : Nat}
    {p : RuntimeProcess} :
    p ∈ (map.get? uid).getD [] ↔
      p ∈ (byUid.get? uid).getD [] ∨ uid = p.uid ∧ ∃ entry, .ok entry ∈ entries
        ∧ discoverEntry pathExists managedUids entry = some p := by
  induction entries generalizing byUid with
  | nil =>
    obtain rfl := Except.ok.inj h
    simp
  | cons e rest ih =>
    match e with
    -- The induction carries any map that was built so far; an error leaves no map.
    | .error error => cases h
    | .ok entry =>
      rw [discoverEntries] at h
      cases hentry : discoverEntry pathExists managedUids entry with
      | none =>
        rw [hentry] at h
        rw [ih h]
        simp [hentry]
      | some process =>
        rw [hentry] at h
        rw [ih h, mem_pushByUid]
        simp only [List.mem_cons, Except.ok.injEq]
        constructor
        · rintro ((hold | ⟨rfl, rfl⟩) | ⟨huid, e', he', hp⟩)
          · exact .inl hold
          · exact .inr ⟨rfl, entry, .inl rfl, hentry⟩
          · exact .inr ⟨huid, e', .inr he', hp⟩
        · rintro (hold | ⟨huid, e', rfl | he', hp⟩)
          · exact .inl (.inl hold)
          · obtain rfl := Option.some.inj (hentry.symm.trans hp)
            exact .inl (.inr ⟨huid, rfl⟩)
          · exact .inr ⟨huid, e', he', hp⟩

/-- Discovery fails exactly when an entry of the directory could not be read. -/
theorem discoverEntries_isOk {pathExists : String → Bool} {managedUids : SortedSet Nat}
    {entries : List (Except IoError ProcEntry)} {byUid : SortedMap Nat (List RuntimeProcess)} :
    (∃ map, discoverEntries pathExists managedUids entries byUid = .ok map) ↔
      ∀ e ∈ entries, ∃ entry, e = .ok entry := by
  induction entries generalizing byUid with
  | nil => simp [discoverEntries]
  | cons e rest ih =>
    match e with
    | .error error => simp [discoverEntries]
    | .ok entry =>
      rw [discoverEntries]
      cases hentry : discoverEntry pathExists managedUids entry with
      | none => simpa using ih
      | some process => simpa using ih

/-! ## The SIGSTOP ledger -/

/-- A process as the ledger names it. -/
structure SignalStopIdentity where
  pid            : Int
  startTimeTicks : Nat
  deriving DecidableEq, Repr

/-- Identities are ordered by pid and then by start time, as their derived order is. -/
theorem SignalStopIdentity.toLex_injective :
    Function.Injective fun i : SignalStopIdentity => toLex (i.pid, i.startTimeTicks) := by
  rintro ⟨p, u⟩ ⟨q, v⟩ h
  have hpair : (p, u) = (q, v) := h
  cases hpair
  rfl

instance : LinearOrder SignalStopIdentity :=
  LinearOrder.lift' (fun i => toLex (i.pid, i.startTimeTicks)) SignalStopIdentity.toLex_injective

/-- A line of the right form, or one that only names its process. -/
inductive SignalStopLedgerRecord where
  | canonical | residualUnknown
  deriving DecidableEq, Repr

/-- Device and inode of the main ledger file. -/
structure SignalStopLedgerGeneration where
  device : Nat
  inode  : Nat
  deriving DecidableEq, Repr

/-- What the sidecar says of a stop: that only SIGSTOP was used, under one main ledger
    file, or nothing that can be believed. -/
inductive SignalStopProvenanceRecord where
  | signalOnly (generation : SignalStopLedgerGeneration)
  | invalid
  deriving DecidableEq, Repr

/-- The sidecar. One line that names no process makes all of it untrusted. -/
structure SignalStopProvenanceLedger where
  records           : SortedMap SignalStopIdentity SignalStopProvenanceRecord
  globallyUntrusted : Bool

/-- What reading the two ledger files returned. -/
structure LedgerReading where
  main       : Except IoError String
  generation : Option SignalStopLedgerGeneration
  provenance : Except IoError String

/-- `<device>:<inode>`, with nothing after it. -/
def SignalStopLedgerGeneration.fromSidecarToken (token : String) :
    Option SignalStopLedgerGeneration := do
  let (device, inode) ← Text.splitOnce ':' token
  if Text.contains inode ":" then none
  else return ⟨← Text.parseUnsigned (2 ^ 64) device, ← Text.parseUnsigned (2 ^ 64) inode⟩

/-- A line of the main ledger, or nothing if it is not a record. -/
def parseLedgerLine (line : String) : Option (SignalStopIdentity × SignalStopLedgerRecord) :=
  match Text.splitWhitespace line with
  | pid :: startTimeTicks :: more => do
    let pid ← Text.parseSigned 32 pid
    let startTimeTicks ← Text.parseUnsigned (2 ^ 64) startTimeTicks
    return (⟨pid, startTimeTicks⟩, if more.isEmpty then .canonical else .residualUnknown)
  | _ => none

/-- A duplicate identity is no longer canonical. -/
def addLedgerRecord (records : SortedMap SignalStopIdentity SignalStopLedgerRecord)
    (entry : SignalStopIdentity × SignalStopLedgerRecord) :
    SortedMap SignalStopIdentity SignalStopLedgerRecord :=
  records.insert entry.1 (if entry.1 ∈ records then .residualUnknown else entry.2)

/-- A missing ledger is an empty one; any other failure is an error. -/
def readSignalStopLedger (main : Except IoError String) :
    Except DaemonError (SortedMap SignalStopIdentity SignalStopLedgerRecord) :=
  match main with
  | .ok text => .ok (((Text.lines text).filterMap parseLedgerLine).foldl addLedgerRecord ∅)
  | .error error => if error.kind = .notFound then .ok ∅ else .error (.io error)

/-- A line of the provenance file, or nothing if it does not name an identity. -/
def parseProvenanceLine (line : String) : Option (SignalStopIdentity × SignalStopProvenanceRecord) :=
  match Text.splitWhitespace line with
  | pid :: startTimeTicks :: more => do
    let pid ← Text.parseSigned 32 pid
    let startTimeTicks ← Text.parseUnsigned (2 ^ 64) startTimeTicks
    let record : SignalStopProvenanceRecord :=
      match more with
      | ["SignalOnly", token] =>
        ((SignalStopLedgerGeneration.fromSidecarToken token).map .signalOnly).getD .invalid
      | _ => .invalid
    return (⟨pid, startTimeTicks⟩, record)
  | _ => none

/-- A duplicate identity is no longer believed. -/
def addProvenanceRecord (records : SortedMap SignalStopIdentity SignalStopProvenanceRecord)
    (entry : SignalStopIdentity × SignalStopProvenanceRecord) :
    SortedMap SignalStopIdentity SignalStopProvenanceRecord :=
  records.insert entry.1 (if entry.1 ∈ records then .invalid else entry.2)

/-- The sidecar never fails: where it cannot be read it is untrusted instead. -/
def readSignalStopProvenance (provenance : Except IoError String) : SignalStopProvenanceLedger :=
  match provenance with
  | .ok text =>
    { records := ((Text.lines text).filterMap parseProvenanceLine).foldl addProvenanceRecord ∅
      globallyUntrusted := (Text.lines text).any fun line => (parseProvenanceLine line).isNone }
  | .error error => ⟨∅, error.kind ≠ .notFound⟩

/-- What the sidecar says holds for the main ledger file that it was written for, and for
    no other. -/
def SignalStopProvenanceLedger.isSignalOnly (ledger : SignalStopProvenanceLedger)
    (identity : SignalStopIdentity) (generation : SignalStopLedgerGeneration) : Bool :=
  !ledger.globallyUntrusted && ledger.records.get? identity = some (.signalOnly generation)

/-- A process that the main ledger names was stopped by the daemon. The sidecar can only
    add that nothing but SIGSTOP was used on it. -/
def recordedSignalStopOwnershipFromLedger (reading : LedgerReading)
    (identity : SignalStopIdentity) : Except DaemonError (Option SignalStopOwnership) := do
  let records ← readSignalStopLedger reading.main
  match records.get? identity with
  | none => return none
  | some record =>
    match reading.generation with
    | some generation =>
      if record = .canonical
          && (readSignalStopProvenance reading.provenance).isSignalOnly identity generation then
        return some .signalOnly
      else return some .residualUnknown
    | none => return some .residualUnknown

/-- The identity of a process that its stat text shows as stopped. -/
def stoppedIdentity (statText : String) : Option SignalStopIdentity :=
  if (parseProcStateChar statText).toOption = some 'T' then do
    let pid ← parseProcessPid statText
    let startTimeTicks ← (parseProcessStartTime statText).toOption
    return ⟨pid, startTimeTicks⟩
  else none

/-- The identities that the main ledger names. -/
def LedgerReading.owns (reading : LedgerReading) (identity : SignalStopIdentity) : Prop :=
  ∃ records, readSignalStopLedger reading.main = .ok records ∧ identity ∈ records

/-- Whether a stop is owned depends on the main ledger alone. -/
theorem recordedSignalStopOwnership_isSome {reading : LedgerReading}
    {identity : SignalStopIdentity} :
    (∃ ownership, recordedSignalStopOwnershipFromLedger reading identity = .ok (some ownership)) ↔
      reading.owns identity := by
  unfold recordedSignalStopOwnershipFromLedger LedgerReading.owns
  cases hrecords : readSignalStopLedger reading.main with
  | error error => simp [bind, Except.bind]
  | ok records =>
    simp only [bind, Except.bind, Except.ok.injEq, exists_eq_left', SortedMap.mem_iff_get?]
    cases hrecord : records.get? identity with
    | none => simp [pure, Except.pure]
    | some record =>
      cases reading.generation with
      | none => simp [pure, Except.pure]
      | some generation =>
        dsimp only
        split
        · simp [pure, Except.pure]
        · simp [pure, Except.pure]

end Freezeit
