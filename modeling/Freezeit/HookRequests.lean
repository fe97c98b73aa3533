import Freezeit.HookService

/-! # Requests of the hook service

    The handlers of `FreezeitService` that publish a configuration, a foreground
    set or a pending set, and the decision that reads what they published.  One
    thread handles one request after another, so a handler sees no change of
    `config.managedApp` between its start and the monitor section at its end. -/

namespace Freezeit

/-! ## Sets of uids -/

/-- A new member goes to the end, and the room grows with it. -/
def VectorSet.add (set : VectorSet) (n : Int) : VectorSet :=
  if n ∈ set.vector then set
  else ⟨max set.maxSize (set.vector.length + 1), set.vector ++ [n]⟩

/-- No uid of the system is ever contained. -/
def VectorSet.contains (set : VectorSet) (n : Int) : Bool :=
  if n < 10000 then false else set.vector.contains n

/-- The members are the old ones and the new one. -/
theorem VectorSet.mem_add {set : VectorSet} {n m : Int} :
    m ∈ (set.add n).vector ↔ m ∈ set.vector ∨ m = n := by
  unfold add
  split
  · next h =>
    constructor
    · intro hm
      exact .inl hm
    · intro hm
      cases hm with
      | inl hm  => exact hm
      | inr heq => exact heq ▸ h
  · rw [List.mem_append, List.mem_singleton]

/-! ## The state of the service -/

structure HookRuntime where
  service : HookService
  /-- `config.managedApp` and `runtimeSnapshot.managedApps` are the same object.
      The two start as different ones; a configuration puts one object in both. -/
  paired  : Bool

/-- Before the first configuration. -/
def HookRuntime.initial : HookRuntime := ⟨.initial, false⟩

/-- What a handler published. -/
inductive Publication where
  | config (managedApps : BucketSet)
  | foreground (uids : VectorSet) (atMs : Int)
  | pending (uids : VectorSet) (atMs : Int)

/-- The foreground of a scan, published with the present time; the pending set has to be
    sent anew. -/
def publishForegroundSnapshot (runtime : HookRuntime) (nowMs : Int) (nextForeground : VectorSet) :
    Option HookRuntime :=
  if !runtime.paired then none
  else
    let { config, runtimeSnapshot := current } := runtime.service
    -- The previous pending set is not paired with this scan.
    some { runtime with service :=
      { config          := { config with foregroundUid := nextForeground }
        runtimeSnapshot := ⟨config.managedApp, nextForeground, current.pendingUids, nowMs, -1⟩ } }

/-- The pending set, published with the present time beside the last scan. -/
def publishPendingSnapshot (runtime : HookRuntime) (nowMs : Int) (nextPending : VectorSet) :
    Option HookRuntime :=
  if !runtime.paired then none
  else
    let { config, runtimeSnapshot := current } := runtime.service
    some { runtime with service :=
      { config          := { config with pendingUid := nextPending }
        runtimeSnapshot := ⟨config.managedApp, current.foregroundUids, nextPending,
          current.foregroundAtMs, nowMs⟩ } }

/-! ## The decision -/

/-- How old either part of a snapshot may be, in milliseconds. -/
def runtimeSnapshotMaxAgeMs : Int := 15000

/-- A part is fresh if it was published, not in the future, and not too long ago. -/
def isFreshSnapshot (snapshotAtMs nowMs : Int) : Bool :=
  snapshotAtMs ≥ 0 && nowMs ≥ snapshotAtMs && nowMs - snapshotAtMs ≤ runtimeSnapshotMaxAgeMs

/-- Work is suppressed for a managed app in the background that is not pending, while both
    parts of the snapshot are fresh. -/
def shouldSuppressBackgroundWork (snapshot : RuntimeSnapshot) (uid nowMs : Int) : Bool :=
  if !snapshot.managedApps.contains uid || snapshot.foregroundUids.contains uid
      || snapshot.pendingUids.contains uid then false
  else isFreshSnapshot snapshot.foregroundAtMs nowMs && isFreshSnapshot snapshot.pendingAtMs nowMs

/-! ## The handlers

    A reply is what is written to the client; `none` is an `IOException`, which
    closes the connection without one. -/

structure HookResponse where
  reply     : Option Bytes
  published : Option Publication
  runtime   : HookRuntime

/-- The connection is closed without a reply. -/
def HookResponse.closed (runtime : HookRuntime) : HookResponse := ⟨none, none, runtime⟩

/-- A reply of four bytes. -/
def HookResponse.code (replyCode : Int) (published : Option Publication) (runtime : HookRuntime) :
    HookResponse := ⟨some (i32LeBytes replyCode), published, runtime⟩

/-- What `handleConfig` accepts. -/
def acceptedConfig (initSucceeds : Bool) (service : HookService) (payload : Bytes) :
    Option ParsedConfig :=
  match parseConfig service.config.settings payload with
  | .error _   => none
  | .ok parsed => if service.config.initField || initSucceeds then some parsed else none

/-- A configuration, which puts one object in place of the managed apps of both records. -/
def serveConfig (runtime : HookRuntime) (payload : Bytes) (initSucceeds : Bool) : HookResponse :=
  let (replyCode, service) := handleConfig initSucceeds runtime.service payload
  match acceptedConfig initSucceeds runtime.service payload with
  | none        => .code replyCode none { runtime with service := service }
  | some parsed => .code replyCode (some (.config parsed.managed.apps)) ⟨service, true⟩

/-- A process record as the reflected fields show it. -/
structure ProcessRecord where
  /-- Negative when it cannot be read. -/
  uid          : Int
  /-- `none` without a state record, negative when the field cannot be read. -/
  curProcState : Option Int

/-- What `system_server` shows to a scan. -/
structure LruProcesses where
  /-- The list and its lock were found. -/
  initialized : Bool
  /-- The list is still the current one under the lock. -/
  unchanged   : Bool
  records     : List (Option ProcessRecord)

/-- The process states that count as foreground, for a permissive app some more. -/
def isForegroundState (permissiveApps : BucketSet) (uid curProcState : Int) : Bool :=
  (0 ≤ curProcState && curProcState ≤ 3)
    || (4 ≤ curProcState && curProcState ≤ 6 && permissiveApps.contains uid)

def scanForeground (managedApps permissiveApps : BucketSet) :
    List (Option ProcessRecord) → VectorSet → Except String VectorSet
  | [], nextForeground => .ok nextForeground
  | none :: rest, nextForeground => scanForeground managedApps permissiveApps rest nextForeground
  | some record :: rest, nextForeground =>
    if record.uid < 0 then .error "could not read ProcessRecord UID"
    else if !managedApps.contains record.uid then
      scanForeground managedApps permissiveApps rest nextForeground
    else
      match record.curProcState with
      | none => .error "could not read ProcessRecord state"
      | some curProcState =>
        if curProcState < 0 then .error "could not read current process state"
        else
          scanForeground managedApps permissiveApps rest
            (if isForegroundState permissiveApps record.uid curProcState then
              nextForeground.add record.uid
            else nextForeground)

/-- The size of the buffer that a request is read into and a reply built in. -/
def bufferLength : Nat := 128 * 1024

/-- The number of uids and the uids. -/
def encodeForeground (uids : VectorSet) : Bytes :=
  i32LeBytes uids.vector.length ++ uids.vector.flatMap i32LeBytes

/-- One scan of the processes; anything unexpected closes the connection and publishes
    nothing. -/
def handleForeground (runtime : HookRuntime) (nowMs : Int) (processes : LruProcesses) :
    HookResponse :=
  if !processes.initialized || !runtime.service.config.initField then .closed runtime
  else if !processes.unchanged then .closed runtime
  else
    -- The list is walked from its end.
    match scanForeground runtime.service.config.managedApp runtime.service.config.permissive
        processes.records.reverse (.new 64) with
    | .error _ => .closed runtime
    | .ok nextForeground =>
      if nextForeground.vector.length > (bufferLength - 4) / 4 then .closed runtime
      else
        match publishForegroundSnapshot runtime nowMs nextForeground with
        | none => .closed runtime
        | some runtime =>
          ⟨some (encodeForeground nextForeground), some (.foreground nextForeground nowMs), runtime⟩

/-- `Utils.Byte2Int` over a buffer. -/
def intsFromLeBytes : Bytes → List Int
  | a :: b :: c :: d :: rest => i32FromLeBytes a b c d :: intsFromLeBytes rest
  | _                        => []

/-- The length of the array that uids are parsed into. -/
def uidListLength : Nat := 128

/-- `AppOpsService.setUidMode`, when it was found; a call can throw. -/
structure AppOps where
  initialized : Bool
  setUidMode  : (uid mode : Int) → Bool

/-- The mode that forbids wake locks. -/
def wakeupLockIgnore : Int := 1

/-- The mode that permits them. -/
def wakeupLockDefault : Int := 3

/-- The uids and the mode of the payload. -/
def parseWakeupLock (payload : Bytes) : Option (Int × List Int) :=
  if payload.length ≤ 8 ∨ payload.length % 4 ≠ 0 then none
  else
    match intsFromLeBytes payload with
    | uidLen :: mode :: uids =>
      if uidLen < 0 ∨ uidLen > uidListLength ∨ (payload.length : Int) ≠ (uidLen + 2) * 4 then none
      else if mode ≠ wakeupLockIgnore ∧ mode ≠ wakeupLockDefault then none
      else some (mode, uids)
    | _ => none

/-- The mode is set for each managed uid of the request, and one failure fails it. -/
def handleWakeupLock (runtime : HookRuntime) (nowMs : Int) (payload : Bytes) (appOps : AppOps) :
    HookResponse :=
  if !appOps.initialized then .code replyFailure none runtime
  else
    match parseWakeupLock payload with
    | none => .code replyFailure none runtime
    | some (mode, uids) =>
      if uids.all fun uid => !runtime.service.config.managedApp.contains uid
          || appOps.setUidMode uid mode then
        if mode = wakeupLockIgnore then
          match publishForegroundSnapshot runtime nowMs (.new 64) with
          | none => .code replySuccess none runtime
          | some runtime => .code replySuccess (some (.foreground (.new 64) nowMs)) runtime
        else .code replySuccess none runtime
      else .code replyFailure none runtime

/-- The pending set of a payload, if all of its uids are managed. -/
def parsePending (managedApps : BucketSet) (payload : Bytes) : Option VectorSet :=
  if payload.length % 4 ≠ 0 then none
  else if payload.length / 4 > uidListLength then none
  else if (intsFromLeBytes payload).all managedApps.contains then
    some ((intsFromLeBytes payload).foldl VectorSet.add (.new 64))
  else none

/-- The pending set of the daemon, if all of its uids are managed and there is room. -/
def handlePendingApp (runtime : HookRuntime) (nowMs : Int) (payload : Bytes) : HookResponse :=
  match parsePending runtime.service.config.managedApp payload with
  | none => .code replyFailure none runtime
  | some nextPending =>
    match publishPendingSnapshot runtime nowMs nextPending with
    | none => .code replyFailure none runtime
    | some runtime => .code replySuccess (some (.pending nextPending nowMs)) runtime

/-! ## Histories -/

/-- The requests that change or publish anything. -/
inductive HookRequest where
  | setConfig (payload : Bytes) (initSucceeds : Bool)
  | getForeground (processes : LruProcesses)
  | updatePending (payload : Bytes)
  | setWakeupLock (payload : Bytes) (appOps : AppOps)

/-- `handleClient`, for a request whose frame was read; `nowMs` is what
    `SystemClock.elapsedRealtime` says while it is handled. -/
def handleRequest (runtime : HookRuntime) (nowMs : Int) : HookRequest → HookResponse
  | .setConfig payload initSucceeds => serveConfig runtime payload initSucceeds
  | .getForeground processes        => handleForeground runtime nowMs processes
  | .updatePending payload          => handlePendingApp runtime nowMs payload
  | .setWakeupLock payload appOps   => handleWakeupLock runtime nowMs payload appOps

/-- All that was published so far, and the state it led to. -/
structure HookHistory where
  published : List Publication
  runtime   : HookRuntime

/-- The history before the first request. -/
def HookHistory.start : HookHistory := ⟨[], .initial⟩

/-- One request at a time, with what it publishes. -/
def HookHistory.serve (history : HookHistory) (request : Int × HookRequest) : HookHistory :=
  let response := handleRequest history.runtime request.1 request.2
  ⟨history.published ++ response.published.toList, response.runtime⟩

/-- The requests handled one after another since the service started. -/
def HookHistory.after (requests : List (Int × HookRequest)) : HookHistory :=
  requests.foldl HookHistory.serve .start

end Freezeit
