import Freezeit.Lib.CrashSafety
import Freezeit.Procfs
import Mathlib.Data.Set.Insert

/-! # SIGSTOP and its ledger

    `send_signal` signals a process and keeps the persistent ledger of the
    SIGSTOPs that Freezeit has sent.  The signal and the ledger are changed by
    different calls, and the daemon may die between any two of them. -/

namespace Freezeit

open Prog

/-! ## Provenance -/

namespace SignalStopProvenanceLedger

/-- Invalid entries go, and with an untrusted line all of them. -/
def discardUntrustedRecords (provenance : SignalStopProvenanceLedger) :
    SignalStopProvenanceLedger where
  records           :=
    (if provenance.globallyUntrusted then ∅ else provenance.records).retain fun _ record =>
      record ≠ .invalid
  globallyUntrusted := false

/-- Only entries of the present generation stay. -/
def retainCurrentGeneration (provenance : SignalStopProvenanceLedger)
    (generation : Option SignalStopLedgerGeneration) : SignalStopProvenanceLedger :=
  let provenance := provenance.discardUntrustedRecords
  { provenance with
    records := provenance.records.retain fun _ record =>
      generation.map SignalStopProvenanceRecord.signalOnly = some record }

/-- `retain_canonical_main_provenance`. -/
def retainCanonicalMain (provenance : SignalStopProvenanceLedger)
    (records : SortedMap SignalStopIdentity SignalStopLedgerRecord) : SignalStopProvenanceLedger :=
  { provenance with
    records := provenance.records.retain fun identity _ =>
      records.get? identity = some .canonical }

/-- The entry of one identity goes. -/
def forget (provenance : SignalStopProvenanceLedger) (identity : SignalStopIdentity) :
    SignalStopProvenanceLedger :=
  { provenance with records := provenance.records.erase identity }

/-- The lines that are written once every record is bound to the generation. -/
def reboundLines (provenance : SignalStopProvenanceLedger)
    (generation : SignalStopLedgerGeneration) :
    List (SignalStopIdentity × SignalStopLedgerGeneration) :=
  provenance.records.entries.filterMap fun entry =>
    match entry.2 with
    | .signalOnly _ => some (entry.1, generation)
    | .invalid      => none

end SignalStopProvenanceLedger

/-! ## What sending a signal asks for -/

/-- The signals that are sent here. -/
inductive SignalAction where
  | stop | cont
  deriving DecidableEq, Repr

/-- What the sending of a signal asks of the system. -/
inductive SignalQuery where
  /-- `kill(2)` with the number of the action. -/
  | sendRawSignal (pid : Int) (action : SignalAction)
  | readProcessStartTime (pid : Int)
  | readSignalStopLedger
  | readSignalStopProvenance
  | signalStopLedgerGeneration
  /-- The main ledger is replaced as a whole, or not at all. -/
  | writeSignalStopLedger (identities : List SignalStopIdentity)
  | writeSignalStopProvenance (lines : List (SignalStopIdentity × SignalStopLedgerGeneration))

/-- The answers to these queries. -/
@[reducible] def SignalQuery.Answer : SignalQuery → Type
  | .sendRawSignal _ _           => Except DaemonError Unit
  | .readProcessStartTime _      => Except DaemonError Nat
  | .readSignalStopLedger        =>
    Except DaemonError (SortedMap SignalStopIdentity SignalStopLedgerRecord)
  | .readSignalStopProvenance    => SignalStopProvenanceLedger
  | .signalStopLedgerGeneration  => Except DaemonError SignalStopLedgerGeneration
  | .writeSignalStopLedger _     => Except DaemonError Unit
  | .writeSignalStopProvenance _ => Except DaemonError Unit

/-- Programs that ask them. -/
abbrev Signaling (α : Type) : Type := Prog SignalQuery SignalQuery.Answer α

/-- A query with its answer. -/
abbrev SignalCall : Type := Event SignalQuery SignalQuery.Answer

/-- To ask one query. -/
def signalCall (query : SignalQuery) : Signaling query.Answer := Prog.ask query

/-! ## The ledger -/

/-- The sidecar is emptied, the ledger is written, and what is left of the sidecar is
    bound to the new file. -/
def rewriteMainLedgerWithReboundProvenance
    (records : SortedMap SignalStopIdentity SignalStopLedgerRecord)
    (provenance : SignalStopProvenanceLedger) : Signaling (Except DaemonError Unit) := do
  match ← signalCall (.writeSignalStopProvenance []) with
  | .error error => return .error error
  | .ok () =>
    match ← signalCall (.writeSignalStopLedger records.keys) with
    | .error error => return .error error
    | .ok () =>
      if provenance.records.isEmpty then return .ok ()
      else
        match ← signalCall .signalStopLedgerGeneration with
        | .error error => return .error error
        | .ok generation =>
          signalCall (.writeSignalStopProvenance (provenance.reboundLines generation))

/-- What `record` and `take` do once they have the records they want to keep. -/
def rewriteLedger (identity : SignalStopIdentity)
    (records : SortedMap SignalStopIdentity SignalStopLedgerRecord) :
    Signaling (Except DaemonError Unit) := do
  let provenance ← signalCall .readSignalStopProvenance
  let generation ← signalCall .signalStopLedgerGeneration
  let provenance := provenance.retainCurrentGeneration generation.toOption
  rewriteMainLedgerWithReboundProvenance records
    ((provenance.retainCanonicalMain records).forget identity)

/-- The identity of a process is put in the ledger. -/
def recordFreezeitSignalStop (pid : Int) : Signaling (Except DaemonError Unit) := do
  match ← signalCall (.readProcessStartTime pid) with
  | .error error => return .error error
  | .ok startTimeTicks =>
    let identity : SignalStopIdentity := ⟨pid, startTimeTicks⟩
    match ← signalCall .readSignalStopLedger with
    | .error error => return .error error
    | .ok records  => rewriteLedger identity (records.insert identity .canonical)

/-- Take the record of a process out of the ledger; was there one? -/
def takeFreezeitSignalStop (pid : Int) : Signaling (Except DaemonError Bool) := do
  match ← signalCall (.readProcessStartTime pid) with
  | .error error => return .error error
  | .ok startTimeTicks =>
    let identity : SignalStopIdentity := ⟨pid, startTimeTicks⟩
    match ← signalCall .readSignalStopLedger with
    | .error error => return .error error
    | .ok records  =>
      match ← rewriteLedger identity (records.erase identity) with
      | .error error => return .error error
      | .ok ()       => return .ok (records.contains identity)

/-! ## Sending -/

/-- SIGSTOP, then the record; without a record the process is continued. -/
def stopProcess (pid : Int) : Signaling (Except DaemonError Unit) := do
  match ← signalCall (.sendRawSignal pid .stop) with
  | .error error => return .error error
  | .ok () =>
    match ← recordFreezeitSignalStop pid with
    | .ok () => return .ok ()
    | .error ledgerError =>
      match ← signalCall (.sendRawSignal pid .cont) with
      | .error rollbackError =>
        return .error (.system (s!"SIGSTOP succeeded but ownership ledger failed: {ledgerError}; "
          ++ s!"SIGCONT rollback failed: {rollbackError}"))
      | .ok () =>
        return .error (.system (s!"SIGSTOP succeeded but ownership ledger failed: {ledgerError}; "
          ++ "SIGCONT rollback succeeded"))

/-- The record is taken first, then SIGCONT; if that fails the record is restored. -/
def continueProcess (pid : Int) : Signaling (Except DaemonError Unit) := do
  match ← takeFreezeitSignalStop pid with
  | .error error => return .error error
  | .ok wasOwnedStop =>
    match ← signalCall (.sendRawSignal pid .cont) with
    | .ok () => return .ok ()
    | .error signalError =>
      if wasOwnedStop then
        match ← recordFreezeitSignalStop pid with
        | .error restoreError =>
          return .error (.system (s!"SIGCONT failed: {signalError}; "
            ++ s!"failed to restore ownership ledger: {restoreError}"))
        | .ok () => return .error signalError
      else return .error signalError

/-- Both signals, with the check of the pid. -/
def sendSignal (pid : Int) (action : SignalAction) : Signaling (Except DaemonError Unit) :=
  if pid ≤ 0 then pure (.error (.system "refusing to signal non-positive pid"))
  else
    match action with
    | .stop => stopProcess pid
    | .cont => continueProcess pid

/-! ## The world of processes and files -/

/-- What the calls act on: the live processes, which of them are stopped, and the ledger. -/
structure SignalWorld where
  /-- The start time of the live process with a pid. -/
  live    : Int → Option Nat
  /-- The processes whose last signal was SIGSTOP. -/
  stopped : Set SignalStopIdentity
  /-- The records of the ledger file. -/
  ledger  : Set SignalStopIdentity

/-- What a call does: a call that fails changes nothing. -/
inductive SignalWorld.Call (w : SignalWorld) : SignalCall → SignalWorld → Prop where
  | stopped : ∀ {pid startTimeTicks}, w.live pid = some startTimeTicks →
      Call w ⟨.sendRawSignal pid .stop, .ok ()⟩
        { w with stopped := insert ⟨pid, startTimeTicks⟩ w.stopped }
  | continued : ∀ {pid startTimeTicks}, w.live pid = some startTimeTicks →
      Call w ⟨.sendRawSignal pid .cont, .ok ()⟩
        { w with stopped := w.stopped \ {⟨pid, startTimeTicks⟩} }
  | signalFailed : ∀ {pid action} (error : DaemonError),
      Call w ⟨.sendRawSignal pid action, .error error⟩ w
  | startTime : ∀ {pid startTimeTicks}, w.live pid = some startTimeTicks →
      Call w ⟨.readProcessStartTime pid, .ok startTimeTicks⟩ w
  | startTimeFailed : ∀ {pid} (error : DaemonError),
      Call w ⟨.readProcessStartTime pid, .error error⟩ w
  | ledger : ∀ {records : SortedMap SignalStopIdentity SignalStopLedgerRecord},
      (∀ i, i ∈ records ↔ i ∈ w.ledger) → Call w ⟨.readSignalStopLedger, .ok records⟩ w
  | ledgerFailed : ∀ (error : DaemonError), Call w ⟨.readSignalStopLedger, .error error⟩ w
  | provenance : ∀ (provenance : SignalStopProvenanceLedger),
      Call w ⟨.readSignalStopProvenance, provenance⟩ w
  | generation : ∀ (answer : Except DaemonError SignalStopLedgerGeneration),
      Call w ⟨.signalStopLedgerGeneration, answer⟩ w
  | written : ∀ {identities : List SignalStopIdentity},
      Call w ⟨.writeSignalStopLedger identities, .ok ()⟩
        { w with ledger := { i | i ∈ identities } }
  | writeFailed : ∀ {identities} (error : DaemonError),
      Call w ⟨.writeSignalStopLedger identities, .error error⟩ w
  | provenanceWritten : ∀ {lines} (answer : Except DaemonError Unit),
      Call w ⟨.writeSignalStopProvenance lines, answer⟩ w

/-- Processes die and start; a process that starts has not been signalled. The daemon's
    own ledger does not change by itself. -/
structure SignalWorld.Drift (w w' : SignalWorld) : Prop where
  live    : ∀ pid startTimeTicks, w'.live pid = some startTimeTicks →
    w.live pid = some startTimeTicks ∨ ⟨pid, startTimeTicks⟩ ∉ w.stopped
  stopped : w'.stopped = w.stopped
  ledger  : w'.ledger = w.ledger

/-- Calls change this world, and processes come and go between them. -/
def signalWorld : WorldModel SignalQuery SignalQuery.Answer SignalWorld where
  call  := SignalWorld.Call
  drift := SignalWorld.Drift

/-- Every live process that was last stopped is in the ledger. -/
def SignalWorld.Recorded (w : SignalWorld) : Prop :=
  ∀ pid startTimeTicks, w.live pid = some startTimeTicks → ⟨pid, startTimeTicks⟩ ∈ w.stopped →
    ⟨pid, startTimeTicks⟩ ∈ w.ledger

/-! ## Disturbances

    A call of `send_signal` leaves its process stopped without a record for a
    while: after the SIGSTOP, and after the record was taken for a SIGCONT.
    What matters is whether the daemon dies, or a call fails, in that while. -/

namespace SignalCall

/-- A read or a write of `/proc` or of the ledger files that fails. -/
inductive FileFails : SignalCall → Prop where
  | startTime  : ∀ pid error, FileFails ⟨.readProcessStartTime pid, .error error⟩
  | ledger     : ∀ error, FileFails ⟨.readSignalStopLedger, .error error⟩
  | generation : ∀ error, FileFails ⟨.signalStopLedgerGeneration, .error error⟩
  | written    : ∀ identities error, FileFails ⟨.writeSignalStopLedger identities, .error error⟩
  | provenance : ∀ lines error, FileFails ⟨.writeSignalStopProvenance lines, .error error⟩

/-- A signal that is not delivered. -/
inductive KillFails : SignalCall → Prop where
  | sent : ∀ pid action error, KillFails ⟨.sendRawSignal pid action, .error error⟩

/-- From here on the process may be stopped without a record. -/
inductive Exposes : SignalAction → SignalCall → Prop where
  | stopped : ∀ pid, Exposes .stop ⟨.sendRawSignal pid .stop, .ok ()⟩
  | taken   : ∀ identities, Exposes .cont ⟨.writeSignalStopLedger identities, .ok ()⟩

/-- The process goes on, or the ledger is replaced. -/
inductive Settles : SignalCall → Prop where
  | continued : ∀ pid, Settles ⟨.sendRawSignal pid .cont, .ok ()⟩
  | recorded  : ∀ identities, Settles ⟨.writeSignalStopLedger identities, .ok ()⟩

/-- A failed file operation settles nothing. -/
theorem FileFails.not_settles {call : SignalCall} (h : call.FileFails) : ¬ call.Settles := by
  cases h with
  | startTime  => exact nofun
  | ledger     => exact nofun
  | generation => exact nofun
  | written    => exact nofun
  | provenance => exact nofun

end SignalCall

/-- The process has been exposed by one of the calls and was not settled in the
    calls `after` it. -/
def Exposed (action : SignalAction) (t after : List SignalCall) : Prop :=
  ∃ before e, t = before ++ e :: after ∧ e.Exposes action
    ∧ (∀ call ∈ before, ¬ call.Exposes action) ∧ ∀ call ∈ after, ¬ call.Settles

/-- A file operation failed, or a signal. -/
def Faulted (file kill : Prop) (after : List SignalCall) : Prop :=
  (file → ∃ call ∈ after, call.FileFails) ∧ (kill → ∃ call ∈ after, call.KillFails)

/-- One call of `send_signal`, which returned or was cut off by a crash. -/
structure SignalOperation where
  pid      : Int
  action   : SignalAction
  returned : Bool
  before   : SignalWorld
  calls    : List SignalCall
  after    : SignalWorld

namespace SignalOperation

/-- The process outlives the call, and a Stop does not find a record of it, or a
    Continue finds it stopped. -/
def AtRisk (op : SignalOperation) : Prop :=
  ∃ startTimeTicks, op.after.live op.pid = some startTimeTicks
    ∧ (op.action = .stop → ⟨op.pid, startTimeTicks⟩ ∉ op.before.ledger)
    ∧ (op.action = .cont → ⟨op.pid, startTimeTicks⟩ ∈ op.before.stopped)

/-- While the process is exposed the daemon crashes, or an operation on `/proc`
    or the ledger fails; in a Stop the SIGCONT that rolls it back fails too. -/
def Disturbed (op : SignalOperation) : Prop :=
  op.AtRisk ∧ ∃ after, Exposed op.action op.calls after
    ∧ (op.returned = true → Faulted True (op.action = .stop) after)

end SignalOperation

/-- A process stays exposed as long as nothing settles it. -/
theorem Exposed.concat {action : SignalAction} {t after : List SignalCall} {e : SignalCall}
    (h : Exposed action t after) (he : ¬ e.Settles) : Exposed action (t ++ [e]) (after ++ [e]) := by
  obtain ⟨before, first, rfl, hfirst, hbefore, hafter⟩ := h
  refine ⟨before, first, by simp, hfirst, hbefore, ?_⟩
  intro call hcall
  rcases List.mem_append.mp hcall with hold | hnew
  · exact hafter call hold
  · exact List.mem_singleton.mp hnew ▸ he

/-- The first signal exposes its process. -/
theorem exposed_concat {action : SignalAction} {t : List SignalCall} {e : SignalCall}
    (ht : ∀ call ∈ t, ¬ call.Exposes action) (he : e.Exposes action) :
    Exposed action (t ++ [e]) [] :=
  ⟨t, e, rfl, he, ht, fun _ hcall => absurd hcall List.not_mem_nil⟩

/-- A fault stays one. -/
theorem Faulted.concat {file kill : Prop} {after : List SignalCall} (h : Faulted file kill after)
    (e : SignalCall) : Faulted file kill (after ++ [e]) := by
  constructor
  · intro hfile
    obtain ⟨call, hcall, hfails⟩ := h.1 hfile
    exact ⟨call, List.mem_append_left _ hcall, hfails⟩
  · intro hkill
    obtain ⟨call, hcall, hfails⟩ := h.2 hkill
    exact ⟨call, List.mem_append_left _ hcall, hfails⟩

/-! ## The invariant -/

/-- A world and the calls that a running `send_signal` has made so far. -/
abbrev SignalPoint : Type := SignalWorld × List SignalCall

/-- A Stop loses no record, and a Continue stops no process. -/
def SignalWorld.Kept (action : SignalAction) (w₀ w : SignalWorld) : Prop :=
  (action = .stop → ∀ i ∈ w₀.ledger, i ∈ w.ledger)
    ∧ (action = .cont → ∀ i ∈ w.stopped, i ∈ w₀.stopped)

/-- Everything is recorded. -/
def Settled (action : SignalAction) (w₀ : SignalWorld) (point : SignalPoint) : Prop :=
  point.1.Recorded ∧ SignalWorld.Kept action w₀ point.1

/-- The same in the middle of a call. Only the process of `pid` may be stopped without a
    record, and then the calls since it was exposed have the faults that `file` and `kill`
    speak of. -/
structure Owing (action : SignalAction) (pid : Int) (w₀ : SignalWorld) (file kill : Prop)
    (point : SignalPoint) : Prop where
  recorded : ∀ pid' startTimeTicks, point.1.live pid' = some startTimeTicks →
    ⟨pid', startTimeTicks⟩ ∈ point.1.stopped → ⟨pid', startTimeTicks⟩ ∈ point.1.ledger
      ∨ pid' = pid ∧ ∃ after, Exposed action point.2 after ∧ Faulted file kill after
  kept     : SignalWorld.Kept action w₀ point.1

variable {w w' w₀ : SignalWorld} {pid : Int} {startTimeTicks : Nat} {action : SignalAction}
  {file kill : Prop} {past : List SignalCall} {e : SignalCall}

/-- Where every stop is recorded nothing is owed. -/
theorem Settled.owing {point : SignalPoint} (h : Settled action w₀ point) (pid : Int)
    (file kill : Prop) : Owing action pid w₀ file kill point :=
  ⟨fun pid' startTimeTicks hlive hstopped => .inl (h.1 pid' startTimeTicks hlive hstopped), h.2⟩

/-- A call that settles nothing and changes nothing. -/
theorem Settled.call (h : Settled action w₀ (w, past)) (e : SignalCall) :
    Settled action w₀ (w, past ++ [e]) := h

/-- A call that settles nothing leaves what is owed. -/
theorem Owing.call (h : Owing action pid w₀ file kill (w, past)) (he : ¬ e.Settles) :
    Owing action pid w₀ file kill (w, past ++ [e]) where
  recorded pid' startTimeTicks hlive hstopped := by
    refine (h.recorded pid' startTimeTicks hlive hstopped).imp_right ?_
    rintro ⟨hpid, after, hexposed, hfaulted⟩
    exact ⟨hpid, after ++ [e], hexposed.concat he, hfaulted.concat e⟩
  kept := h.kept

/-- After a failed file operation it is a fault of the file that is owed for. -/
theorem Owing.fileFails (h : Owing action pid w₀ file kill (w, past)) (he : e.FileFails) :
    Owing action pid w₀ True kill (w, past ++ [e]) where
  recorded pid' startTimeTicks hlive hstopped := by
    refine (h.recorded pid' startTimeTicks hlive hstopped).imp_right ?_
    rintro ⟨hpid, after, hexposed, hfaulted⟩
    exact ⟨hpid, after ++ [e], hexposed.concat he.not_settles,
      fun _ => ⟨e, by simp, he⟩, (hfaulted.concat e).2⟩
  kept := h.kept

/-- After a failed kill it is a fault of that. -/
theorem Owing.killFails (h : Owing action pid w₀ file kill (w, past)) (pid' : Int)
    (action' : SignalAction) (error : DaemonError) :
    Owing action pid w₀ file True (w, past ++ [⟨.sendRawSignal pid' action', .error error⟩]) where
  recorded pid'' startTimeTicks hlive hstopped := by
    refine (h.recorded pid'' startTimeTicks hlive hstopped).imp_right ?_
    rintro ⟨hpid, after, hexposed, hfaulted⟩
    refine ⟨hpid, _, hexposed.concat nofun, (hfaulted.concat _).1, fun _ => ?_⟩
    exact ⟨⟨.sendRawSignal pid' action', .error error⟩, by simp, .sent _ _ _⟩
  kept := h.kept

/-- Less may be said about the fault. -/
theorem Owing.mono {file' kill' : Prop} {point : SignalPoint}
    (h : Owing action pid w₀ file kill point) (hfile : file' → file) (hkill : kill' → kill) :
    Owing action pid w₀ file' kill' point where
  recorded pid' startTimeTicks hlive hstopped := by
    refine (h.recorded pid' startTimeTicks hlive hstopped).imp_right ?_
    rintro ⟨hpid, after, hexposed, hfaulted⟩
    exact ⟨hpid, after, hexposed, fun h => hfaulted.1 (hfile h), fun h => hfaulted.2 (hkill h)⟩
  kept := h.kept

/-! ### Drifts -/

/-- The world together with the calls that were made so far. -/
abbrev signalPoints : WorldModel SignalQuery SignalQuery.Answer SignalPoint := signalWorld.withCalls

/-- A process that lives after a drift and was stopped before it has lived through it. -/
theorem SignalWorld.Drift.lived (h : w.Drift w') (hlive : w'.live pid = some startTimeTicks)
    (hstopped : ⟨pid, startTimeTicks⟩ ∈ w'.stopped) :
    w.live pid = some startTimeTicks ∧ ⟨pid, startTimeTicks⟩ ∈ w.stopped := by
  rw [h.stopped] at hstopped
  exact ⟨(h.live pid startTimeTicks hlive).resolve_right fun hnot => hnot hstopped, hstopped⟩

/-- The records of others are kept when processes come and go. -/
theorem SignalWorld.Kept.drift (h : SignalWorld.Kept action w₀ w) (hdrift : w.Drift w') :
    SignalWorld.Kept action w₀ w' := by
  constructor
  · intro haction i hi
    rw [hdrift.ledger]
    exact h.1 haction i hi
  · intro haction i hi
    rw [hdrift.stopped] at hi
    exact h.2 haction i hi

/-- What is recorded stays so when processes come and go. -/
theorem settled_stable : Stable signalPoints (Settled action w₀) := by
  rintro ⟨w, past⟩ ⟨w', past'⟩ ⟨hrecorded, hkept⟩ ⟨hdrift, -⟩
  refine ⟨fun pid startTimeTicks hlive hstopped => ?_, hkept.drift hdrift⟩
  obtain ⟨hlive, hstopped⟩ := SignalWorld.Drift.lived hdrift hlive hstopped
  show _ ∈ w'.ledger
  rw [hdrift.ledger]
  exact hrecorded pid startTimeTicks hlive hstopped

/-- What is owed stays so when processes come and go. -/
theorem owing_stable : Stable signalPoints (Owing action pid w₀ file kill) := by
  rintro ⟨w, past⟩ ⟨w', past'⟩ h ⟨hdrift, heq⟩
  refine ⟨fun pid' startTimeTicks hlive hstopped => ?_, h.kept.drift hdrift⟩
  obtain ⟨hlive, hstopped⟩ := SignalWorld.Drift.lived hdrift hlive hstopped
  show _ ∈ w'.ledger ∨ _
  rw [hdrift.ledger, heq]
  exact h.recorded pid' startTimeTicks hlive hstopped

/-! ## Signals -/

/-- A SIGSTOP that is delivered exposes its process. -/
theorem Settled.stop (h : Settled .stop w₀ (w, past)) (pid : Int) (startTimeTicks : Nat)
    (hpast : ∀ call ∈ past, ¬ call.Exposes .stop) :
    Owing .stop pid w₀ False False ({ w with stopped := insert ⟨pid, startTimeTicks⟩ w.stopped },
      past ++ [⟨.sendRawSignal pid .stop, .ok ()⟩]) where
  recorded pid' startTimeTicks hlive' hstopped := by
    rcases Set.mem_insert_iff.mp hstopped with heq | hold
    · exact .inr ⟨congrArg SignalStopIdentity.pid heq, [], exposed_concat hpast (.stopped pid),
        False.elim, False.elim⟩
    · exact .inl (h.1 pid' startTimeTicks hlive' hold)
  kept := ⟨fun _ => h.2.1 rfl, nofun⟩

/-- A SIGCONT that is delivered settles what was owed. -/
theorem Owing.continue (h : Owing action pid w₀ file kill (w, past))
    (hlive : w.live pid = some startTimeTicks) (past' : List SignalCall) :
    Settled action w₀ ({ w with stopped := w.stopped \ {⟨pid, startTimeTicks⟩} }, past') := by
  constructor
  · rintro pid' ticks hlive' ⟨hold, hne⟩
    refine (h.recorded pid' ticks hlive' hold).resolve_right ?_
    rintro ⟨rfl, -⟩
    obtain rfl := Option.some.inj (hlive.symm.trans hlive')
    exact hne rfl
  · exact ⟨h.kept.1, fun haction i hi => h.kept.2 haction i hi.1⟩

/-! ## Writing the ledger -/

/-- An assertion that calls without an effect keep. -/
structure CarriesQuietCalls (P : SignalPoint → Prop) : Prop where
  stable : Stable signalPoints P
  call   : ∀ {w past e}, P (w, past) → ¬ e.Settles → P (w, past ++ [e])

/-- Settled points are carried along by calls that settle nothing. -/
theorem CarriesQuietCalls.settled : CarriesQuietCalls (Settled action w₀) := ⟨settled_stable, fun h _ => h⟩

/-- Owing points are carried along by calls that settle nothing. -/
theorem CarriesQuietCalls.owing : CarriesQuietCalls (Owing action pid w₀ file kill) := ⟨owing_stable, Owing.call⟩

/-- Rewriting the ledger: `P` holds until the main file is written and `R` from
    then on, and a failure leads to `E`. -/
theorem rewriteLedger_safe {P R E I : SignalPoint → Prop} {identity : SignalStopIdentity}
    {records : SortedMap SignalStopIdentity SignalStopLedgerRecord} {point : SignalPoint}
    (hP : CarriesQuietCalls P) (hR : CarriesQuietCalls R) (hPI : ∀ point, P point → I point)
    (hRI : ∀ point, R point → I point) (hEI : ∀ point, E point → I point)
    (hwrite : ∀ w past, P (w, past) → R ({ w with ledger := { i | i ∈ records } },
      past ++ [⟨.writeSignalStopLedger records.keys, .ok ()⟩]))
    (hPE : ∀ {w past e}, P (w, past) → e.FileFails → E (w, past ++ [e]))
    (hRE : ∀ {w past e}, R (w, past) → e.FileFails → E (w, past ++ [e])) (hpoint : P point) :
    CrashSafe signalPoints I (rewriteLedger identity records)
      (fun answer point => (answer = .ok () → R point) ∧ ∀ error, answer = .error error → E point)
      point := by
  refine crashSafe_ask_bind hP.stable hPI hpoint ?_
  rintro ⟨w, past⟩ provenance ⟨w', past'⟩ hw ⟨hcall, rfl⟩
  cases hcall
  refine crashSafe_ask_bind hP.stable hPI (hP.call hw nofun) ?_
  rintro ⟨w, past⟩ generation ⟨w', past'⟩ hw ⟨hcall, rfl⟩
  cases hcall
  refine crashSafe_ask_bind hP.stable hPI (hP.call hw nofun) ?_
  rintro ⟨w, past⟩ answer ⟨w', past'⟩ hw ⟨hcall, rfl⟩
  cases hcall
  cases answer with
  | error error =>
    have hfailed := hPE hw (.provenance [] error)
    exact crashSafe_pure (hEI _ hfailed) ⟨nofun, fun _ _ => hfailed⟩
  -- The sidecar is out of the way, so the write of the ledger decides.
  | ok done =>
    refine crashSafe_ask_bind hP.stable hPI (hP.call hw nofun) ?_
    rintro ⟨w, past⟩ answer ⟨w', past'⟩ hw ⟨hcall, rfl⟩
    cases hcall with
    | writeFailed error =>
      have hfailed := hPE hw (.written records.keys error)
      exact crashSafe_pure (hEI _ hfailed) ⟨nofun, fun _ _ => hfailed⟩
    | written =>
      -- From here on the new ledger is in place, whatever becomes of the provenance.
      have hwritten := hwrite w past hw
      simp only [← SortedMap.mem_keys] at hwritten
      dsimp only
      split
      · exact crashSafe_pure (hRI _ hwritten) ⟨fun _ => hwritten, nofun⟩
      · refine crashSafe_ask_bind hR.stable hRI hwritten ?_
        rintro ⟨w, past⟩ answer ⟨w', past'⟩ hw ⟨hcall, rfl⟩
        cases hcall
        cases answer with
        | error error =>
          have hfailed := hRE hw (.generation error)
          exact crashSafe_pure (hEI _ hfailed) ⟨nofun, fun _ _ => hfailed⟩
        | ok generation =>
          have hasked := hR.call (e := ⟨.signalStopLedgerGeneration, .ok generation⟩) hw nofun
          refine ⟨hRI _ hasked, ?_⟩
          rintro ⟨w, past⟩ hdrift answer ⟨w', past'⟩ ⟨hcall, rfl⟩
          have hw := hR.stable _ _ hasked hdrift
          cases hcall
          cases answer with
          | error error =>
            exact ⟨hEI _ (hRE hw (.provenance _ error)), nofun, fun _ _ => hRE hw (.provenance _ error)⟩
          | ok done =>
            exact ⟨hRI _ (hR.call hw nofun), fun _ => hR.call hw nofun, nofun⟩

/-- A process of `pid` that was stopped can only have this start time. -/
def SignalWorld.StartedAt (pid : Int) (startTimeTicks : Nat) (w : SignalWorld) : Prop :=
  ∀ ticks, w.live pid = some ticks → ⟨pid, ticks⟩ ∈ w.stopped → ticks = startTimeTicks

/-- The start time that was read is that of the process, as long as it lives. -/
theorem SignalWorld.startedAt (h : w.live pid = some startTimeTicks) :
    w.StartedAt pid startTimeTicks := fun _ hlive _ => Option.some.inj (hlive.symm.trans h)

/-- `records` is what the ledger file says. -/
def SignalWorld.Reads (records : SortedMap SignalStopIdentity SignalStopLedgerRecord)
    (w : SignalWorld) : Prop := ∀ i, i ∈ records ↔ i ∈ w.ledger

/-- The start time is carried along. -/
theorem CarriesQuietCalls.startedAt {P : SignalPoint → Prop} (hP : CarriesQuietCalls P) (pid : Int)
    (startTimeTicks : Nat) :
    CarriesQuietCalls fun point => P point ∧ point.1.StartedAt pid startTimeTicks where
  stable := by
    rintro ⟨w, past⟩ ⟨w', past'⟩ ⟨hw, hstarted⟩ hdrift
    refine ⟨hP.stable _ _ hw hdrift, fun ticks hlive hstopped => ?_⟩
    obtain ⟨hlive, hstopped⟩ := SignalWorld.Drift.lived hdrift.1 hlive hstopped
    exact hstarted ticks hlive hstopped
  call h he := ⟨hP.call h.1 he, h.2⟩

/-- What was read from the ledger is carried along, since nobody else writes it. -/
theorem CarriesQuietCalls.reads {P : SignalPoint → Prop} (hP : CarriesQuietCalls P)
    (records : SortedMap SignalStopIdentity SignalStopLedgerRecord) :
    CarriesQuietCalls fun point => P point ∧ point.1.Reads records where
  stable := by
    rintro ⟨w, past⟩ ⟨w', past'⟩ ⟨hw, hreads⟩ hdrift
    refine ⟨hP.stable _ _ hw hdrift, fun i => ?_⟩
    show _ ↔ i ∈ w'.ledger
    rw [hdrift.1.ledger]
    exact hreads i
  call h he := ⟨hP.call h.1 he, h.2⟩

/-- Recording settles what is owed, and loses no record; if it fails, a file
    operation has failed. -/
theorem recordFreezeitSignalStop_safe {point : SignalPoint}
    (hpoint : Owing action pid w₀ False kill point) :
    CrashSafe signalPoints (Owing action pid w₀ False False) (recordFreezeitSignalStop pid)
      (fun answer point => (answer = .ok () → Settled action w₀ point)
        ∧ ∀ error, answer = .error error → Owing action pid w₀ True kill point) point := by
  have hweaken : ∀ {file point}, Owing action pid w₀ file kill point →
      Owing action pid w₀ False False point := fun h => h.mono False.elim False.elim
  -- Each failure up to the write leaves the stop unrecorded, by a fault of the file.
  have hfail : ∀ {w past e} {error : DaemonError}, Owing action pid w₀ False kill (w, past) →
      e.FileFails → CrashSafe signalPoints (Owing action pid w₀ False False)
        (pure (.error error) : Signaling (Except DaemonError Unit))
        (fun answer point => (answer = .ok () → Settled action w₀ point)
          ∧ ∀ error, answer = .error error → Owing action pid w₀ True kill point)
        (w, past ++ [e]) := by
    intro w past e error hw he
    have hfailed := hw.fileFails he
    exact crashSafe_pure (hweaken hfailed) ⟨nofun, fun _ _ => hfailed⟩
  refine crashSafe_ask_bind owing_stable (fun _ => hweaken) hpoint ?_
  rintro ⟨w, past⟩ answer ⟨w', past'⟩ hw ⟨hcall, rfl⟩
  cases hcall with
  | startTimeFailed error => exact hfail hw (.startTime _ error)
  | @startTime _ ticks hlive =>
    have howing : CarriesQuietCalls (Owing action pid w₀ False kill) := .owing
    have hcarried := howing.startedAt pid ticks
    refine crashSafe_ask_bind hcarried.stable (fun _ h => hweaken h.1)
      ⟨hw.call nofun, SignalWorld.startedAt hlive⟩ ?_
    rintro ⟨w, past⟩ answer ⟨w', past'⟩ ⟨hw, hstarted⟩ ⟨hcall, rfl⟩
    cases hcall with
    | ledgerFailed error => exact hfail hw (.ledger error)
    | @ledger records hreads =>
      refine rewriteLedger_safe (R := Settled action w₀) (hcarried.reads records) .settled
        (fun _ h => hweaken h.1.1) (fun _ h => h.owing pid False False) (fun _ => hweaken) ?_
        (fun h he => h.1.1.fileFails he) (fun h _ => (h.call _).owing pid True kill)
        ⟨⟨hw.call nofun, hstarted⟩, hreads⟩
      rintro w past ⟨⟨howing, hstarted⟩, hreads⟩
      constructor
      · intro pid' startTimeTicks hlive hstopped
        simp only [Set.mem_ofPred_eq, SortedMap.mem_insert]
        rcases howing.recorded pid' startTimeTicks hlive hstopped with hin | ⟨rfl, -⟩
        · exact .inr ((hreads _).mpr hin)
        · obtain rfl := hstarted startTimeTicks hlive hstopped
          exact .inl rfl
      · refine ⟨fun haction i hi => ?_, howing.kept.2⟩
        simp only [Set.mem_ofPred_eq, SortedMap.mem_insert]
        exact .inr ((hreads i).mpr (howing.kept.1 haction i hi))

/-- Taking a record out of the ledger exposes its process, if there was one. -/
theorem takeFreezeitSignalStop_safe (hw : w₀.Recorded) :
    CrashSafe signalPoints (Owing .cont pid w₀ False False) (takeFreezeitSignalStop pid)
      (fun answer point => (∀ error, answer = .error error → Owing .cont pid w₀ True False point)
        ∧ ∀ taken, answer = .ok taken → Owing .cont pid w₀ False False point
          ∧ (taken = false → Settled .cont w₀ point)) (w₀, []) := by
  -- Nothing is taken before the main file is written.
  have hcarried : CarriesQuietCalls fun point => Settled .cont w₀ point
      ∧ ∀ call ∈ point.2, ¬ call.Exposes .cont := by
    refine ⟨?_, ?_⟩
    · rintro ⟨w, past⟩ ⟨w', past'⟩ ⟨hsettled, hpast⟩ hdrift
      refine ⟨settled_stable _ _ hsettled hdrift, ?_⟩
      rw [hdrift.2]
      exact hpast
    · rintro w past e ⟨hsettled, hpast⟩ he
      refine ⟨hsettled, fun call hcall => ?_⟩
      rcases List.mem_append.mp hcall with hold | hnew
      · exact hpast call hold
      · obtain rfl := List.mem_singleton.mp hnew
        rintro ⟨⟩
        exact he (.recorded _)
  -- At the start every stop is recorded.
  have hstart : Settled .cont w₀ (w₀, []) := ⟨hw, nofun, fun _ _ hi => hi⟩
  have howing : ∀ {point}, Settled .cont w₀ point → Owing .cont pid w₀ False False point :=
    fun h => h.owing pid False False
  -- An error is returned for the fault of a file.
  have hfail : ∀ {point : SignalPoint} {error : DaemonError}, Owing .cont pid w₀ True False point →
      CrashSafe signalPoints (Owing .cont pid w₀ False False)
        (pure (.error error) : Signaling (Except DaemonError Bool))
        (fun answer point => (∀ error, answer = .error error → Owing .cont pid w₀ True False point)
          ∧ ∀ taken, answer = .ok taken → Owing .cont pid w₀ False False point
            ∧ (taken = false → Settled .cont w₀ point)) point := by
    intro point error hfailed
    refine crashSafe_pure (hfailed.mono False.elim id) ⟨fun _ _ => hfailed, fun _ heq => ?_⟩
    cases heq
  refine crashSafe_ask_bind hcarried.stable (fun _ h => howing h.1)
    ⟨hstart, fun _ hcall => absurd hcall List.not_mem_nil⟩ ?_
  rintro ⟨w, past⟩ answer ⟨w', past'⟩ ⟨hw, hpast⟩ ⟨hcall, rfl⟩
  cases hcall with
  | startTimeFailed error => exact hfail ((hw.call _).owing pid True False)
  | @startTime _ ticks _ =>
    refine crashSafe_ask_bind hcarried.stable (fun _ h => howing h.1)
      (hcarried.call ⟨hw, hpast⟩ nofun) ?_
    rintro ⟨w, past⟩ answer ⟨w', past'⟩ ⟨hw, hpast⟩ ⟨hcall, rfl⟩
    cases hcall with
    | ledgerFailed error => exact hfail ((hw.call _).owing pid True False)
    | @ledger records hreads =>
      have hquiet := hcarried.call (e := ⟨.readSignalStopLedger, .ok records⟩) ⟨hw, hpast⟩ nofun
      have hafter : CarriesQuietCalls fun point => Owing .cont pid w₀ False False point
          ∧ (records.contains ⟨pid, ticks⟩ = false → Settled .cont w₀ point) :=
        ⟨fun _ _ h hdrift => ⟨owing_stable _ _ h.1 hdrift,
          fun htaken => settled_stable _ _ (h.2 htaken) hdrift⟩,
          fun h he => ⟨h.1.call he, fun htaken => (h.2 htaken).call _⟩⟩
      refine crashSafe_bind (CrashSafe.mono (rewriteLedger_safe (E := Owing .cont pid w₀ True False)
        (hcarried.reads records) hafter (fun _ h => howing h.1.1) (fun _ h => h.1)
        (fun _ h => h.mono False.elim id) ?_
        (fun h _ => (h.1.1.call _).owing pid True False) (fun h he => h.1.fileFails he)
        ⟨hquiet, hreads⟩) ?_)
      · rintro w past ⟨⟨hsettled, hpast⟩, hreads⟩
        refine ⟨⟨fun pid' startTimeTicks hlive hstopped => ?_, nofun, hsettled.2.2⟩,
          fun htaken => ⟨fun pid' startTimeTicks hlive hstopped => ?_, nofun, hsettled.2.2⟩⟩
        · have hin := hsettled.1 pid' startTimeTicks hlive hstopped
          by_cases htaken : (⟨pid', startTimeTicks⟩ : SignalStopIdentity) = ⟨pid, ticks⟩
          · exact .inr ⟨congrArg SignalStopIdentity.pid htaken, [], exposed_concat hpast (.taken _),
              False.elim, False.elim⟩
          · refine .inl ?_
            simp only [Set.mem_ofPred_eq, SortedMap.mem_erase]
            exact ⟨htaken, (hreads _).mpr hin⟩
        · -- There was no record to take.
          have hin := hsettled.1 pid' startTimeTicks hlive hstopped
          simp only [Set.mem_ofPred_eq, SortedMap.mem_erase]
          refine ⟨?_, (hreads _).mpr hin⟩
          intro heq
          have hmem := (hreads _).mpr hin
          rw [heq] at hmem
          rw [SortedMap.contains_iff_mem.mpr hmem] at htaken
          cases htaken
      · rintro answer point ⟨hok, herror⟩
        cases answer with
        | error error => exact hfail (herror error rfl)
        | ok done =>
          obtain ⟨howing, hsettled⟩ := hok rfl
          refine crashSafe_pure howing ⟨fun _ heq => ?_, fun taken heq => ⟨howing, fun htaken => ?_⟩⟩
          · cases heq
          · exact hsettled ((Except.ok.inj heq).trans htaken)

/-! ## Sending -/

/-- Wherever a call of `send_signal` is, only the process of its pid can be without
    a record, and only while it is exposed; where it returns, something failed. -/
theorem stopProcess_safe (hw : w₀.Recorded) :
    CrashSafe signalPoints (Owing .stop pid w₀ False False) (stopProcess pid)
      (fun _ => Owing .stop pid w₀ True True) (w₀, []) := by
  have hstable : Stable signalPoints fun point => Settled .stop w₀ point ∧ point.2 = [] := by
    rintro ⟨w, past⟩ ⟨w', past'⟩ ⟨hsettled, hpast⟩ hdrift
    exact ⟨settled_stable _ _ hsettled hdrift, hdrift.2.trans hpast⟩
  have hweaken : ∀ {file kill point}, Owing .stop pid w₀ file kill point →
      Owing .stop pid w₀ False False point := fun h => h.mono False.elim False.elim
  have hdone : ∀ {point} (answer : Except DaemonError Unit), Settled .stop w₀ point →
      CrashSafe signalPoints (Owing .stop pid w₀ False False) (pure answer)
        (fun _ => Owing .stop pid w₀ True True) point :=
    fun _ h => crashSafe_pure (h.owing pid False False) (h.owing pid True True)
  refine crashSafe_ask_bind hstable (fun _ h => h.1.owing pid False False)
    ⟨⟨hw, fun _ _ hi => hi, nofun⟩, rfl⟩ ?_
  rintro ⟨w, past⟩ answer ⟨w', past'⟩ ⟨hw, hpast⟩ ⟨hcall, rfl⟩
  dsimp only at hpast
  subst hpast
  cases hcall with
  | signalFailed error => exact hdone _ (hw.call _)
  | @stopped _ ticks hlive =>
    -- From the SIGSTOP on its process is owed a record.
    have hstopped := hw.stop pid ticks fun _ hcall => absurd hcall List.not_mem_nil
    refine crashSafe_bind ((recordFreezeitSignalStop_safe hstopped).mono ?_)
    rintro answer point ⟨hok, herror⟩
    cases answer with
    | ok done => exact hdone _ (hok rfl)
    -- The record failed, so the SIGCONT has to settle it.
    | error ledgerError =>
      refine crashSafe_ask_bind owing_stable (fun _ => hweaken) (herror ledgerError rfl) ?_
      rintro ⟨w, past⟩ answer ⟨w', past'⟩ hw ⟨hcall, rfl⟩
      cases hcall with
      | continued hlive => exact hdone _ (hw.continue hlive _)
      | signalFailed rollbackError =>
        have hfailed := hw.killFails pid .cont rollbackError
        exact crashSafe_pure (hweaken hfailed) hfailed

/-- SIGCONT leaves nothing owed, unless the restoring write fails as well. -/
theorem continueProcess_safe (hw : w₀.Recorded) :
    CrashSafe signalPoints (Owing .cont pid w₀ False False) (continueProcess pid)
      (fun _ => Owing .cont pid w₀ True False) (w₀, []) := by
  have hdone : ∀ {point} (answer : Except DaemonError Unit), Settled .cont w₀ point →
      CrashSafe signalPoints (Owing .cont pid w₀ False False) (pure answer)
        (fun _ => Owing .cont pid w₀ True False) point :=
    fun _ h => crashSafe_pure (h.owing pid False False) (h.owing pid True False)
  refine crashSafe_bind ((takeFreezeitSignalStop_safe hw).mono ?_)
  rintro answer point ⟨herror, hok⟩
  cases answer with
  | error error =>
    have hfailed := herror error rfl
    exact crashSafe_pure (hfailed.mono False.elim id) hfailed
  | ok wasOwnedStop =>
    obtain ⟨howing, hsettled⟩ := hok wasOwnedStop rfl
    have hstable : Stable signalPoints fun point => Owing .cont pid w₀ False False point
        ∧ (wasOwnedStop = false → Settled .cont w₀ point) := fun _ _ h hdrift =>
      ⟨owing_stable _ _ h.1 hdrift, fun htaken => settled_stable _ _ (h.2 htaken) hdrift⟩
    refine crashSafe_ask_bind hstable (fun _ h => h.1) ⟨howing, hsettled⟩ ?_
    rintro ⟨w, past⟩ answer ⟨w', past'⟩ ⟨hw, hsettled⟩ ⟨hcall, rfl⟩
    cases hcall with
    | continued hlive => exact hdone _ (hw.continue hlive _)
    -- The process is still stopped, and its record was taken.
    | signalFailed signalError =>
      dsimp only
      cases wasOwnedStop with
      | false => exact hdone _ ((hsettled rfl).call _)
      | true =>
        -- The record that was taken is written again.
        have hagain := hw.call (e := ⟨.sendRawSignal pid .cont, .error signalError⟩) nofun
        refine crashSafe_bind ((recordFreezeitSignalStop_safe hagain).mono ?_)
        rintro answer point ⟨hok, herror⟩
        cases answer with
        | ok done => exact hdone _ (hok rfl)
        | error restoreError =>
          have hfailed := herror restoreError rfl
          exact crashSafe_pure (hfailed.mono False.elim id) hfailed

/-- Whatever is sent and wherever it is cut off, what is owed is owed for a fault. -/
theorem sendSignal_safe (hw : w₀.Recorded) :
    CrashSafe signalPoints (Owing action pid w₀ False False) (sendSignal pid action)
      (fun _ => Owing action pid w₀ True (action = .stop)) (w₀, []) := by
  unfold sendSignal
  split
  · have hsettled : Settled action w₀ (w₀, []) := ⟨hw, fun _ _ hi => hi, fun _ _ hi => hi⟩
    exact crashSafe_pure (hsettled.owing _ _ _) (hsettled.owing _ _ _)
  · cases action with
    | stop => exact (stopProcess_safe hw).mono fun _ _ h => h.mono id fun _ => trivial
    | cont => exact (continueProcess_safe hw).mono fun _ _ h => h.mono id nofun

/-! ## Runs with crashes -/

/-- Calls of `send_signal`, one after the other, each returning or cut off by a
    crash. -/
inductive SignalRun (start : SignalWorld) : List SignalOperation → SignalWorld → Prop where
  | start : SignalRun start [] start
  | returned : ∀ {ops w t r w'} (pid : Int) (action : SignalAction), SignalRun start ops w →
      Exec (sendSignal pid action) t r → WorldSteps signalWorld w t w' →
      SignalRun start (ops ++ [⟨pid, action, true, w, t, w'⟩]) w'
  | crashed : ∀ {ops w t w'} (pid : Int) (action : SignalAction), SignalRun start ops w →
      Partial (sendSignal pid action) t → WorldSteps signalWorld w t w' →
      SignalRun start (ops ++ [⟨pid, action, false, w, t, w'⟩]) w'

/-- What a call still owes when it ends is owed by a disturbance. -/
theorem Owing.undisturbed {returned : Bool} {t : List SignalCall}
    (h : Owing action pid w (returned = true) (returned = true ∧ action = .stop) (w', t))
    (hquiet : ¬ SignalOperation.Disturbed ⟨pid, action, returned, w, t, w'⟩) : w'.Recorded := by
  intro pid' startTimeTicks hlive hstopped
  by_contra hmissing
  obtain ⟨rfl, after, hexposed, hfaulted⟩ :=
    (h.recorded pid' startTimeTicks hlive hstopped).resolve_left hmissing
  refine hquiet ⟨⟨startTimeTicks, hlive, ?_, ?_⟩, after, hexposed, ?_⟩
  · exact fun haction hin => hmissing (h.kept.1 haction _ hin)
  · exact fun haction => h.kept.2 haction _ hstopped
  · exact fun hreturned => ⟨fun _ => hfaulted.1 hreturned, fun haction => hfaulted.2 ⟨hreturned, haction⟩⟩

/-- In a run of undisturbed calls every live process that was last stopped has its
    record whenever no call is running. -/
theorem stopped_processes_are_recorded {start : SignalWorld} {ops : List SignalOperation}
    (hstart : start.stopped = ∅) (h : SignalRun start ops w)
    (hquiet : ∀ op ∈ ops, ¬ op.Disturbed) : w.Recorded := by
  induction h with
  | start =>
    intro pid startTimeTicks _ hstopped
    rw [hstart] at hstopped
    exact absurd hstopped (Set.notMem_empty _)
  | returned pid action _ hexec hsteps ih =>
    have hbefore := ih fun op hop => hquiet op (List.mem_append_left _ hop)
    have hend := (sendSignal_safe hbefore).ends (fun _ _ => owing_stable _ _) hexec
      (hsteps.withCalls [])
    have howing : Owing action pid _ (true = true) (true = true ∧ action = .stop) (_, [] ++ _) :=
      hend.mono (fun _ => trivial) And.right
    exact howing.undisturbed (hquiet _ (by simp))
  | crashed pid action _ hcut hsteps ih =>
    have hbefore := ih fun op hop => hquiet op (List.mem_append_left _ hop)
    have hcut := (sendSignal_safe hbefore).cut owing_stable hcut (hsteps.withCalls [])
    have howing : Owing action pid _ (false = true) (false = true ∧ action = .stop) (_, [] ++ _) :=
      hcut.mono Bool.false_ne_true fun h => Bool.false_ne_true h.1
    exact howing.undisturbed (hquiet _ (by simp))

/-! ## A call in which nothing fails -/

/-- Ok stands for one more record in the ledger, and an error for a failed call. -/
structure Reports (pid : Int) (old : Set SignalStopIdentity) (fails : SignalCall → Prop)
    (answer : Except DaemonError Unit) (point : SignalPoint) : Prop where
  ok    : answer = .ok () → ∃ startTimeTicks,
    (⟨.readProcessStartTime pid, .ok startTimeTicks⟩ : SignalCall) ∈ point.2
      ∧ point.1.ledger = insert ⟨pid, startTimeTicks⟩ old
  error : ∀ error, answer = .error error → ∃ call ∈ point.2, fails call

variable {old : Set SignalStopIdentity} {fails : SignalCall → Prop} {point : SignalPoint}

/-- The answer stays right when processes come and go. -/
theorem Reports.drift {answer : Except DaemonError Unit} (point point' : SignalPoint)
    (h : Reports pid old fails answer point) (hdrift : signalPoints.drift point point') :
    Reports pid old fails answer point' where
  ok heq := by
    rw [hdrift.1.ledger, hdrift.2]
    exact h.ok heq
  error error heq := by
    rw [hdrift.2]
    exact h.error error heq

/-- A program that ends after a call that failed. -/
theorem reports_failure {error : DaemonError} (he : fails e) :
    CrashSafe signalPoints (fun _ => True)
      (pure (.error error) : Signaling (Except DaemonError Unit)) (Reports pid old fails)
      (w, past ++ [e]) :=
  crashSafe_pure trivial ⟨nofun, fun _ _ => ⟨e, by simp, he⟩⟩

/-- The ledger does not change by itself. -/
theorem ledger_stable : Stable signalPoints fun point => point.1.ledger = old := by
  rintro ⟨w, past⟩ ⟨w', past'⟩ hledger hdrift
  exact hdrift.1.ledger.trans hledger

/-- The ledger while nothing is written to it, and a call that was made. -/
theorem CarriesQuietCalls.ledger (old : Set SignalStopIdentity) (known : SignalCall) :
    CarriesQuietCalls fun point => point.1.ledger = old ∧ known ∈ point.2 where
  stable := by
    rintro ⟨w, past⟩ ⟨w', past'⟩ ⟨hledger, hknown⟩ hdrift
    rw [hdrift.2]
    exact ⟨hdrift.1.ledger.trans hledger, hknown⟩
  call h _ := ⟨h.1, List.mem_append_left _ h.2⟩

/-- What recording writes: the records of before and that of the process, unless
    a file operation fails. -/
theorem recordFreezeitSignalStop_reports (hpoint : point.1.ledger = old) :
    CrashSafe signalPoints (fun _ => True) (recordFreezeitSignalStop pid)
      (Reports pid old SignalCall.FileFails) point := by
  refine crashSafe_ask_bind ledger_stable (fun _ _ => trivial) hpoint ?_
  rintro ⟨w, past⟩ answer ⟨w', past'⟩ hw ⟨hcall, rfl⟩
  cases hcall with
  | startTimeFailed error => exact reports_failure (.startTime _ error)
  | @startTime _ ticks _ =>
    let known : SignalCall := ⟨.readProcessStartTime pid, .ok ticks⟩
    have hread := CarriesQuietCalls.ledger old known
    refine crashSafe_ask_bind hread.stable (fun _ _ => trivial) ⟨hw, by simp [known]⟩ ?_
    rintro ⟨w, past⟩ answer ⟨w', past'⟩ hw ⟨hcall, rfl⟩
    cases hcall with
    | ledgerFailed error => exact reports_failure (.ledger error)
    | @ledger records hreads =>
      have hafter := CarriesQuietCalls.ledger (insert ⟨pid, ticks⟩ old) known
      refine CrashSafe.mono (rewriteLedger_safe (E := fun point => ∃ call ∈ point.2, call.FileFails)
        (hread.reads records) hafter (fun _ _ => trivial) (fun _ _ => trivial)
        (fun _ _ => trivial) ?_ (fun _ he => ⟨_, by simp, he⟩) (fun _ he => ⟨_, by simp, he⟩)
        ⟨hread.call hw nofun, hreads⟩) ?_
      · rintro w past ⟨⟨hledger, hknown⟩, hreads⟩
        refine ⟨Set.ext fun i => ?_, List.mem_append_left _ hknown⟩
        have hin := hreads i
        dsimp only at hledger hin
        rw [hledger] at hin
        simp only [Set.mem_ofPred_eq, SortedMap.mem_insert, Set.mem_insert_iff, hin]
      · rintro answer point ⟨hok, herror⟩
        refine ⟨fun heq => ?_, herror⟩
        obtain ⟨hledger, hknown⟩ := hok heq
        exact ⟨ticks, hknown, hledger⟩

/-- A SIGSTOP that is not cut off reports success if it has recorded its process and kept
    the other records, and otherwise some call of it has failed. -/
theorem stopProcess_reports : CrashSafe signalPoints (fun _ => True) (stopProcess pid)
    (Reports pid w.ledger fun call => call.FileFails ∨ call.KillFails) (w, []) := by
  refine crashSafe_ask_bind ledger_stable (fun _ _ => trivial) rfl ?_
  rintro ⟨w₁, past⟩ answer ⟨w₂, past'⟩ hw ⟨hcall, rfl⟩
  cases hcall with
  | signalFailed error => exact reports_failure (.inr (.sent _ _ error))
  | @stopped _ ticks _ =>
    have hrecord : CrashSafe signalPoints (fun _ => True) (recordFreezeitSignalStop pid)
        (Reports pid w.ledger SignalCall.FileFails)
        ({ w₁ with stopped := insert ⟨pid, ticks⟩ w₁.stopped },
          past ++ [⟨.sendRawSignal pid .stop, .ok ()⟩]) := recordFreezeitSignalStop_reports hw
    refine crashSafe_bind (hrecord.mono ?_)
    rintro answer point ⟨hok, herror⟩
    cases answer with
    | ok done => exact crashSafe_pure trivial ⟨fun _ => hok rfl, nofun⟩
    | error ledgerError =>
      -- What failed while recording stays known, whatever becomes of the SIGCONT.
      have hstable : Stable signalPoints fun point => ∃ call ∈ point.2, call.FileFails := by
        rintro ⟨w₁, past⟩ ⟨w₂, past'⟩ hfails hdrift
        rw [hdrift.2]
        exact hfails
      refine crashSafe_ask_bind hstable (fun _ _ => trivial) (herror ledgerError rfl) ?_
      rintro ⟨w₁, past⟩ answer ⟨w₂, past'⟩ ⟨call, hmem, hfails⟩ ⟨-, rfl⟩
      have hseen : ∃ c ∈ past ++ [(⟨.sendRawSignal pid .cont, answer⟩ : SignalCall)],
          c.FileFails ∨ c.KillFails := ⟨call, List.mem_append_left _ hmem, .inl hfails⟩
      cases answer with
      | error rollbackError => exact crashSafe_pure trivial ⟨nofun, fun _ _ => hseen⟩
      | ok done => exact crashSafe_pure trivial ⟨nofun, fun _ _ => hseen⟩

/-- A Stop that returns Ok has added the record of its process to the ledger, and
    it returns Ok unless some call fails. -/
theorem stop_is_recorded {t : List SignalCall} {r : Except DaemonError Unit} (hpid : 0 < pid)
    (h : Exec (sendSignal pid .stop) t r) (hsteps : WorldSteps signalWorld w t w') :
    (r = .ok () → ∃ startTimeTicks,
      (⟨.readProcessStartTime pid, .ok startTimeTicks⟩ : SignalCall) ∈ t
        ∧ w'.ledger = insert ⟨pid, startTimeTicks⟩ w.ledger)
    ∧ ((∀ call ∈ t, ¬ call.FileFails ∧ ¬ call.KillFails) → r = .ok ()) := by
  unfold sendSignal at h
  rw [if_neg (by omega)] at h
  have hreports := stopProcess_reports.ends Reports.drift h (hsteps.withCalls [])
  refine ⟨hreports.ok, fun hquiet => ?_⟩
  cases r with
  | ok done => rfl
  | error error =>
    obtain ⟨call, hcall, hfails⟩ := hreports.error error rfl
    exact absurd hfails (not_or.mpr (hquiet call hcall))

/-! ## A crash between the signal and the record -/

/-- Nothing need happen between two calls. -/
theorem SignalWorld.Drift.refl (w : SignalWorld) : w.Drift w :=
  ⟨fun _ _ hlive => .inl hlive, rfl, rfl⟩

/-- Process 501 lives; nothing was signalled and the ledger is empty. -/
def quietWorld : SignalWorld where
  live pid := if pid = 501 then some 4242 else none
  stopped  := ∅
  ledger   := ∅

/-- One process has been stopped. -/
def stopped501 : SignalWorld := { quietWorld with stopped := insert ⟨501, 4242⟩ ∅ }

/-- Its stop is in the ledger. -/
def recorded501 : SignalWorld :=
  { stopped501 with ledger := { i | i ∈ [(⟨501, 4242⟩ : SignalStopIdentity)] } }

/-- A SIGSTOP and its record, without a failure that matters. -/
def stopCalls : List SignalCall :=
  [⟨.sendRawSignal 501 .stop, .ok ()⟩, ⟨.readProcessStartTime 501, .ok 4242⟩,
    ⟨.readSignalStopLedger, .ok ∅⟩, ⟨.readSignalStopProvenance, ⟨∅, false⟩⟩,
    ⟨.signalStopLedgerGeneration, .error (.system "no ledger")⟩,
    ⟨.writeSignalStopProvenance [], .ok ()⟩, ⟨.writeSignalStopLedger [⟨501, 4242⟩], .ok ()⟩]

/-- After a SIGSTOP every stop is recorded. -/
theorem stopped_processes_are_recorded_sample : recorded501.Recorded := by
  have hexec : Exec (sendSignal 501 .stop) stopCalls (.ok ()) :=
    .call _ (.call _ (.call _ (.call _ (.call _ (.call _ (.call _ (.done _)))))))
  have hempty : ∀ i, i ∈ (∅ : SortedMap SignalStopIdentity SignalStopLedgerRecord)
      ↔ i ∈ (∅ : Set SignalStopIdentity) := by simp
  have hsteps : WorldSteps signalWorld quietWorld stopCalls recorded501 :=
    .cons (.refl _) (.stopped rfl) (.cons (.refl _) (.startTime rfl)
      (.cons (.refl _) (.ledger hempty) (.cons (.refl _) (.provenance _)
        (.cons (.refl _) (.generation _) (.cons (.refl _) (.provenanceWritten _)
          (.cons (.refl _) .written (.nil (.refl _))))))))
  refine stopped_processes_are_recorded rfl (.returned 501 .stop .start hexec hsteps) fun op hop => ?_
  obtain rfl := List.mem_singleton.mp hop
  -- No signal fails in the call, so it was not disturbed.
  rintro ⟨-, after, ⟨before, e, hcalls, -⟩, hfaulted⟩
  obtain ⟨call, hcall, hfails⟩ := (hfaulted rfl).2 rfl
  have hmem : call ∈ stopCalls := by
    have hcalls : stopCalls = before ++ e :: after := hcalls
    rw [hcalls]
    exact List.mem_append_right _ (List.mem_cons_of_mem _ hcall)
  simp only [stopCalls, List.mem_cons, List.not_mem_nil, or_false] at hmem
  rcases hmem with rfl | rfl | rfl | rfl | rfl | rfl | rfl
  all_goals cases hfails

/-- The daemon dies right after it has delivered a SIGSTOP: the process stays
    stopped, and no record says that Freezeit stopped it. -/
theorem crash_leaves_unrecorded_stop :
    ¬ ∀ start ops w, start.stopped = ∅ → SignalRun start ops w → w.Recorded := by
  intro hclaim
  have hcalls : Partial (sendSignal 501 .stop) [⟨.sendRawSignal 501 .stop, .ok ()⟩] :=
    .call _ (.stop _)
  have hsteps : WorldSteps signalWorld quietWorld [⟨.sendRawSignal 501 .stop, .ok ()⟩] stopped501 :=
    .cons (.refl _) (.stopped rfl) (.nil (.refl _))
  exact hclaim _ _ _ rfl (.crashed 501 .stop .start hcalls hsteps) 501 4242 rfl (Set.mem_insert _ _)

end Freezeit
