import Freezeit.Lib.FileSystem
import Freezeit.SignalOwnership

/-! # The files of the SIGSTOP ledger

    The main ledger and the provenance sidecar are two files.  Each is removed
    when it would be empty, and else replaced by a temporary file.  The
    operations below make the file calls of the source one by one. -/

namespace Freezeit

open Prog

/-! ## Paths and texts -/

/-- The temporary files carry the process id of the daemon. -/
inductive LedgerPath where
  | main
  | sidecar
  | mainTemporary (processId : Nat)
  | sidecarTemporary (processId : Nat)
  deriving DecidableEq, Repr

/-- The two ledgers and their temporary files on one disk. -/
abbrev LedgerFiles : Type := FileSystem LedgerPath String

abbrev LedgerOp : Type := FileOp LedgerPath String

/-- A file call with its answer. -/
abbrev LedgerEvent : Type := FileEvent LedgerPath String IoError

/-- Programs that make file calls. -/
abbrev Filing (α : Type) : Type := Prog LedgerOp (FileOp.Answer IoError) α

/-- To make one call. -/
def ledgerCall (op : LedgerOp) : Filing (op.Answer IoError) := Prog.ask op

/-- How the sidecar names the main ledger file that it belongs to. -/
def SignalStopLedgerGeneration.sidecarToken (generation : SignalStopLedgerGeneration) : String :=
  s!"{generation.device}:{generation.inode}"

/-- A line of the main ledger. -/
def ledgerLine (identity : SignalStopIdentity) : String :=
  s!"{identity.pid} {identity.startTimeTicks}"

/-- A line of the sidecar. -/
def provenanceLine (identity : SignalStopIdentity) (generation : SignalStopLedgerGeneration) :
    String :=
  s!"{identity.pid} {identity.startTimeTicks} SignalOnly {generation.sidecarToken}"

/-- The text of a file that is not empty. -/
def ledgerText (lines : List String) : String := "\n".intercalate lines ++ "\n"

namespace SignalStopProvenanceLedger

/-- After the main ledger was written anew, what is still believed is bound to the new
    file. -/
def rebindToGeneration (provenance : SignalStopProvenanceLedger)
    (generation : SignalStopLedgerGeneration) : SignalStopProvenanceLedger :=
  { provenance with
    records := provenance.records.mapValues fun record =>
      match record with
      | .signalOnly _ => .signalOnly generation
      | .invalid      => .invalid }

/-- The lines of the records, the invalid ones left out. -/
def lines (records : SortedMap SignalStopIdentity SignalStopProvenanceRecord) : List String :=
  records.entries.filterMap fun entry =>
    match entry.2 with
    | .signalOnly generation => some (provenanceLine entry.1 generation)
    | .invalid               => none

/-- The record of the identity is invalid, or of another generation. -/
def contradicts (provenance : SignalStopProvenanceLedger) (identity : SignalStopIdentity)
    (generation : SignalStopLedgerGeneration) : Bool :=
  match provenance.records.get? identity with
  | some .invalid                       => true
  | some (.signalOnly recordGeneration) => recordGeneration ≠ generation
  | none                                => false

end SignalStopProvenanceLedger

/-! ## Reading and writing -/

/-- The files as one daemon sees them: the device they are on and its own
    process id, which names its temporary files. -/
structure LedgerEnv where
  device    : Nat
  processId : Nat

namespace LedgerEnv

variable (env : LedgerEnv)

/-- A missing main ledger is an empty one. -/
def readLedger : Filing (Except DaemonError (SortedMap SignalStopIdentity SignalStopLedgerRecord)) := do
  let main ← ledgerCall (.read .main)
  return readSignalStopLedger main

/-- The sidecar is read without failing. -/
def readProvenance : Filing SignalStopProvenanceLedger := do
  let sidecar ← ledgerCall (.read .sidecar)
  return readSignalStopProvenance sidecar

/-- Device and inode of the main ledger as it now stands. -/
def signalStopLedgerGeneration : Filing (Except DaemonError SignalStopLedgerGeneration) := do
  match ← ledgerCall (.metadata .main) with
  | .ok inode    => return .ok ⟨env.device, inode⟩
  | .error error => return .error (.io error)

/-- Without lines the file is removed. With lines a temporary file is filled and then
    renamed, so that a reader sees the old text or the new one. -/
def writeSignalStopLedgerFile (path temporary : LedgerPath) (lines : List String) :
    Filing (Except DaemonError Unit) :=
  if lines.isEmpty then do
    match ← ledgerCall (.remove path) with
    | .ok ()       => return .ok ()
    | .error error => return if error.kind = .notFound then .ok () else .error (.io error)
  else do
    match ← ledgerCall (.createParents path) with
    | .error error => return .error (.io error)
    | .ok () =>
    match ← ledgerCall (.truncate temporary) with
    | .error error => return .error (.io error)
    | .ok () =>
    match ← ledgerCall (.write temporary (ledgerText lines)) with
    | .error error => return .error (.io error)
    | .ok () =>
    match ← ledgerCall (.rename temporary path) with
    | .error error => return .error (.io error)
    | .ok ()       => return .ok ()

/-- The main ledger, one line for each record. -/
def writeLedger (records : SortedMap SignalStopIdentity SignalStopLedgerRecord) :
    Filing (Except DaemonError Unit) :=
  writeSignalStopLedgerFile .main (.mainTemporary env.processId) (records.keys.map ledgerLine)

/-- The sidecar, one line for each record that is believed. -/
def writeProvenance (records : SortedMap SignalStopIdentity SignalStopProvenanceRecord) :
    Filing (Except DaemonError Unit) :=
  writeSignalStopLedgerFile .sidecar (.sidecarTemporary env.processId)
    (SignalStopProvenanceLedger.lines records)

/-! ## The operations -/

/-- The sidecar is removed before the main ledger changes. A crash in between then leaves
    stops of unknown provenance, and never a sidecar that speaks of another file. -/
def rewriteMainLedger (records : SortedMap SignalStopIdentity SignalStopLedgerRecord)
    (provenance : SignalStopProvenanceLedger) : Filing (Except DaemonError Unit) := do
  match ← writeSignalStopLedgerFile .sidecar (.sidecarTemporary env.processId) [] with
  | .error error => return .error error
  | .ok () =>
  match ← env.writeLedger records with
  | .error error => return .error error
  | .ok () =>
  if provenance.records.isEmpty then return .ok ()
  else
    match ← env.signalStopLedgerGeneration with
    | .error error   => return .error error
    | .ok generation => env.writeProvenance (provenance.rebindToGeneration generation).records

/-- What `record` and `take` keep of the provenance, and the rewrite. -/
def rewriteWithout (identity : SignalStopIdentity)
    (records : SortedMap SignalStopIdentity SignalStopLedgerRecord)
    (provenance : SignalStopProvenanceLedger) : Filing (Except DaemonError Unit) := do
  let generation ← env.signalStopLedgerGeneration
  let provenance := provenance.retainCurrentGeneration generation.toOption
  env.rewriteMainLedger records ((provenance.retainCanonicalMain records).forget identity)

/-- A stop is recorded as one of which no more is known than that the daemon made it. -/
def recordFreezeitSignalStopAtPath (identity : SignalStopIdentity) :
    Filing (Except DaemonError Unit) := do
  match ← readLedger with
  | .error error => return .error error
  | .ok records =>
    let provenance ← readProvenance
    env.rewriteWithout identity (records.insert identity .canonical) provenance

/-- `false` when the record is not there, or its provenance cannot be trusted. -/
def promoteFreezeitSignalStopAtPath (identity : SignalStopIdentity) :
    Filing (Except DaemonError Bool) := do
  match ← readLedger with
  | .error error => return .error error
  | .ok records =>
  if records.get? identity ≠ some .canonical then return .ok false
  else
    match ← env.signalStopLedgerGeneration with
    | .error _ => return .ok false
    | .ok generation =>
      let provenance ← readProvenance
      if provenance.globallyUntrusted || provenance.contradicts identity generation then
        return .ok false
      else
        let provenance := provenance.retainCurrentGeneration (some generation)
        let provenance := provenance.retainCanonicalMain records
        match ← env.writeProvenance (provenance.records.insert identity (.signalOnly generation)) with
        | .error error => return .error error
        | .ok ()       => return .ok true

/-- A record is taken out; the answer says whether it was there. -/
def takeFreezeitSignalStopAtPath (identity : SignalStopIdentity) :
    Filing (Except DaemonError Bool) := do
  match ← readLedger with
  | .error error => return .error error
  | .ok records =>
    let provenance ← readProvenance
    match ← env.rewriteWithout identity (records.erase identity) provenance with
    | .error error => return .error error
    | .ok ()       => return .ok (records.contains identity)

/-- `recorded_signal_stop_ownership_from_ledger`: the sidecar is read for a
    canonical record only. -/
def recordedSignalStopOwnership (identity : SignalStopIdentity) :
    Filing (Except DaemonError (Option SignalStopOwnership)) := do
  match ← readLedger with
  | .error error => return .error error
  | .ok records =>
  match records.get? identity with
  | none => return .ok none
  | some record =>
    match ← env.signalStopLedgerGeneration with
    | .error _ => return .ok (some .residualUnknown)
    | .ok generation =>
    if record ≠ .canonical then return .ok (some .residualUnknown)
    else
      let provenance ← readProvenance
      if provenance.isSignalOnly identity generation then return .ok (some .signalOnly)
      else return .ok (some .residualUnknown)

end LedgerEnv

/-! ## Runs on the files -/

/-- Of a missing file the source only looks at the kind of the error. -/
abbrev MissingFile (error : IoError) : Prop := error.kind = .notFound

/-- The file calls of `t`, which may fail, take the files from `fs` to `fs'`. -/
abbrev LedgerRun (fs : LedgerFiles) (t : List LedgerEvent) (fs' : LedgerFiles) : Prop :=
  FileRun MissingFile "" some fs t fs'

/-- A run is its first call, and the run of the rest. -/
theorem ledgerRun_cons {fs fs' : LedgerFiles} {e : LedgerEvent} {t : List LedgerEvent} :
    LedgerRun fs (e :: t) fs' ↔ ∃ fs₁, FileStep MissingFile "" fs e.query e.answer fs₁
      ∧ LedgerRun fs₁ t fs' :=
  FileRun.cons_of_some rfl

/-- Runs compose. -/
theorem ledgerRun_append {fs fs' : LedgerFiles} {t₁ t₂ : List LedgerEvent} :
    LedgerRun fs (t₁ ++ t₂) fs' ↔ ∃ fs₁ : LedgerFiles, LedgerRun fs t₁ fs₁ ∧ LedgerRun fs₁ t₂ fs' :=
  FileRun.append_iff

/-- The text of a file, if it is there. -/
def LedgerFiles.text (fs : LedgerFiles) (path : LedgerPath) : Option String :=
  (fs path).map FileNode.content

/-- What a file with these lines holds: no lines, no file. -/
def linesText (lines : List String) : Option String :=
  if lines.isEmpty then none else some (ledgerText lines)

/-- The temporary file was renamed to the path. -/
def Installed (temporary path : LedgerPath) (t : List LedgerEvent) : Prop :=
  (⟨.rename temporary path, .ok ()⟩ : LedgerEvent) ∈ t

/-- A disk on which the calls of the given numbers fail. -/
def ledgerDisk (faulty : Nat → Bool) : FileService String IoError :=
  ⟨⟨.notFound, ""⟩, ⟨.other, ""⟩, faulty, ""⟩

/-- Any program can be run on such a disk, which gives witnesses. -/
theorem ledgerDisk_run {α : Type} {faulty : Nat → Bool} {fs : LedgerFiles} {number : Nat}
    (h : FileService.InodesBelow fs number) (p : Filing α) :
    Exec p ((ledgerDisk faulty).serveRun p number fs).1 ((ledgerDisk faulty).serveRun p number fs).2.1
      ∧ LedgerRun fs ((ledgerDisk faulty).serveRun p number fs).1
        ((ledgerDisk faulty).serveRun p number fs).2.2
      ∧ FileService.InodesBelow ((ledgerDisk faulty).serveRun p number fs).2.2
        ((ledgerDisk faulty).nextCall p number fs) := by
  have habsent : MissingFile (ledgerDisk faulty).absent := rfl
  have hfault : ¬ MissingFile (ledgerDisk faulty).fault := by
    intro hmissing
    cases hmissing
  exact FileService.serveRun_spec habsent hfault h p

/-! ### Calls that only read -/

section read
variable {fs fs' : LedgerFiles} {t : List LedgerEvent}

/-- The calls leave every file as it is. -/
def ReadsOnly (t : List LedgerEvent) : Prop := ∀ e ∈ t, ∀ path, ¬ e.query.Touches path

/-- Such calls take the files to themselves. -/
theorem ReadsOnly.eq (h : ReadsOnly t) (hrun : LedgerRun fs t fs') : fs' = fs := by
  funext path
  apply hrun.frame
  intro e he call hcall
  cases hcall
  exact h e he path

theorem ReadsOnly.not_installed (h : ReadsOnly t) {temporary path : LedgerPath} :
    ¬ Installed temporary path t := fun hinstalled => h _ hinstalled path (.inr rfl)

theorem readsOnly_nil : ReadsOnly [] := by
  intro e he
  cases he

theorem readsOnly_read {path : LedgerPath} {answer : Except IoError String} :
    ReadsOnly [⟨.read path, answer⟩] := by
  intro e he other htouches
  rw [List.mem_singleton.mp he] at htouches
  exact htouches

theorem readsOnly_metadata {path : LedgerPath} {answer : Except IoError Nat} :
    ReadsOnly [⟨.metadata path, answer⟩] := by
  intro e he other htouches
  rw [List.mem_singleton.mp he] at htouches
  exact htouches

/-- Reading the main ledger is one call. -/
theorem exec_readLedger
    {result : Except DaemonError (SortedMap SignalStopIdentity SignalStopLedgerRecord)} :
    Exec LedgerEnv.readLedger t result ↔
      ∃ answer, t = [⟨.read .main, answer⟩] ∧ result = readSignalStopLedger answer := by
  unfold LedgerEnv.readLedger
  constructor
  · intro h
    obtain ⟨answer, t₁, rfl, h₁⟩ := exec_ask_bind.mp h
    obtain ⟨rfl, rfl⟩ := exec_pure.mp h₁
    exact ⟨answer, rfl, rfl⟩
  · rintro ⟨answer, rfl, rfl⟩
    exact exec_ask_bind.mpr ⟨answer, [], rfl, .done _⟩

theorem partial_readLedger (h : Partial LedgerEnv.readLedger t) : ReadsOnly t := by
  rcases partial_ask_bind.mp h with rfl | ⟨answer, t₁, rfl, h₁⟩
  · exact readsOnly_nil
  · rw [partial_pure.mp h₁]
    exact readsOnly_read

/-- Reading the sidecar is one call. -/
theorem exec_readProvenance {result : SignalStopProvenanceLedger} :
    Exec LedgerEnv.readProvenance t result ↔
      ∃ answer, t = [⟨.read .sidecar, answer⟩] ∧ result = readSignalStopProvenance answer := by
  unfold LedgerEnv.readProvenance
  constructor
  · intro h
    obtain ⟨answer, t₁, rfl, h₁⟩ := exec_ask_bind.mp h
    obtain ⟨rfl, rfl⟩ := exec_pure.mp h₁
    exact ⟨answer, rfl, rfl⟩
  · rintro ⟨answer, rfl, rfl⟩
    exact exec_ask_bind.mpr ⟨answer, [], rfl, .done _⟩

theorem partial_readProvenance (h : Partial LedgerEnv.readProvenance t) : ReadsOnly t := by
  rcases partial_ask_bind.mp h with rfl | ⟨answer, t₁, rfl, h₁⟩
  · exact readsOnly_nil
  · rw [partial_pure.mp h₁]
    exact readsOnly_read

/-- The generation that an answer of `metadata` stands for. -/
def LedgerEnv.generationOf (env : LedgerEnv) (answer : Except IoError Nat) :
    Except DaemonError SignalStopLedgerGeneration :=
  match answer with
  | .ok inode    => .ok ⟨env.device, inode⟩
  | .error error => .error (.io error)

/-- The generation is read by one call. -/
theorem exec_generation {env : LedgerEnv} {result : Except DaemonError SignalStopLedgerGeneration} :
    Exec env.signalStopLedgerGeneration t result ↔
      ∃ answer, t = [⟨.metadata .main, answer⟩] ∧ result = env.generationOf answer := by
  unfold LedgerEnv.signalStopLedgerGeneration
  constructor
  · intro h
    obtain ⟨answer, t₁, rfl, h₁⟩ := exec_ask_bind.mp h
    match answer with
    | .ok inode =>
      obtain ⟨rfl, rfl⟩ := exec_pure.mp h₁
      exact ⟨_, rfl, rfl⟩
    | .error error =>
      obtain ⟨rfl, rfl⟩ := exec_pure.mp h₁
      exact ⟨_, rfl, rfl⟩
  · rintro ⟨answer, rfl, rfl⟩
    refine exec_ask_bind.mpr ⟨answer, [], rfl, ?_⟩
    match answer with
    | .ok inode    => exact .done _
    | .error error => exact .done _

theorem partial_generation {env : LedgerEnv} (h : Partial env.signalStopLedgerGeneration t) :
    ReadsOnly t := by
  rcases partial_ask_bind.mp h with rfl | ⟨answer, t₁, rfl, h₁⟩
  · exact readsOnly_nil
  · have hend : t₁ = [] := by
      match answer with
      | .ok inode    => exact partial_pure.mp h₁
      | .error error => exact partial_pure.mp h₁
    rw [hend]
    exact readsOnly_metadata

/-- `SignalOnly` is reported for a canonical record that the sidecar, bound to
    the generation of the main ledger, says so of. -/
theorem exec_reported_signalOnly {env : LedgerEnv} {identity : SignalStopIdentity} :
    Exec (env.recordedSignalStopOwnership identity) t (.ok (some .signalOnly)) ↔
      ∃ main inode sidecar records,
        t = [⟨.read .main, main⟩, ⟨.metadata .main, .ok inode⟩, ⟨.read .sidecar, sidecar⟩]
          ∧ readSignalStopLedger main = .ok records
          ∧ records.get? identity = some .canonical
          ∧ (readSignalStopProvenance sidecar).isSignalOnly identity ⟨env.device, inode⟩ = true := by
  constructor
  · intro h
    -- Every early return answers something else, so the run went through all the checks.
    obtain ⟨t₁, t₂, result, rfl, hread, hrest₁⟩ := exec_bind.mp h
    obtain ⟨main, rfl, hresult⟩ := exec_readLedger.mp hread
    match result with
    | .error error => cases (exec_pure.mp hrest₁).2
    | .ok records =>
    dsimp only at hrest₁
    split at hrest₁
    · cases (exec_pure.mp hrest₁).2
    next record hrecord =>
    obtain ⟨t₃, t₄, current, rfl, hstat, hrest₂⟩ := exec_bind.mp hrest₁
    obtain ⟨answer, rfl, rfl⟩ := exec_generation.mp hstat
    match answer with
    | .error error => cases (exec_pure.mp hrest₂).2
    | .ok inode =>
    dsimp only [LedgerEnv.generationOf] at hrest₂
    split at hrest₂
    · cases (exec_pure.mp hrest₂).2
    next hcanonical =>
    obtain ⟨t₅, t₆, provenance, rfl, hsidecar, hrest₃⟩ := exec_bind.mp hrest₂
    obtain ⟨sidecar, rfl, rfl⟩ := exec_readProvenance.mp hsidecar
    split at hrest₃
    · next hsignal =>
      obtain ⟨rfl, -⟩ := exec_pure.mp hrest₃
      rw [Classical.not_not.mp hcanonical] at hrecord
      exact ⟨main, inode, sidecar, records, rfl, hresult.symm, hrecord, hsignal⟩
    · cases (exec_pure.mp hrest₃).2
  · intro h
    obtain ⟨main, inode, sidecar, records, rfl, hrecords, hrecord, hsignal⟩ := h
    -- The other way round, the three answers lead the program past each check in turn.
    refine exec_bind.mpr ⟨_, _, _, rfl, exec_readLedger.mpr ⟨main, rfl, hrecords.symm⟩, ?_⟩
    dsimp only
    rw [hrecord]
    refine exec_bind.mpr ⟨_, _, _, rfl, exec_generation.mpr ⟨.ok inode, rfl, rfl⟩, ?_⟩
    dsimp only [LedgerEnv.generationOf]
    rw [if_neg fun hne => hne rfl]
    refine exec_bind.mpr ⟨_, [], _, rfl, exec_readProvenance.mpr ⟨sidecar, rfl, rfl⟩, ?_⟩
    rw [if_pos hsignal]
    exact .done _

end read

/-! ### Calls that write -/

section write
variable {fs fs' : LedgerFiles} {t : List LedgerEvent} {path temporary : LedgerPath}
  {lines : List String}

/-- The calls that prepare the temporary file. -/
def Prepares (temporary : LedgerPath) (e : LedgerEvent) : Prop :=
  (∀ other, e.query.Touches other → other = temporary) ∧ ∀ target, e.query ≠ .rename temporary target

/-- A write prepares the temporary file, and renames it once that is complete. -/
theorem write_calls (hlines : ¬ lines.isEmpty = true)
    (h : Partial (LedgerEnv.writeSignalStopLedgerFile path temporary lines) t) :
    (∀ e ∈ t, Prepares temporary e)
      ∨ ∃ answer, t = [⟨.createParents path, .ok ()⟩, ⟨.truncate temporary, .ok ()⟩,
        ⟨.write temporary (ledgerText lines), .ok ()⟩, ⟨.rename temporary path, answer⟩] := by
  have hparents : ∀ answer, Prepares temporary ⟨.createParents path, answer⟩ :=
    fun _ => ⟨fun _ => False.elim, by simp⟩
  have htruncate : ∀ answer, Prepares temporary ⟨.truncate temporary, answer⟩ :=
    fun _ => ⟨fun _ heq => heq.symm, by simp⟩
  have hwrite : ∀ content answer, Prepares temporary ⟨.write temporary content, answer⟩ :=
    fun _ _ => ⟨fun _ heq => heq.symm, by simp⟩
  unfold LedgerEnv.writeSignalStopLedgerFile at h
  rw [if_neg hlines] at h
  -- The write may be cut off before each of its four calls, and each of them may fail.
  rcases partial_ask_bind.mp h with rfl | ⟨answer, t₁, rfl, h₁⟩
  · exact .inl (by simp)
  match answer with
  | .error error =>
    have hend : t₁ = [] := partial_pure.mp h₁
    subst hend
    exact .inl (by simpa using hparents _)
  | .ok () =>
  rcases partial_ask_bind.mp h₁ with rfl | ⟨answer, t₂, rfl, h₂⟩
  · exact .inl (by simpa using hparents _)
  match answer with
  | .error error =>
    have hend : t₂ = [] := partial_pure.mp h₂
    subst hend
    exact .inl (by simpa using ⟨hparents _, htruncate _⟩)
  | .ok () =>
  rcases partial_ask_bind.mp h₂ with rfl | ⟨answer, t₃, rfl, h₃⟩
  · exact .inl (by simpa using ⟨hparents _, htruncate _⟩)
  match answer with
  | .error error =>
    have hend : t₃ = [] := partial_pure.mp h₃
    subst hend
    exact .inl (by simpa using ⟨hparents _, htruncate _, hwrite _ _⟩)
  | .ok () =>
  rcases partial_ask_bind.mp h₃ with rfl | ⟨answer, t₄, rfl, h₄⟩
  · exact .inl (by simpa using ⟨hparents _, htruncate _, hwrite _ _⟩)
  · have hend : t₄ = [] := by
      match answer with
      | .error error => exact partial_pure.mp h₄
      | .ok ()       => exact partial_pure.mp h₄
    subst hend
    exact .inr ⟨answer, rfl⟩

/-- Preparing changes no other file. -/
theorem LedgerRun.frame_of_prepares (hrun : LedgerRun fs t fs') (ht : ∀ e ∈ t, Prepares temporary e)
    {other : LedgerPath} (hother : other ≠ temporary) : fs' other = fs other := by
  apply hrun.frame
  intro e he call hcall htouches
  cases hcall
  exact hother ((ht e he).1 other htouches)

/-- Without lines there is one call at most. -/
theorem write_empty_calls (hlines : lines.isEmpty = true)
    (h : Partial (LedgerEnv.writeSignalStopLedgerFile path temporary lines) t) :
    t = [] ∨ ∃ answer, t = [⟨.remove path, answer⟩] := by
  unfold LedgerEnv.writeSignalStopLedgerFile at h
  rw [if_pos hlines] at h
  rcases partial_ask_bind.mp h with rfl | ⟨answer, t₁, rfl, h₁⟩
  · exact .inl rfl
  · have hend : t₁ = [] := by
      match answer with
      | .error error => exact partial_pure.mp h₁
      | .ok ()       => exact partial_pure.mp h₁
    subst hend
    exact .inr ⟨answer, rfl⟩

/-- No other file changes than the two. -/
theorem write_touches (h : Partial (LedgerEnv.writeSignalStopLedgerFile path temporary lines) t) :
    ∀ e ∈ t, ∀ other, e.query.Touches other → other = path ∨ other = temporary := by
  intro e he other htouches
  by_cases hlines : lines.isEmpty = true
  · rcases write_empty_calls hlines h with rfl | ⟨answer, rfl⟩
    · cases he
    · rw [List.mem_singleton.mp he] at htouches
      exact .inl (Eq.symm htouches)
  · rcases write_calls hlines h with hprepares | ⟨answer, rfl⟩
    · exact .inr ((hprepares e he).1 other htouches)
    · simp only [List.mem_cons, List.not_mem_nil, or_false] at he
      rcases he with rfl | rfl | rfl | rfl
      · exact htouches.elim
      · exact .inr (Eq.symm htouches)
      · exact .inr (Eq.symm htouches)
      · cases htouches with
        | inl hsource => exact .inr hsource.symm
        | inr htarget => exact .inl htarget.symm

/-- Every other file stays as it is. -/
theorem write_frame (h : Partial (LedgerEnv.writeSignalStopLedgerFile path temporary lines) t)
    (hrun : LedgerRun fs t fs') {other : LedgerPath} (hpath : other ≠ path)
    (hother : other ≠ temporary) : fs' other = fs other := by
  apply hrun.frame
  intro e he call hcall htouches
  cases hcall
  cases write_touches h e he other htouches with
  | inl heq => exact hpath heq
  | inr heq => exact hother heq

/-- A write that is cut off or fails leaves the old file, a finished one the new. -/
theorem write_result (hne : temporary ≠ path)
    (h : Partial (LedgerEnv.writeSignalStopLedgerFile path temporary lines) t)
    (hrun : LedgerRun fs t fs') :
    fs' path = fs path ∧ ¬ Installed temporary path t ∨ fs'.text path = linesText lines := by
  by_cases hlines : lines.isEmpty = true
  · rcases write_empty_calls hlines h with rfl | ⟨answer, rfl⟩
    · rw [FileRun.nil_iff.mp hrun]
      exact .inl ⟨rfl, by simp [Installed]⟩
    · obtain ⟨fs₁, hstep, hrun⟩ := ledgerRun_cons.mp hrun
      rw [FileRun.nil_iff.mp hrun]
      cases hstep with
      | removed hold =>
        refine .inr ?_
        unfold LedgerFiles.text linesText
        rw [Function.update_self, if_pos hlines]
        rfl
      | removeFailed => exact .inl ⟨rfl, by simp [Installed]⟩
  · rcases write_calls hlines h with hprepares | ⟨answer, rfl⟩
    · refine .inl ⟨hrun.frame_of_prepares hprepares (Ne.symm hne), ?_⟩
      intro hinstalled
      exact (hprepares _ hinstalled).2 path rfl
    · obtain ⟨fs₁, hparents, hrun⟩ := ledgerRun_cons.mp hrun
      obtain ⟨fs₂, htruncated, hrun⟩ := ledgerRun_cons.mp hrun
      obtain ⟨fs₃, hwritten, hrun⟩ := ledgerRun_cons.mp hrun
      obtain ⟨fs₄, hrenamed, hrun⟩ := ledgerRun_cons.mp hrun
      rw [FileRun.nil_iff.mp hrun]
      -- Only the rename touches the file itself, and it finds the complete temporary file.
      cases hrenamed with
      | renameFailed =>
        refine .inl ⟨?_, by simp [Installed]⟩
        rw [hwritten.frame hne, htruncated.frame hne, hparents.frame id]
      | @renamed _ _ node hnode =>
        refine .inr ?_
        cases hwritten with
        | written hfill =>
          obtain ⟨inode, hcontent⟩ := hfill.content
          rw [hcontent] at hnode
          cases hnode
          unfold LedgerFiles.text linesText
          rw [Function.update_self, if_neg hlines]
          rfl

/-- A file with lines is only replaced by a rename. -/
theorem write_installed (hne : temporary ≠ path) (hlines : ¬ lines.isEmpty = true)
    (h : Partial (LedgerEnv.writeSignalStopLedgerFile path temporary lines) t)
    (hrun : LedgerRun fs t fs') : fs' path = fs path ∨ Installed temporary path t := by
  cases write_result hne h hrun with
  | inl hold => exact .inl hold.1
  | inr _ =>
    rcases write_calls hlines h with hprepares | ⟨answer, rfl⟩
    · exact .inl (hrun.frame_of_prepares hprepares (Ne.symm hne))
    · match answer with
      | .ok ()       => exact .inr (by simp [Installed])
      | .error error =>
        obtain ⟨fs₁, hparents, hrun⟩ := ledgerRun_cons.mp hrun
        obtain ⟨fs₂, htruncated, hrun⟩ := ledgerRun_cons.mp hrun
        obtain ⟨fs₃, hwritten, hrun⟩ := ledgerRun_cons.mp hrun
        obtain ⟨fs₄, hrenamed, hrun⟩ := ledgerRun_cons.mp hrun
        rw [FileRun.nil_iff.mp hrun, hrenamed.rename_error, hwritten.frame hne,
          htruncated.frame hne, hparents.frame id]
        exact .inl rfl

/-- A write that succeeds leaves the new file. -/
theorem write_ok (hne : temporary ≠ path)
    (h : Exec (LedgerEnv.writeSignalStopLedgerFile path temporary lines) t (.ok ()))
    (hrun : LedgerRun fs t fs') : fs'.text path = linesText lines := by
  -- It remains to exclude that a successful write left the old file.
  cases write_result hne h.toPartial hrun with
  | inr hnew => exact hnew
  | inl hold =>
    unfold LedgerEnv.writeSignalStopLedgerFile at h
    split at h
    · next hlines =>
      obtain ⟨answer, t₁, rfl, h₁⟩ := exec_ask_bind.mp h
      obtain ⟨fs₁, hstep, hrest⟩ := ledgerRun_cons.mp hrun
      match answer with
      | .ok () =>
        obtain ⟨rfl, -⟩ := exec_pure.mp h₁
        have heq : fs' = fs₁ := FileRun.nil_iff.mp hrest
        subst heq
        cases hstep with
        | removed hnode =>
          rw [Function.update_self, hnode] at hold
          cases hold.1
      | .error error =>
        obtain ⟨rfl, hanswer⟩ := exec_pure.mp h₁
        have heq : fs' = fs₁ := FileRun.nil_iff.mp hrest
        subst heq
        -- Removing a file that is missing counts as success, and then the old text is no
        -- text.
        split at hanswer
        · next hmissing =>
          cases hstep with
          | removeFailed _ hiff =>
            unfold LedgerFiles.text linesText
            rw [hiff.mp hmissing, if_pos hlines]
            rfl
        · cases hanswer
    · obtain ⟨answer, t₁, rfl, h₁⟩ := exec_ask_bind.mp h
      match answer with
      | .error error => cases (exec_pure.mp h₁).2
      | .ok () =>
      obtain ⟨answer, t₂, rfl, h₂⟩ := exec_ask_bind.mp h₁
      match answer with
      | .error error => cases (exec_pure.mp h₂).2
      | .ok () =>
      obtain ⟨answer, t₃, rfl, h₃⟩ := exec_ask_bind.mp h₂
      match answer with
      | .error error => cases (exec_pure.mp h₃).2
      | .ok () =>
      obtain ⟨answer, t₄, rfl, h₄⟩ := exec_ask_bind.mp h₃
      match answer with
      | .error error => cases (exec_pure.mp h₄).2
      | .ok ()       => exact absurd (by simp [Installed]) hold.2

end write

end Freezeit
