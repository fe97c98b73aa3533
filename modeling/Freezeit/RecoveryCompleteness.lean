import Freezeit.RestartRecovery

/-! # Which stopped processes recovery resumes

    Recovery walks the uids that the current configuration controls, not the
    identities in the ledger.  A stopped process that the ledger names is
    resumed exactly when discovery lists it. -/

namespace Freezeit

open Prog

/-! ## The world that recovery finds -/

/-- What the recovery can read: `/proc`, the stat files, and the ledger. -/
structure RestartWorld where
  proc     : ProcReading
  /-- The stat file of a pid. -/
  stat     : Int → Except IoError String
  ledger   : LedgerReading
  stat_pid : ∀ pid text identity, stat pid = .ok text → stoppedIdentity text = some identity →
    identity.pid = pid

/-- A live process in state `T` whose pid and start time are in the ledger. -/
def RestartWorld.OwnedStop (w : RestartWorld) (pid : Int) : Prop :=
  ∃ text identity, w.stat pid = .ok text ∧ stoppedIdentity text = some identity
    ∧ w.ledger.owns identity

/-- SIGCONT was delivered to the pid. -/
def Resumed (t : RecoveryTrace) (pid : Int) : Prop :=
  ∃ p : RuntimeProcess, (⟨.resumeSignal p, .ok ()⟩ : RecoveryCall) ∈ t ∧ p.pid = pid

/-- The answers show the world; of a process that was resumed they may show
    anything, and its ledger record may be gone. -/
structure RestartWorld.Answers (w : RestartWorld) (t : RecoveryTrace) : Prop where
  proc   : ∀ reading, ⟨.readProc, reading⟩ ∈ t → reading = w.proc
  stat   : ∀ pre pid answer post, t = pre ++ ⟨.readStat pid, answer⟩ :: post →
    ¬ Resumed pre pid → answer = w.stat pid
  ledger : ∀ pre reading post, t = pre ++ ⟨.readLedger, reading⟩ :: post →
    ∀ identity, w.ledger.owns identity → ¬ Resumed pre identity.pid → reading.owns identity

/-- Every identity check and every SIGCONT succeeds. -/
structure AllSucceed (t : RecoveryTrace) : Prop where
  validated : ∀ p answer, ⟨.validateProcess p, answer⟩ ∈ t → answer = .ok true
  resumed   : ∀ p answer, ⟨.resumeSignal p, answer⟩ ∈ t → answer = .ok ()

/-- `/proc` can be read in full and lists the pid, with a command line, under a
    uid that the configuration controls. -/
def RestartWorld.Discoverable (w : RestartWorld) (appConfig : List ManagerAppConfigRecord)
    (pid : Int) : Prop :=
  w.proc.procExists = true ∧ ∃ entries, w.proc.entries = .ok entries
    ∧ (∀ e ∈ entries, ∃ entry, e = .ok entry)
    ∧ ∃ entry uid, .ok entry ∈ entries ∧ entry.pid = some pid ∧ entry.statusUid = some uid
      ∧ uid ∈ controlledUids appConfig ∧ entry.processName ≠ ""

variable {w : RestartWorld} {t t₁ t₂ past : RecoveryTrace} {p : RuntimeProcess} {pid : Int}
  {ps : List RuntimeProcess} {appConfig : List ManagerAppConfigRecord}

/-- A process is resumed in one part or the other. -/
theorem resumed_append : Resumed (t₁ ++ t₂) pid ↔ Resumed t₁ pid ∨ Resumed t₂ pid := by
  simp only [Resumed, List.mem_append, or_and_right, exists_or]

/-- The first part is answered by the same world. -/
theorem RestartWorld.Answers.left (h : w.Answers (t₁ ++ t₂)) : w.Answers t₁ where
  proc reading hmem := h.proc reading (List.mem_append_left _ hmem)
  stat pre pid answer post ht := h.stat pre pid answer (post ++ t₂) (by simp [ht])
  ledger pre reading post ht := h.ledger pre reading (post ++ t₂) (by simp [ht])

/-- If everything succeeds, so does the first part. -/
theorem AllSucceed.left (h : AllSucceed (t₁ ++ t₂)) : AllSucceed t₁ where
  validated p answer hmem := h.validated p answer (List.mem_append_left _ hmem)
  resumed p answer hmem := h.resumed p answer (List.mem_append_left _ hmem)

/-- If everything succeeds, so does the second part. -/
theorem AllSucceed.right (h : AllSucceed (t₁ ++ t₂)) : AllSucceed t₂ where
  validated p answer hmem := h.validated p answer (List.mem_append_right _ hmem)
  resumed p answer hmem := h.resumed p answer (List.mem_append_right _ hmem)

/-- If everything succeeds, so does what follows the first call. -/
theorem AllSucceed.tail {call : RecoveryCall} (h : AllSucceed (call :: t)) : AllSucceed t where
  validated p answer hmem := h.validated p answer (List.mem_cons_of_mem _ hmem)
  resumed p answer hmem := h.resumed p answer (List.mem_cons_of_mem _ hmem)

/-! ## One process -/

/-- When the checks succeed a process is still the one that was found. -/
theorem restartIdentityIsCurrent_ok {phase : String} {result : Except String Unit}
    (h : Exec (restartIdentityIsCurrent p phase) t result) (hok : AllSucceed t) :
    result = .ok () := by
  obtain ⟨answer, t₁, rfl, hrest⟩ := exec_ask_bind.mp h
  obtain rfl := hok.validated p answer List.mem_cons_self
  exact (exec_pure.mp hrest).2

/-- A process with an owned stop is resumed. -/
theorem resumeOwnedStop_resumes {ownership : SignalStopOwnership}
    {outcome outcome' : RestartRecoveryOutcome}
    (h : Exec (resumeOwnedStop p (some ownership) outcome) t outcome') (hok : AllSucceed t) :
    ⟨.resumeSignal p, .ok ()⟩ ∈ t := by
  obtain ⟨t₁, t₂, result, rfl, h₁, h₂⟩ := exec_bind.mp h
  obtain rfl := restartIdentityIsCurrent_ok h₁ hok.left
  obtain ⟨answer, t₃, rfl, -⟩ := exec_ask_bind.mp h₂
  obtain rfl := hok.right.resumed p answer List.mem_cons_self
  exact List.mem_append_right _ List.mem_cons_self

/-- The cleanup of the freezer resumes a process with an owned stop. -/
theorem cleanUpFreezer_resumes {path : String} {ownership : SignalStopOwnership}
    {outcome : RestartRecoveryOutcome}
    (h : Exec (cleanUpFreezer p path (some ownership)) t outcome) (hok : AllSucceed t) :
    ⟨.resumeSignal p, .ok ()⟩ ∈ t := by
  obtain ⟨t₁, t₂, result, rfl, h₁, h₂⟩ := exec_bind.mp h
  obtain rfl := restartIdentityIsCurrent_ok h₁ hok.left
  obtain ⟨thaw, t₃, rfl, h₃⟩ := exec_ask_bind.mp h₂
  obtain ⟨t₄, t₅, result, rfl, h₄, h₅⟩ := exec_bind.mp h₃
  obtain rfl := restartIdentityIsCurrent_ok h₄ hok.right.tail.left
  obtain ⟨unfreeze, t₆, rfl, h₆⟩ := exec_ask_bind.mp h₅
  have hresumed := resumeOwnedStop_resumes h₆ hok.right.tail.right.tail
  simp [hresumed]

/-- An owned stop is ended, with or without the cleanup of a freezer. -/
theorem recoverProcessAfterRestart_resumes {ownership : SignalStopOwnership}
    {observed : Option CgroupFreezeState} {outcome : RestartRecoveryOutcome}
    (h : Exec (recoverProcessAfterRestart p (some ownership) observed) t outcome)
    (hok : AllSucceed t) : ⟨.resumeSignal p, .ok ()⟩ ∈ t := by
  unfold recoverProcessAfterRestart at h
  dsimp only at h
  cases hpath : p.cgroupFreezePath with
  | none =>
    rw [hpath] at h
    exact resumeOwnedStop_resumes h hok
  | some path =>
    rw [hpath] at h
    dsimp only at h
    split at h
    · exact resumeOwnedStop_resumes h hok
    · exact cleanUpFreezer_resumes h hok

/-- The stop of a process is found to be owned, unless it was ended before. -/
theorem signalStopOwnershipOf_owned {ownership : Option SignalStopOwnership}
    (h : Exec (signalStopOwnershipOf p) t ownership) (hw : w.Answers (past ++ t))
    (hstop : w.OwnedStop p.pid) (hpast : ¬ Resumed past p.pid) :
    ∃ o, ownership = some o := by
  obtain ⟨text, identity, htext, hidentity, howned⟩ := hstop
  obtain ⟨answer, t₁, rfl, hrest⟩ := exec_ask_bind.mp h
  obtain rfl := (hw.stat past p.pid answer t₁ rfl hpast).trans htext
  dsimp only at hrest
  unfold freezeitSignalStopOwnership at hrest
  rw [hidentity] at hrest
  obtain ⟨reading, t₂, rfl, hend⟩ := exec_ask_bind.mp hrest
  have hread : ¬ Resumed (past ++ [⟨.readStat p.pid, .ok text⟩]) identity.pid := by
    rw [w.stat_pid p.pid text identity htext hidentity, resumed_append, not_or]
    refine ⟨hpast, ?_⟩
    rintro ⟨q, hq, -⟩
    cases List.mem_singleton.mp hq
  have howns : reading.owns identity :=
    hw.ledger (past ++ [⟨.readStat p.pid, .ok text⟩]) reading t₂ (by simp) identity howned hread
  obtain ⟨o, ho⟩ := recordedSignalStopOwnership_isSome.mpr howns
  obtain ⟨rfl, rfl⟩ := exec_pure.mp hend
  exact ⟨o, by rw [ho]; rfl⟩

/-! ## All processes -/

/-- Every process of the list whose stop is owned is resumed. -/
theorem recoverProcesses_resumes {summary summary' : RestartRecoverySummary}
    (h : Exec (recoverProcesses ps summary) t summary') (hw : w.Answers (past ++ t))
    (hok : AllSucceed t) (hp : p ∈ ps) (hstop : w.OwnedStop p.pid) :
    Resumed (past ++ t) p.pid := by
  induction ps generalizing past t summary with
  | nil => simp at hp
  | cons q rest ih =>
    obtain ⟨t₁, t₂, ownership, rfl, h₁, h₂⟩ := exec_bind.mp h
    obtain ⟨t₃, t₄, observed, rfl, h₃, h₄⟩ := exec_bind.mp h₂
    -- A process without a freezer and without an owned stop is skipped; this one has one.
    by_cases hskip : (q.cgroupFreezePath.isNone && ownership.isNone) = true
    · rw [if_pos hskip] at h₄
      have hassoc : past ++ (t₁ ++ (t₃ ++ t₄)) = past ++ (t₁ ++ t₃) ++ t₄ := by simp
      rcases List.mem_cons.mp hp with rfl | hp
      · by_contra hnot
        have hpast : ¬ Resumed past p.pid := fun hr => hnot (resumed_append.mpr (.inl hr))
        rw [← List.append_assoc] at hw
        obtain ⟨o, rfl⟩ := signalStopOwnershipOf_owned h₁ hw.left hstop hpast
        simp at hskip
      · rw [hassoc] at hw ⊢
        exact ih h₄ hw hok.right.right hp
    · rw [if_neg hskip] at h₄
      obtain ⟨t₅, t₆, outcome, rfl, h₅, h₆⟩ := exec_bind.mp h₄
      rcases List.mem_cons.mp hp with rfl | hp
      · by_contra hnot
        have hpast : ¬ Resumed past p.pid := fun hr => hnot (resumed_append.mpr (.inl hr))
        rw [← List.append_assoc] at hw
        obtain ⟨o, rfl⟩ := signalStopOwnershipOf_owned h₁ hw.left hstop hpast
        have hresumed := recoverProcessAfterRestart_resumes h₅ hok.right.right.left
        exact hnot ⟨p, by simp [hresumed], rfl⟩
      · have hassoc : past ++ (t₁ ++ (t₃ ++ (t₅ ++ t₆))) = past ++ (t₁ ++ (t₃ ++ t₅)) ++ t₆ := by
          simp
        rw [hassoc] at hw ⊢
        exact ih h₆ hw hok.right.right.right hp

/-! ## Only listed processes are resumed -/

/-- Every SIGCONT in `t` goes to a process of `ps`. -/
def ResumesOnly (ps : List RuntimeProcess) (t : RecoveryTrace) : Prop :=
  ∀ call ∈ t, ∀ p, call.query = .resumeSignal p → p ∈ ps

/-- No call resumes anybody. -/
theorem ResumesOnly.nil : ResumesOnly ps [] := by
  intro call hc
  simp at hc

/-- A call that resumes a process of the list is allowed. -/
theorem ResumesOnly.cons {call : RecoveryCall} (hc : ∀ p, call.query = .resumeSignal p → p ∈ ps)
    (h : ResumesOnly ps t) : ResumesOnly ps (call :: t) := by
  intro c hmem
  rcases List.mem_cons.mp hmem with rfl | hmem
  · exact hc
  · exact h c hmem

/-- Two parts that resume only these resume only these. -/
theorem ResumesOnly.append (h₁ : ResumesOnly ps t₁) (h₂ : ResumesOnly ps t₂) :
    ResumesOnly ps (t₁ ++ t₂) := by
  intro c hmem
  exact (List.mem_append.mp hmem).elim (h₁ c) (h₂ c)

/-- The check of an identity resumes nobody. -/
theorem restartIdentityIsCurrent_resumesOnly {phase : String} {result : Except String Unit}
    (h : Exec (restartIdentityIsCurrent p phase) t result) : ResumesOnly ps t := by
  obtain ⟨answer, t₁, rfl, hrest⟩ := exec_ask_bind.mp h
  refine .cons nofun ?_
  match answer with
  | .ok true | .ok false | .error error =>
    obtain ⟨rfl, -⟩ := exec_pure.mp hrest
    exact .nil

/-- Only the process itself is resumed. -/
theorem resumeOwnedStop_resumesOnly {ownership : Option SignalStopOwnership}
    {outcome outcome' : RestartRecoveryOutcome} (hp : p ∈ ps)
    (h : Exec (resumeOwnedStop p ownership outcome) t outcome') : ResumesOnly ps t := by
  unfold resumeOwnedStop at h
  cases ownership with
  | none =>
    obtain ⟨rfl, -⟩ := exec_pure.mp h
    exact .nil
  | some o =>
    obtain ⟨t₁, t₂, result, rfl, h₁, h₂⟩ := exec_bind.mp h
    refine (restartIdentityIsCurrent_resumesOnly h₁).append ?_
    match result with
    | .error failure =>
      obtain ⟨rfl, -⟩ := exec_pure.mp h₂
      exact .nil
    | .ok () =>
      obtain ⟨answer, t₃, rfl, h₃⟩ := exec_ask_bind.mp h₂
      refine .cons (fun q hq => ?_) ?_
      · cases hq
        exact hp
      · match answer with
        | .ok () | .error error =>
          obtain ⟨rfl, -⟩ := exec_pure.mp h₃
          exact .nil

/-- The cleanup of the freezer resumes the process itself. -/
theorem cleanUpFreezer_resumesOnly {path : String} {ownership : Option SignalStopOwnership}
    {outcome : RestartRecoveryOutcome} (hp : p ∈ ps)
    (h : Exec (cleanUpFreezer p path ownership) t outcome) : ResumesOnly ps t := by
  obtain ⟨t₁, t₂, result, rfl, h₁, h₂⟩ := exec_bind.mp h
  refine (restartIdentityIsCurrent_resumesOnly h₁).append ?_
  match result with
  | .error failure =>
    obtain ⟨rfl, -⟩ := exec_pure.mp h₂
    exact .nil
  | .ok () =>
    obtain ⟨thaw, t₃, rfl, h₃⟩ := exec_ask_bind.mp h₂
    refine .cons nofun ?_
    obtain ⟨t₄, t₅, result, rfl, h₄, h₅⟩ := exec_bind.mp h₃
    refine (restartIdentityIsCurrent_resumesOnly h₄).append ?_
    match result with
    | .error failure =>
      obtain ⟨rfl, -⟩ := exec_pure.mp h₅
      exact .nil
    | .ok () =>
      obtain ⟨unfreeze, t₆, rfl, h₆⟩ := exec_ask_bind.mp h₅
      exact .cons nofun (resumeOwnedStop_resumesOnly hp h₆)

/-- The recovery of a process resumes that process. -/
theorem recoverProcessAfterRestart_resumesOnly {ownership : Option SignalStopOwnership}
    {observed : Option CgroupFreezeState} {outcome : RestartRecoveryOutcome} (hp : p ∈ ps)
    (h : Exec (recoverProcessAfterRestart p ownership observed) t outcome) : ResumesOnly ps t := by
  unfold recoverProcessAfterRestart at h
  dsimp only at h
  split at h
  · split at h
    · exact resumeOwnedStop_resumesOnly hp h
    · exact cleanUpFreezer_resumesOnly hp h
  · exact resumeOwnedStop_resumesOnly hp h

/-- Reading the owner of a stop resumes nobody. -/
theorem signalStopOwnershipOf_resumesOnly {ownership : Option SignalStopOwnership}
    (h : Exec (signalStopOwnershipOf p) t ownership) : ResumesOnly ps t := by
  obtain ⟨answer, t₁, rfl, hrest⟩ := exec_ask_bind.mp h
  refine .cons nofun ?_
  match answer with
  | .error error =>
    obtain ⟨rfl, -⟩ := exec_pure.mp hrest
    exact .nil
  | .ok text =>
    dsimp only at hrest
    unfold freezeitSignalStopOwnership at hrest
    split at hrest
    · obtain ⟨rfl, -⟩ := exec_pure.mp hrest
      exact .nil
    · obtain ⟨reading, t₂, rfl, hend⟩ := exec_ask_bind.mp hrest
      obtain ⟨rfl, -⟩ := exec_pure.mp hend
      exact .cons nofun .nil

/-- Reading the state of a cgroup resumes nobody. -/
theorem observedCgroupStateOf_resumesOnly {observed : Option CgroupFreezeState}
    (h : Exec (observedCgroupStateOf p) t observed) : ResumesOnly ps t := by
  unfold observedCgroupStateOf at h
  split at h
  · obtain ⟨rfl, -⟩ := exec_pure.mp h
    exact .nil
  · obtain ⟨state, t₁, rfl, h₁⟩ := exec_ask_bind.mp h
    obtain ⟨rfl, -⟩ := exec_pure.mp h₁
    exact .cons nofun .nil

/-- The recovery resumes only processes of its list. -/
theorem recoverProcesses_resumesOnly {qs : List RuntimeProcess}
    {summary summary' : RestartRecoverySummary} (hsub : ∀ q ∈ qs, q ∈ ps)
    (h : Exec (recoverProcesses qs summary) t summary') : ResumesOnly ps t := by
  induction qs generalizing t summary with
  | nil =>
    obtain ⟨rfl, -⟩ := exec_pure.mp h
    exact .nil
  | cons q rest ih =>
    have hrest : ∀ q ∈ rest, q ∈ ps := fun q hq => hsub q (List.mem_cons_of_mem _ hq)
    obtain ⟨t₁, t₂, ownership, rfl, h₁, h₂⟩ := exec_bind.mp h
    obtain ⟨t₃, t₄, observed, rfl, h₃, h₄⟩ := exec_bind.mp h₂
    refine (signalStopOwnershipOf_resumesOnly h₁).append
      ((observedCgroupStateOf_resumesOnly h₃).append ?_)
    split at h₄
    · exact ih hrest h₄
    · obtain ⟨t₅, t₆, outcome, rfl, h₅, h₆⟩ := exec_bind.mp h₄
      exact (recoverProcessAfterRestart_resumesOnly (hsub q List.mem_cons_self) h₅).append
        (ih hrest h₆)

/-! ## The whole recovery -/

/-- A process is in the map if it is in the list of some uid. -/
theorem mem_values_flatten {map : SortedMap Nat (List RuntimeProcess)} :
    p ∈ map.values.flatten ↔ ∃ uid, p ∈ (map.get? uid).getD [] := by
  rw [List.mem_flatten]
  constructor
  · rintro ⟨ps, hps, hp⟩
    obtain ⟨uid, huid⟩ := SortedMap.mem_values.mp hps
    exact ⟨uid, by simpa [huid] using hp⟩
  · rintro ⟨uid, hp⟩
    cases hget : map.get? uid with
    | none => simp [hget] at hp
    | some ps => exact ⟨ps, SortedMap.mem_values.mpr ⟨uid, hget⟩, by simpa [hget] using hp⟩

/-- The pids that discovery lists for recovery. -/
theorem discoverable_iff :
    w.Discoverable appConfig pid ↔
      ∃ map, discoverManagedUidProcesses w.proc (controlledUids appConfig) = .ok map
        ∧ ∃ p ∈ map.values.flatten, p.pid = pid := by
  unfold RestartWorld.Discoverable discoverManagedUidProcesses
  constructor
  · rintro ⟨hexists, entries, hentries, hreadable, entry, uid, hmem, hpid, huid, hmanaged, hname⟩
    have hnonempty : ¬ ((controlledUids appConfig).isEmpty || !w.proc.procExists) = true := by
      have hkeys : (controlledUids appConfig).isEmpty ≠ true := fun hempty =>
        SortedMap.isEmpty_iff.mp hempty uid hmanaged
      simp [hexists, hkeys]
    rw [if_neg hnonempty, hentries]
    obtain ⟨map, hmap⟩ := discoverEntries_isOk.mpr hreadable
    obtain ⟨p, hp, hppid, hpuid⟩ := discoverEntry_isSome hpid huid hmanaged hname
    refine ⟨map, hmap, p, mem_values_flatten.mpr ⟨p.uid, ?_⟩, hppid⟩
    exact (mem_discoverEntries hmap).mpr (.inr ⟨rfl, entry, hmem, hp⟩)
  -- Back from the map: each process in it stems from an entry that was read.
  · rintro ⟨map, hmap, p, hp, rfl⟩
    by_cases hempty : ((controlledUids appConfig).isEmpty || !w.proc.procExists) = true
    · rw [if_pos hempty] at hmap
      obtain rfl := Except.ok.inj hmap
      obtain ⟨uid, hget⟩ := mem_values_flatten.mp hp
      simp at hget
    · rw [if_neg hempty] at hmap
      have hexists : w.proc.procExists = true := by
        by_contra hnot
        exact hempty (by simp [hnot])
      cases hentries : w.proc.entries with
      | error error =>
        rw [hentries] at hmap
        cases hmap
      | ok entries =>
        rw [hentries] at hmap
        obtain ⟨uid, hget⟩ := mem_values_flatten.mp hp
        obtain ⟨-, entry, hmem, hentry⟩ : uid = p.uid ∧ ∃ entry, .ok entry ∈ entries
            ∧ discoverEntry w.proc.pathExists (controlledUids appConfig) entry = some p := by
          simpa using (mem_discoverEntries hmap).mp hget
        obtain ⟨hpid, huid, hmanaged, hname⟩ := discoverEntry_eq_some hentry
        exact ⟨hexists, entries, rfl, discoverEntries_isOk.mp ⟨map, hmap⟩, entry, p.uid, hmem, hpid,
          huid, hmanaged, hname⟩

/-- With all identity checks and SIGCONTs succeeding, recovery resumes every
    stop that the ledger owns exactly when discovery lists all of them. -/
theorem recovery_is_complete_iff {fault : Option String}
    (h : Exec (recoverStoppedManagedProcessesAfterRestart appConfig) t fault)
    (hw : w.Answers t) (hok : AllSucceed t) :
    (∀ pid, w.OwnedStop pid → Resumed t pid)
      ↔ ∀ pid, w.OwnedStop pid → w.Discoverable appConfig pid := by
  unfold recoverStoppedManagedProcessesAfterRestart at h
  dsimp only at h
  refine forall_congr' fun pid => forall_congr' fun hstop => ?_
  rw [discoverable_iff]
  -- With no controlled app the recovery returns at once, and discovery would find nobody.
  by_cases hempty : (controlledUids appConfig).isEmpty = true
  · rw [if_pos hempty] at h
    obtain ⟨rfl, rfl⟩ := exec_pure.mp h
    have hnone : discoverManagedUidProcesses w.proc (controlledUids appConfig) = .ok ∅ := by
      unfold discoverManagedUidProcesses
      simp [hempty]
    constructor
    · rintro ⟨p, hp, -⟩
      simp at hp
    · rintro ⟨map, hmap, p, hp, -⟩
      obtain rfl := Except.ok.inj (hnone.symm.trans hmap)
      obtain ⟨uid, hget⟩ := mem_values_flatten.mp hp
      simp at hget
  · rw [if_neg hempty] at h
    obtain ⟨reading, t₁, rfl, h₁⟩ := exec_ask_bind.mp h
    obtain rfl := hw.proc reading List.mem_cons_self
    cases hdiscover : discoverManagedUidProcesses w.proc (controlledUids appConfig) with
    | error error =>
      rw [hdiscover] at h₁
      obtain ⟨rfl, rfl⟩ := exec_pure.mp h₁
      constructor
      · rintro ⟨p, hp, -⟩
        cases List.mem_singleton.mp hp
      · rintro ⟨map, hmap, -⟩
        cases hmap
    | ok map =>
      rw [hdiscover] at h₁
      obtain ⟨t₂, t₃, summary, rfl, h₂, h₃⟩ := exec_bind.mp h₁
      obtain rfl : t₃ = [] := by
        split at h₃
        · exact (exec_pure.mp h₃).1
        · exact (exec_pure.mp h₃).1
      rw [List.append_nil] at hw hok ⊢
      constructor
      · rintro ⟨p, hp, rfl⟩
        rcases List.mem_cons.mp hp with hp | hp
        · cases hp
        · exact ⟨map, rfl, p, recoverProcesses_resumesOnly (fun _ => id) h₂ _ hp p rfl, rfl⟩
      · rintro ⟨map', hmap, p, hp, rfl⟩
        obtain rfl := Except.ok.inj hmap
        have hresumed : Resumed ([_] ++ t₂) p.pid :=
          recoverProcesses_resumes h₂ hw hok.tail hp hstop
        exact hresumed

/-! ## A stopped process of a whitelisted app -/

/-- Recovery in a world that answers as it is and lets everything succeed. -/
def RestartWorld.answer (w : RestartWorld) (_past : RecoveryTrace) :
    (query : RecoveryQuery) → query.Answer
  | .readProc          => w.proc
  | .readStat pid      => w.stat pid
  | .readLedger        => w.ledger
  | .readFreezeState _ => .ok .thawed
  | .validateProcess _ => .ok true
  | .thawCgroup _      => .ok ()
  | .unfreezeBinder _  => .ok ()
  | .resumeSignal _    => .ok ()

/-- A run with the answers of a world is one in that world. -/
theorem RestartWorld.answers_run {α : Type} (w : RestartWorld) (past : RecoveryTrace)
    (recovery : Recovery α) : w.Answers (run w.answer past recovery).1 := by
  have hanswer : ∀ {call}, call ∈ (run w.answer past recovery).1 →
      call.answer = w.answer [] call.query := by
    intro call hc
    obtain ⟨past', hanswer⟩ := mem_run hc
    rw [hanswer]
    cases call.query <;> rfl
  constructor
  · intro reading hmem
    exact hanswer hmem
  · intro pre pid answer post ht _
    have hmem : ⟨.readStat pid, answer⟩ ∈ (run w.answer past recovery).1 := by simp [ht]
    exact hanswer hmem
  · intro pre reading post ht identity howned _
    have hmem : ⟨.readLedger, reading⟩ ∈ (run w.answer past recovery).1 := by simp [ht]
    have heq : reading = w.ledger := hanswer hmem
    rw [heq]
    exact howned

/-- In it every action succeeds. -/
theorem RestartWorld.allSucceed_run {α : Type} (w : RestartWorld) (past : RecoveryTrace)
    (recovery : Recovery α) : AllSucceed (run w.answer past recovery).1 := by
  constructor
  · intro p answer hmem
    obtain ⟨past', hanswer⟩ := mem_run hmem
    exact hanswer
  · intro p answer hmem
    obtain ⟨past', hanswer⟩ := mem_run hmem
    exact hanswer

/-- The stat line of a stopped process. -/
def stoppedStat : String := "501 (com.example.app) T 1 501 0 0 -1 0 0 0 0 0 0 0 0 0 20 0 1 0 4242 0"

/-- Its entry in `/proc`. -/
def stoppedEntry : ProcEntry where
  fileName        := some "501"
  status          := .ok "Name:\tcom.example.app\nUid:\t10123\t10123\t10123\t10123\n"
  cmdline         := .ok "com.example.app\x00"
  stat            := .ok stoppedStat
  binderSnapshots := []

/-- Process 501 of uid 10123 was stopped by the last daemon, as its ledger says. -/
def stoppedWorld : RestartWorld where
  proc     := ⟨true, .ok [.ok stoppedEntry], fun _ => false⟩
  stat     := fun pid => if pid = 501 then .ok stoppedStat else .error ⟨.notFound, "no such process"⟩
  ledger   := ⟨.ok "501 4242\n", none, .error ⟨.notFound, "no such file"⟩⟩
  stat_pid := by
    intro pid text identity htext hidentity
    by_cases hpid : pid = 501
    · rw [if_pos hpid] at htext
      obtain rfl := Except.ok.inj htext
      have heq : stoppedIdentity stoppedStat = some ⟨501, 4242⟩ := by decide
      obtain rfl := Option.some.inj (heq.symm.trans hidentity)
      exact hpid.symm
    · rw [if_neg hpid] at htext
      cases htext

/-- Its stop is owned. -/
theorem stoppedWorld_ownedStop : stoppedWorld.OwnedStop 501 :=
  ⟨stoppedStat, ⟨501, 4242⟩, rfl, by decide,
    _, rfl, by decide⟩

/-- The process is resumed. -/
theorem recovery_is_complete_iff_sample :
    (∀ pid, stoppedWorld.OwnedStop pid →
      Resumed (run stoppedWorld.answer []
        (recoverStoppedManagedProcessesAfterRestart [⟨10123, 20, false⟩])).1 pid)
      ↔ ∀ pid, stoppedWorld.OwnedStop pid →
        stoppedWorld.Discoverable [⟨10123, 20, false⟩] pid :=
  recovery_is_complete_iff (exec_run _ _ _) (stoppedWorld.answers_run _ _)
    (stoppedWorld.allSucceed_run _ _)

/-- The app was whitelisted, mode 40, before the daemon restarted: its stopped
    process is not even looked for. -/
theorem whitelisted_app_stays_stopped :
    ¬ ∀ (w : RestartWorld) appConfig t fault,
      Exec (recoverStoppedManagedProcessesAfterRestart appConfig) t fault →
      w.Answers t → AllSucceed t → ∀ pid, w.OwnedStop pid → Resumed t pid := by
  intro hclaim
  obtain ⟨p, hp, -⟩ := hclaim stoppedWorld [⟨10123, 40, false⟩] _ _ (exec_run stoppedWorld.answer [] _)
    (stoppedWorld.answers_run _ _) (stoppedWorld.allSucceed_run _ _) 501 stoppedWorld_ownedStop
  have hnone : (run stoppedWorld.answer []
      (recoverStoppedManagedProcessesAfterRestart [⟨10123, 40, false⟩])).1 = [] := rfl
  rw [hnone] at hp
  simp at hp

end Freezeit
