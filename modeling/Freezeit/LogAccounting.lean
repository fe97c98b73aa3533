import Freezeit.Lib.Since
import Freezeit.ManagerLog
import Mathlib.Algebra.BigOperators.Group.List.Basic
import Mathlib.Algebra.GroupWithZero.Nat

/-! # The bytes that the manager log retains

    The log counts the bytes of its records as they come and go.  The count is
    exact for as long as no copy is taken of a record whose buffers have room
    to spare: the copy holds less than what was counted for it. -/

namespace Freezeit

/-! ## Steps of the log -/

/-- What may happen to a log. -/
inductive LogStep where
  | push (record : LogRecord)
  | pushOnce (record : LogRecord)
  | clear (nowMs : Nat)
  /-- The whole log is cloned, and the clone takes its place. -/
  | clone

/-- A buffer has allocated at least what it holds. -/
def LogRecord.Allocated (record : LogRecord) : Prop :=
  record.payload.contentBytes ≤ record.capacity

/-- A buffer without room to spare. -/
def LogRecord.Tight (record : LogRecord) : Prop := record.capacity = record.payload.contentBytes

namespace LogStep

/-- The log after one step. -/
def apply (log : ManagerLog) : LogStep → ManagerLog
  | .push record     => log.push record
  | .pushOnce record => log.pushOnce record
  | .clear nowMs     => log.clear nowMs
  | .clone           => log.clone

/-- What is pushed was allocated for its text. -/
def Allocated : LogStep → Prop
  | .push record | .pushOnce record => record.Allocated
  | .clear _ | .clone               => True

end LogStep

namespace ManagerLog

/-- The log after some steps, from an empty one. -/
def after (capacity : Nat) (steps : List LogStep) : ManagerLog :=
  steps.foldl LogStep.apply (.new capacity)

/-- One more step on the log that the others left. -/
theorem after_concat (capacity : Nat) (steps : List LogStep) (step : LogStep) :
    after capacity (steps ++ [step]) = step.apply (after capacity steps) := by
  unfold after
  rw [List.foldl_append]
  rfl

/-! ## The accounting -/

/-- What the records of a list count together. -/
def recordsBytes (records : List LogRecord) : Nat := (records.map retainedRecordBytes).sum

/-- A further record fits in. -/
def Fits (capacity : Nat) (records : List LogRecord) (record : LogRecord) : Prop :=
  records.length < capacity
    ∧ recordsBytes records + retainedRecordBytes record ≤ maxRetainedLogBytes

/-- The record is neither refused nor too large. -/
def Accepts (log : ManagerLog) (record : LogRecord) : Prop :=
  log.rejects record = false ∧ retainedRecordBytes record ≤ maxRetainedLogBytes

/-- An accepted record comes last; of the others it takes the place of as many
    as are needed, the oldest first. -/
def EvictsAsNeeded (log : ManagerLog) (record : LogRecord) : Prop :=
  log.Accepts record → ∃ evicted, (log.push record).records = log.records.drop evicted ++ [record]
    ∧ Fits log.capacity (log.records.drop evicted) record
    ∧ ∀ fewer < evicted, ¬ Fits log.capacity (log.records.drop fewer) record

/-- The account of a log: it is exact, within the limit, and a push evicts no more than it
    has to. -/
structure Accounted (log : ManagerLog) : Prop where
  exact    : log.retainedBytes = recordsBytes log.records
  bounded  : log.retainedBytes ≤ maxRetainedLogBytes
  capacity : log.records.length ≤ log.capacity
  evicts   : ∀ record, log.EvictsAsNeeded record

variable {log : ManagerLog} {record : LogRecord} {capacity retained : Nat}
  {records : List LogRecord}

/-- The first record counts on its own. -/
theorem recordsBytes_cons (first : LogRecord) (rest : List LogRecord) :
    recordsBytes (first :: rest) = retainedRecordBytes first + recordsBytes rest := by
  unfold recordsBytes
  rw [List.map_cons, List.sum_cons]

/-- The last record counts on its own. -/
theorem recordsBytes_concat (records : List LogRecord) (record : LogRecord) :
    recordsBytes (records ++ [record]) = recordsBytes records + retainedRecordBytes record := by
  unfold recordsBytes
  rw [List.map_append, List.sum_append, List.map_singleton, List.sum_singleton]

/-! ## Eviction -/

/-- Records are evicted one by one until the new one fits. -/
theorem evict_spec (hcapacity : 0 < capacity)
    (hrecord : retainedRecordBytes record ≤ maxRetainedLogBytes) (records : List LogRecord) :
    ∃ evicted, evict capacity (retainedRecordBytes record) records (recordsBytes records)
        = (records.drop evicted, recordsBytes (records.drop evicted))
      ∧ Fits capacity (records.drop evicted) record
      ∧ ∀ fewer < evicted, ¬ Fits capacity (records.drop fewer) record := by
  induction records with
  | nil =>
    refine ⟨0, rfl, ⟨hcapacity, ?_⟩, ?_⟩
    · show 0 + retainedRecordBytes record ≤ maxRetainedLogBytes
      omega
    · intro fewer hfewer
      omega
  | cons first rest ih =>
    have hbytes := recordsBytes_cons first rest
    -- The first record has to go, or everything fits as it is.
    by_cases hfull : rest.length + 1 ≥ capacity
        ∨ recordsBytes (first :: rest) + retainedRecordBytes record > maxRetainedLogBytes
    · obtain ⟨evicted, heq, hfits, hneeded⟩ := ih
      refine ⟨evicted + 1, ?_, hfits, ?_⟩
      · rw [evict, if_pos hfull, hbytes, Nat.add_sub_cancel_left, heq]
        rfl
      · intro fewer hfewer
        -- Dropping none leaves the log full; dropping more is a matter of the rest.
        cases fewer with
        | zero =>
          intro ⟨hlength, hsum⟩
          have hlength' : rest.length + 1 < capacity := hlength
          have hsum' : recordsBytes (first :: rest) + retainedRecordBytes record
            ≤ maxRetainedLogBytes := hsum
          omega
        | succ fewer => exact hneeded fewer (by omega)
    · refine ⟨0, ?_, ⟨?_, ?_⟩, ?_⟩
      · rw [evict, if_neg hfull]
        rfl
      · show rest.length + 1 < capacity
        omega
      · show recordsBytes (first :: rest) + retainedRecordBytes record ≤ maxRetainedLogBytes
        omega
      · intro fewer hfewer
        omega

/-- A record that is not accepted changes nothing. -/
theorem push_of_not_accepts (h : ¬ log.Accepts record) : log.push record = log := by
  unfold push
  dsimp only
  rw [if_pos]
  rw [Bool.or_eq_true, decide_eq_true_eq]
  by_contra hboth
  rw [not_or, Bool.not_eq_true, Nat.not_lt] at hboth
  exact h hboth

/-- What an accepted record makes of an exact log. -/
theorem push_of_accepts (hcapacity : 0 < log.capacity)
    (hexact : log.retainedBytes = recordsBytes log.records) (h : log.Accepts record) :
    (∃ evicted, (log.push record).records = log.records.drop evicted ++ [record]
        ∧ Fits log.capacity (log.records.drop evicted) record
        ∧ ∀ fewer < evicted, ¬ Fits log.capacity (log.records.drop fewer) record)
      ∧ (log.push record).retainedBytes = recordsBytes (log.push record).records
      ∧ (log.push record).capacity = log.capacity := by
  obtain ⟨evicted, heq, hfits, hneeded⟩ := evict_spec hcapacity h.2 log.records
  have haccepted : ¬ (log.rejects record
      || decide (retainedRecordBytes record > maxRetainedLogBytes)) = true := by
    rw [h.1, Bool.false_or, decide_eq_true_eq]
    exact Nat.not_lt.mpr h.2
  have hpush : (log.push record).records = log.records.drop evicted ++ [record]
      ∧ (log.push record).retainedBytes
        = recordsBytes (log.records.drop evicted) + retainedRecordBytes record
      ∧ (log.push record).capacity = log.capacity := by
    unfold push
    dsimp only
    rw [if_neg haccepted, hexact, heq]
    exact ⟨rfl, rfl, rfl⟩
  obtain ⟨hrecords, hbytes, hsame⟩ := hpush
  refine ⟨⟨evicted, hrecords, hfits, hneeded⟩, ?_, hsame⟩
  rw [hbytes, hrecords, recordsBytes_concat]

/-! ## Each step -/

/-- The part of the accounting that the rest follows from: the counter is the sum over the
    records, and both limits hold. -/
structure Exact (log : ManagerLog) : Prop where
  positive : 0 < log.capacity
  exact    : log.retainedBytes = recordsBytes log.records
  bounded  : log.retainedBytes ≤ maxRetainedLogBytes
  capacity : log.records.length ≤ log.capacity

/-- An exact log is accounted for. -/
theorem Exact.accounted (h : log.Exact) : log.Accounted where
  exact    := h.exact
  bounded  := h.bounded
  capacity := h.capacity
  evicts _ := fun haccepts => (push_of_accepts h.positive h.exact haccepts).1

/-- A new log is exact. -/
theorem exact_new (capacity : Nat) : (new capacity).Exact where
  positive := Nat.lt_of_lt_of_le Nat.one_pos (Nat.le_max_right capacity 1)
  exact    := rfl
  bounded  := Nat.zero_le _
  capacity := Nat.zero_le _

/-- A push keeps the log exact. -/
theorem Exact.push (h : log.Exact) (record : LogRecord) : (log.push record).Exact := by
  by_cases haccepts : log.Accepts record
  · obtain ⟨⟨evicted, hrecords, hfits, -⟩, hexact, hcapacity⟩ :=
      push_of_accepts h.positive h.exact haccepts
    refine ⟨?_, hexact, ?_, ?_⟩
    · rw [hcapacity]
      exact h.positive
    · rw [hexact, hrecords, recordsBytes_concat]
      exact hfits.2
    · rw [hrecords, hcapacity, List.length_append, List.length_singleton]
      exact hfits.1
  · rw [push_of_not_accepts haccepts]
    exact h

/-- A push of a record that may be there already keeps the log exact. -/
theorem Exact.pushOnce (h : log.Exact) (record : LogRecord) : (log.pushOnce record).Exact := by
  unfold ManagerLog.pushOnce
  split
  · exact h
  · exact h.push record

/-- Clearing the log keeps it exact. -/
theorem Exact.clear (h : log.Exact) (nowMs : Nat) : (log.clear nowMs).Exact := by
  unfold ManagerLog.clear
  dsimp only
  split
  · exact ⟨h.positive, rfl, Nat.zero_le _, Nat.zero_le _⟩
  · exact ⟨h.positive, rfl, Nat.zero_le _, Nat.zero_le _⟩

/-- A copy of records without room to spare is as large as they are. -/
theorem recordsBytes_clone (h : ∀ record ∈ records, record.Tight) :
    recordsBytes (records.map LogRecord.clone) = recordsBytes records := by
  induction records with
  | nil => rfl
  | cons first rest ih =>
    have hfirst : first.capacity = first.payload.contentBytes := h first List.mem_cons_self
    have hsame : retainedRecordBytes first.clone = retainedRecordBytes first := by
      unfold retainedRecordBytes LogRecord.clone
      dsimp only
      rw [hfirst]
    rw [List.map_cons, recordsBytes_cons, recordsBytes_cons, hsame,
      ih fun r hr => h r (List.mem_cons_of_mem _ hr)]

/-- A copy is no larger, and smaller if there was room to spare. -/
theorem recordsBytes_clone_lt (hall : ∀ record ∈ records, record.Allocated)
    (h : ¬ ∀ record ∈ records, record.Tight) :
    recordsBytes (records.map LogRecord.clone) < recordsBytes records := by
  induction records with
  | nil => exact absurd (List.forall_mem_nil _) h
  | cons first rest ih =>
    have hfirst : first.payload.contentBytes ≤ first.capacity := hall first List.mem_cons_self
    have hrest := fun r hr => hall r (List.mem_cons_of_mem first hr)
    rw [List.map_cons, recordsBytes_cons, recordsBytes_cons]
    have hclone : retainedRecordBytes first.clone = 128 + first.payload.contentBytes := rfl
    have hbytes : retainedRecordBytes first = 128 + first.capacity := rfl
    by_cases htight : ∀ record ∈ rest, record.Tight
    · have hloose : first.capacity ≠ first.payload.contentBytes := by
        intro heq
        exact h (List.forall_mem_cons.mpr ⟨heq, htight⟩)
      have hsame := recordsBytes_clone htight
      omega
    · have hless := ih hrest htight
      omega

/-- A clone is exact if its records have no spare capacity, which a clone would lose. -/
theorem Exact.clone (h : log.Exact) (htight : ∀ record ∈ log.records, record.Tight) :
    log.clone.Exact where
  positive := h.positive
  exact    := h.exact.trans (recordsBytes_clone htight).symm
  bounded  := h.bounded
  capacity := (List.length_map _).trans_le h.capacity

/-! ## Runs -/

/-- An eviction leaves old records only. -/
theorem evict_suffix (capacity recordBytes : Nat) (records : List LogRecord) (retained : Nat) :
    ∀ record ∈ (evict capacity recordBytes records retained).1, record ∈ records := by
  induction records generalizing retained with
  | nil => exact fun record hrecord => hrecord
  | cons first rest ih =>
    intro record hrecord
    rw [evict] at hrecord
    split at hrecord
    · exact List.mem_cons_of_mem _ (ih _ record hrecord)
    · exact hrecord

/-- After a push there are old records and the new one. -/
theorem mem_push {held : LogRecord} (h : held ∈ (log.push record).records) :
    held ∈ log.records ∨ held = record := by
  unfold push at h
  dsimp only at h
  split at h
  · exact .inl h
  · cases List.mem_append.mp h with
    | inl hkept => exact .inl (evict_suffix _ _ _ _ held hkept)
    | inr hnew  => exact .inr (List.mem_singleton.mp hnew)

/-- What the log holds was pushed, or copied. -/
theorem forall_after {P : LogRecord → Prop} (hclone : ∀ record, P record → P record.clone)
    {steps : List LogStep}
    (hsteps : ∀ step ∈ steps, ∀ record, step = .push record ∨ step = .pushOnce record → P record) :
    ∀ record ∈ (after capacity steps).records, P record := by
  -- By the last step; every record in the log is an old one, the new one or a clone.
  induction steps using List.reverseRecOn with
  | nil => exact List.forall_mem_nil _
  | append_singleton steps step ih =>
    have hall := ih fun earlier hearlier => hsteps earlier (List.mem_append_left _ hearlier)
    have hstep := hsteps step (List.mem_append_right _ (List.mem_singleton_self step))
    have hpush : ∀ record : LogRecord, P record →
        ∀ held ∈ ((after capacity steps).push record).records, P held := by
      intro record hrecord held hheld
      cases mem_push hheld with
      | inl hold => exact hall held hold
      | inr hnew => exact hnew ▸ hrecord
    rw [after_concat]
    intro record hrecord
    match step with
    | .push pushed => exact hpush pushed (hstep pushed (.inl rfl)) record hrecord
    | .pushOnce pushed =>
      have hheld : record ∈ ((after capacity steps).pushOnce pushed).records := hrecord
      unfold ManagerLog.pushOnce at hheld
      split at hheld
      · exact hall record hheld
      · exact hpush pushed (hstep pushed (.inr rfl)) record hheld
    -- A cleared log holds nothing.
    | .clear nowMs =>
      have hheld : record ∈ ((after capacity steps).clear nowMs).records := hrecord
      unfold ManagerLog.clear at hheld
      dsimp only at hheld
      split at hheld
      · exact absurd hheld List.not_mem_nil
      · exact absurd hheld List.not_mem_nil
    | .clone =>
      obtain ⟨original, horiginal, rfl⟩ := List.mem_map.mp hrecord
      exact hclone original (hall original horiginal)

/-- Every record of a log was allocated for its text. -/
theorem allocated_after {steps : List LogStep} (hsteps : ∀ step ∈ steps, step.Allocated) :
    ∀ record ∈ (after capacity steps).records, record.Allocated := by
  apply forall_after (P := LogRecord.Allocated) fun record _ => Nat.le_refl _
  intro step hmem record hpushed
  have hallocated := hsteps step hmem
  rcases hpushed with rfl | rfl
  · exact hallocated
  · exact hallocated

/-- Copies are taken of records without room to spare only. -/
def ClonesTight (capacity : Nat) (steps : List LogStep) : Prop :=
  Everywhere (fun before step => step = .clone →
    ∀ record ∈ (after capacity before).records, record.Tight) steps

/-- A log all of whose clones are tight is exact. -/
theorem ClonesTight.exact {steps : List LogStep} (h : ClonesTight capacity steps) :
    (after capacity steps).Exact := by
  induction steps using List.reverseRecOn with
  | nil => exact exact_new capacity
  | append_singleton steps step ih =>
    have hbefore := ih h.init
    rw [after_concat]
    match step with
    | .push record     => exact hbefore.push record
    | .pushOnce record => exact hbefore.pushOnce record
    | .clear nowMs     => exact hbefore.clear nowMs
    | .clone           => exact hbefore.clone (h steps .clone [] rfl rfl)

/-- The accounting is exact in every state of a run exactly when the run never
    copies a record whose buffers have room to spare. -/
theorem accounting_is_exact_iff (capacity : Nat) {steps : List LogStep}
    (hsteps : ∀ step ∈ steps, step.Allocated) :
    (∀ before later, steps = before ++ later → (after capacity before).Accounted)
      ↔ ClonesTight capacity steps := by
  constructor
  · intro haccounted before step later hsplit hclone
    subst hclone
    have hbefore := (haccounted before (.clone :: later) hsplit).exact
    have hcloned := (haccounted (before ++ [.clone]) later (by simp [hsplit])).exact
    rw [after_concat] at hcloned
    have hsame : recordsBytes ((after capacity before).records.map LogRecord.clone)
        = recordsBytes (after capacity before).records := hcloned.symm.trans hbefore
    by_contra hloose
    have hallocated : ∀ record ∈ (after capacity before).records, record.Allocated := by
      apply allocated_after
      intro earlier hearlier
      apply hsteps
      rw [hsplit]
      exact List.mem_append_left _ hearlier
    have hless := recordsBytes_clone_lt hallocated hloose
    omega
  · intro htight before later hsplit
    have hprefix : ClonesTight capacity before := by
      rw [hsplit] at htight
      exact Everywhere.init htight
    exact hprefix.exact.accounted

/-! ### A sample -/

/-- A message of two bytes in a buffer of `capacity` bytes. -/
def sampleRecord (capacity : Nat) : LogRecord := ⟨.info, .diagnostic, 0, .text "ok", capacity⟩

/-- Two records with a clone between them. -/
theorem accounting_is_exact_sample :
    (after 256 [.push (sampleRecord 2), .clone, .push (sampleRecord 8)]).Accounted := by
  have hallocated : ∀ step ∈ [LogStep.push (sampleRecord 2), .clone, .push (sampleRecord 8)],
      step.Allocated := by
    simp only [List.forall_mem_cons]
    refine ⟨?_, trivial, ?_, List.forall_mem_nil _⟩
    · show (2 : Nat) ≤ 2
      omega
    · show (2 : Nat) ≤ 8
      omega
  have htight : ClonesTight 256 [.push (sampleRecord 2), .clone, .push (sampleRecord 8)] := by
    have hpush : ∀ {before : List LogStep} {record : LogRecord},
        LogStep.push record = .clone → ∀ held ∈ (after 256 before).records, held.Tight := by
      intro before record hclone
      cases hclone
    refine ((Everywhere.nil.concat hpush).concat ?_).concat hpush
    intro _ record hrecord
    have hheld : record ∈ [sampleRecord 2] := hrecord
    rw [List.mem_singleton.mp hheld]
    rfl
  exact (accounting_is_exact_iff 256 hallocated).mpr htight _ [] (List.append_nil _).symm

/-- A message that was formatted into a larger buffer, and a copy of the log:
    the copy counts bytes that it does not hold. -/
theorem copied_log_miscounts :
    ¬ ∀ (capacity : Nat) (steps : List LogStep), (∀ step ∈ steps, step.Allocated) →
      (after capacity steps).retainedBytes = recordsBytes (after capacity steps).records := by
  intro hclaim
  have hexact := hclaim 256 [.push (sampleRecord 8), .clone] (by
    simp only [List.forall_mem_cons]
    refine ⟨?_, trivial, List.forall_mem_nil _⟩
    show (2 : Nat) ≤ 8
    omega)
  exact absurd hexact (by decide)

end ManagerLog

end Freezeit
