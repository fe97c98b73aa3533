import Freezeit.PolicyRewrite
import Freezeit.RequestEffects

/-! # The policy file and the records in memory

    After any run of requests and starts the policy file, loaded again with the
    inventory of the last start, gives the records in memory.  The invariant also
    says that the source tokens of the state are those of the lines: a request
    rewrites the lines of a uid by its token, so a stale token would leave the old
    policy in the file. -/

namespace Freezeit

open Prog

/-! ## What the file and memory have in common -/

/-- The record of a line. -/
def readRecord (resolve : String → Option Nat) (record : LegacyPolicyRecord) :
    Option ManagerAppConfigRecord :=
  (resolve record.packageOrUid).map fun uid => ⟨uid, record.mode, record.permissive⟩

/-- The policies that a reader finds in the file; without a file there are none. -/
def fileRecords (text : Option String) : List LegacyPolicyRecord := (text.map policyRecords).getD []

/-- The uid of a token: a package of the inventory comes first. -/
def resolveUid (packageRecords : List PackageRecord) (token : String) : Option Nat :=
  ((packageUids packageRecords).get? token).or (parseLegacyUidToken token)

theorem lines_eq_fileRecords (text : Option String) :
    (text.toList.flatMap Text.lines).filterMap parseLegacyPolicyLine = fileRecords text := by
  cases text with
  | none => rfl
  | some text =>
    show ([text].flatMap Text.lines).filterMap parseLegacyPolicyLine = policyRecords text
    rw [List.flatMap_singleton, filterMap_lines]

/-- A line that was read has a mode in the range of its type. -/
theorem mode_of_mem_fileRecords {text : Option String} {line : LegacyPolicyRecord}
    (h : line ∈ fileRecords text) : -2 ^ 31 ≤ line.mode ∧ line.mode < 2 ^ 31 := by
  cases text with
  | none => cases h
  | some text =>
    obtain ⟨raw, -, hparse⟩ := List.mem_filterMap.mp h
    exact (writable_of_parse hparse).2

/-- Loading reads the lines in order and drops those whose token names no uid. -/
theorem loadManagerAppConfigRecords_eq (text : Option String) (packageRecords : List PackageRecord) :
    loadManagerAppConfigRecords text packageRecords
      = (fileRecords text).filterMap (readRecord (resolveUid packageRecords)) := by
  unfold loadManagerAppConfigRecords
  dsimp only
  rw [lines_eq_fileRecords]
  refine List.filterMap_congr fun record _ => ?_
  unfold readRecord resolveUid
  cases ((packageUids packageRecords).get? record.packageOrUid).or
    (parseLegacyUidToken record.packageOrUid) with
  | none => rfl
  | some uid => rfl

/-- The records of one uid are the same. -/
def Consistent (records : List ManagerAppConfigRecord) : Prop :=
  ∀ r ∈ records, ∀ r' ∈ records, r.uid ≠ u32Max → r.uid = r'.uid → r = r'

/-- A token that reads as a uid stands for that uid. -/
def ReadsTokens (resolve : String → Option Nat) : Prop :=
  ∀ token uid, parseLegacyUidToken token = some uid → resolve token = some uid

/-- The file and the state say the same, record by record. The tokens say under which name
    each uid is written, so that the next write finds its line again. -/
structure Reloads (resolve : String → Option Nat) (text : Option String)
    (records : List ManagerAppConfigRecord) (tokens : SortedMap Nat String) : Prop where
  same : ∀ record, record.uid ≠ u32Max →
    (record ∈ (fileRecords text).filterMap (readRecord resolve) ↔ record ∈ records)
  consistent : Consistent records
  inRange    : ∀ record ∈ records, record.InRange
  token      : ∀ line ∈ fileRecords text, ∀ uid, resolve line.packageOrUid = some uid → uid ≠ u32Max →
    tokens.get? uid = some line.packageOrUid
  resolved   : ∀ uid token, tokens.get? uid = some token → resolve token = some uid

/-! ## Records by uid -/

section
variable {records previous requested : List ManagerAppConfigRecord} {record : ManagerAppConfigRecord}
  {uid : Nat}

/-- What the map by uid holds is one of the records. -/
theorem recordsByUid_spec (h : (recordsByUid records).get? uid = some record) :
    record ∈ records ∧ record.uid = uid ∧ uid ≠ u32Max := by
  rcases SortedMap.exists_of_get?_foldl_insert (g := id) h with ⟨r, hmem, hkey, hval⟩ | hnone
  · obtain rfl : r = record := hval
    obtain ⟨hmem, hne⟩ := List.mem_filter.mp hmem
    exact ⟨hmem, hkey, hkey ▸ of_decide_eq_true hne⟩
  · cases hnone

/-- And it holds all of them, as long as a uid has only one. -/
theorem recordsByUid_of_mem (hconsistent : Consistent records) (hmem : record ∈ records)
    (hne : record.uid ≠ u32Max) : (recordsByUid records).get? record.uid = some record := by
  have hfilter : record ∈ records.filter (·.uid ≠ u32Max) := List.mem_filter.mpr ⟨hmem, by simpa using hne⟩
  refine SortedMap.get?_foldl_insert_of_mem (g := id) hfilter fun r hr hkey => ?_
  exact (hconsistent record hmem r (List.mem_filter.mp hr).1 hne hkey.symm).symm

/-- Where a merged record comes from: an old one, with the requested value if there is
    one, or a requested one for a new uid. -/
theorem mem_merge (h : record ∈ mergeAppConfigRecords previous requested) :
    (∃ r ∈ previous, r.uid = record.uid ∧ ((recordsByUid requested).get? record.uid).getD r = record)
    ∨ (record ∈ requested ∧ record.uid ≠ u32Max ∧ ∀ r ∈ previous, r.uid ≠ record.uid) := by
  unfold mergeAppConfigRecords at h
  rcases List.mem_append.mp h with hold | hnew
  · obtain ⟨r, hmem, rfl⟩ := List.mem_map.mp hold
    have huid : (((recordsByUid requested).get? r.uid).getD r).uid = r.uid := by
      cases hget : (recordsByUid requested).get? r.uid with
      | none => rfl
      | some r' => exact (recordsByUid_spec hget).2.1
    exact .inl ⟨r, hmem, huid.symm, by rw [huid]⟩
  · obtain ⟨hmem, hkeep⟩ := List.mem_filter.mp hnew
    rw [Bool.and_eq_true, decide_eq_true_eq, Bool.not_eq_true', List.contains_eq_mem,
      decide_eq_false_iff_not, List.mem_map] at hkeep
    exact .inr ⟨hmem, hkeep.1, fun r hr heq => hkeep.2 ⟨r, hr, heq⟩⟩

/-- Merging keeps one policy for every uid. -/
theorem consistent_merge (hprevious : Consistent previous) (hrequested : Consistent requested) :
    Consistent (mergeAppConfigRecords previous requested) := by
  intro r hr r' hr' hne heq
  -- Two records of one uid are both old or both new: a new one has a uid that no old
  -- record has.
  rcases mem_merge hr with ⟨old, hold, hkey, hvalue⟩ | ⟨hnew, -, hfresh⟩
  · rcases mem_merge hr' with ⟨old', hold', hkey', hvalue'⟩ | ⟨-, -, hfresh'⟩
    · obtain rfl := hprevious old hold old' hold' (hkey ▸ hne) (hkey.trans (heq.trans hkey'.symm))
      rw [← hvalue, ← hvalue', heq]
    · exact absurd (hkey.trans heq) (hfresh' old hold)
  · rcases mem_merge hr' with ⟨old', hold', hkey', -⟩ | ⟨hnew', -, -⟩
    · exact absurd (hkey'.trans heq.symm) (hfresh old' hold')
    · exact hrequested r hnew r' hnew' hne heq

theorem inRange_merge (hprevious : ∀ record ∈ previous, record.InRange)
    (hrequested : ∀ record ∈ requested, record.InRange) :
    ∀ record ∈ mergeAppConfigRecords previous requested, record.InRange := by
  intro record hmem
  rcases mem_merge hmem with ⟨old, hold, -, hvalue⟩ | ⟨hnew, -, -⟩
  · cases hget : (recordsByUid requested).get? record.uid with
    | none =>
      rw [hget] at hvalue
      exact hvalue ▸ hprevious old hold
    | some r =>
      rw [hget] at hvalue
      exact hvalue ▸ hrequested r (recordsByUid_spec hget).1
  · exact hrequested record hnew

/-- No uid is lost. -/
theorem exists_mem_merge (requested : List ManagerAppConfigRecord) (hmem : record ∈ previous) :
    ∃ r ∈ mergeAppConfigRecords previous requested, r.uid = record.uid := by
  refine ⟨((recordsByUid requested).get? record.uid).getD record, ?_, ?_⟩
  · unfold mergeAppConfigRecords
    exact List.mem_append_left _ (List.mem_map_of_mem hmem)
  · cases hget : (recordsByUid requested).get? record.uid with
    | none => rfl
    | some r => exact (recordsByUid_spec hget).2.1

end

/-! ## The tokens of a state -/

section
variable {resolve : String → Option Nat} {text : Option String} {records : List ManagerAppConfigRecord}
  {tokens : SortedMap Nat String}

theorem get?_retained {keep : SortedMap Nat ManagerAppConfigRecord} {uid : Nat} {token : String} :
    (tokens.retain fun uid _ => keep.contains uid).get? uid = some token
      ↔ tokens.get? uid = some token ∧ uid ∈ keep := by
  rw [SortedMap.get?_retain, Option.filter_eq_some_iff, SortedMap.contains_iff_mem]

/-- A line of the file has a record in memory. -/
theorem Reloads.record_of_line (h : Reloads resolve text records tokens) {line : LegacyPolicyRecord}
    (hline : line ∈ fileRecords text) {uid : Nat} (huid : resolve line.packageOrUid = some uid)
    (hne : uid ≠ u32Max) :
    ⟨uid, line.mode, line.permissive⟩ ∈ records
    ∧ (recordsByUid records).get? uid = some ⟨uid, line.mode, line.permissive⟩ := by
  have hread : readRecord resolve line = some ⟨uid, line.mode, line.permissive⟩ := by
    unfold readRecord
    rw [huid]
    rfl
  have hmem := (h.same ⟨uid, line.mode, line.permissive⟩ hne).mp (List.mem_filterMap.mpr ⟨line, hline, hread⟩)
  exact ⟨hmem, recordsByUid_of_mem h.consistent hmem hne⟩

/-- Tokens of uids that no record has are of no use. -/
theorem Reloads.retain (h : Reloads resolve text records tokens) :
    Reloads resolve text records (tokens.retain fun uid _ => (recordsByUid records).contains uid) where
  same       := h.same
  consistent := h.consistent
  inRange    := h.inRange
  token line hline uid huid hne := by
    obtain ⟨-, hget⟩ := h.record_of_line hline huid hne
    exact get?_retained.mpr ⟨h.token line hline uid huid hne, SortedMap.mem_of_get? hget⟩
  resolved uid token hget := h.resolved uid token (get?_retained.mp hget).1

/-! ## Which line is whose -/

/-- The tokens of the loaded records, by token. -/
def uidsByToken (tokens : SortedMap Nat String) : SortedMap String Nat :=
  tokens.entries.foldl (fun byToken e => byToken.insert e.2 e.1) ∅

/-- A line is matched when its token stands for a uid with a record. -/
theorem Reloads.lineUid_eq (h : Reloads resolve text records tokens) (hreads : ReadsTokens resolve)
    {line : LegacyPolicyRecord} (hline : line ∈ fileRecords text) :
    lineUid (uidsByToken (tokens.retain fun uid _ => (recordsByUid records).contains uid))
      (recordsByUid records) line = (resolve line.packageOrUid).filter (· ≠ u32Max) := by
  have hentries : ∀ uid token, (uid, token) ∈
      (tokens.retain fun uid _ => (recordsByUid records).contains uid).entries →
      resolve token = some uid ∧ uid ≠ u32Max := by
    intro uid token hmem
    have hget := (SortedMap.lookupEntry_eq_some_iff (SortedMap.sorted _)).mpr hmem
    obtain ⟨htoken, hkept⟩ := get?_retained.mp hget
    obtain ⟨record, hrecord⟩ := SortedMap.mem_iff_get?.mp hkept
    exact ⟨h.resolved uid token htoken, (recordsByUid_spec hrecord).2.2⟩
  -- What the inverted map gives for a token was a token of that uid.
  have hfound : ∀ uid, (uidsByToken (tokens.retain fun uid _ => (recordsByUid records).contains uid)).get?
      line.packageOrUid = some uid → resolve line.packageOrUid = some uid ∧ uid ≠ u32Max := by
    intro uid hget
    rcases SortedMap.exists_of_get?_foldl_insert hget with ⟨⟨uid', token⟩, hmem, hkey, hval⟩ | hnone
    · obtain rfl : token = line.packageOrUid := hkey
      obtain rfl : uid' = uid := hval
      exact hentries uid' line.packageOrUid hmem
    · cases hnone
  unfold lineUid
  -- The resolver of the start and the tables of the state are compared on the token of the
  -- line.
  cases hresolve : resolve line.packageOrUid with
  | none =>
    have hnone : (uidsByToken (tokens.retain fun uid _ => (recordsByUid records).contains uid)).get?
        line.packageOrUid = none := by
      by_contra hsome
      obtain ⟨uid, hget⟩ := Option.ne_none_iff_exists'.mp hsome
      rw [(hfound uid hget).1] at hresolve
      cases hresolve
    have hparse : parseLegacyUidToken line.packageOrUid = none := by
      by_contra hsome
      obtain ⟨uid, hparse⟩ := Option.ne_none_iff_exists'.mp hsome
      rw [hreads _ uid hparse] at hresolve
      cases hresolve
    rw [hnone, hparse]
    rfl
  | some uid =>
    by_cases hmax : uid = u32Max
    · have hnone : (uidsByToken (tokens.retain fun uid _ => (recordsByUid records).contains uid)).get?
          line.packageOrUid = none := by
        by_contra hsome
        obtain ⟨uid', hget⟩ := Option.ne_none_iff_exists'.mp hsome
        obtain ⟨hresolve', hne⟩ := hfound uid' hget
        rw [hresolve] at hresolve'
        exact hne ((Option.some.inj hresolve').symm.trans hmax)
      have hparse : (parseLegacyUidToken line.packageOrUid).filter (recordsByUid records).contains = none := by
        rw [Option.filter_eq_none_iff]
        intro uid' hparse hcontains
        have hsame := hreads _ uid' hparse
        rw [hresolve] at hsame
        obtain ⟨record, hrecord⟩ := SortedMap.mem_iff_get?.mp (SortedMap.contains_iff_mem.mp hcontains)
        exact (recordsByUid_spec hrecord).2.2 ((Option.some.inj hsame).symm.trans hmax)
      rw [hnone, hparse]
      simp [Option.filter, hmax]
    -- The token is the one that the state has for the uid.
    · obtain ⟨-, hget⟩ := h.record_of_line hline hresolve hmax
      have hkept := get?_retained.mpr ⟨h.token line hline uid hresolve hmax, SortedMap.mem_of_get? hget⟩
      have hmem := (SortedMap.lookupEntry_eq_some_iff (SortedMap.sorted _)).mp hkept
      have hsome := SortedMap.get?_foldl_insert_of_mem (f := Prod.snd) (g := Prod.fst) (m := ∅) hmem
        fun e he hkey => by
          obtain ⟨hresolve', -⟩ := hentries e.1 e.2 he
          rw [show e.2 = line.packageOrUid from hkey, hresolve] at hresolve'
          exact (Option.some.inj hresolve').symm
      have hfirst : (uidsByToken (tokens.retain fun uid _ => (recordsByUid records).contains uid)).get?
          line.packageOrUid = some uid := hsome
      rw [hfirst, Option.some_or]
      simp [Option.filter, hmax]

end

/-! ## The new file -/

/-- What the text has before lines are appended: the values of the new records
    for the uids that are persisted, and their tokens. -/
structure Persists (resolve : String → Option Nat) (records : List ManagerAppConfigRecord)
    (payload : String) (tokens : SortedMap Nat String) (persistedUids : SortedSet Nat) : Prop where
  line : ∀ line ∈ policyRecords payload, ∀ uid, resolve line.packageOrUid = some uid → uid ≠ u32Max →
    uid ∈ persistedUids ∧ ⟨uid, line.mode, line.permissive⟩ ∈ records
      ∧ tokens.get? uid = some line.packageOrUid
  persisted : ∀ uid ∈ persistedUids, ∃ line ∈ policyRecords payload, resolve line.packageOrUid = some uid
  resolved : ∀ uid token, tokens.get? uid = some token → resolve token = some uid

section
variable {resolve : String → Option Nat} {records : List ManagerAppConfigRecord} {payload : String}
  {tokens : SortedMap Nat String} {persistedUids : SortedSet Nat}

/-- A fresh record has no line yet. -/
theorem mem_freshRecords {record : ManagerAppConfigRecord} :
    record ∈ freshRecords persistedUids records
      ↔ record ∈ records ∧ record.uid ≠ u32Max ∧ record.uid ∉ persistedUids := by
  unfold freshRecords
  rw [List.mem_filter, Bool.not_eq_true', Bool.or_eq_false_iff, decide_eq_false_iff_not,
    decide_eq_false_iff_not]

/-- With the appended lines the file has every record. -/
theorem Persists.reloads (h : Persists resolve records payload tokens persistedUids)
    (hreads : ReadsTokens resolve) (hconsistent : Consistent records)
    (hrange : ∀ record ∈ records, record.InRange) :
    Reloads resolve (some ((freshRecords persistedUids records).foldl appendLine payload)) records
      (((freshRecords persistedUids records).foldl
        (fun tokens record => tokens.insert record.uid (tokenText record.uid)) tokens).retain
          fun uid _ => (recordsByUid records).contains uid) := by
  -- New lines are written with the uid itself as their token, and every start reads that
  -- back.
  have hfresh : ∀ record ∈ freshRecords persistedUids records, record.InRange :=
    fun record hmem => hrange record (mem_freshRecords.mp hmem).1
  have hfile : fileRecords (some ((freshRecords persistedUids records).foldl appendLine payload))
      = policyRecords payload ++ (freshRecords persistedUids records).map canonicalRecord :=
    policyRecords_foldl payload hfresh
  have hcanonical : ∀ record ∈ freshRecords persistedUids records,
      resolve (canonicalRecord record).packageOrUid = some record.uid := fun record hmem =>
    hreads _ _ (parseLegacyUidToken_tokenText (hfresh record hmem).uid)
  have hcontains : ∀ uid mode permissive, (⟨uid, mode, permissive⟩ : ManagerAppConfigRecord) ∈ records →
      uid ≠ u32Max → uid ∈ recordsByUid records := by
    intro uid mode permissive hmem hne
    exact SortedMap.mem_of_get? (recordsByUid_of_mem hconsistent hmem hne)
  -- One goal for each field of the agreement.
  constructor
  · intro record hne
    rw [hfile, List.filterMap_append, List.mem_append, List.mem_filterMap, List.mem_filterMap]
    constructor
    -- A line that was kept, or one that was appended.
    · rintro (⟨line, hline, hread⟩ | ⟨line, hline, hread⟩)
      · obtain ⟨uid, huid, rfl⟩ := Option.map_eq_some_iff.mp hread
        exact (h.line line hline uid huid hne).2.1
      · obtain ⟨fresh, hmem, rfl⟩ := List.mem_map.mp hline
        obtain ⟨uid, huid, rfl⟩ := Option.map_eq_some_iff.mp hread
        rw [hcanonical fresh hmem] at huid
        obtain rfl := Option.some.inj huid
        exact (mem_freshRecords.mp hmem).1
    · intro hmem
      by_cases hpersisted : record.uid ∈ persistedUids
      · -- A line stands for the uid, and it has the values of the record.
        obtain ⟨line, hline, huid⟩ := h.persisted _ hpersisted
        obtain ⟨-, hvalues, -⟩ := h.line line hline _ huid hne
        have hrecord := hconsistent _ hmem _ hvalues hne rfl
        refine .inl ⟨line, hline, ?_⟩
        unfold readRecord
        rw [huid, Option.map_some, ← hrecord]
      · have hnew := mem_freshRecords.mpr ⟨hmem, hne, hpersisted⟩
        refine .inr ⟨canonicalRecord record, List.mem_map_of_mem hnew, ?_⟩
        unfold readRecord
        rw [hcanonical record hnew]
        rfl
  · exact hconsistent
  · exact hrange
  · intro line hline uid huid hne
    rw [hfile] at hline
    rw [get?_retained]
    rcases List.mem_append.mp hline with hold | hnew
    · obtain ⟨hpersisted, hmem, hget⟩ := h.line line hold uid huid hne
      refine ⟨?_, hcontains _ _ _ hmem hne⟩
      rw [SortedMap.get?_foldl_insert]
      have hnone : (freshRecords persistedUids records).reverse.find? (fun e => e.uid = uid) = none := by
        rw [List.find?_eq_none]
        intro e he heq
        obtain rfl : e.uid = uid := of_decide_eq_true heq
        exact (mem_freshRecords.mp (List.mem_reverse.mp he)).2.2 hpersisted
      rw [hnone]
      exact hget
    · obtain ⟨fresh, hmem, rfl⟩ := List.mem_map.mp hnew
      rw [hcanonical fresh hmem] at huid
      obtain rfl := Option.some.inj huid
      refine ⟨?_, hcontains _ _ _ (mem_freshRecords.mp hmem).1 hne⟩
      exact SortedMap.get?_foldl_insert_of_mem hmem fun e he hkey => congrArg tokenText hkey
  · intro uid token hget
    rcases SortedMap.exists_of_get?_foldl_insert (get?_retained.mp hget).1 with ⟨fresh, hmem, rfl, rfl⟩ | hold
    · exact hcanonical fresh hmem
    · exact h.resolved uid token hold

end

/-! ## Rewriting the old file -/

section
variable {resolve : String → Option Nat} {text : String} {records records' : List ManagerAppConfigRecord}
  {tokens : SortedMap Nat String}

/-- The uid of a line. -/
def storedUid (resolve : String → Option Nat) (line : PolicyLine) : Option Nat :=
  line.parsed.bind fun record => (resolve record.packageOrUid).filter (· ≠ u32Max)

theorem storedUid_eq_some {line : PolicyLine} {uid : Nat} (h : storedUid resolve line = some uid) :
    ∃ record, line.parsed = some record ∧ resolve record.packageOrUid = some uid ∧ uid ≠ u32Max := by
  obtain ⟨record, hparsed, hfilter⟩ := Option.bind_eq_some_iff.mp h
  obtain ⟨hresolve, hne⟩ := Option.filter_eq_some_iff.mp hfilter
  exact ⟨record, hparsed, hresolve, of_decide_eq_true hne⟩

/-- What the matching finds. -/
def storedMatches (resolve : String → Option Nat) (lines : List PolicyLine) : List (Nat × Nat × String) :=
  lines.filterMap fun line => do
    let record ← line.parsed
    let uid ← storedUid resolve line
    return (line.index, uid, record.packageOrUid)

/-- The lines that are matched are those with a stored uid. -/
theorem Reloads.lineMatches_eq (h : Reloads resolve (some text) records tokens)
    (hreads : ReadsTokens resolve) :
    lineMatches (uidsByToken (tokens.retain fun uid _ => (recordsByUid records).contains uid))
        (recordsByUid records) (policyLines text) = storedMatches resolve (policyLines text) := by
  unfold lineMatches storedMatches
  refine List.filterMap_congr fun line hmem => ?_
  cases hparsed : line.parsed with
  | none => rfl
  | some record =>
    have hline : record ∈ fileRecords (some text) := by
      show record ∈ policyRecords text
      rw [← filterMap_parsed]
      exact List.mem_filterMap.mpr ⟨line, hmem, hparsed⟩
    have huid := h.lineUid_eq hreads hline
    have hstored : storedUid resolve line = (resolve record.packageOrUid).filter (· ≠ u32Max) := by
      unfold storedUid
      rw [hparsed]
      rfl
    rw [hstored, ← huid]
    rfl

/-- The matches are the lines whose token names a uid. -/
theorem mem_storedMatches {lines : List PolicyLine} {e : Nat × Nat × String} :
    e ∈ storedMatches resolve lines ↔ ∃ line ∈ lines, ∃ record, line.parsed = some record
      ∧ storedUid resolve line = some e.2.1 ∧ e.1 = line.index ∧ e.2.2 = record.packageOrUid := by
  obtain ⟨index, uid, token⟩ := e
  unfold storedMatches
  rw [List.mem_filterMap]
  constructor
  · rintro ⟨line, hmem, hmatch⟩
    obtain ⟨record, hparsed, hmatch⟩ := Option.bind_eq_some_iff.mp hmatch
    obtain ⟨uid', hstored, hmatch⟩ := Option.bind_eq_some_iff.mp hmatch
    obtain ⟨rfl, heq⟩ := Prod.mk.inj (Option.some.inj hmatch)
    obtain ⟨rfl, rfl⟩ := Prod.mk.inj heq
    exact ⟨line, hmem, record, hparsed, hstored, rfl, rfl⟩
  · rintro ⟨line, hmem, record, hparsed, hstored, rfl, rfl⟩
    refine ⟨line, hmem, ?_⟩
    rw [hparsed, hstored]
    rfl

/-- Every line finds its own uid. -/
theorem lineUids_get? {line : PolicyLine} (hmem : line ∈ policyLines text) :
    ((storedMatches resolve (policyLines text)).foldl (fun uids e => uids.insert e.1 e.2.1)
      (∅ : SortedMap Nat Nat)).get? line.index = storedUid resolve line := by
  obtain ⟨-, -, hnodup⟩ := policyLines_spec text
  have hline : ∀ other ∈ policyLines text, other.index = line.index → other = line :=
    fun other hother heq => List.inj_on_of_nodup_map hnodup hother hmem heq
  -- The lines are numbered, so an entry of the number is an entry of the line.
  cases hstored : storedUid resolve line with
  | none =>
    by_contra hsome
    obtain ⟨uid, hget⟩ := Option.ne_none_iff_exists'.mp hsome
    rcases SortedMap.exists_of_get?_foldl_insert hget with ⟨e, he, hkey, -⟩ | hnone
    · obtain ⟨other, hother, -, -, hother', hindex, -⟩ := mem_storedMatches.mp he
      obtain rfl := hline other hother (hindex.symm.trans hkey)
      rw [hstored] at hother'
      cases hother'
    · cases hnone
  | some uid =>
    obtain ⟨record, hparsed, -, -⟩ := storedUid_eq_some hstored
    have hentry : (line.index, uid, record.packageOrUid) ∈ storedMatches resolve (policyLines text) :=
      mem_storedMatches.mpr ⟨line, hmem, record, hparsed, hstored, rfl, rfl⟩
    refine @SortedMap.get?_foldl_insert_of_mem Nat Nat _ _ Prod.fst (fun e => e.2.1) _ ∅ _ hentry
      fun e he hkey => ?_
    obtain ⟨other, hother, -, -, hother', hindex, -⟩ := mem_storedMatches.mp he
    obtain rfl := hline other hother (hindex.symm.trans hkey)
    exact Option.some.inj (hother'.symm.trans hstored)

theorem mem_policyRecords {record : LegacyPolicyRecord} :
    record ∈ policyRecords text ↔ ∃ line ∈ policyLines text, line.parsed = some record := by
  rw [← filterMap_parsed, List.mem_filterMap]

section
variable (h : Reloads resolve (some text) records tokens) (hconsistent : Consistent records')
  (hkeeps : ∀ record ∈ records, ∃ r ∈ records', r.uid = record.uid)
  {lineUids : SortedMap Nat Nat}
  (huids : ∀ line ∈ policyLines text, lineUids.get? line.index = storedUid resolve line)

include h huids

/-- The rewriting of the file and the records in memory agree on every line. -/
theorem Reloads.agreesWith {line : PolicyLine} (hmem : line ∈ policyLines text) :
    AgreesWith (recordsByUid records) lineUids line := by
  intro parsed uid previous hparsed huid hprevious
  rw [huids line hmem] at huid
  obtain ⟨record, hrecord, hresolve, hne⟩ := storedUid_eq_some huid
  obtain rfl := Option.some.inj (hparsed.symm.trans hrecord)
  obtain ⟨-, hget⟩ := h.record_of_line (mem_policyRecords.mpr ⟨line, hmem, hparsed⟩) hresolve hne
  rw [hget] at hprevious
  obtain rfl := Option.some.inj hprevious
  exact ⟨rfl, rfl⟩

include hconsistent hkeeps

/-- A line with a stored uid gets the values of the new record; the others stay. -/
theorem Reloads.rewrittenRecord_eq {line : PolicyLine} (hmem : line ∈ policyLines text)
    {record : LegacyPolicyRecord} (hparsed : line.parsed = some record) :
    (storedUid resolve line = none ∧ rewrittenRecord (recordsByUid records') (recordsByUid records) lineUids
      line = some record)
    ∨ ∃ uid r, storedUid resolve line = some uid ∧ r ∈ records' ∧ r.uid = uid
      ∧ rewrittenRecord (recordsByUid records') (recordsByUid records) lineUids line
        = some ⟨record.packageOrUid, r.mode, r.permissive⟩ := by
  unfold rewrittenRecord
  rw [hparsed, huids line hmem, Option.map_some]
  cases hstored : storedUid resolve line with
  | none => exact .inl ⟨rfl, rfl⟩
  | some uid =>
    obtain ⟨record', hrecord, hresolve, hne⟩ := storedUid_eq_some hstored
    obtain rfl := Option.some.inj (hparsed.symm.trans hrecord)
    obtain ⟨hold, hget⟩ := h.record_of_line (mem_policyRecords.mpr ⟨line, hmem, hparsed⟩) hresolve hne
    obtain ⟨r, hr, huid⟩ := hkeeps _ hold
    have hcurrent := recordsByUid_of_mem hconsistent hr (by rw [huid]; exact hne)
    rw [huid] at hcurrent
    refine .inr ⟨uid, r, rfl, hr, huid, ?_⟩
    dsimp only
    rw [hget]
    dsimp only
    rw [hcurrent]
    rfl

/-- The rewritten text persists the uids of its lines. -/
theorem Reloads.persists (hrange : ∀ record ∈ records', record.InRange) :
    Persists resolve records'
      (String.join ((policyLines text).map (newText (recordsByUid records') (recordsByUid records) lineUids)))
      ((storedMatches resolve (policyLines text)).foldl (fun tokens e => tokens.insert e.2.1 e.2.2)
        (tokens.retain fun uid _ => (recordsByUid records).contains uid))
      (((policyLines text).filterMap (keptUid (recordsByUid records) lineUids)).foldl
        (fun uids uid => uids.insert uid ()) ∅) := by
  -- The text that is written, read back, is the old lines with their new values.
  have hrewritten := @policyRecords_rewritten (recordsByUid records') (recordsByUid records) lineUids text
    (fun line hmem => h.agreesWith huids hmem)
    fun uid record hget => hrange record (recordsByUid_spec hget).1
  -- The lines that are kept are those whose token names a uid.
  have hkept : ∀ line ∈ policyLines text, keptUid (recordsByUid records) lineUids line
      = storedUid resolve line := by
    intro line hmem
    unfold keptUid
    rw [huids line hmem]
    cases hstored : storedUid resolve line with
    | none =>
      cases line.parsed with
      | none => rfl
      | some record => rfl
    | some uid =>
      obtain ⟨record, hparsed, hresolve, hne⟩ := storedUid_eq_some hstored
      obtain ⟨-, hget⟩ := h.record_of_line (mem_policyRecords.mpr ⟨line, hmem, hparsed⟩) hresolve hne
      rw [hparsed]
      simp [hget]
  rw [List.filterMap_congr hkept]
  -- A line that is read back was not stored before, or has the value of its record.
  constructor
  · intro line' hline' uid hresolve hne
    rw [hrewritten] at hline'
    obtain ⟨line, hmem, hrecord⟩ := List.mem_filterMap.mp hline'
    obtain ⟨record, hparsed, -⟩ := Option.map_eq_some_iff.mp hrecord
    rcases h.rewrittenRecord_eq hconsistent hkeeps huids hmem hparsed with
      ⟨hnone, hsame⟩ | ⟨uid', r, hstored, hr, huid, hsame⟩
    · -- The line has no uid that is stored, and it stayed.
      rw [hsame] at hrecord
      obtain rfl := Option.some.inj hrecord
      unfold storedUid at hnone
      rw [hparsed, Option.bind_some, hresolve] at hnone
      simp [Option.filter, hne] at hnone
    · rw [hsame] at hrecord
      obtain rfl := Option.some.inj hrecord
      obtain ⟨record', hrecord', hresolve', -⟩ := storedUid_eq_some hstored
      obtain rfl := Option.some.inj (hparsed.symm.trans hrecord')
      obtain rfl : uid' = uid := Option.some.inj (hresolve'.symm.trans hresolve)
      refine ⟨?_, ?_, ?_⟩
      · rw [SortedMap.mem_foldl_insert]
        exact .inl (List.mem_filterMap.mpr ⟨line, hmem, hstored⟩)
      · subst huid
        exact hr
      · -- All lines of the uid have the token of the state.
        have hentry : (line.index, uid', record.packageOrUid) ∈ storedMatches resolve (policyLines text) :=
          mem_storedMatches.mpr ⟨line, hmem, record, hparsed, hstored, rfl, rfl⟩
        refine SortedMap.get?_foldl_insert_of_mem (f := fun e => e.2.1) (g := fun e => e.2.2) hentry
          fun e he hkey => ?_
        obtain ⟨other, hother, record', hparsed', hstored', -, htoken⟩ := mem_storedMatches.mp he
        obtain ⟨record'', hrecord'', hresolve'', hne''⟩ := storedUid_eq_some hstored'
        obtain rfl := Option.some.inj (hparsed'.symm.trans hrecord'')
        have hget' := h.token record' (mem_policyRecords.mpr ⟨other, hother, hparsed'⟩) _ hresolve'' hne''
        have hget := h.token record (mem_policyRecords.mpr ⟨line, hmem, hparsed⟩) _ hresolve hne
        have hkey' : e.2.1 = uid' := hkey
        rw [hkey', hget] at hget'
        exact htoken.trans (Option.some.inj hget').symm
  · intro uid hpersisted
    rcases SortedMap.mem_foldl_insert.mp hpersisted with hmem | hnone
    · obtain ⟨line, hline, hstored⟩ := List.mem_filterMap.mp hmem
      obtain ⟨record, hparsed, hresolve, -⟩ := storedUid_eq_some hstored
      rcases h.rewrittenRecord_eq hconsistent hkeeps huids hline hparsed with
        ⟨hnone, -⟩ | ⟨uid', r, -, -, -, hsame⟩
      · rw [hstored] at hnone
        cases hnone
      · rw [hrewritten]
        exact ⟨_, List.mem_filterMap.mpr ⟨line, hline, hsame⟩, hresolve⟩
    · exact absurd hnone (SortedMap.not_mem_empty uid)
  · intro uid token hget
    rcases SortedMap.exists_of_get?_foldl_insert hget with ⟨e, he, rfl, rfl⟩ | hold
    · obtain ⟨line, -, record, hparsed, hstored, -, htoken⟩ := mem_storedMatches.mp he
      obtain ⟨record', hrecord', hresolve, -⟩ := storedUid_eq_some hstored
      obtain rfl := Option.some.inj (hparsed.symm.trans hrecord')
      rw [htoken]
      exact hresolve
    · exact h.resolved uid token (get?_retained.mp hold).1

end

end

/-! ## One request -/

section
variable {resolve : String → Option Nat} {text : Option String} {state : ReadOnlyState}
  {records' : List ManagerAppConfigRecord} {file : Option Bytes} {payload : String}
  {tokens' : SortedMap Nat String}

theorem persists_nil (h : Reloads resolve text state.appConfig state.appConfigSourceTokens) :
    Persists resolve records' "" (retainedSourceTokens state state.appConfig) ∅ where
  line _ hline := by cases hline
  persisted uid hmem := absurd hmem (SortedMap.not_mem_empty uid)
  resolved uid token hget := h.resolved uid token (get?_retained.mp hget).1

/-- Every record in memory has its line, so that none is left to be matched by position. -/
theorem Reloads.remaining_eq_nil {text : String}
    (h : Reloads resolve (some text) state.appConfig state.appConfigSourceTokens)
    {matchedUids : SortedSet Nat}
    (hmatched : ∀ line ∈ policyLines text, ∀ uid, storedUid resolve line = some uid → uid ∈ matchedUids) :
    state.appConfig.filter (fun record => record.uid ≠ u32Max && !matchedUids.contains record.uid) = [] := by
  rw [List.filter_eq_nil_iff]
  intro record hmem hkeep
  rw [Bool.and_eq_true, decide_eq_true_eq, Bool.not_eq_true'] at hkeep
  obtain ⟨hne, hunmatched⟩ := hkeep
  obtain ⟨line', hline', hread⟩ := List.mem_filterMap.mp ((h.same record hne).mpr hmem)
  obtain ⟨uid, hresolve, rfl⟩ := Option.map_eq_some_iff.mp hread
  obtain ⟨line, hline, hparsed⟩ := mem_policyRecords.mp hline'
  have hstored : storedUid resolve line = some uid := by
    unfold storedUid
    rw [hparsed, Option.bind_some, hresolve]
    simpa [Option.filter] using hne
  have hcontains := SortedMap.contains_iff_mem.mpr (hmatched line hline uid hstored)
  rw [hcontains] at hunmatched
  cases hunmatched

theorem Reloads.render (h : Reloads resolve text state.appConfig state.appConfigSourceTokens)
    (hreads : ReadsTokens resolve) (hfile : file.bind Utf8.decodeStrict = text)
    (hconsistent : Consistent records') (hrange : ∀ record ∈ records', record.InRange)
    (hkeeps : ∀ record ∈ state.appConfig, ∃ r ∈ records', r.uid = record.uid)
    (hrender : renderAppConfig state state.appConfig records' file = .ok (payload, tokens')) :
    Reloads resolve (some payload) records'
      (tokens'.retain fun uid _ => (recordsByUid records').contains uid) := by
  unfold renderAppConfig at hrender
  dsimp only at hrender
  cases file with
  | none =>
    have happend := Except.ok.inj hrender
    rw [appendRecords_eq] at happend
    obtain ⟨rfl, rfl⟩ := Prod.mk.inj happend
    exact (persists_nil h).reloads hreads hconsistent hrange
  | some previousFile =>
    dsimp only at hrender
    cases hdecode : Utf8.decodeStrict previousFile with
    | none =>
      rw [hdecode] at hrender
      cases hrender
    | some previousText =>
      rw [Option.bind_some, hdecode] at hfile
      subst hfile
      rw [hdecode] at hrender
      dsimp only at hrender
      have hmatches := h.lineMatches_eq hreads
      have huids : ∀ line ∈ policyLines previousText, _ = storedUid resolve line :=
        fun line hmem => lineUids_get? hmem
      have hmatched : ∀ line ∈ policyLines previousText, ∀ uid, storedUid resolve line = some uid →
          uid ∈ (storedMatches resolve (policyLines previousText)).foldl
            (fun uids e => uids.insert e.2.1 ()) (∅ : SortedSet Nat) := by
        intro line hmem uid hstored
        obtain ⟨record, hparsed, -⟩ := storedUid_eq_some hstored
        have hentry : (line.index, uid, record.packageOrUid)
            ∈ storedMatches resolve (policyLines previousText) :=
          mem_storedMatches.mpr ⟨line, hmem, record, hparsed, hstored, rfl, rfl⟩
        exact SortedMap.mem_of_get? (@SortedMap.get?_foldl_insert_of_mem Nat Unit _ _ (fun e => e.2.1)
          (fun _ => ()) _ ∅ (line.index, uid, record.packageOrUid) hentry fun _ _ _ => rfl)
      have hremaining := h.remaining_eq_nil hmatched
      have hpersists := h.persists hconsistent hkeeps huids hrange
      generalize hfound : matchByToken _ _ _ _ = found at hrender
      have heq : found = { lineUids := _, matchedUids := _, sourceTokens := _ } :=
        hfound.symm.trans ((matchByToken_eq (uidsByToken (retainedSourceTokens state state.appConfig))
          (recordsByUid state.appConfig) (policyLines previousText) _).trans
            ((congrArg (fun l => List.foldl _ _ l) hmatches).trans (foldl_add _ _)))
      subst heq
      dsimp only at hrender
      rw [hremaining, List.map_nil, matchByPosition_nil, ite_self] at hrender
      dsimp only at hrender
      rw [rewriteLines_eq, String.empty_append] at hrender
      have happend := Except.ok.inj hrender
      rw [appendRecords_eq] at happend
      obtain ⟨rfl, rfl⟩ := Prod.mk.inj happend
      exact hpersists.reloads hreads hconsistent hrange

/-- What is stored is read back. -/
theorem Reloads.stored {bytes : Bytes}
    (h : Reloads resolve text state.appConfig state.appConfigSourceTokens)
    (hreads : ReadsTokens resolve) (hfile : file.bind Utf8.decodeStrict = text)
    (hconsistent : Consistent records') (hrange : ∀ record ∈ records', record.InRange)
    (hkeeps : ∀ record ∈ state.appConfig, ∃ r ∈ records', r.uid = record.uid)
    (hstored : persistedConfig state records' file = .ok (tokens', bytes)) :
    Reloads resolve (Utf8.decodeStrict bytes) records' tokens' := by
  have hrendered : ∀ f : String × SortedMap Nat String → SortedMap Nat String × Bytes,
      (∀ rendered, f rendered = (rendered.2.retain fun uid _ => (recordsByUid records').contains uid,
        utf8Bytes rendered.1)) →
      (renderAppConfig state state.appConfig records' file).map f = .ok (tokens', bytes) →
      Reloads resolve (Utf8.decodeStrict bytes) records' tokens' := by
    intro f hf hmap
    cases hrender : renderAppConfig state state.appConfig records' file with
    | error error =>
      rw [hrender] at hmap
      cases hmap
    | ok rendered =>
      obtain ⟨payload, tokens⟩ := rendered
      rw [hrender] at hmap
      obtain ⟨rfl, rfl⟩ := Prod.mk.inj ((hf _).symm.trans (Except.ok.inj hmap))
      have hdecode : Utf8.decodeStrict (utf8Bytes payload) = some payload := Utf8.decodeStrict_encode payload
      rw [hdecode]
      exact h.render hreads hfile hconsistent hrange hkeeps hrender
  unfold persistedConfig at hstored
  cases file with
  | none => exact hrendered _ (fun _ => rfl) hstored
  | some previous =>
    dsimp only at hstored
    split at hstored
    · next hsame =>
      -- No record changes, and the file stays as it was.
      obtain ⟨rfl, rfl⟩ := Prod.mk.inj (Except.ok.inj hstored)
      rw [Option.bind_some] at hfile
      rw [hfile, hsame]
      exact h.retain
    · exact hrendered _ (fun _ => rfl) hstored

end

/-- The records of a payload are in the range of their types. -/
theorem inRange_of_decodeAppConfig {payload : Bytes} {records : List ManagerAppConfigRecord}
    (h : decodeAppConfig payload = .ok records) : ∀ record ∈ records, record.InRange := by
  have hword : ∀ a b c d : UInt8, u32FromLeBytes a b c d < 2 ^ 32 := by
    intro a b c d
    have ha := a.toNat_lt
    have hb := b.toNat_lt
    have hc := c.toNat_lt
    have hd := d.toNat_lt
    unfold u32FromLeBytes
    omega
  induction payload using decodeAppConfig.induct generalizing records with
  | case1 =>
    obtain rfl := Except.ok.inj h
    exact nofun
  | case2 u₀ u₁ u₂ u₃ m₀ m₁ m₂ m₃ p₀ p₁ p₂ p₃ rest ih =>
    rw [decodeAppConfig] at h
    cases hrest : decodeAppConfig rest with
    | error error =>
      rw [hrest] at h
      cases h
    | ok tail =>
      rw [hrest] at h
      obtain rfl := Except.ok.inj h
      intro record hmem
      rcases List.mem_cons.mp hmem with rfl | hmem
      · have hmode := hword m₀ m₁ m₂ m₃
        refine ⟨hword u₀ u₁ u₂ u₃, ?_⟩
        show -2 ^ 31 ≤ i32FromLeBytes m₀ m₁ m₂ m₃ ∧ i32FromLeBytes m₀ m₁ m₂ m₃ < 2 ^ 31
        unfold i32FromLeBytes
        dsimp only
        split
        · omega
        · omega
      · exact ih hrest record hmem
  | case3 rest _ _ =>
    rw [decodeAppConfig] at h
    · cases h
    all_goals assumption

section
variable {state state' : ReadOnlyState} {fs fs' : ConfigFiles} {t : ManagerTrace} {payload : Bytes}

/-- A request that succeeds leaves the source tokens of what it stored. -/
theorem setAppConfig_tokens
    (h : Exec (setAppConfig state payload) t (.ok (utf8Bytes "success"), state')) (hfs : FilesRun fs t fs') :
    ∃ records sourceTokens bytes, RequestedConfig state fs payload records sourceTokens bytes
      ∧ state'.appConfigSourceTokens = sourceTokens := by
  unfold setAppConfig at h
  dsimp only at h
  cases hprevious : encodeXposedConfigPayload state.settings (encodeAppConfig state.appConfig) with
  | error error =>
    rw [hprevious] at h
    cases (exec_pure.mp h).2
  | ok previousXposedPayload =>
    rw [hprevious] at h
    dsimp only at h
    cases hrequested : decodeAppConfig payload with
    | error error =>
      rw [hrequested] at h
      cases (exec_pure.mp h).2
    | ok requested =>
      rw [hrequested] at h
      dsimp only at h
      generalize hrecords : mergeAppConfigRecords state.appConfig requested = records at h
      cases hxposed : encodeXposedConfigPayload state.settings (encodeAppConfig records) with
      | error error =>
        rw [hxposed] at h
        cases (exec_pure.mp h).2
      | ok xposedPayload =>
        rw [hxposed] at h
        dsimp only at h
        obtain ⟨t₁, t₂, existing, rfl, h₁, h₂⟩ := exec_bind.mp h
        obtain ⟨fs₁, hfs₁, hfs₂⟩ := FileRun.append_iff.mp hfs
        cases hpath : state.appConfigPath with
        | none =>
          rw [hpath] at h₁
          obtain ⟨rfl, rfl⟩ := exec_pure.mp h₁
          cases (exec_pure.mp h₂).2
        | some path =>
          rw [hpath] at h₁
          obtain ⟨rfl, -, hfile⟩ := readExistingFile_effect h₁ hfs₁
          cases existing with
          | error error => cases (exec_pure.mp h₂).2
          | ok previousFile =>
            dsimp only at h₂
            have hbefore := hfile previousFile rfl
            have hbytes : appConfigBytes state fs₁ = previousFile := by
              rw [appConfigBytes, hpath]
              exact hbefore
            obtain ⟨t₃, t₄, persisted, rfl, h₃, h₄⟩ := exec_bind.mp h₂
            obtain ⟨fs₂, hfs₃, hfs₄⟩ := FileRun.append_iff.mp hfs₂
            obtain ⟨-, heffect⟩ := persistAppConfig_effect hpath hbefore h₃ hfs₃
            cases persisted with
            | error error => cases (exec_pure.mp h₄).2
            | ok outcome =>
              cases outcome with
              | committedButUnconfirmed sourceTokens =>
                obtain ⟨t₅, t₆, state₁, -, -, h₆⟩ := exec_bind.mp h₄
                have hreply := congrArg Prod.fst (exec_pure.mp h₆).2
                exact absurd (utf8Bytes_inj (Except.ok.inj hreply)) (by decide)
              | durable sourceTokens =>
                obtain ⟨bytes, hstored, -, hwritten⟩ := heffect
                rcases finishAppConfig_effect hpath hwritten h₄ hfs₄ with
                  ⟨-, -, -, -, -, htokens, -, -⟩ | ⟨hr, -⟩
                · exact ⟨records, sourceTokens, bytes,
                    ⟨⟨requested, hrequested, hrecords.symm⟩, by rw [hbytes, hstored]⟩, htokens⟩
                · exact absurd rfl hr

/-- Memory and file are as before, or both as requested. -/
theorem setAppConfig_outcome {r : Except DaemonError Bytes}
    (h : Exec (setAppConfig state payload) t (r, state')) (hfs : FilesRun fs t fs')
    (hrestore : ¬ RestoreFails t) (hread : ¬ ReadBackFails t) :
    SameConfig state state' ∧ appConfigBytes state fs' = appConfigBytes state fs
      ∨ ∃ records sourceTokens bytes, RequestedConfig state fs payload records sourceTokens bytes
        ∧ appConfigBytes state fs' = some bytes ∧ state'.appConfig = records
        ∧ state'.appConfigSourceTokens = sourceTokens := by
  have hatomic := setAppConfig_atomic h hfs hrestore hread
  by_cases hr : r = .ok (utf8Bytes "success")
  · right
    obtain ⟨records, sourceTokens, bytes, -, hrequested, hbytes, -, hconfig, -⟩ := hatomic.success hr
    subst hr
    obtain ⟨records₁, sourceTokens₁, bytes₁, hrequested₁, htokens⟩ := setAppConfig_tokens h hfs
    obtain ⟨⟨requested, hdecode, rfl⟩, hstored⟩ := hrequested
    obtain ⟨⟨requested₁, hdecode₁, rfl⟩, hstored₁⟩ := hrequested₁
    obtain rfl := Except.ok.inj (hdecode.symm.trans hdecode₁)
    obtain ⟨rfl, rfl⟩ := Prod.mk.inj (Except.ok.inj (hstored.symm.trans hstored₁))
    exact ⟨_, _, _, ⟨⟨requested, hdecode, rfl⟩, hstored⟩, hbytes, hconfig, htokens⟩
  · rcases hatomic.together hr with hsame | ⟨records, sourceTokens, bytes, hrequested, hbytes, -, hconfig, htokens⟩
    · exact .inl hsame
    · exact .inr ⟨records, sourceTokens, bytes, hrequested, hbytes, hconfig, htokens⟩

end

/-! ## Any run of requests -/

section
variable {state state' : ReadOnlyState} {fs fs' : ConfigFiles} {t : ManagerTrace} {path : String}

/-- The call does not write the file. -/
def Spares (path : String) (call : ManagerCall) : Prop :=
  ∀ event, fileView call = some event → ¬ event.query.Touches (.target path)

theorem WriteCall.spares {call : ManagerCall} {written : String} (h : WriteCall written call)
    (hne : written ≠ path) : Spares path call := by
  intro event hevent
  cases h with
  | syncParent answer => cases hevent
  | _ =>
    obtain rfl := Option.some.inj hevent
    simp [FileOp.Touches, hne]

/-- A call that is no file operation writes nothing. -/
theorem spares_of_none {call : ManagerCall} (h : fileView call = none) : Spares path call := by
  intro event hevent
  rw [h] at hevent
  cases hevent

theorem atomicWrite_spares {written : String} {payload : Bytes} (hne : written ≠ path) :
    Calls (Spares path) (atomicWrite written payload) :=
  fun _ _ h call hcall => (atomicWrite_calls h call hcall).spares hne

theorem appendLegacyLogMessage_spares {message : String} :
    Calls (Spares path) (appendLegacyLogMessage state message) := by
  intro t r h call hcall
  obtain ⟨nowMs, rfl, -⟩ := appendLegacyLogMessage_spec h
  obtain rfl := List.mem_singleton.mp hcall
  exact spares_of_none rfl

/-- A change of a setting writes the settings file, which is another one. -/
theorem setSettingsVar_spares {payload : Bytes} (hne : state.settingsPath ≠ some path) :
    Calls (Spares path) (setSettingsVar state payload) := by
  unfold setSettingsVar
  split
  · split
    · exact calls_pure
    · dsimp only
      split
      · exact calls_pure
      · next written hwritten =>
        have hother : written ≠ path := fun heq => hne (by rw [hwritten, heq])
        refine calls_bind (atomicWrite_spares hother) fun result => ?_
        split
        · exact calls_pure
        · refine calls_bind ?_ fun persisted => calls_pure
          refine calls_ask_bind (fun answer => ?_) fun answer => ?_
          · intro event hevent
            obtain rfl := Option.some.inj hevent
            exact id
          · split
            · exact calls_pure
            · exact calls_pure
  · exact calls_pure

/-- A change of a setting keeps the records, on all its ways out. -/
theorem setSettingsVar_records {payload : Bytes} {response : String}
    (h : Exec (setSettingsVar state payload) t (response, state')) :
    state'.appConfig = state.appConfig ∧ state'.appConfigSourceTokens = state.appConfigSourceTokens := by
  unfold setSettingsVar at h
  split at h
  · split at h
    · obtain ⟨-, heq⟩ := exec_pure.mp h
      obtain ⟨-, rfl⟩ := Prod.mk.inj heq
      exact ⟨rfl, rfl⟩
    · dsimp only at h
      split at h
      · obtain ⟨-, heq⟩ := exec_pure.mp h
        obtain ⟨-, rfl⟩ := Prod.mk.inj heq
        exact ⟨rfl, rfl⟩
      · obtain ⟨t₁, t₂, written, -, -, h₂⟩ := exec_bind.mp h
        match written with
        | .ok () =>
          obtain ⟨-, heq⟩ := exec_pure.mp h₂
          obtain ⟨-, rfl⟩ := Prod.mk.inj heq
          exact ⟨commitSettings_appConfig _ _, commitSettings_sourceTokens _ _⟩
        -- The write failed, and the setting is taken if the file has it all the same.
        | .error error =>
          obtain ⟨t₃, t₄, persisted, -, -, h₄⟩ := exec_bind.mp h₂
          obtain ⟨-, heq⟩ := exec_pure.mp h₄
          obtain ⟨-, rfl⟩ := Prod.mk.inj heq
          cases persisted with
          | true => exact ⟨commitSettings_appConfig _ _, commitSettings_sourceTokens _ _⟩
          | false => exact ⟨rfl, rfl⟩
  · obtain ⟨-, heq⟩ := exec_pure.mp h
    obtain ⟨-, rfl⟩ := Prod.mk.inj heq
    exact ⟨rfl, rfl⟩

/-- No other request writes the policy file. -/
theorem handleManagerCommand_spares {frame : ManagerFrame} (hframe : frame.command ≠ .setAppCfg)
    (hsettings : state.settingsPath ≠ some path) (hlabels : state.appLabelPath ≠ some path) :
    Calls (Spares path) (handleManagerCommand frame state) := by
  obtain ⟨command, payload⟩ := frame
  have hlog : ∀ {state message}, Calls (Spares path) (appendLegacyLogMessage state message) :=
    appendLegacyLogMessage_spares
  unfold handleManagerCommand
  -- Only a few requests write at all, and they write files of their own.
  cases command with
  | setAppCfg => exact absurd rfl hframe
  | setSettingsVar =>
    refine calls_bind (setSettingsVar_spares hsettings) fun answer => calls_bind ?_ fun _ => calls_pure
    unfold logSettingsResponse
    split
    · exact hlog
    · exact hlog
  | setAppLabel =>
    show Calls (Spares path) (setAppLabel state payload)
    unfold setAppLabel
    split
    · exact calls_pure
    · next written hwritten =>
      have hother : written ≠ path := fun heq => hlabels (by rw [hwritten, heq])
      refine calls_bind (atomicWrite_spares hother) fun result => ?_
      split
      · exact calls_pure
      · exact calls_bind hlog fun _ => calls_pure
  | getUidTime =>
    refine calls_ask_bind (fun _ => spares_of_none rfl) fun _ => ?_
    dsimp only
    split
    · exact calls_pure
    · exact calls_pure
  | getRealTimeInfo => exact calls_ask_bind (fun _ => spares_of_none rfl) fun _ => calls_pure
  | clearLog => exact calls_ask_bind (fun _ => spares_of_none rfl) fun _ => calls_pure
  | getProcState =>
    exact calls_bind hlog fun _ => calls_ask_bind (fun _ => spares_of_none rfl) fun _ => calls_pure
  | getLog =>
    exact calls_bind (calls_ask_bind (fun _ => spares_of_none rfl) fun _ => calls_pure) fun _ => calls_pure
  | getFreezeStatus => exact calls_pure
  | _ => exact calls_bind calls_pure fun _ => calls_pure

/-- Only `SetAppCfg` changes the records and their tokens. -/
theorem handleManagerCommand_records {frame : ManagerFrame} {r : Except DaemonError Bytes}
    (hframe : frame.command ≠ .setAppCfg) (h : Exec (handleManagerCommand frame state) t (r, state')) :
    state'.appConfig = state.appConfig ∧ state'.appConfigSourceTokens = state.appConfigSourceTokens := by
  have hkeeps := (handleManagerCommand_effect h).policy
  obtain ⟨command, payload⟩ := frame
  by_cases hmutation : isPolicyMutationCommand command = false
  · exact ⟨(hkeeps hmutation).config.appConfig, (hkeeps hmutation).config.sourceTokens⟩
  · have hsettings : command = .setSettingsVar := by
      cases command with
      | setAppCfg => exact absurd rfl hframe
      | setSettingsVar => rfl
      | _ => exact absurd rfl hmutation
    subst hsettings
    unfold handleManagerCommand at h
    obtain ⟨t₁, t₂, ⟨response, state₁⟩, rfl, h₁, h₂⟩ := exec_bind.mp h
    obtain ⟨t₃, t₄, state₂, rfl, h₃, h₄⟩ := exec_bind.mp h₂
    obtain ⟨-, heq⟩ := exec_pure.mp h₄
    obtain ⟨-, rfl⟩ := Prod.mk.inj heq
    obtain ⟨hsame, -⟩ := logSettingsResponse_spec h₃
    have hset : state₁.appConfig = state.appConfig
        ∧ state₁.appConfigSourceTokens = state.appConfigSourceTokens := setSettingsVar_records h₁
    exact ⟨hsame.appConfig.trans hset.1, hsame.sourceTokens.trans hset.2⟩

end

/-- What a daemon has found at its start: a name stands for one uid, no name
    reads as the uid of another package, and a uid has one line. -/
structure PolicyInput (text : Option String) (packageRecords : List PackageRecord) : Prop where
  names : ∀ r ∈ packageRecords, ∀ r' ∈ packageRecords, r.packageName = r'.packageName → r.uid = r'.uid
  uids  : ∀ r ∈ packageRecords, r.uid < 2 ^ 32
  reads : ReadsTokens (resolveUid packageRecords)
  lines : ∀ line ∈ fileRecords text, ∀ line' ∈ fileRecords text, ∀ uid,
    resolveUid packageRecords line.packageOrUid = some uid →
    resolveUid packageRecords line'.packageOrUid = some uid → uid ≠ u32Max → line = line'

section
variable {text : Option String} {packageRecords : List PackageRecord} {state state' : ReadOnlyState}
  {fs fs' : ConfigFiles} {t : ManagerTrace}

/-- The first package of a name has the uid of the last. -/
theorem packageUids_get? (h : ∀ r ∈ packageRecords, ∀ r' ∈ packageRecords,
      r.packageName = r'.packageName → r.uid = r'.uid) (name : String) :
    (packageRecords.find? fun record => record.packageName = name).map PackageRecord.uid
      = (packageUids packageRecords).get? name := by
  cases hfound : packageRecords.find? fun record => record.packageName = name with
  | none =>
    have hnone := List.find?_eq_none.mp hfound
    cases hget : (packageUids packageRecords).get? name with
    | none => rfl
    | some uid =>
      rcases SortedMap.exists_of_get?_foldl_insert hget with ⟨r, hmem, hkey, -⟩ | hempty
      · exact absurd (decide_eq_true hkey) (hnone r hmem)
      · cases hempty
  | some record =>
    have hname : record.packageName = name := by simpa using List.find?_some hfound
    have hmem := List.mem_of_find?_eq_some hfound
    subst hname
    exact (SortedMap.get?_foldl_insert_of_mem hmem fun r hr hkey => h r hr record hmem hkey).symm

theorem parseUnsigned_lt {bound n : Nat} {token : String} (h : Text.parseUnsigned bound token = some n) :
    n < bound := by
  unfold Text.parseUnsigned at h
  exact of_decide_eq_true (Option.filter_eq_some_iff.mp h).2

/-- A token that reads as a uid fits into 32 bits. -/
theorem parseLegacyUidToken_lt {token : String} {uid : Nat} (h : parseLegacyUidToken token = some uid) :
    uid < 2 ^ 32 := by
  have htarget : parseLegacyPolicyTarget token = some (.uid uid) := by
    unfold parseLegacyUidToken at h
    split at h
    · next hfound =>
      obtain rfl := Option.some.inj h
      exact hfound
    all_goals cases h
  -- A plain number, or the doubled form `<uid>uid<uid>`.
  unfold parseLegacyPolicyTarget at htarget
  dsimp only at htarget
  split at htarget
  · cases htarget
  · split at htarget
    · next hnumber =>
      obtain ⟨rfl⟩ := LegacyPolicyTarget.uid.inj (Option.some.inj htarget)
      exact parseUnsigned_lt hnumber
    · split at htarget
      · cases htarget
      · split at htarget
        · cases htarget
        · obtain ⟨legacyUid, hlegacy, hencoded⟩ := Option.bind_eq_some_iff.mp htarget
          obtain ⟨encodedUid, -, hsame⟩ := Option.bind_eq_some_iff.mp hencoded
          split at hsame
          · obtain ⟨rfl⟩ := LegacyPolicyTarget.uid.inj (Option.some.inj hsame)
            exact parseUnsigned_lt hlegacy
          · cases hsame

/-- So every uid that a line stands for fits, whether it is named by a package or by a
    number. -/
theorem PolicyInput.resolved_lt (h : PolicyInput text packageRecords) {token : String} {uid : Nat}
    (huid : resolveUid packageRecords token = some uid) : uid < 2 ^ 32 := by
  rcases Option.or_eq_some_iff.mp huid with hpackage | ⟨-, hparse⟩
  · rcases SortedMap.exists_of_get?_foldl_insert hpackage with ⟨r, hmem, -, rfl⟩ | hempty
    · exact h.uids r hmem
    · cases hempty
  · exact parseLegacyUidToken_lt hparse

/-- The tokens that the lines of a file give. -/
def lineTokens (resolve : String → Option Nat) (lines : List LegacyPolicyRecord) : List (Nat × String) :=
  lines.filterMap fun line => (resolve line.packageOrUid).map fun uid => (uid, line.packageOrUid)

theorem mem_lineTokens {resolve : String → Option Nat} {lines : List LegacyPolicyRecord} {e : Nat × String} :
    e ∈ lineTokens resolve lines
      ↔ ∃ line ∈ lines, resolve line.packageOrUid = some e.1 ∧ line.packageOrUid = e.2 := by
  unfold lineTokens
  rw [List.mem_filterMap]
  constructor
  · rintro ⟨line, hline, heq⟩
    obtain ⟨uid, hresolve, rfl⟩ := Option.map_eq_some_iff.mp heq
    exact ⟨line, hline, hresolve, rfl⟩
  · rintro ⟨line, hline, hresolve, htoken⟩
    exact ⟨line, hline, by rw [hresolve, htoken]; rfl⟩

/-- The tokens that the start remembers are those of the lines, the last line of a uid
    winning. -/
theorem sourceTokensFromLegacyConfig_eq (h : PolicyInput text packageRecords) :
    sourceTokensFromLegacyConfig text (fun packageName =>
        (packageRecords.find? fun record => record.packageName = packageName).map PackageRecord.uid)
      = (lineTokens (resolveUid packageRecords) (fileRecords text)).foldl
          (fun tokens entry => tokens.insert entry.1 entry.2) ∅ := by
  unfold sourceTokensFromLegacyConfig lineTokens
  dsimp only
  rw [lines_eq_fileRecords]
  congr 1
  refine List.filterMap_congr fun record _ => ?_
  rw [packageUids_get? h.names]
  unfold resolveUid
  cases ((packageUids packageRecords).get? record.packageOrUid).or
    (parseLegacyUidToken record.packageOrUid) with
  | none => rfl
  | some uid => rfl

/-- Memory and file agree when the daemon has started. -/
theorem reloads_loadPolicy (h : PolicyInput text packageRecords) (state : ReadOnlyState) :
    Reloads (resolveUid packageRecords) text (loadPolicy text packageRecords state).appConfig
      (loadPolicy text packageRecords state).appConfigSourceTokens where
  same record _ := by
    show _ ↔ record ∈ loadManagerAppConfigRecords text packageRecords
    rw [loadManagerAppConfigRecords_eq]
  -- The input has one line for a uid, so the records of one uid come from it.
  consistent r hr r' hr' hne heq := by
    have hr : r ∈ loadManagerAppConfigRecords text packageRecords := hr
    have hr' : r' ∈ loadManagerAppConfigRecords text packageRecords := hr'
    rw [loadManagerAppConfigRecords_eq] at hr hr'
    obtain ⟨line, hline, hread⟩ := List.mem_filterMap.mp hr
    obtain ⟨line', hline', hread'⟩ := List.mem_filterMap.mp hr'
    obtain ⟨uid, huid, rfl⟩ := Option.map_eq_some_iff.mp hread
    obtain ⟨uid', huid', rfl⟩ := Option.map_eq_some_iff.mp hread'
    obtain rfl : uid = uid' := heq
    rw [h.lines line hline line' hline' uid huid huid' hne]
  inRange record hrecord := by
    have hrecord : record ∈ loadManagerAppConfigRecords text packageRecords := hrecord
    rw [loadManagerAppConfigRecords_eq] at hrecord
    obtain ⟨line, hline, hread⟩ := List.mem_filterMap.mp hrecord
    obtain ⟨uid, huid, rfl⟩ := Option.map_eq_some_iff.mp hread
    exact ⟨h.resolved_lt huid, mode_of_mem_fileRecords hline⟩
  -- Later lines of the same uid would win, but there are none.
  token line hline uid huid hne := by
    show (sourceTokensFromLegacyConfig text _).get? uid = some line.packageOrUid
    rw [sourceTokensFromLegacyConfig_eq h]
    have hmem : (uid, line.packageOrUid) ∈ lineTokens (resolveUid packageRecords) (fileRecords text) :=
      mem_lineTokens.mpr ⟨line, hline, huid, rfl⟩
    refine SortedMap.get?_foldl_insert_of_mem hmem fun e he hkey => ?_
    obtain ⟨line', hline', huid', htoken⟩ := mem_lineTokens.mp he
    have hkey : e.1 = uid := hkey
    rw [hkey] at huid'
    rw [← htoken, h.lines line' hline' line hline uid huid' huid hne]
  resolved uid token hget := by
    have hget : (sourceTokensFromLegacyConfig text _).get? uid = some token := hget
    rw [sourceTokensFromLegacyConfig_eq h] at hget
    rcases SortedMap.exists_of_get?_foldl_insert hget with ⟨e, he, rfl, rfl⟩ | hempty
    · obtain ⟨line, -, huid, htoken⟩ := mem_lineTokens.mp he
      rw [← htoken]
      exact huid
    · cases hempty

/-- A file that agrees with memory can be what a daemon starts with. -/
theorem PolicyInput.of_reloads {text' : Option String} {records : List ManagerAppConfigRecord}
    {tokens : SortedMap Nat String} (h : PolicyInput text packageRecords)
    (hreloads : Reloads (resolveUid packageRecords) text' records tokens) :
    PolicyInput text' packageRecords where
  names := h.names
  uids  := h.uids
  reads := h.reads
  lines := by
    rintro ⟨token, mode, permissive⟩ hline ⟨token', mode', permissive'⟩ hline' uid huid huid' hne
    have hrecord := (hreloads.record_of_line hline huid hne).2
    rw [(hreloads.record_of_line hline' huid' hne).2] at hrecord
    have htoken := hreloads.token _ hline uid huid hne
    rw [hreloads.token _ hline' uid huid' hne] at htoken
    obtain ⟨-, hmode, hpermissive⟩ := ManagerAppConfigRecord.mk.inj (Option.some.inj hrecord)
    have htoken : token' = token := Option.some.inj htoken
    rw [htoken, show mode' = mode from hmode, show permissive' = permissive from hpermissive]

end

/-! ## From start to start -/

/-- The policy file, and no other that the requests write. -/
structure HasPaths (path : String) (state : ReadOnlyState) : Prop where
  appConfig : state.appConfigPath = some path
  settings  : state.settingsPath ≠ some path
  appLabel  : state.appLabelPath ≠ some path

/-- What a start finds in the policy file. -/
def storedPolicy (path : String) (fs : ConfigFiles) : Option String :=
  (fileBytes fs path).bind Utf8.decodeStrict

/-- The daemon starts, takes requests, passes over the apps in between, and
    starts anew.  A request has one policy for a uid; a file that could not be
    restored or read back is left out.  The inventory is that of the last start:
    one that reads another, or that comes in the middle of a request, has to find
    a file like the first. -/
inductive PolicyRun (path : String) :
    List PackageRecord → ReadOnlyState → ConfigFiles → Prop where
  | started : ∀ {packageRecords state fs}, HasPaths path state →
      PolicyInput (storedPolicy path fs) packageRecords →
      PolicyRun path packageRecords (loadPolicy (storedPolicy path fs) packageRecords state) fs
  | request : ∀ {packageRecords state fs frame t r state' fs'},
      PolicyRun path packageRecords state fs →
      Exec (handleManagerCommand frame state) t (r, state') → FilesRun fs t fs' →
      (frame.command = .setAppCfg → ¬ RestoreFails t ∧ ¬ ReadBackFails t
        ∧ ∀ requested, decodeAppConfig frame.payload = .ok requested → Consistent requested) →
      PolicyRun path packageRecords state' fs'
  | control : ∀ {packageRecords state fs state'}, PolicyRun path packageRecords state fs →
      state'.managerPart = state.managerPart → PolicyRun path packageRecords state' fs
  | restarted : ∀ {packageRecords state fs state'}, PolicyRun path packageRecords state fs →
      HasPaths path state' →
      PolicyRun path packageRecords (loadPolicy (storedPolicy path fs) packageRecords state') fs
  | renewed : ∀ {packageRecords packageRecords' state fs frame t fs' state'},
      PolicyRun path packageRecords state fs →
      Partial (handleManagerCommand frame state) t → FilesRun fs t fs' → HasPaths path state' →
      PolicyInput (storedPolicy path fs') packageRecords' →
      PolicyRun path packageRecords' (loadPolicy (storedPolicy path fs') packageRecords' state') fs'

section
variable {packageRecords : List PackageRecord} {path : String} {state state' : ReadOnlyState}
  {fs fs' : ConfigFiles} {t : ManagerTrace}

/-- Requests do not move the files. -/
theorem HasPaths.of_controlPart (h : HasPaths path state) (hsame : state'.controlPart = state.controlPart) :
    HasPaths path state' where
  appConfig := (congrArg ReadOnlyState.appConfigPath hsame).trans h.appConfig
  settings  := fun heq => h.settings ((congrArg ReadOnlyState.settingsPath hsame).symm.trans heq)
  appLabel  := fun heq => h.appLabel ((congrArg ReadOnlyState.appLabelPath hsame).symm.trans heq)

/-- Nor does a pass. -/
theorem HasPaths.of_managerPart (h : HasPaths path state) (hsame : state'.managerPart = state.managerPart) :
    HasPaths path state' where
  appConfig := (congrArg ReadOnlyState.appConfigPath hsame).trans h.appConfig
  settings  := fun heq => h.settings ((congrArg ReadOnlyState.settingsPath hsame).symm.trans heq)
  appLabel  := fun heq => h.appLabel ((congrArg ReadOnlyState.appLabelPath hsame).symm.trans heq)

theorem HasPaths.storedPolicy (h : HasPaths path state) (fs : ConfigFiles) :
    (appConfigBytes state fs).bind Utf8.decodeStrict = storedPolicy path fs := by
  rw [appConfigBytes, h.appConfig]
  rfl

/-- What is so after every step of a run, under the inventory that the daemon was started
    with. A restart takes only the file over and needs all of it. -/
structure PolicyKept (packageRecords : List PackageRecord) (path : String) (state : ReadOnlyState)
    (fs : ConfigFiles) : Prop where
  input   : PolicyInput (storedPolicy path fs) packageRecords
  paths   : HasPaths path state
  reloads : Reloads (resolveUid packageRecords) (storedPolicy path fs) state.appConfig
    state.appConfigSourceTokens

/-- A request keeps file and memory together. -/
theorem PolicyKept.request {frame : ManagerFrame} {r : Except DaemonError Bytes}
    (h : PolicyKept packageRecords path state fs)
    (hexec : Exec (handleManagerCommand frame state) t (r, state')) (hfs : FilesRun fs t fs')
    (hgood : frame.command = .setAppCfg → ¬ RestoreFails t ∧ ¬ ReadBackFails t
      ∧ ∀ requested, decodeAppConfig frame.payload = .ok requested → Consistent requested) :
    PolicyKept packageRecords path state' fs' := by
  have hpaths : HasPaths path state' := h.paths.of_controlPart (handleManagerCommand_effect hexec).control
  have hreloads : Reloads (resolveUid packageRecords) (storedPolicy path fs') state'.appConfig
      state'.appConfigSourceTokens := by
    by_cases hcommand : frame.command = .setAppCfg
    · obtain ⟨hrestore, hread, hconsistent⟩ := hgood hcommand
      have hset : Exec (setAppConfig state frame.payload) t (r, state') := by
        unfold handleManagerCommand at hexec
        rw [hcommand] at hexec
        exact hexec
      -- Nothing was changed, or the file has the new text and memory the new records.
      rcases setAppConfig_outcome hset hfs hrestore hread with
        ⟨hsame, hbytes⟩ | ⟨records, sourceTokens, bytes, hrequested, hbytes, hrecords, htokens⟩
      · have hstored : storedPolicy path fs' = storedPolicy path fs := by
          rw [← h.paths.storedPolicy, ← h.paths.storedPolicy, hbytes]
        rw [hstored, hsame.appConfig, hsame.sourceTokens]
        exact h.reloads
      · have hstored : storedPolicy path fs' = Utf8.decodeStrict bytes := by
          rw [← h.paths.storedPolicy, hbytes]
          rfl
        obtain ⟨⟨requested, hdecode, rfl⟩, hpersisted⟩ := hrequested
        rw [hstored, hrecords, htokens]
        exact h.reloads.stored h.input.reads (h.paths.storedPolicy fs)
          (consistent_merge h.reloads.consistent (hconsistent requested hdecode))
          (inRange_merge h.reloads.inRange (inRange_of_decodeAppConfig hdecode))
          (fun record hmem => exists_mem_merge requested hmem) hpersisted
    · -- The other requests write neither the file nor the records.
      have hspares := handleManagerCommand_spares hcommand h.paths.settings h.paths.appLabel t (r, state') hexec
      have hbytes : fileBytes fs' path = fileBytes fs path := bytes_frame hfs hspares
      obtain ⟨hrecords, htokens⟩ := handleManagerCommand_records hcommand hexec
      have hstored : storedPolicy path fs' = storedPolicy path fs := by
        unfold Freezeit.storedPolicy
        rw [hbytes]
      rw [hstored, hrecords, htokens]
      exact h.reloads
  exact ⟨h.input.of_reloads hreloads, hpaths, hreloads⟩

/-- The run lemma, by induction on the run. -/
theorem PolicyRun.kept (h : PolicyRun path packageRecords state fs) :
    PolicyKept packageRecords path state fs := by
  induction h with
  | started hpaths hinput =>
    exact ⟨hinput, ⟨hpaths.appConfig, hpaths.settings, hpaths.appLabel⟩, reloads_loadPolicy hinput _⟩
  | request _ hexec hfs hgood ih => exact ih.request hexec hfs hgood
  | @control _ state fs state' _ hsame ih =>
    have hrecords := congrArg ReadOnlyState.appConfig hsame
    have htokens := congrArg ReadOnlyState.appConfigSourceTokens hsame
    refine ⟨ih.input, ih.paths.of_managerPart hsame, ?_⟩
    show Reloads _ _ state'.managerPart.appConfig state'.managerPart.appConfigSourceTokens
    rw [hrecords, htokens]
    exact ih.reloads
  | restarted _ hpaths ih =>
    -- The file that the run has left is again one that a daemon can start with.
    exact ⟨ih.input, ⟨hpaths.appConfig, hpaths.settings, hpaths.appLabel⟩, reloads_loadPolicy ih.input _⟩
  | renewed _ _ _ hpaths hinput _ =>
    exact ⟨hinput, ⟨hpaths.appConfig, hpaths.settings, hpaths.appLabel⟩, reloads_loadPolicy hinput _⟩

/-- At any time a start with the same inventory would load from the policy file
    the records that are in memory. -/
theorem policy_file_reloads (h : PolicyRun path packageRecords state fs) {record : ManagerAppConfigRecord}
    (hne : record.uid ≠ u32Max) :
    record ∈ loadManagerAppConfigRecords (storedPolicy path fs) packageRecords
      ↔ record ∈ state.appConfig := by
  rw [loadManagerAppConfigRecords_eq]
  exact h.kept.reloads.same record hne

/-! ### A sample -/

/-- Without a package and without a file. -/
theorem emptyPolicy_run : PolicyRun samplePolicyPath [] emptyPolicyState emptyFiles := by
  show PolicyRun samplePolicyPath []
    (loadPolicy (storedPolicy samplePolicyPath emptyFiles) [] emptyPolicyState) emptyFiles
  refine .started ⟨rfl, nofun, nofun⟩ ⟨nofun, nofun, fun token uid huid => ?_, nofun⟩
  unfold resolveUid
  rw [huid]
  rfl

/-- The first request of a daemon that has started without a policy file. -/
theorem sampleRequest_policy_run : PolicyRun samplePolicyPath []
    (sampleRequest (.ok ()) (.ok [])).2.2 renamedFiles := by
  have hcalls : ∀ call ∈ (sampleRequest (.ok ()) (.ok [])).1, ¬ FailedCall call
      ∧ ∀ file error, call = ⟨.file (.read file), .error error⟩ → ReportsMissing error := by
    intro call hcall
    rw [sampleRequest_ok] at hcall
    rcases List.mem_append.mp hcall with hcall | hcall
    · exact ⟨(renamingCalls_spec hcall).1, (renamingCalls_spec hcall).2.2⟩
    · simp only [List.mem_cons, List.not_mem_nil, or_false] at hcall
      rcases hcall with rfl | rfl
      · exact ⟨nofun, nofun⟩
      · exact ⟨nofun, nofun⟩
  have hfiles : FilesRun emptyFiles (sampleRequest (.ok ()) (.ok [])).1 renamedFiles := by
    rw [sampleRequest_ok]
    exact FileRun.append_iff.mpr ⟨_, renamingCalls_run, .skip rfl (.skip rfl (.nil _))⟩
  have hexec : Exec (handleManagerCommand sampleFrame emptyPolicyState)
      (sampleRequest (.ok ()) (.ok [])).1 (sampleRequest (.ok ()) (.ok [])).2 := exec_run _ _ _
  refine emptyPolicy_run.request hexec hfiles fun _ => ⟨?_, ?_, ?_⟩
  · rintro ⟨pre, hook, post, hsplit, -, call, hcall, hfailed⟩
    refine (hcalls call ?_).1 hfailed
    rw [hsplit]
    exact List.mem_append_right _ (List.mem_cons_of_mem _ hcall)
  · rintro ⟨pre, file, error, post, hsplit, hmissing, -⟩
    refine hmissing ((hcalls ⟨.file (.read file), .error error⟩ ?_).2 file error rfl)
    rw [hsplit]
    exact List.mem_append_right _ List.mem_cons_self
  · intro requested hdecode
    have hdecoded : decodeAppConfig sampleFrame.payload = .ok [⟨10123, 30, false⟩] :=
      decodeAppConfig_encodeAppConfig (by simp [ManagerAppConfigRecord.inRange_iff])
    obtain rfl := Except.ok.inj (hdecoded.symm.trans hdecode)
    intro r hr r' hr' _ _
    rw [List.mem_singleton.mp hr, List.mem_singleton.mp hr']

/-- A package was installed for the uid of the request. -/
def sampleInventory : List PackageRecord := [⟨"com.example.app", 10123⟩]

/-- The file that the request has left can be read with the new inventory. -/
theorem sampleInventory_input : PolicyInput (storedPolicy samplePolicyPath renamedFiles) sampleInventory where
  names r hr r' hr' _ := by rw [List.mem_singleton.mp hr, List.mem_singleton.mp hr']
  uids r hr := by
    rw [List.mem_singleton.mp hr]
    decide
  reads token uid huid := by
    have hname : token ≠ "com.example.app" := by
      rintro rfl
      have hnone : parseLegacyUidToken "com.example.app" = none := by decide +kernel
      rw [hnone] at huid
      cases huid
    have hother : (packageUids sampleInventory).get? token = none :=
      SortedMap.get?_insert_ne _ _ hname.symm
    unfold resolveUid
    rw [hother]
    exact huid
  lines line hline line' hline' _ _ _ _ := by
    have hlines : fileRecords (storedPolicy samplePolicyPath renamedFiles)
        = [⟨"10123uid10123", 30, false⟩] := by decide +kernel
    rw [hlines] at hline hline'
    rw [List.mem_singleton.mp hline, List.mem_singleton.mp hline']

/-- After the first request ever the new record is in the file, and a daemon that
    starts once the package is installed holds it in memory. -/
theorem policy_file_reloads_sample :
    (⟨10123, 30, false⟩ : ManagerAppConfigRecord)
        ∈ loadManagerAppConfigRecords (storedPolicy samplePolicyPath renamedFiles) []
      ∧ (⟨10123, 30, false⟩ : ManagerAppConfigRecord)
        ∈ (loadPolicy (storedPolicy samplePolicyPath renamedFiles) sampleInventory
          emptyPolicyState).appConfig := by
  have hrecords : (sampleRequest (.ok ()) (.ok [])).2.2.appConfig = [⟨10123, 30, false⟩] := by
    decide +kernel
  have hrenewed : PolicyRun samplePolicyPath sampleInventory
      (loadPolicy (storedPolicy samplePolicyPath renamedFiles) sampleInventory emptyPolicyState)
      renamedFiles :=
    sampleRequest_policy_run.renewed (.stop (handleManagerCommand sampleFrame _)) (.nil _)
      ⟨rfl, nofun, nofun⟩ sampleInventory_input
  constructor
  · refine (policy_file_reloads sampleRequest_policy_run (show 10123 ≠ u32Max by decide)).mpr ?_
    rw [hrecords]
    exact List.mem_cons_self
  · exact (policy_file_reloads hrenewed (show 10123 ≠ u32Max by decide)).mp (by decide +kernel)

-- Two packages with one uid have one token: the line of the other is not rewritten.
example :
    let packages : List PackageRecord := [⟨"com.a", 10001⟩, ⟨"com.b", 10001⟩]
    let text := "com.a 30 1\ncom.b 30 1\n"
    let state := loadPolicy (some text) packages emptyPolicyState
    let records := mergeAppConfigRecords state.appConfig [⟨10001, 10, true⟩]
    (renderAppConfig state state.appConfig records (some (utf8Bytes text))).toOption.map Prod.fst
      = some "com.a 30 1\ncom.b 10 1\n" := by decide +kernel

end

end Freezeit
