import Freezeit.LedgerCodec
import Freezeit.RestartRecovery

/-! # The stat line of a process

    The kernel writes the name of a process between parentheses and leaves it
    unescaped, so the name can imitate the rest of the line.  The fields are
    counted from the last closing parenthesis. -/

namespace Freezeit

open Prog

/-! ## The line as the kernel writes it -/

/-- The kernel writes every field but the name without blanks or parentheses. -/
def IsStatField (field : String) : Prop := Text.IsToken field ∧ ')' ∉ field.toList

/-- `/proc/<pid>/stat`.  The name is any text at all. -/
structure ProcessStat where
  pid       : Int
  comm      : String
  state     : Char
  /-- Fields 4 to 21. -/
  early     : List String
  /-- Field 22. -/
  startTime : Nat
  /-- Fields 23 and later. -/
  late      : List String
  pid_fits   : -(2 ^ 31) ≤ pid ∧ pid < 2 ^ 31
  start_fits : startTime < 2 ^ 64
  state_ok   : Text.isWhitespace state = false ∧ state ≠ ')'
  early_ok   : ∀ field ∈ early, IsStatField field
  early_len  : early.length = 18
  late_ok    : ∀ field ∈ late, IsStatField field

namespace ProcessStat

variable (stat : ProcessStat)

/-- What follows the name. -/
def fields : List String :=
  String.singleton stat.state :: (stat.early ++ toString stat.startTime :: stat.late)

/-- The line, with the name as it is: nothing in it is escaped. -/
def text : String :=
  s!"{stat.pid} ({stat.comm}) " ++ (" ".intercalate stat.fields ++ "\n")

/-- What the ledger knows a stopped process by. -/
def identity : SignalStopIdentity := ⟨stat.pid, stat.startTime⟩

end ProcessStat

/-! ## Scanning -/

/-- What follows the last separator is found, whatever stands before it. -/
theorem Text.afterLast_append {sep : Char} {left right : List Char} (h : sep ∉ right) :
    Text.afterLast sep (String.ofList (left ++ sep :: right)) = some (String.ofList right) := by
  have hmem : sep ∈ (String.ofList (left ++ sep :: right)).toList := by simp
  have hright : ∀ c ∈ right.reverse, decide (c ≠ sep) = true := by
    intro c hc
    apply decide_eq_true
    intro heq
    rw [heq] at hc
    exact h (List.mem_reverse.mp hc)
  have hstop : (sep :: left.reverse).takeWhile (fun c => decide (c ≠ sep)) = [] := by simp
  unfold Text.afterLast
  rw [if_pos hmem, String.toList_ofList, List.reverse_append, List.reverse_cons, List.append_assoc,
    List.takeWhile_append_of_pos hright, List.singleton_append, hstop, List.append_nil,
    List.reverse_reverse]

/-- Pieces without separators come back as they were, followed by the empty piece after
    the last separator. -/
theorem Text.splitChars_intercalate_append {sep : Char → Bool} {pieces : List (List Char)}
    {c last : Char} (hne : pieces ≠ []) (h : ∀ piece ∈ pieces, ∀ d ∈ piece, sep d = false)
    (hsep : sep c = true) (hlast : sep last = true) :
    Text.splitChars sep ([c].intercalate pieces ++ [last]) = pieces ++ [[]] := by
  induction pieces with
  | nil => exact absurd rfl hne
  | cons piece rest ih =>
    have hpiece := h piece List.mem_cons_self
    cases rest with
    | nil =>
      rw [List.intercalate_singleton, Text.splitChars_append_cons hpiece hlast]
      rfl
    | cons next rest =>
      have hrest := ih (by simp) fun p hp => h p (List.mem_cons_of_mem _ hp)
      rw [List.intercalate_cons_cons, List.append_assoc, List.append_assoc, List.singleton_append,
        Text.splitChars_append_cons hpiece hsep, hrest]
      rfl

/-- Blanks at the ends of a text are no token. -/
theorem Text.splitWhitespace_between {tokens : List String} {first last : Char}
    (h : ∀ token ∈ tokens, Text.IsToken token) (hne : tokens ≠ [])
    (hfirst : Text.isWhitespace first = true) (hlast : Text.isWhitespace last = true) :
    Text.splitWhitespace
      (String.ofList (first :: ((" ".intercalate tokens).toList ++ [last]))) = tokens := by
  -- Only the two empty pieces at the ends are filtered out, since no token is empty.
  have hkept : ((tokens.map String.toList ++ [[]]).filter fun piece => piece ≠ [])
      = tokens.map String.toList := by
    rw [List.filter_append, List.filter_eq_self.mpr]
    · simp
    · intro piece hpiece
      obtain ⟨token, htoken, rfl⟩ := List.mem_map.mp hpiece
      rw [decide_eq_true_eq]
      intro hnil
      apply (h token htoken).1
      rw [← String.ofList_toList (s := token), hnil]
  have hpieces : Text.splitChars Text.isWhitespace ((" ".intercalate tokens).toList ++ [last])
      = tokens.map String.toList ++ [[]] := by
    rw [String.toList_intercalate]
    apply Text.splitChars_intercalate_append
    · simpa using hne
    · intro piece hpiece d hd
      obtain ⟨token, htoken, rfl⟩ := List.mem_map.mp hpiece
      exact (h token htoken).2 d hd
    · rfl
    · exact hlast
  have hsplit : Text.splitChars Text.isWhitespace
      (first :: ((" ".intercalate tokens).toList ++ [last]))
        = [] :: (tokens.map String.toList ++ [[]]) := by
    rw [← hpieces]
    exact Text.splitChars_append_cons (fun d hd => absurd hd List.not_mem_nil) hfirst
  unfold Text.splitWhitespace
  rw [String.toList_ofList, hsplit]
  show (((tokens.map String.toList ++ [[]]).filter fun piece => piece ≠ []).map String.ofList) = _
  rw [hkept, List.map_map]
  conv_rhs => rw [← List.map_id tokens]
  exact List.map_congr_left fun token _ => String.ofList_toList

/-- The first token is what stands before the first blank. -/
theorem Text.head?_splitWhitespace {token : List Char} {blank : Char} {rest : List Char}
    (hne : token ≠ []) (h : ∀ c ∈ token, Text.isWhitespace c = false)
    (hblank : Text.isWhitespace blank = true) :
    (Text.splitWhitespace (String.ofList (token ++ blank :: rest))).head?
      = some (String.ofList token) := by
  unfold Text.splitWhitespace
  rw [String.toList_ofList, Text.splitChars_append_cons h hblank,
    List.filter_cons_of_pos (by simpa using hne)]
  rfl

/-! ## What is parsed back -/

section
variable (stat : ProcessStat)

theorem isStatField_startTime : IsStatField (toString stat.startTime) := by
  refine ⟨Text.isToken_toString_nat _, ?_⟩
  intro hmem
  have htext : (toString stat.startTime).toList = Nat.toDigits 10 stat.startTime := by simp
  rw [htext] at hmem
  cases Text.isDigit_of_mem_toDigits hmem

/-- No field can be mistaken for the end of the name. -/
theorem isStatField_of_mem_fields {field : String} (h : field ∈ stat.fields) :
    IsStatField field := by
  simp only [ProcessStat.fields, List.mem_cons, List.mem_append] at h
  rcases h with rfl | hearly | rfl | hlate
  · have hchars : (String.singleton stat.state).toList = [stat.state] := by simp
    refine ⟨⟨?_, ?_⟩, ?_⟩
    · intro hempty
      rw [hempty] at hchars
      cases hchars
    · intro c hc
      rw [hchars] at hc
      rw [List.mem_singleton.mp hc]
      exact stat.state_ok.1
    · intro hmem
      rw [hchars] at hmem
      exact stat.state_ok.2 (List.mem_singleton.mp hmem).symm
  · exact stat.early_ok field hearly
  · exact isStatField_startTime stat
  · exact stat.late_ok field hlate

theorem fields_ne_nil : stat.fields ≠ [] := by simp [ProcessStat.fields]

/-- The line, cut before its last closing parenthesis. -/
theorem text_eq : stat.text = String.ofList ((s!"{stat.pid} ({stat.comm}").toList
    ++ ')' :: (' ' :: ((" ".intercalate stat.fields).toList ++ ['\n']))) := by
  apply String.toList_injective
  rw [String.toList_ofList]
  unfold ProcessStat.text
  simp only [String.toList_append, List.append_assoc]
  rfl

/-- After the name there is no closing parenthesis. -/
theorem not_mem_fields_text :
    ')' ∉ (' ' :: ((" ".intercalate stat.fields).toList ++ ['\n'] : List Char)) := by
  intro hmem
  rcases List.mem_cons.mp hmem with hblank | hmem
  · cases hblank
  rcases List.mem_append.mp hmem with hfields | hbreak
  · rw [String.toList_intercalate] at hfields
    rcases Text.mem_intercalate hfields with hblank | ⟨piece, hpiece, hin⟩
    · cases hblank
    · obtain ⟨field, hfield, rfl⟩ := List.mem_map.mp hpiece
      exact (isStatField_of_mem_fields stat hfield).2 hin
  · cases List.mem_singleton.mp hbreak

/-- The last closing parenthesis of the line is the one after the name. -/
theorem afterLast_text : Text.afterLast ')' stat.text
    = some (String.ofList (' ' :: ((" ".intercalate stat.fields).toList ++ ['\n']))) := by
  rw [text_eq]
  exact Text.afterLast_append (not_mem_fields_text stat)

/-- So the fields are counted from there, and the name has no part in it. -/
theorem splitWhitespace_after_name :
    Text.splitWhitespace (String.ofList (' ' :: ((" ".intercalate stat.fields).toList ++ ['\n'])))
      = stat.fields :=
  Text.splitWhitespace_between (fun _ hfield => (isStatField_of_mem_fields stat hfield).1)
    (fields_ne_nil stat) rfl rfl

theorem parseProcStateChar_text : parseProcStateChar stat.text = .ok stat.state := by
  unfold parseProcStateChar
  rw [afterLast_text]
  dsimp only
  rw [splitWhitespace_after_name]
  have hhead : stat.fields.head?.bind (fun token => token.toList.head?) = some stat.state := by
    simp [ProcessStat.fields]
  rw [hhead]

theorem parseProcessStartTime_text : parseProcessStartTime stat.text = .ok stat.startTime := by
  unfold parseProcessStartTime
  rw [afterLast_text]
  dsimp only
  rw [splitWhitespace_after_name]
  -- The state is field 3 and has index 0, so the start time, field 22, has index 19.
  have hfield : stat.fields[19]? = some (toString stat.startTime) := by
    have hlen := stat.early_len
    unfold ProcessStat.fields
    rw [List.getElem?_cons_succ, List.getElem?_append_right (by omega), hlen]
    rfl
  rw [hfield]
  dsimp only [Option.bind_some]
  rw [Text.parseUnsigned_toString stat.start_fits]

theorem parseProcessPid_text : parseProcessPid stat.text = some stat.pid := by
  have htext : stat.text = String.ofList ((toString stat.pid).toList ++ ' ' ::
      ((s!"({stat.comm}) ").toList ++ (" ".intercalate stat.fields ++ "\n").toList)) := by
    apply String.toList_injective
    rw [String.toList_ofList]
    unfold ProcessStat.text
    simp only [String.toList_append, List.append_assoc]
    rfl
  -- The pid stands before the name, so it is read as the first token of the whole line.
  have htoken := Text.isToken_toString_int stat.pid
  have hne : (toString stat.pid).toList ≠ [] := by
    intro hnil
    apply htoken.1
    rw [← String.ofList_toList (s := toString stat.pid), hnil]
  unfold parseProcessPid
  rw [htext, Text.head?_splitWhitespace hne htoken.2 rfl, String.ofList_toList]
  dsimp only [Option.bind_some]
  rw [Text.parseSigned_toString_eq, if_pos stat.pid_fits]

/-- A process is taken for stopped exactly when its state is `T`. -/
theorem stoppedIdentity_text : stoppedIdentity stat.text
    = if stat.state = 'T' then some stat.identity else none := by
  unfold stoppedIdentity
  rw [parseProcStateChar_text, parseProcessPid_text, parseProcessStartTime_text]
  by_cases hstate : stat.state = 'T'
  · rw [if_pos hstate, if_pos (by rw [hstate]; rfl)]
    rfl
  · rw [if_neg hstate, if_neg]
    intro heq
    exact hstate (Option.some.inj heq)

end

/-! ## Ownership of a stop -/

/-- The main ledger has a line that begins with the two numbers of the identity. -/
def LedgerReading.Names (reading : LedgerReading) (identity : SignalStopIdentity) : Prop :=
  ∃ text, reading.main = .ok text ∧ ∃ line ∈ Text.lines text, ∃ pid startTimeTicks more,
    Text.splitWhitespace line = pid :: startTimeTicks :: more
      ∧ Text.parseSigned 32 pid = some identity.pid
      ∧ Text.parseUnsigned (2 ^ 64) startTimeTicks = some identity.startTimeTicks

/-- The third token decides what is recorded, not whether something is. -/
theorem parseLedgerLine_isSome {line : String} {identity : SignalStopIdentity} :
    (∃ record, parseLedgerLine line = some (identity, record)) ↔
      ∃ pid startTimeTicks more, Text.splitWhitespace line = pid :: startTimeTicks :: more
        ∧ Text.parseSigned 32 pid = some identity.pid
        ∧ Text.parseUnsigned (2 ^ 64) startTimeTicks = some identity.startTimeTicks := by
  constructor
  · intro h
    obtain ⟨record, h⟩ := h
    unfold parseLedgerLine at h
    cases htokens : Text.splitWhitespace line with
    | nil =>
      rw [htokens] at h
      cases h
    | cons pid rest =>
      cases rest with
      | nil =>
        rw [htokens] at h
        cases h
      | cons startTimeTicks more =>
        rw [htokens] at h
        dsimp only at h
        cases hpid : Text.parseSigned 32 pid with
        | none =>
          rw [hpid] at h
          cases h
        | some z =>
          cases hticks : Text.parseUnsigned (2 ^ 64) startTimeTicks with
          | none =>
            rw [hpid, hticks] at h
            cases h
          | some n =>
            rw [hpid, hticks] at h
            cases h
            exact ⟨pid, startTimeTicks, more, rfl, hpid, hticks⟩
  · intro h
    obtain ⟨pid, startTimeTicks, more, htokens, hpid, hticks⟩ := h
    unfold parseLedgerLine
    rw [htokens]
    dsimp only
    rw [hpid, hticks]
    exact ⟨_, rfl⟩

/-- The records that are read are those of the lines. -/
theorem owns_iff_names {reading : LedgerReading} {identity : SignalStopIdentity} :
    reading.owns identity ↔ reading.Names identity := by
  -- Records are added one line at a time, and a later line for the same process only
  -- changes its record, so membership is that of some line.
  have hmem : ∀ lines : List String,
      identity ∈ (lines.filterMap parseLedgerLine).foldl addLedgerRecord ∅ ↔
        ∃ line ∈ lines, ∃ record, parseLedgerLine line = some (identity, record) := by
    intro lines
    rw [addLedgerRecord_eq, SortedMap.mem_foldl_insertOnce, List.mem_map]
    constructor
    · intro h
      rcases h with hempty | ⟨⟨i, record⟩, hentry, rfl⟩
      · exact absurd hempty (SortedMap.not_mem_empty _)
      · obtain ⟨line, hline, hparse⟩ := List.mem_filterMap.mp hentry
        exact ⟨line, hline, record, hparse⟩
    · intro h
      obtain ⟨line, hline, record, hparse⟩ := h
      exact .inr ⟨(identity, record), List.mem_filterMap.mpr ⟨line, hline, hparse⟩, rfl⟩
  unfold LedgerReading.owns LedgerReading.Names readSignalStopLedger
  cases hmain : reading.main with
  -- A ledger that is missing counts as empty; one that cannot be read names nothing.
  | error error =>
    dsimp only
    constructor
    · intro h
      obtain ⟨records, hrecords, hin⟩ := h
      split at hrecords
      · obtain rfl := Except.ok.inj hrecords
        exact absurd hin (SortedMap.not_mem_empty _)
      · cases hrecords
    · intro h
      obtain ⟨text, htext, -⟩ := h
      cases htext
  | ok text =>
    dsimp only
    constructor
    · intro h
      obtain ⟨records, hrecords, hin⟩ := h
      obtain rfl := Except.ok.inj hrecords
      obtain ⟨line, hline, hparse⟩ := (hmem _).mp hin
      exact ⟨text, rfl, line, hline, parseLedgerLine_isSome.mp hparse⟩
    · intro h
      obtain ⟨text', htext, line, hline, hparse⟩ := h
      obtain rfl := Except.ok.inj htext
      exact ⟨_, rfl, (hmem _).mpr ⟨line, hline, parseLedgerLine_isSome.mpr hparse⟩⟩

/-- What recovery learns about a process from its stat line and one reading of the ledger. -/
def signalStopOwnershipFromLedger (statText : String) (reading : LedgerReading) :
    Option SignalStopOwnership :=
  match stoppedIdentity statText with
  | none          => none
  | some identity => (recordedSignalStopOwnershipFromLedger reading identity).toOption.join

theorem signalStopOwnershipFromLedger_isSome {statText : String} {reading : LedgerReading} :
    (signalStopOwnershipFromLedger statText reading).isSome ↔
      ∃ identity, stoppedIdentity statText = some identity ∧ reading.owns identity := by
  unfold signalStopOwnershipFromLedger
  cases hidentity : stoppedIdentity statText with
  | none => simp
  | some identity =>
    dsimp only
    have howns : (∃ ownership, recordedSignalStopOwnershipFromLedger reading identity
        = .ok (some ownership)) ↔ reading.owns identity := recordedSignalStopOwnership_isSome
    cases hrecorded : recordedSignalStopOwnershipFromLedger reading identity with
    | error error =>
      rw [hrecorded] at howns
      simp only [Except.toOption, Option.join_none, Option.some.injEq, exists_eq_left', ← howns]
      simp
    | ok ownership =>
      rw [hrecorded] at howns
      simp only [Except.toOption, Option.some.injEq, exists_eq_left', ← howns]
      cases ownership with
      | none => simp
      | some ownership => simp

/-- Recovery asks for the ledger only when the process is stopped. -/
theorem freezeitSignalStopOwnership_exec {statText : String} {reading : LedgerReading}
    {t : RecoveryTrace} {ownership : Option SignalStopOwnership}
    (h : Exec (freezeitSignalStopOwnership statText) t ownership)
    (hread : ∀ answer, ⟨.readLedger, answer⟩ ∈ t → answer = reading) :
    ownership = signalStopOwnershipFromLedger statText reading := by
  unfold freezeitSignalStopOwnership at h
  unfold signalStopOwnershipFromLedger
  cases hidentity : stoppedIdentity statText with
  | none =>
    rw [hidentity] at h
    exact (exec_pure.mp h).2
  | some identity =>
    rw [hidentity] at h
    obtain ⟨answer, t', rfl, hrest⟩ := exec_ask_bind.mp h
    obtain rfl := hread answer List.mem_cons_self
    exact (exec_pure.mp hrest).2

/-- Whatever the name of a process is, its pid, its state and its start time are
    read, and its stop is owned exactly when the ledger names it. -/
theorem stat_line_is_read (stat : ProcessStat) (reading : LedgerReading) :
    parseProcessPid stat.text = some stat.pid
      ∧ parseProcStateChar stat.text = .ok stat.state
      ∧ parseProcessStartTime stat.text = .ok stat.startTime
      ∧ ((signalStopOwnershipFromLedger stat.text reading).isSome ↔
        stat.state = 'T' ∧ reading.Names stat.identity) := by
  refine ⟨parseProcessPid_text stat, parseProcStateChar_text stat, parseProcessStartTime_text stat,
    ?_⟩
  rw [signalStopOwnershipFromLedger_isSome, stoppedIdentity_text]
  -- The ledger is asked only about a process that is stopped.
  by_cases hstate : stat.state = 'T'
  · rw [if_pos hstate, ← owns_iff_names]
    simp [hstate]
  · rw [if_neg hstate]
    simp [hstate]

theorem isStatField_zero : IsStatField "0" := by
  have hzero : "0".toList = ['0'] := rfl
  refine ⟨⟨by decide, ?_⟩, ?_⟩
  · intro c hc
    rw [hzero, List.mem_singleton] at hc
    rw [hc]
    rfl
  · rw [hzero, List.mem_singleton]
    decide

/-- A stopped process whose name imitates the line of a sleeping one. -/
def hostileStat : ProcessStat where
  pid        := 501
  comm       := "a) S 1 (b"
  state      := 'T'
  early      := List.replicate 18 "0"
  startTime  := 4242
  late       := ["0"]
  pid_fits   := by decide
  start_fits := by decide
  state_ok   := by decide
  early_ok field hfield := by
    rw [List.eq_of_mem_replicate hfield]
    exact isStatField_zero
  early_len  := List.length_replicate
  late_ok field hfield := by
    rw [List.mem_singleton.mp hfield]
    exact isStatField_zero

/-- The name does not hide that the process is stopped, and it does not make it
    another process than the one that the ledger names. -/
theorem stat_line_is_read_sample :
    parseProcStateChar hostileStat.text = .ok 'T'
      ∧ parseProcessStartTime hostileStat.text = .ok 4242
      ∧ (signalStopOwnershipFromLedger hostileStat.text
        ⟨.ok "501 4242\n", none, .ok ""⟩).isSome := by
  obtain ⟨-, hstate, hstart, howned⟩ := stat_line_is_read hostileStat ⟨.ok "501 4242\n", none, .ok ""⟩
  refine ⟨hstate, hstart, howned.mpr ⟨rfl, "501 4242\n", rfl, "501 4242", ?_, "501", "4242", [], ?_⟩⟩
  · decide +kernel
  · decide +kernel

end Freezeit
