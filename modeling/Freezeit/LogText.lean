import Freezeit.Lib.TextBytes
import Freezeit.LogAccounting
import Freezeit.WireFrames
import Mathlib.Algebra.Order.BigOperators.Group.List

/-! # The text of the log

    The views of the log that go to the manager in one frame, and how many bytes
    they take. -/

open Text

namespace Freezeit

/-! ## Lines -/

/-- A number in at least two digits. -/
def padTwo (n : Nat) : String :=
  let digits := Nat.toDigits 10 n
  String.ofList (List.replicate (2 - digits.length) '0' ++ digits)

/-- The time of day in UTC+8, as the older log showed it. -/
def legacyTimePrefix (timestampMs : Nat) : String :=
  let seconds := (timestampMs / 1000 + 8 * 3600) % 86400
  "[" ++ padTwo (seconds / 3600) ++ ":" ++ padTwo (seconds % 3600 / 60) ++ ":"
    ++ padTwo (seconds % 60) ++ "]  "

/-- The text, with a line break at its end. -/
def endLine (line : String) : String :=
  if line.toList.getLast? = some '\n' then line else line.push '\n'

/-- One line of the log. -/
def legacyTimestampedLine (timestampMs : Nat) (message : String) : String :=
  endLine (legacyTimePrefix timestampMs ++ message)

/-- What would break a line becomes a blank. -/
def sanitizeLegacyChar (c : Char) : Char :=
  if c = '\n' ∨ c = '\r' ∨ c = '\t' then ' ' else c

/-- A field on one line. -/
def sanitizeLegacyField (value : String) : String :=
  String.ofList (value.toList.map sanitizeLegacyChar)

/-! ## Operations -/

/-- The number of processes. -/
def legacyProcessText (processCount : Nat) : String := toString processCount ++ "进程"

/-- The phrase for a freeze, which depends on how it was done. -/
def legacyFreezePhrase (operation : ControlOperation) : String :=
  if Text.contains operation.backend "signal" then "🧊冻结" else "❄️冻结"

/-- The words for a result. -/
def legacyResultText : OperationResult → String
  | .success   => "成功"
  | .partially => "部分完成"
  | .failed    => "失败"
  | .skipped   => "已跳过"
  | .postponed => "已延迟"

/-- The operation waited for a binder transaction. -/
def isBinderBlocker (operation : ControlOperation) : Bool :=
  Text.contains (Text.asciiLower (operation.reason ++ " " ++ operation.details)) "binder"

/-- What the plain view of the log shows. -/
def operationIsLegacyInfo (operation : ControlOperation) : Bool :=
  match operation.action, operation.result with
  | .freeze, .success | .unfreeze, .success | .terminate, .success => true
  | .postpone, .postponed => isBinderBlocker operation
  | _, _ => false

/-- What follows the process count that the details may start with. -/
def dropProcessCount (details : String) : String :=
  match Text.stripPrefix details "process_count=" with
  | some remainder =>
    String.ofList ((remainder.toList.dropWhile fun c => !Text.isWhitespace c).dropWhile
      Text.isWhitespace)
  | none => details

/-- The details without blanks and the count of processes, if anything is left. -/
def meaningfulDetails (details : String) : Option String :=
  let details := Text.trim details
  if details = "" then none
  else
    let details := dropProcessCount details
    if details = "" then none else some details

/-- The pids in decimal with commas. -/
def pidsText (operation : ControlOperation) : String :=
  ",".intercalate (operation.pidList.map toString)

/-- The first pid, which is the one that blocks. -/
def blockerPid (operation : ControlOperation) : String :=
  (operation.pidList.head?.map toString).getD "?"

/-- The context that only the debug view shows. -/
def legacyContextSuffix (operation : ControlOperation) (pids : String) : String :=
  let parts := ["UID:" ++ toString operation.uid]
    ++ (if pids = "" then [] else ["PID:" ++ pids])
    ++ (if Text.trim operation.backend = "" then []
        else ["方式:" ++ sanitizeLegacyField operation.backend])
    ++ ["结果:" ++ legacyResultText operation.result]
    ++ (if Text.trim operation.reason = "" then []
        else ["原因:" ++ sanitizeLegacyField operation.reason])
    ++ (match meaningfulDetails operation.details with
        | some details => ["详情:" ++ sanitizeLegacyField details]
        | none => [])
  " " ++ " ".intercalate parts

/-- `legacy_operation_message`, and with a context `diagnostic_operation_message`. -/
def operationMessage (operation : ControlOperation) (context : String) : String :=
  let packageName := sanitizeLegacyField operation.packageName
  let processText := legacyProcessText operation.pidList.length
  match operation.action with
  | .freeze => legacyFreezePhrase operation ++ " " ++ packageName ++ " " ++ processText ++ context
  | .unfreeze =>
    if operation.pidList.isEmpty then "😁启动 " ++ packageName ++ context
    else "☀️解冻 " ++ packageName ++ " " ++ processText ++ context
  | .terminate =>
    if operation.pidList.isEmpty then "😭关闭 " ++ packageName ++ context
    else "😭关闭 " ++ packageName ++ " " ++ processText ++ context
  | .postpone =>
    if isBinderBlocker operation then
      packageName ++ ":" ++ blockerPid operation ++ " Binder正在传输, 延迟后再冻结" ++ context
    else "⏳延迟冻结 " ++ packageName ++ " " ++ processText ++ context
  | .fallback => "⚠️降级处理 " ++ packageName ++ " " ++ processText ++ context
  | .skip     => "⚠️跳过 " ++ packageName ++ " " ++ processText ++ context
  | .recover  => "♻️恢复 " ++ packageName ++ " " ++ processText ++ context

/-- The message of an operation without its context. -/
def legacyOperationMessage (operation : ControlOperation) : String := operationMessage operation ""

/-- The message of an operation with its context. -/
def diagnosticOperationMessage (operation : ControlOperation) : String :=
  operationMessage operation (legacyContextSuffix operation (pidsText operation))

/-- The line of an operation in the plain views. -/
def operationToLegacyText (operation : ControlOperation) : String :=
  legacyTimestampedLine operation.timestampMs (legacyOperationMessage operation)

/-- The line of an operation in the debug view. -/
def operationToDebugText (operation : ControlOperation) : String :=
  legacyTimestampedLine operation.timestampMs (diagnosticOperationMessage operation)

/-! ## Records -/

/-- The name of a level. -/
def levelName : LogLevel → String
  | .info     => "INFO"
  | .warn     => "WARN"
  | .error    => "ERROR"
  | .critical => "CRITICAL"
  | .debug    => "DEBUG"

/-- Which records a view shows. -/
def recordIsVisible (record : LogRecord) (view : LogView) : Bool :=
  match view with
  | .info =>
    record.category = .legacyOperation &&
      match record.payload with
      | .operation operation => operationIsLegacyInfo operation
      | _ => true
  | .warn     => record.level = .warn || record.level = .error || record.level = .critical
  | .error    => record.level = .error || record.level = .critical
  | .critical => record.level = .critical
  | .debug    => true

/-- The line of a record in a view. -/
def renderRecord (record : LogRecord) (view : LogView) : String :=
  match record.payload with
  | .operation operation =>
    if view = .debug then operationToDebugText operation else operationToLegacyText operation
  | .verifiedLegacyLine line => endLine line
  | .text message =>
    if record.category = .legacyOperation ∧ (view = .info ∨ view = .debug) then
      legacyTimestampedLine record.timestampMs message
    else
      legacyTimestampedLine record.timestampMs ("[" ++ levelName record.level ++ "] " ++ message)

/-- The text that the manager app gets. -/
def ManagerLog.render (log : ManagerLog) (view : LogView) : String :=
  String.join ((log.records.filter fun record => recordIsVisible record view).map fun record =>
    renderRecord record view)

/-! ## The bytes of a line -/

/-- A padded number takes two bytes. -/
theorem utf8ByteSize_padTwo {n : Nat} (h : n < 100) : (padTwo n).utf8ByteSize = 2 := by
  unfold padTwo
  dsimp only
  rw [utf8ByteSize_ofList, charsBytes_append, charsBytes_toDigits]
  have hzeros : ∀ count, charsBytes (List.replicate count '0') = count := by
    intro count
    rw [charsBytes_ascii, List.length_replicate]
    intro c hc
    rw [List.eq_of_mem_replicate hc]
    decide
  have hdigits : (Nat.toDigits 10 n).length ≤ 2 :=
    (Nat.length_toDigits_le_iff (by decide) (by decide)).mpr h
  rw [hzeros]
  omega

/-- The time takes twelve bytes. -/
theorem utf8ByteSize_legacyTimePrefix (timestampMs : Nat) :
    (legacyTimePrefix timestampMs).utf8ByteSize = 12 := by
  unfold legacyTimePrefix
  dsimp only
  have hseconds : (timestampMs / 1000 + 8 * 3600) % 86400 < 86400 := Nat.mod_lt _ (by decide)
  generalize (timestampMs / 1000 + 8 * 3600) % 86400 = seconds at hseconds
  simp only [String.utf8ByteSize_append]
  rw [utf8ByteSize_padTwo (by omega), utf8ByteSize_padTwo (by omega),
    utf8ByteSize_padTwo (by omega)]
  rfl

/-- Ending a line costs at most one byte. -/
theorem utf8ByteSize_endLine (line : String) :
    (endLine line).utf8ByteSize ≤ line.utf8ByteSize + 1 := by
  unfold endLine
  split
  · omega
  · rw [String.utf8ByteSize_push]
    exact Nat.le_refl _

/-- So a line is at most thirteen bytes longer than its message. -/
theorem utf8ByteSize_legacyTimestampedLine (timestampMs : Nat) (message : String) :
    (legacyTimestampedLine timestampMs message).utf8ByteSize ≤ message.utf8ByteSize + 13 := by
  have hline := utf8ByteSize_endLine (legacyTimePrefix timestampMs ++ message)
  rw [String.utf8ByteSize_append, utf8ByteSize_legacyTimePrefix] at hline
  unfold legacyTimestampedLine
  omega

/-- A field keeps its size, as only ASCII is replaced by ASCII. -/
theorem utf8ByteSize_sanitizeLegacyField (value : String) :
    (sanitizeLegacyField value).utf8ByteSize = value.utf8ByteSize := by
  unfold sanitizeLegacyField
  rw [utf8ByteSize_ofList, utf8ByteSize_eq value]
  apply charsBytes_map
  intro c
  unfold sanitizeLegacyChar
  split
  case isTrue hbreak => rcases hbreak with rfl | rfl | rfl <;> rfl
  case isFalse => rfl

/-- What is dropped makes a text shorter. -/
theorem utf8ByteSize_dropProcessCount (details : String) :
    (dropProcessCount details).utf8ByteSize ≤ details.utf8ByteSize := by
  unfold dropProcessCount stripPrefix
  by_cases hcounted : "process_count=".toList.isPrefixOf details.toList = true
  · rw [if_pos hcounted]
    dsimp only
    rw [utf8ByteSize_ofList, String.toList_ofList, utf8ByteSize_eq details]
    apply charsBytes_sublist
    have hspaces := List.dropWhile_sublist (l := details.toList.drop "process_count=".length)
      fun c => !isWhitespace c
    exact ((List.dropWhile_sublist isWhitespace).trans hspaces).trans (List.drop_sublist _ _)
  · rw [if_neg hcounted]

/-- The details that are shown are no longer than those that are kept. -/
theorem utf8ByteSize_meaningfulDetails {details kept : String}
    (h : meaningfulDetails details = some kept) : kept.utf8ByteSize ≤ details.utf8ByteSize := by
  have htrim := utf8ByteSize_trim details
  have hdrop := utf8ByteSize_dropProcessCount (trim details)
  unfold meaningfulDetails at h
  dsimp only at h
  by_cases hempty : trim details = ""
  · rw [if_pos hempty] at h
    exact absurd h (Option.some_ne_none kept).symm
  · rw [if_neg hempty] at h
    by_cases hdropped : dropProcessCount (trim details) = ""
    · rw [if_pos hdropped] at h
      exact absurd h (Option.some_ne_none kept).symm
    · rw [if_neg hdropped] at h
      obtain rfl := Option.some.inj h
      exact hdrop.trans htrim

/-! ## The bytes of an operation -/

/-- The values fit into the types of their fields. -/
structure ControlOperation.Fits (operation : ControlOperation) : Prop where
  uid  : operation.uid < 2 ^ 32
  pids : ∀ pid ∈ operation.pidList, -2 ^ 31 ≤ pid ∧ pid < 2 ^ 31

/-- The bytes by which the pids in decimal exceed four for each. -/
def pidExcess (operation : ControlOperation) : Nat :=
  (pidsText operation).utf8ByteSize - operation.pidList.length * 4

/-- A pid of 32 bits takes at most eleven bytes. -/
theorem utf8ByteSize_pid {pid : Int} (h : -2 ^ 31 ≤ pid ∧ pid < 2 ^ 31) :
    (toString pid).utf8ByteSize ≤ 11 :=
  utf8ByteSize_toString_int (by decide) (by omega)

/-- The blocking pid takes at most eleven bytes. -/
theorem utf8ByteSize_blockerPid {operation : ControlOperation} (h : operation.Fits) :
    (blockerPid operation).utf8ByteSize ≤ 11 := by
  unfold blockerPid
  cases hpids : operation.pidList with
  | nil => exact (by decide : ("?" : String).utf8ByteSize ≤ 11)
  | cons pid rest => exact utf8ByteSize_pid (h.pids pid (by rw [hpids]; exact List.mem_cons_self))

/-- The bytes of some parts, with a blank for each. -/
def partsBytes (parts : List String) : Nat := (parts.map fun part => part.utf8ByteSize + 1).sum

/-- The bytes of two lists of parts add up. -/
theorem partsBytes_append (left right : List String) :
    partsBytes (left ++ right) = partsBytes left + partsBytes right := by
  unfold partsBytes
  rw [List.map_append, List.sum_append]

/-- A part takes its label, its text and a blank. -/
theorem partsBytes_single (label text : String) :
    partsBytes [label ++ text] = label.utf8ByteSize + text.utf8ByteSize + 1 := by
  unfold partsBytes
  rw [List.map_singleton, List.sum_singleton, String.utf8ByteSize_append]

/-- A part that may be left out. -/
theorem partsBytes_optional (absent : Prop) [Decidable absent] (label text : String) :
    partsBytes (if absent then [] else [label ++ text])
      ≤ label.utf8ByteSize + text.utf8ByteSize + 1 := by
  split
  · exact Nat.zero_le _
  · rw [partsBytes_single]

/-- The words for a result take at most twelve bytes. -/
theorem utf8ByteSize_legacyResultText (result : OperationResult) :
    (legacyResultText result).utf8ByteSize ≤ 12 := by
  cases result <;> decide

/-- The part for the details takes no more than they do, and its label. -/
theorem partsBytes_details (details : String) :
    partsBytes (match meaningfulDetails details with
      | some details => ["详情:" ++ sanitizeLegacyField details]
      | none => []) ≤ 8 + details.utf8ByteSize := by
  cases hdetails : meaningfulDetails details with
  | none => exact Nat.zero_le _
  | some kept =>
    have hkept := utf8ByteSize_meaningfulDetails hdetails
    have hlabel : ("详情:" : String).utf8ByteSize = 7 := by decide
    dsimp only
    rw [partsBytes_single, utf8ByteSize_sanitizeLegacyField, hlabel]
    omega

/-- The context is its labels and its fields, and what the pids take. -/
theorem utf8ByteSize_legacyContextSuffix {operation : ControlOperation} (h : operation.Fits)
    (pids : String) :
    (legacyContextSuffix operation pids).utf8ByteSize ≤ 64 + pids.utf8ByteSize
      + operation.backend.utf8ByteSize + operation.reason.utf8ByteSize
      + operation.details.utf8ByteSize := by
  have huid : (toString operation.uid).utf8ByteSize ≤ 10 :=
    utf8ByteSize_toString_nat (by decide) (by have hlt := h.uid; omega)
  have hresult := utf8ByteSize_legacyResultText operation.result
  -- Each optional part takes its label and its text, or nothing.
  have hpids := partsBytes_optional (pids = "") "PID:" pids
  have hbackend := partsBytes_optional (trim operation.backend = "") "方式:"
    (sanitizeLegacyField operation.backend)
  have hreason := partsBytes_optional (trim operation.reason = "") "原因:"
    (sanitizeLegacyField operation.reason)
  have hdetails := partsBytes_details operation.details
  rw [utf8ByteSize_sanitizeLegacyField] at hbackend hreason
  have hblank : (" " : String).utf8ByteSize = 1 := by decide
  have hl₁ : ("UID:" : String).utf8ByteSize = 4 := by decide
  have hl₂ : ("PID:" : String).utf8ByteSize = 4 := by decide
  have hl₃ : ("方式:" : String).utf8ByteSize = 7 := by decide
  have hl₄ : ("结果:" : String).utf8ByteSize = 7 := by decide
  have hl₅ : ("原因:" : String).utf8ByteSize = 7 := by decide
  unfold legacyContextSuffix
  dsimp only
  have hne : ["UID:" ++ toString operation.uid]
    ++ (if pids = "" then [] else ["PID:" ++ pids])
    ++ (if trim operation.backend = "" then []
        else ["方式:" ++ sanitizeLegacyField operation.backend])
    ++ ["结果:" ++ legacyResultText operation.result]
    ++ (if trim operation.reason = "" then []
        else ["原因:" ++ sanitizeLegacyField operation.reason])
    ++ (match meaningfulDetails operation.details with
        | some details => ["详情:" ++ sanitizeLegacyField details]
        | none => []) ≠ [] := by simp
  -- The parts are counted with a blank each, which is one blank too many.
  have hjoined := utf8ByteSize_intercalate " " hne
  rw [hblank] at hjoined
  rw [String.utf8ByteSize_append, hblank, Nat.add_comm, hjoined]
  show partsBytes _ ≤ _
  rw [partsBytes_append, partsBytes_append, partsBytes_append, partsBytes_append,
    partsBytes_append, partsBytes_single, partsBytes_single]
  omega

/-- The message has a fixed part of at most 51 bytes. -/
theorem utf8ByteSize_operationMessage {operation : ControlOperation} (h : operation.Fits)
    (hcount : operation.pidList.length < 10 ^ 6) (context : String) :
    (operationMessage operation context).utf8ByteSize
      ≤ 51 + operation.packageName.utf8ByteSize + context.utf8ByteSize := by
  have hname := utf8ByteSize_sanitizeLegacyField operation.packageName
  have hprocesses : (legacyProcessText operation.pidList.length).utf8ByteSize ≤ 12 := by
    have hdigits := utf8ByteSize_toString_nat (by decide) hcount
    have hlabel : ("进程" : String).utf8ByteSize = 6 := by decide
    unfold legacyProcessText
    rw [String.utf8ByteSize_append, hlabel]
    omega
  have hphrase : (legacyFreezePhrase operation).utf8ByteSize ≤ 12 := by
    unfold legacyFreezePhrase
    split <;> decide
  -- The only number besides the processes is the pid that blocks the freeze.
  have hblocker := utf8ByteSize_blockerPid h
  have hblank : (" " : String).utf8ByteSize = 1 := by decide
  have hcolon : (":" : String).utf8ByteSize = 1 := by decide
  have hstarted : ("😁启动 " : String).utf8ByteSize = 11 := by decide
  have hthawed : ("☀️解冻 " : String).utf8ByteSize = 13 := by decide
  have hclosed : ("😭关闭 " : String).utf8ByteSize = 11 := by decide
  have hbinder : (" Binder正在传输, 延迟后再冻结" : String).utf8ByteSize = 39 := by decide
  have hlater : ("⏳延迟冻结 " : String).utf8ByteSize = 16 := by decide
  have hfallback : ("⚠️降级处理 " : String).utf8ByteSize = 19 := by decide
  have hskipped : ("⚠️跳过 " : String).utf8ByteSize = 13 := by decide
  have hrecovered : ("♻️恢复 " : String).utf8ByteSize = 13 := by decide
  unfold operationMessage
  dsimp only
  -- The longest message is that of an operation which waits for a binder transaction.
  cases operation.action with
  | freeze =>
    simp only [String.utf8ByteSize_append]
    omega
  | unfreeze =>
    dsimp only
    split
    · simp only [String.utf8ByteSize_append]
      omega
    · simp only [String.utf8ByteSize_append]
      omega
  | terminate =>
    dsimp only
    split
    · simp only [String.utf8ByteSize_append]
      omega
    · simp only [String.utf8ByteSize_append]
      omega
  | postpone =>
    dsimp only
    split
    · simp only [String.utf8ByteSize_append]
      omega
    · simp only [String.utf8ByteSize_append]
      omega
  | fallback =>
    simp only [String.utf8ByteSize_append]
    omega
  | skip =>
    simp only [String.utf8ByteSize_append]
    omega
  | recover =>
    simp only [String.utf8ByteSize_append]
    omega

/-! ## The bytes of a record -/

namespace LogRecord

/-- The operation in a record has uid and pids of 32 bits. -/
def Fits (record : LogRecord) : Prop :=
  ∀ operation, record.payload = .operation operation → operation.Fits

/-- The bytes that the pids of the record take beyond those that are counted. -/
def pidExcess (record : LogRecord) : Nat :=
  match record.payload with
  | .operation operation => Freezeit.pidExcess operation
  | _ => 0

end LogRecord

/-- The plain line takes no more than what is counted for the operation. -/
theorem utf8ByteSize_operationToLegacyText {operation : ControlOperation} (h : operation.Fits)
    (hcount : operation.pidList.length < 10 ^ 6) :
    (operationToLegacyText operation).utf8ByteSize ≤ 128 + operationBytes operation := by
  have hline := utf8ByteSize_legacyTimestampedLine operation.timestampMs
    (legacyOperationMessage operation)
  have hmessage := utf8ByteSize_operationMessage h hcount ""
  rw [String.utf8ByteSize_empty] at hmessage
  unfold legacyOperationMessage at hline
  unfold operationToLegacyText legacyOperationMessage operationBytes
  omega

/-- The debug line may exceed that, by what its pids take above four bytes each. -/
theorem utf8ByteSize_operationToDebugText {operation : ControlOperation} (h : operation.Fits)
    (hcount : operation.pidList.length < 10 ^ 6) :
    (operationToDebugText operation).utf8ByteSize
      ≤ 128 + operationBytes operation + pidExcess operation := by
  have hline := utf8ByteSize_legacyTimestampedLine operation.timestampMs
    (diagnosticOperationMessage operation)
  have hmessage := utf8ByteSize_operationMessage h hcount
    (legacyContextSuffix operation (pidsText operation))
  have hcontext := utf8ByteSize_legacyContextSuffix h (pidsText operation)
  unfold diagnosticOperationMessage at hline
  unfold operationToDebugText diagnosticOperationMessage operationBytes pidExcess
  omega

/-- A record takes no more bytes in a view than the log counts for it, except
    for its pids in the debug view. -/
theorem utf8ByteSize_renderRecord {record : LogRecord} (hallocated : record.Allocated)
    (hfits : record.Fits) (hbounded : retainedRecordBytes record ≤ maxRetainedLogBytes)
    (view : LogView) :
    (renderRecord record view).utf8ByteSize
      ≤ retainedRecordBytes record + if view = .debug then record.pidExcess else 0 := by
  unfold LogRecord.Allocated at hallocated
  unfold retainedRecordBytes maxRetainedLogBytes at *
  unfold renderRecord LogRecord.pidExcess
  -- By the payload; only operations have pids.
  cases hpayload : record.payload with
  | operation operation =>
    rw [hpayload] at hallocated
    have hcontent : operationBytes operation ≤ record.capacity := hallocated
    have hcount : operation.pidList.length < 10 ^ 6 := by
      unfold operationBytes at hcontent
      omega
    dsimp only
    -- The debug view adds the pids; the record is charged with four bytes for each.
    by_cases hview : view = .debug
    · have htext := utf8ByteSize_operationToDebugText (hfits operation hpayload) hcount
      rw [if_pos hview, if_pos hview]
      omega
    · have htext := utf8ByteSize_operationToLegacyText (hfits operation hpayload) hcount
      rw [if_neg hview, if_neg hview]
      omega
  | verifiedLegacyLine line =>
    rw [hpayload] at hallocated
    have hcontent : line.utf8ByteSize ≤ record.capacity := hallocated
    have htext := utf8ByteSize_endLine line
    dsimp only
    omega
  | text message =>
    rw [hpayload] at hallocated
    have hcontent : message.utf8ByteSize ≤ record.capacity := hallocated
    dsimp only
    split
    · have htext := utf8ByteSize_legacyTimestampedLine record.timestampMs message
      omega
    · have htext := utf8ByteSize_legacyTimestampedLine record.timestampMs
        ("[" ++ levelName record.level ++ "] " ++ message)
      -- The level adds its name and three more bytes.
      have hlevel : (levelName record.level).utf8ByteSize ≤ 8 := by
        cases record.level <;> decide
      have hopen : ("[" : String).utf8ByteSize = 1 := by decide
      have hclose : ("] " : String).utf8ByteSize = 2 := by decide
      simp only [String.utf8ByteSize_append] at htext
      omega

/-! ## The bytes of the log -/

namespace ManagerLog

variable {log : ManagerLog}

/-- The bytes of all pids that the log holds and does not count. -/
def pidExcess (log : ManagerLog) : Nat := (log.records.map LogRecord.pidExcess).sum

/-- The lines of all records add up. -/
theorem utf8ByteSize_renderRecords {records : List LogRecord}
    (hall : ∀ record ∈ records, record.Allocated ∧ record.Fits
      ∧ retainedRecordBytes record ≤ maxRetainedLogBytes) (view : LogView) :
    (((records.filter fun record => recordIsVisible record view).map fun record =>
        renderRecord record view).map String.utf8ByteSize).sum
      ≤ recordsBytes records
        + if view = .debug then (records.map LogRecord.pidExcess).sum else 0 := by
  induction records with
  | nil => exact Nat.zero_le _
  | cons record rest ih =>
    obtain ⟨hallocated, hfits, hbounded⟩ := hall record List.mem_cons_self
    have hrecord := utf8ByteSize_renderRecord hallocated hfits hbounded view
    have hrest := ih fun other hother => hall other (List.mem_cons_of_mem _ hother)
    rw [recordsBytes_cons, List.map_cons, List.sum_cons]
    by_cases hview : view = .debug
    · rw [if_pos hview] at hrecord hrest ⊢
      rw [List.filter_cons]
      split
      · rw [List.map_cons, List.map_cons, List.sum_cons]
        omega
      · omega
    · rw [if_neg hview] at hrecord hrest ⊢
      rw [List.filter_cons]
      split
      · rw [List.map_cons, List.map_cons, List.sum_cons]
        omega
      · omega

/-- A held record is one of those that fill the bytes of the log. -/
theorem retainedRecordBytes_le {records : List LogRecord} {record : LogRecord}
    (h : record ∈ records) : retainedRecordBytes record ≤ recordsBytes records :=
  List.single_le_sum (fun _ _ => Nat.zero_le _) _ (List.mem_map_of_mem h)

/-- A log whose account is exact renders to no more than is counted, apart from the excess
    of pids in the debug view. -/
theorem Exact.utf8ByteSize_render (h : log.Exact)
    (hall : ∀ record ∈ log.records, record.Allocated ∧ record.Fits) (view : LogView) :
    (log.render view).utf8ByteSize
      ≤ log.retainedBytes + if view = .debug then log.pidExcess else 0 := by
  unfold render pidExcess
  rw [utf8ByteSize_join, h.exact]
  apply utf8ByteSize_renderRecords
  intro record hmem
  obtain ⟨hallocated, hfits⟩ := hall record hmem
  have hheld := retainedRecordBytes_le hmem
  have hbounded := h.bounded
  rw [h.exact] at hbounded
  exact ⟨hallocated, hfits, hheld.trans hbounded⟩

end ManagerLog

/-! ## Runs of the log -/

/-- A record is pushed, or the log is cleared. -/
def LogStep.Writes : LogStep → Prop
  | .push record | .pushOnce record => record.Allocated ∧ record.Fits
  | .clear _                        => True
  | .clone                          => False

namespace ManagerLog

/-- Whatever is written, the account stays exact. -/
theorem exact_of_writes {capacity : Nat} {steps : List LogStep}
    (hsteps : ∀ step ∈ steps, step.Writes) : (after capacity steps).Exact := by
  apply ClonesTight.exact
  intro before step later hsplit hclone
  have hmem : step ∈ steps := by
    rw [hsplit]
    exact List.mem_append_right _ List.mem_cons_self
  have hwrites := hsteps step hmem
  rw [hclone] at hwrites
  exact hwrites.elim

/-- Every record was allocated for its text. -/
theorem records_of_writes {capacity : Nat} {steps : List LogStep}
    (hsteps : ∀ step ∈ steps, step.Writes) :
    ∀ record ∈ (after capacity steps).records, record.Allocated ∧ record.Fits := by
  apply forall_after (P := fun record => record.Allocated ∧ record.Fits)
    fun record h => ⟨Nat.le_refl _, h.2⟩
  intro step hmem record hpushed
  have hwrites := hsteps step hmem
  rcases hpushed with rfl | rfl
  · exact hwrites
  · exact hwrites

end ManagerLog

/-- The bytes of a text are as many as its size says. -/
theorem length_utf8Bytes (text : String) : (utf8Bytes text).length = text.utf8ByteSize := by
  rw [utf8ByteSize_eq]
  unfold utf8Bytes charsBytes
  rw [List.length_flatMap]
  exact congrArg List.sum (List.map_congr_left fun c _ => String.length_utf8EncodeChar c)

/-- The log goes into one frame in every view, but in the debug view only if the
    bytes of the pids in decimal that the log does not count find room as well. -/
theorem log_fits_a_frame {steps : List LogStep} (hsteps : ∀ step ∈ steps, step.Writes)
    (view : LogView)
    (hpids : view = .debug →
      (ManagerLog.after 256 steps).retainedBytes + (ManagerLog.after 256 steps).pidExcess
        ≤ maxPayloadLen) :
    ((ManagerLog.after 256 steps).render view).utf8ByteSize ≤ maxPayloadLen
      ∧ ∀ command, ∃ frame, encodeFrame command
        (utf8Bytes ((ManagerLog.after 256 steps).render view)) = .ok frame := by
  have hexact : (ManagerLog.after 256 steps).Exact := ManagerLog.exact_of_writes hsteps
  have hrendered := hexact.utf8ByteSize_render (ManagerLog.records_of_writes hsteps) view
  have hfits : ((ManagerLog.after 256 steps).render view).utf8ByteSize ≤ maxPayloadLen := by
    by_cases hview : view = .debug
    · rw [if_pos hview] at hrendered
      exact hrendered.trans (hpids hview)
    · rw [if_neg hview] at hrendered
      have hbounded := hexact.bounded
      unfold maxRetainedLogBytes at hbounded
      unfold maxPayloadLen
      omega
  refine ⟨hfits, ?_⟩
  intro command
  unfold encodeFrame
  rw [length_utf8Bytes, if_neg (Nat.not_lt.mpr hfits)]
  exact ⟨_, rfl⟩

/-! ### A long list of pids -/

/-- The text of the pids is part of the debug text. -/
theorem pidsText_le_debugText {operation : ControlOperation} (hpids : pidsText operation ≠ "") :
    (pidsText operation).utf8ByteSize ≤ (operationToDebugText operation).utf8ByteSize := by
  have hcontext : (pidsText operation).utf8ByteSize
      ≤ (legacyContextSuffix operation (pidsText operation)).utf8ByteSize := by
    unfold legacyContextSuffix
    dsimp only
    rw [if_neg hpids, String.utf8ByteSize_append]
    simp only [List.cons_append, List.nil_append]
    rw [String.intercalate_cons_cons, String.utf8ByteSize_append, String.utf8ByteSize_append]
    have hpart : ∀ rest : List String, (pidsText operation).utf8ByteSize
        ≤ (" ".intercalate (("PID:" ++ pidsText operation) :: rest)).utf8ByteSize := by
      intro rest
      by_cases hrest : rest = []
      · rw [hrest, String.intercalate_singleton, String.utf8ByteSize_append]
        omega
      · rw [String.intercalate_cons_of_ne_nil hrest]
        simp only [String.utf8ByteSize_append]
        omega
    have hshown := hpart
      ((if trim operation.backend = "" then []
          else ["方式:" ++ sanitizeLegacyField operation.backend])
        ++ ["结果:" ++ legacyResultText operation.result]
        ++ (if trim operation.reason = "" then []
          else ["原因:" ++ sanitizeLegacyField operation.reason])
        ++ (match meaningfulDetails operation.details with
          | some details => ["详情:" ++ sanitizeLegacyField details]
          | none => []))
    omega
  -- Every action shows its context at the end of the message.
  have hmessage : (legacyContextSuffix operation (pidsText operation)).utf8ByteSize
      ≤ (diagnosticOperationMessage operation).utf8ByteSize := by
    unfold diagnosticOperationMessage
    generalize legacyContextSuffix operation (pidsText operation) = context
    unfold operationMessage
    dsimp only
    cases operation.action with
    | unfreeze | terminate | postpone =>
      dsimp only
      split <;> simp only [String.utf8ByteSize_append] <;> omega
    | freeze | fallback | skip | recover =>
      simp only [String.utf8ByteSize_append]
      omega
  have hline : (diagnosticOperationMessage operation).utf8ByteSize
      ≤ (operationToDebugText operation).utf8ByteSize := by
    unfold operationToDebugText legacyTimestampedLine endLine
    split
    · rw [String.utf8ByteSize_append]
      omega
    · rw [String.utf8ByteSize_push, String.utf8ByteSize_append]
      omega
  exact hcontext.trans (hmessage.trans hline)

/-- An operation on `count` processes, whose pids have seven digits. -/
def crowdedOperation (count : Nat) : ControlOperation where
  operationId := 1
  timestampMs := 1000
  packageName := "com.example.app"
  uid         := 10123
  pidList     := List.replicate count 1000000
  action      := .freeze
  backend     := "cgroup.freeze"
  reason      := "control pass"
  result      := .success
  details     := ""

/-- The operation of the sample is one that can occur. -/
theorem crowdedOperation_fits (count : Nat) : (crowdedOperation count).Fits where
  uid  := show 10123 < 2 ^ 32 by decide
  pids pid hpid := by
    rw [List.eq_of_mem_replicate hpid]
    decide

/-- Each pid is printed with a comma. -/
theorem pidsText_crowdedOperation {count : Nat} (hpos : 0 < count) :
    (pidsText (crowdedOperation count)).utf8ByteSize + 1 = count * 8 := by
  have hne : (List.replicate count (1000000 : Int)).map toString ≠ [] := by
    rw [List.map_replicate, ne_eq, List.replicate_eq_nil_iff]
    omega
  have hparts := utf8ByteSize_intercalate "," hne
  rw [List.map_replicate, List.map_replicate, List.sum_replicate] at hparts
  have hpid : (toString (1000000 : Int)).utf8ByteSize = 7 := by decide +kernel
  rw [hpid] at hparts
  show (",".intercalate ((List.replicate count (1000000 : Int)).map toString)).utf8ByteSize + 1 = _
  rw [List.map_replicate]
  exact hparts

/-- So it can be pushed. -/
theorem crowdedOperation_writes (count : Nat) :
    ∀ step ∈ [LogStep.push (.operation (crowdedOperation count))], step.Writes := by
  intro step hstep
  obtain rfl := List.mem_singleton.mp hstep
  refine ⟨Nat.le_refl _, ?_⟩
  intro operation hpayload
  obtain rfl := LogPayload.operation.inj hpayload
  exact crowdedOperation_fits count

/-- What is counted for it: four bytes for each pid. -/
theorem retainedRecordBytes_crowdedOperation (count : Nat) :
    retainedRecordBytes (.operation (crowdedOperation count)) = 168 + count * 4 := by
  have hbytes : operationBytes (crowdedOperation count) = 40 + count * 4 := by
    unfold operationBytes crowdedOperation
    dsimp only
    rw [List.length_replicate]
    have hname : ("com.example.app" : String).utf8ByteSize = 15 := by decide
    have hbackend : ("cgroup.freeze" : String).utf8ByteSize = 13 := by decide
    have hreason : ("control pass" : String).utf8ByteSize = 12 := by decide
    rw [hname, hbackend, hreason, String.utf8ByteSize_empty]
  unfold retainedRecordBytes LogRecord.operation
  dsimp only
  omega

/-- It stays in the log as long as that is below the limit. -/
theorem after_crowdedOperation {count : Nat} (h : count ≤ 200000) :
    (ManagerLog.after 256 [.push (.operation (crowdedOperation count))]).records
      = [.operation (crowdedOperation count)] := by
  have hretained := retainedRecordBytes_crowdedOperation count
  have haccepts : (ManagerLog.new 256).Accepts (.operation (crowdedOperation count)) := by
    refine ⟨rfl, ?_⟩
    unfold maxRetainedLogBytes
    omega
  obtain ⟨⟨evicted, hrecords, -⟩, -⟩ :=
    ManagerLog.push_of_accepts (by decide) rfl haccepts
  show ((ManagerLog.new 256).push (.operation (crowdedOperation count))).records = _
  rw [hrecords]
  have hnone : (ManagerLog.new 256).records.drop evicted = [] := List.drop_nil
  rw [hnone, List.nil_append]

/-- Then the debug view shows it and nothing else. -/
theorem render_crowdedOperation {count : Nat} (h : count ≤ 200000) :
    (ManagerLog.after 256 [.push (.operation (crowdedOperation count))]).render .debug
      = operationToDebugText (crowdedOperation count) := by
  have hvisible : recordIsVisible (.operation (crowdedOperation count)) .debug = true := rfl
  have hrendered : renderRecord (.operation (crowdedOperation count)) .debug
      = operationToDebugText (crowdedOperation count) := by
    unfold renderRecord LogRecord.operation
    dsimp only
    rw [if_pos (Eq.refl LogView.debug)]
  unfold ManagerLog.render
  rw [after_crowdedOperation h, List.filter_cons, if_pos hvisible, List.filter_nil,
    List.map_singleton, hrendered, String.join_cons, String.join_nil, String.append_empty]

/-- With two pids the text fits. -/
theorem log_fits_a_frame_sample :
    ((ManagerLog.after 256 [.push (.operation (crowdedOperation 2))]).render .debug).utf8ByteSize
      ≤ maxPayloadLen :=
  (log_fits_a_frame (crowdedOperation_writes 2) .debug fun _ => by decide +kernel).1

/-- The pids take eight bytes each, of which the log counts four. -/
theorem crowded_log_exceeds_the_frame :
    ¬ ∀ steps : List LogStep, (∀ step ∈ steps, step.Writes) → ∀ view,
        ((ManagerLog.after 256 steps).render view).utf8ByteSize ≤ maxPayloadLen := by
  intro hclaim
  have hfits := hclaim _ (crowdedOperation_writes 150000) .debug
  have hbytes := pidsText_crowdedOperation (show 0 < 150000 by decide)
  have hpids : pidsText (crowdedOperation 150000) ≠ "" := by
    intro hempty
    rw [hempty, String.utf8ByteSize_empty] at hbytes
    omega
  have hshown := pidsText_le_debugText hpids
  rw [render_crowdedOperation (by decide)] at hfits
  unfold maxPayloadLen at hfits
  omega

end Freezeit
