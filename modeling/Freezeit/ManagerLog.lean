import Freezeit.Domain

/-! # The log that the manager shows

    A bounded buffer of records.  A record keeps the capacity of its text
    buffers, which is what its share of the retained bytes is computed from. -/

namespace Freezeit

/-- How serious a record is. -/
inductive LogLevel where
  | info | warn | error | critical | debug
  deriving DecidableEq, Repr

/-- What a record is about. -/
inductive LogCategory where
  | legacyOperation | diagnostic | fault
  deriving DecidableEq, Repr

/-- What a record says. -/
inductive LogPayload where
  | text (message : String)
  | verifiedLegacyLine (line : String)
  | operation (operation : ControlOperation)
  deriving DecidableEq, Repr

/-- A record of the log. -/
structure LogRecord where
  level       : LogLevel
  category    : LogCategory
  timestampMs : Nat
  payload     : LogPayload
  /-- The bytes that the buffers of the payload have allocated. -/
  capacity    : Nat
  deriving DecidableEq, Repr

namespace LogRecord

/-- A buffer that was allocated for its contents. -/
def ofText (level : LogLevel) (category : LogCategory) (timestampMs : Nat) (message : String) :
    LogRecord :=
  ⟨level, category, timestampMs, .text message, message.utf8ByteSize⟩

/-- A message of the older kind. -/
def legacyText (timestampMs : Nat) (message : String) : LogRecord :=
  ofText .info .legacyOperation timestampMs message

/-- A diagnostic message. -/
def diagnostic (level : LogLevel) (timestampMs : Nat) (message : String) : LogRecord :=
  ofText level .diagnostic timestampMs message

/-- A message about a fault. -/
def fault (level : LogLevel) (timestampMs : Nat) (message : String) : LogRecord :=
  ofText level .fault timestampMs message

end LogRecord

/-- The level of an operation, by its result. -/
def operationLogLevel (operation : ControlOperation) : LogLevel :=
  match operation.result with
  | .partially                       => .warn
  | .failed                          => .error
  | .success | .skipped | .postponed => .info

/-- The bytes of a cloned operation: its texts, and four for each pid. -/
def operationBytes (operation : ControlOperation) : Nat :=
  operation.packageName.utf8ByteSize + operation.backend.utf8ByteSize
    + operation.reason.utf8ByteSize + operation.details.utf8ByteSize + operation.pidList.length * 4

/-- The record of an operation. -/
def LogRecord.operation (operation : ControlOperation) : LogRecord :=
  ⟨operationLogLevel operation, .legacyOperation, operation.timestampMs, .operation operation,
    operationBytes operation⟩

/-- The bytes that the payload holds. -/
def LogPayload.contentBytes : LogPayload → Nat
  | .text message            => message.utf8ByteSize
  | .verifiedLegacyLine line => line.utf8ByteSize
  | .operation logged        => operationBytes logged

/-- A copy is allocated for its contents. -/
def LogRecord.clone (record : LogRecord) : LogRecord :=
  { record with capacity := record.payload.contentBytes }

/-- What a record counts: its buffers, and a constant for the rest. -/
def retainedRecordBytes (record : LogRecord) : Nat := 128 + record.capacity

/-- The limit for what all records count together. -/
def maxRetainedLogBytes : Nat := 1000000

/-- The log that the manager app shows. -/
structure ManagerLog where
  capacity                   : Nat
  records                    : List LogRecord
  retainedBytes              : Nat
  highestOperationId         : Nat
  operationTimestampCutoffMs : Option Nat
  contentVersion             : Nat
  deriving DecidableEq, Repr

namespace ManagerLog

/-- An empty log with room for at least one record. -/
def new (capacity : Nat) : ManagerLog := ⟨max capacity 1, [], 0, 0, none, 0⟩

/-- The log of the daemon. -/
def default : ManagerLog := .new 256

/-- The same log with the records cloned, which gives up spare capacity. -/
def clone (log : ManagerLog) : ManagerLog :=
  { log with records := log.records.map LogRecord.clone }

/-- The log has changed. -/
def bumpContentVersion (log : ManagerLog) : ManagerLog :=
  { log with contentVersion := min (log.contentVersion + 1) (2 ^ 64 - 1) }

/-- An operation that was cleared away or that the log has had already. -/
def rejects (log : ManagerLog) (record : LogRecord) : Bool :=
  match record.payload with
  | .operation operation =>
    log.operationTimestampCutoffMs.any (fun cutoff => operation.timestampMs ≤ cutoff)
      || if operation.operationId ≠ 0 then operation.operationId ≤ log.highestOperationId
         else log.records.any fun existing => existing.payload = .operation operation
  | _ => false

/-- Drop records from the front until a new one of `recordBytes` fits. -/
def evict (capacity recordBytes : Nat) : List LogRecord → Nat → List LogRecord × Nat
  | [], retained => ([], retained)
  | evicted :: rest, retained =>
    if rest.length + 1 ≥ capacity ∨ retained + recordBytes > maxRetainedLogBytes then
      evict capacity recordBytes rest (retained - retainedRecordBytes evicted)
    else (evicted :: rest, retained)

/-- A record goes to the end, and old ones go from the front as far as needed. An
    operation counts once, by its id. -/
def push (log : ManagerLog) (record : LogRecord) : ManagerLog :=
  let recordBytes := retainedRecordBytes record
  if log.rejects record || recordBytes > maxRetainedLogBytes then log
  else
    let (kept, retained) := evict log.capacity recordBytes log.records log.retainedBytes
    let highest :=
      match record.payload with
      | .operation operation =>
        if operation.operationId ≠ 0 then operation.operationId else log.highestOperationId
      | _ => log.highestOperationId
    { log with
      records            := kept ++ [record]
      retainedBytes      := retained + recordBytes
      highestOperationId := highest }.bumpContentVersion

/-- A record is pushed unless the log has one that says the same. -/
def pushOnce (log : ManagerLog) (record : LogRecord) : ManagerLog :=
  if log.records.any fun existing => existing.level = record.level
      ∧ existing.category = record.category ∧ existing.payload = record.payload then log
  else log.push record

/-- The records go; older operations are not taken again after that. -/
def clear (log : ManagerLog) (nowMs : Nat) : ManagerLog :=
  let cleared : ManagerLog :=
    { log with operationTimestampCutoffMs := some nowMs, records := [], retainedBytes := 0 }
  if log.records.isEmpty then cleared else cleared.bumpContentVersion

end ManagerLog

end Freezeit
