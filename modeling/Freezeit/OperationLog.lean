import Freezeit.Domain

/-! # The bounded operation log -/

namespace Freezeit

/-- A ring of the latest operations. -/
structure OperationLog where
  capacity : Nat
  records  : List ControlOperation
  deriving DecidableEq, Repr

namespace OperationLog

/-- An empty ring with room for at least one operation. -/
def new (capacity : Nat) : OperationLog := ⟨max capacity 1, []⟩

/-- An operation goes to the end; a full ring loses its first one. -/
def push (log : OperationLog) (operation : ControlOperation) : OperationLog :=
  if log.records.length = log.capacity then
    { log with records := log.records.tail ++ [operation] }
  else { log with records := log.records ++ [operation] }

end OperationLog

/-! ## The log as JSON -/

/-- The name of an action in JSON. -/
def actionName : ControlAction → String
  | .freeze    => "freeze"
  | .unfreeze  => "unfreeze"
  | .terminate => "terminate"
  | .postpone  => "postpone"
  | .fallback  => "fallback"
  | .skip      => "skip"
  | .recover   => "recover"

/-- The name of a result in JSON. -/
def resultName : OperationResult → String
  | .success   => "success"
  | .partially => "partial"
  | .failed    => "failed"
  | .skipped   => "skipped"
  | .postponed => "postponed"

/-- A control character as four hexadecimal digits. -/
def escapeControlChar (c : Char) : List Char :=
  let digits := Nat.toDigits 16 c.toNat
  '\\' :: 'u' :: List.replicate (4 - digits.length) '0' ++ digits

/-- What is written for a character. -/
def escapeJsonChar (c : Char) : List Char :=
  if c = '"' then ['\\', '"']
  else if c = '\\' then ['\\', '\\']
  else if c = '\n' then ['\\', 'n']
  else if c = '\r' then ['\\', 'r']
  else if c = '\t' then ['\\', 't']
  else if c.toNat < 0x20 then escapeControlChar c
  else [c]

/-- A text with what has to be escaped. -/
def escapeJson (value : String) : String := String.ofList (value.toList.flatMap escapeJsonChar)

/-- A text as a JSON string. -/
def jsonString (value : String) : String := "\"" ++ escapeJson value ++ "\""

/-- An operation as a JSON object. -/
def operationToJson (operation : ControlOperation) : String :=
  let pids := ",".intercalate (operation.pidList.map toString)
  let fields :=
    [("operationId", toString operation.operationId),
     ("timestampMs", toString operation.timestampMs),
     ("packageName", jsonString operation.packageName),
     ("uid", toString operation.uid),
     ("pidList", "[" ++ pids ++ "]"),
     ("action", "\"" ++ actionName operation.action ++ "\""),
     ("backend", jsonString operation.backend),
     ("reason", jsonString operation.reason),
     ("result", "\"" ++ resultName operation.result ++ "\""),
     ("details", jsonString operation.details)]
  "\x7b" ++ ",".intercalate (fields.map fun (name, value) => "\"" ++ name ++ "\":" ++ value)
    ++ "\x7d"

/-- The ring as a JSON object. -/
def OperationLog.toJson (log : OperationLog) : String :=
  "\x7b\"operations\":[" ++ ",".intercalate (log.records.map operationToJson) ++ "]\x7d"

end Freezeit
