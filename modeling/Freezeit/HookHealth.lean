import Freezeit.Lib.Text
import Freezeit.Lib.Utf8
import Freezeit.ManagerState

/-! # The health of the hook

    `classify_hook_health_payload` and `classify_bridge_error`.  The report is
    scanned as bytes; only one field at its top level is read. -/

namespace Freezeit

/-- How the daemon sees the hook: active, not there, or there but not usable. -/
inductive HookBridgeStatus where
  | active
  | missing (message : String)
  | degraded (message : String)
  deriving DecidableEq, Repr

namespace HookBridgeStatus

/-- Only an active hook permits control. -/
def isReadyForControl : HookBridgeStatus → Bool
  | .active => true
  | _       => false

/-- The label that the manager app and the control loop go by. -/
def healthLabel : HookBridgeStatus → String
  | .active     => "active"
  | .missing _  => "missing"
  | .degraded _ => "degraded"

end HookBridgeStatus

/-! ## Scanning JSON -/

/-- A byte that is one ASCII character. -/
def asciiByte (c : Char) : UInt8 := UInt8.ofNat c.toNat

/-- The four blanks of JSON. -/
def isJsonWhitespace (byte : UInt8) : Bool :=
  byte = asciiByte ' ' || byte = asciiByte '\n' || byte = asciiByte '\r' || byte = asciiByte '\t'

/-- The bytes from the first one that is no blank. -/
def skipJsonWhitespace (bytes : Bytes) : Bytes := bytes.dropWhile isJsonWhitespace

/-- `u8::is_ascii_hexdigit`. -/
def isAsciiHexDigit (byte : UInt8) : Bool :=
  (asciiByte '0' ≤ byte && byte ≤ asciiByte '9') || (asciiByte 'a' ≤ byte && byte ≤ asciiByte 'f')
    || (asciiByte 'A' ≤ byte && byte ≤ asciiByte 'F')

/-- What a one-letter escape stands for. -/
def jsonEscape (escaped : UInt8) : Option Char :=
  if escaped = asciiByte '"' then some '"'
  else if escaped = asciiByte '\\' then some '\\'
  else if escaped = asciiByte '/' then some '/'
  else if escaped = asciiByte 'b' then some (Char.ofNat 0x08)
  else if escaped = asciiByte 'f' then some (Char.ofNat 0x0c)
  else if escaped = asciiByte 'n' then some '\n'
  else if escaped = asciiByte 'r' then some '\r'
  else if escaped = asciiByte 't' then some '\t'
  else none

/-- What follows the opening quote: the characters, and the bytes after the closing one. -/
def jsonStringBody : Bytes → Option (List Char × Bytes)
  | [] => none
  | byte :: rest =>
    if byte = asciiByte '"' then some ([], rest)
    else if byte = asciiByte '\\' then
      match rest with
      | [] => none
      | escaped :: rest =>
        match jsonEscape escaped with
        | some c => (jsonStringBody rest).map fun (value, after) => (c :: value, after)
        | none =>
          if escaped = asciiByte 'u' then
            match rest with
            | a :: b :: c :: d :: rest =>
              if [a, b, c, d].all isAsciiHexDigit then
                -- The code unit itself is not read.
                (jsonStringBody rest).map fun (value, after) => ('?' :: value, after)
              else none
            | _ => none
          else none
    else if byte < 0x20 then none
    else (jsonStringBody rest).map fun (value, after) => (Char.ofNat byte.toNat :: value, after)

/-- A string at the head of the bytes, with what follows it. -/
def parseJsonString (bytes : Bytes) : Option (String × Bytes) :=
  match bytes with
  | byte :: rest =>
    if byte = asciiByte '"' then
      (jsonStringBody rest).map fun (value, after) => (String.ofList value, after)
    else none
  | [] => none

/-- A literal at the head of the bytes; what follows it is not looked at. -/
def consumeJsonLiteral (literal : String) (bytes : Bytes) : Option Bytes :=
  let literal := literal.toList.map asciiByte
  if literal.isPrefixOf bytes then some (bytes.drop literal.length) else none

/-- The bytes that the scan takes for a number, in any order. -/
def isJsonNumberByte (byte : UInt8) : Bool :=
  (asciiByte '0' ≤ byte && byte ≤ asciiByte '9') || byte = asciiByte '+' || byte = asciiByte '-'
    || byte = asciiByte '.' || byte = asciiByte 'e' || byte = asciiByte 'E'

/-- The depth from which on the scan gives up. -/
def maxHealthJsonNesting : Nat := 64

/-- Why a scan stops early.  `malformed` is the error of the source; the fuel never
    runs out, see `hookControlStatus_ends`. -/
inductive ScanError where
  | malformed | outOfFuel
  deriving DecidableEq, Repr

/-- A part that is missing makes the payload malformed. -/
def orMalformed {α : Type} : Option α → Except ScanError α
  | some a => .ok a
  | none   => .error .malformed

/-! `skip_json_value` and its two loops.  Every byte is passed at most twice,
    so twice the length is enough fuel. -/

mutual

/-- One value, skipped without being read. The fuel stands for the recursion of the
    source, which the length of the payload bounds. -/
def skipJsonValue : Nat → Nat → Bytes → Except ScanError Bytes
  | 0, _, _ => .error .outOfFuel
  | fuel + 1, depth, bytes =>
    match skipJsonWhitespace bytes with
    | [] => .error .malformed
    | byte :: rest =>
      if byte = asciiByte '"' then orMalformed ((parseJsonString (byte :: rest)).map Prod.snd)
      else if byte = asciiByte '\x7b' then
        if depth ≥ maxHealthJsonNesting then .error .malformed
        else
          let rest := skipJsonWhitespace rest
          if rest.head? = some (asciiByte '\x7d') then .ok rest.tail
          else skipJsonMembers fuel depth rest
      else if byte = asciiByte '[' then
        if depth ≥ maxHealthJsonNesting then .error .malformed
        else
          let rest := skipJsonWhitespace rest
          if rest.head? = some (asciiByte ']') then .ok rest.tail
          else skipJsonElements fuel depth rest
      else if byte = asciiByte 't' then orMalformed (consumeJsonLiteral "true" (byte :: rest))
      else if byte = asciiByte 'f' then orMalformed (consumeJsonLiteral "false" (byte :: rest))
      else if byte = asciiByte 'n' then orMalformed (consumeJsonLiteral "null" (byte :: rest))
      else if byte = asciiByte '-' || (asciiByte '0' ≤ byte && byte ≤ asciiByte '9') then
        .ok (rest.dropWhile isJsonNumberByte)
      else .error .malformed

/-- The members of an object, from the first name to the closing brace. -/
def skipJsonMembers : Nat → Nat → Bytes → Except ScanError Bytes
  | 0, _, _ => .error .outOfFuel
  | fuel + 1, depth, bytes => do
    let (_, rest) ← orMalformed (parseJsonString bytes)
    match skipJsonWhitespace rest with
    | byte :: rest =>
      if byte = asciiByte ':' then
        match skipJsonWhitespace (← skipJsonValue fuel (depth + 1) rest) with
        | byte :: rest =>
          if byte = asciiByte ',' then skipJsonMembers fuel depth (skipJsonWhitespace rest)
          else if byte = asciiByte '\x7d' then .ok rest
          else .error .malformed
        | [] => .error .malformed
      else .error .malformed
    | [] => .error .malformed

/-- The elements of an array, from the first one to the closing bracket. -/
def skipJsonElements : Nat → Nat → Bytes → Except ScanError Bytes
  | 0, _, _ => .error .outOfFuel
  | fuel + 1, depth, bytes => do
    match skipJsonWhitespace (← skipJsonValue fuel (depth + 1) bytes) with
    | byte :: rest =>
      if byte = asciiByte ',' then skipJsonElements fuel depth (skipJsonWhitespace rest)
      else if byte = asciiByte ']' then .ok rest
      else .error .malformed
    | [] => .error .malformed

end

/-- The end of the object: only blanks may follow. -/
def endOfJsonObject (rest : Bytes) (value : Option String) : Except ScanError (Option String) :=
  if (skipJsonWhitespace rest).isEmpty then .ok value else .error .malformed

/-- The value of a member: read if it is the field, else skipped. -/
def topLevelJsonValue (field key : String) (rest : Bytes) (value : Option String) :
    Except ScanError (Option String × Bytes) :=
  if key = field then
    orMalformed ((parseJsonString rest).map fun (text, rest) => (some text, rest))
  else (skipJsonValue (2 * rest.length + 2) 0 rest).map fun rest => (value, rest)

/-- The loop of `top_level_json_string_field`. -/
def topLevelJsonMembers (field : String) :
    Nat → Bytes → Option String → Except ScanError (Option String)
  | 0, _, _ => .error .outOfFuel
  | fuel + 1, bytes, value => do
    let bytes := skipJsonWhitespace bytes
    if bytes.head? = some (asciiByte '\x7d') then endOfJsonObject bytes.tail value
    else
      let (key, rest) ← orMalformed (parseJsonString bytes)
      match skipJsonWhitespace rest with
      | byte :: rest =>
        if byte = asciiByte ':' then
          let (value, rest) ← topLevelJsonValue field key (skipJsonWhitespace rest) value
          match skipJsonWhitespace rest with
          | byte :: rest =>
            if byte = asciiByte ',' then topLevelJsonMembers field fuel rest value
            else if byte = asciiByte '\x7d' then endOfJsonObject rest value
            else .error .malformed
          | [] => .error .malformed
        else .error .malformed
      | [] => .error .malformed

/-- The last value of a field of the top-level object, which has to be a string. -/
def topLevelJsonStringField (payload : Bytes) (field : String) :
    Except ScanError (Option String) :=
  match skipJsonWhitespace payload with
  | byte :: rest =>
    if byte = asciiByte '\x7b' then topLevelJsonMembers field (rest.length + 1) rest none
    else .error .malformed
  | [] => .error .malformed

/-! ## Classification -/

/-- What is not recognised counts as degraded, with the payload in the message. -/
def unrecognizedHealth (payload : String) : HookBridgeStatus :=
  .degraded s!"unrecognized hook health payload: {payload}"

/-- The status that decides: older hooks only have the aggregate one. -/
def hookControlStatus (payload : Bytes) : Except ScanError (Option String) :=
  match topLevelJsonStringField payload "system_control_status" with
  | .ok (some status) => .ok (some status)
  | .ok none          => topLevelJsonStringField payload "status"
  | .error error      => .error error

/-- The status that a health report stands for. -/
def classifyHookHealthPayload (payload : String) : HookBridgeStatus :=
  match hookControlStatus (utf8Bytes payload) with
  | .error _   => unrecognizedHealth payload
  | .ok status =>
    if status = some "active" then .active
    else if status = some "degraded" ∨ status = some "inactive" ∨ status = some "missing" then
      .degraded payload
    else unrecognizedHealth payload

/-- An error that says that nobody listens means that the hook is missing. -/
def classifyBridgeError (error : DaemonError) : HookBridgeStatus :=
  let message := toString error
  if Text.contains message "No such file" ∨ Text.contains message "Connection refused"
      ∨ Text.contains message "not found" then
    .missing message
  else .degraded message

end Freezeit
