import Freezeit.Lib.JsonReader
import Freezeit.Lib.JsonWriter
import Freezeit.OperationLog

/-! # The operation log as JSON

    The text that `to_json` writes by hand stands for a JSON value, and the
    records are taken out of that value again. -/

namespace Freezeit

open Json (IsPart IsString IsStringBody)

/-! ## The value of a log -/

/-- The object that a record is written as, with its members in the order of the text. -/
def ControlOperation.toValue (operation : ControlOperation) : Json :=
  .object
    [("operationId", .number operation.operationId),
     ("timestampMs", .number operation.timestampMs),
     ("packageName", .string operation.packageName),
     ("uid", .number operation.uid),
     ("pidList", .array (operation.pidList.map fun pid : Int => .number pid)),
     ("action", .string (actionName operation.action)),
     ("backend", .string operation.backend),
     ("reason", .string operation.reason),
     ("result", .string (resultName operation.result)),
     ("details", .string operation.details)]

/-- The object that the log is written as. -/
def OperationLog.toValue (log : OperationLog) : Json :=
  .object [("operations", .array (log.records.map ControlOperation.toValue))]

/-! ## Records from a value -/

/-- Every action, so that a name can be looked up. -/
def actions : List ControlAction :=
  [.freeze, .unfreeze, .terminate, .postpone, .fallback, .skip, .recover]

def results : List OperationResult := [.success, .partially, .failed, .skipped, .postponed]

/-- A record from an object. Each member has to be there with the right kind of value, and
    the two names have to be among those that are written. -/
def decodeOperation (v : Json) : Option ControlOperation := do
  let action ← (v.field "action").bind Json.string?
  let result ← (v.field "result").bind Json.string?
  return {
    operationId := ← (v.field "operationId").bind Json.nat?
    timestampMs := ← (v.field "timestampMs").bind Json.nat?
    packageName := ← (v.field "packageName").bind Json.string?
    uid         := ← (v.field "uid").bind Json.nat?
    pidList     := ← ((v.field "pidList").bind Json.array?).bind fun pids => pids.mapM Json.int?
    action      := ← actions.find? fun a => actionName a = action
    backend     := ← (v.field "backend").bind Json.string?
    reason      := ← (v.field "reason").bind Json.string?
    result      := ← results.find? fun r => resultName r = result
    details     := ← (v.field "details").bind Json.string? }

/-- The records of a log, or none at all when one of them cannot be read. -/
def decodeOperations (v : Json) : Option (List ControlOperation) := do
  let records ← (v.field "operations").bind Json.array?
  records.mapM decodeOperation

/-- If `g` undoes `f`, it undoes a list of them. -/
theorem mapM_map_eq_some {α β : Type} {f : α → β} {g : β → Option α}
    (h : ∀ a, g (f a) = some a) (xs : List α) : (xs.map f).mapM g = some xs := by
  induction xs with
  | nil => rfl
  | cons x xs ih =>
    rw [List.map_cons, List.mapM_cons, h, ih]
    rfl

theorem find?_actionName (a : ControlAction) :
    (actions.find? fun b => actionName b = actionName a) = some a := by
  cases a <;> decide

theorem find?_resultName (r : OperationResult) :
    (results.find? fun s => resultName s = resultName r) = some r := by
  cases r <;> decide

/-- No field is lost or changed on the way through the value. -/
theorem decodeOperation_toValue (operation : ControlOperation) :
    decodeOperation operation.toValue = some operation := by
  have hpids : ((operation.pidList.map fun pid : Int => Json.number pid).mapM Json.int?)
      = some operation.pidList := mapM_map_eq_some Json.int?_intCast _
  simp [decodeOperation, ControlOperation.toValue, Json.field, Json.string?, Json.array?, hpids,
    find?_actionName, find?_resultName, -List.mapM_map]

theorem decodeOperations_toValue (log : OperationLog) :
    decodeOperations log.toValue = some log.records := by
  have hrecords : (log.records.map ControlOperation.toValue).mapM decodeOperation
      = some log.records := mapM_map_eq_some decodeOperation_toValue _
  simpa [decodeOperations, OperationLog.toValue, Json.field, Json.array?] using hrecords

/-! ## Strings -/

/-- A control character is written with four hexadecimal digits. -/
theorem escapeControlChar_eq {c : Char} (h : c.toNat < 0x20) :
    ∃ a b d e, escapeControlChar c = ['\\', 'u', a, b, d, e]
      ∧ Json.hexValue a b d e = some c.toNat := by
  unfold escapeControlChar
  generalize c.toNat = n at h
  interval_cases n <;> exact ⟨_, _, _, _, rfl, by decide⟩

/-- One character of a string, escaped, is one code unit. -/
theorem isStringBody_escapeJsonChar (c : Char) {cs : List Char} {us : List Nat}
    (h : IsStringBody cs us) : IsStringBody (escapeJsonChar c ++ cs) (c.toNat :: us) := by
  unfold escapeJsonChar
  -- The cases follow the order of the tests in `escape_json`: the five characters with a
  -- short escape, then the other control characters, then what is copied.
  by_cases hquote : c = '"'
  · rw [if_pos hquote, hquote]
    exact .escape (by decide) h
  rw [if_neg hquote]
  by_cases hbackslash : c = '\\'
  · rw [if_pos hbackslash, hbackslash]
    exact .escape (by decide) h
  rw [if_neg hbackslash]
  by_cases hnewline : c = '\n'
  · rw [if_pos hnewline, hnewline]
    exact .escape (by decide) h
  rw [if_neg hnewline]
  by_cases hreturn : c = '\r'
  · rw [if_pos hreturn, hreturn]
    exact .escape (by decide) h
  rw [if_neg hreturn]
  by_cases htab : c = '\t'
  · rw [if_pos htab, htab]
    exact .escape (by decide) h
  rw [if_neg htab]
  by_cases hcontrol : c.toNat < 0x20
  · obtain ⟨a, b, d, e, heq, hvalue⟩ := escapeControlChar_eq hcontrol
    rw [if_pos hcontrol, heq]
    exact .unicode hvalue h
  · rw [if_neg hcontrol]
    exact .plain ⟨by omega, hquote, hbackslash⟩ h

/-- A whole text, escaped and closed by its quote, is the body of a string. -/
theorem isStringBody_escapeJson (cs : List Char) :
    IsStringBody (cs.flatMap escapeJsonChar ++ ['"']) (cs.map Char.toNat) := by
  induction cs with
  | nil => exact .close
  | cons c cs ih =>
    rw [List.flatMap_cons, List.append_assoc, List.map_cons]
    exact isStringBody_escapeJsonChar c ih

theorem toList_quoted (s : String) : ("\"" ++ s ++ "\"").toList = '"' :: (s.toList ++ ['"']) := by
  rw [String.toList_append, String.toList_append]
  rfl

/-- What `json_string` writes is a JSON string that reads as the text. -/
theorem isString_jsonString (s : String) : IsString (jsonString s).toList s := by
  have hbody := IsString.quoted (isStringBody_escapeJson s.toList)
  rw [Json.spell_toNat, String.ofList_toList] at hbody
  unfold jsonString escapeJson
  rw [toList_quoted, String.toList_ofList]
  exact hbody

/-- Nothing in the text needs an escape. -/
def Unescaped (s : String) : Prop := escapeJson s = s

instance (s : String) : Decidable (Unescaped s) := inferInstanceAs (Decidable (_ = _))

/-- Names that the daemon writes between quotes without escaping them. -/
theorem isString_unescaped {s : String} (h : Unescaped s) : IsString ("\"" ++ s ++ "\"").toList s := by
  have hstring := isString_jsonString s
  unfold jsonString at hstring
  rw [h] at hstring
  exact hstring

theorem unescaped_actionName (a : ControlAction) : Unescaped (actionName a) := by
  unfold Unescaped
  cases a <;> decide

theorem unescaped_resultName (r : OperationResult) : Unescaped (resultName r) := by
  unfold Unescaped
  cases r <;> decide

/-! ## A record and the log -/

theorem toList_intercalate_comma (ss : List String) :
    (",".intercalate ss).toList = [','].intercalate (ss.map String.toList) :=
  String.toList_intercalate

/-- The pids, joined by commas between brackets, are an array of numbers. -/
theorem isPart_pidList (pids : List Int) :
    IsPart .value ("[" ++ ",".intercalate (pids.map toString) ++ "]").toList
      (.array (pids.map fun pid : Int => .number pid)) := by
  rw [String.toList_append, String.toList_append, toList_intercalate_comma, List.map_map]
  exact Json.isPart_array Json.isPart_int pids

section
variable (operation : ControlOperation)

/-- The members of a record, with what each is written as. -/
def ControlOperation.members : List Json.Member :=
  [⟨_, "operationId", _, _, isString_unescaped (by decide), Json.isPart_nat operation.operationId⟩,
   ⟨_, "timestampMs", _, _, isString_unescaped (by decide), Json.isPart_nat operation.timestampMs⟩,
   ⟨_, "packageName", _, _, isString_unescaped (by decide),
    .string (isString_jsonString operation.packageName)⟩,
   ⟨_, "uid", _, _, isString_unescaped (by decide), Json.isPart_nat operation.uid⟩,
   ⟨_, "pidList", _, _, isString_unescaped (by decide), isPart_pidList operation.pidList⟩,
   ⟨_, "action", _, _, isString_unescaped (by decide),
    .string (isString_unescaped (unescaped_actionName operation.action))⟩,
   ⟨_, "backend", _, _, isString_unescaped (by decide),
    .string (isString_jsonString operation.backend)⟩,
   ⟨_, "reason", _, _, isString_unescaped (by decide),
    .string (isString_jsonString operation.reason)⟩,
   ⟨_, "result", _, _, isString_unescaped (by decide),
    .string (isString_unescaped (unescaped_resultName operation.result))⟩,
   ⟨_, "details", _, _, isString_unescaped (by decide),
    .string (isString_jsonString operation.details)⟩]

theorem isPart_operationToJson :
    IsPart .value (operationToJson operation).toList operation.toValue := by
  have hne : operation.members ≠ [] := by simp [ControlOperation.members]
  -- The text is one format string; cut at its commas it is the list of members.
  have htext : (operationToJson operation).toList
      = '\x7b' :: ([','].intercalate (operation.members.map Json.Member.text) ++ ['\x7d']) := by
    unfold operationToJson
    rw [String.toList_append, String.toList_append, toList_intercalate_comma, List.map_map]
    simp only [ControlOperation.members, List.map_cons, List.map_nil, Json.Member.text,
      Function.comp_apply, String.toList_append, List.append_assoc]
    rfl
  rw [htext]
  exact Json.isPart_object hne

end

/-- The one member of the log. -/
def OperationLog.member (log : OperationLog) : Json.Member :=
  ⟨_, "operations", _, _, isString_unescaped (by decide),
    Json.isPart_array isPart_operationToJson log.records⟩

theorem isPart_toJson (log : OperationLog) : IsPart .value log.toJson.toList log.toValue := by
  have hne : [log.member] ≠ [] := by simp
  have htext : log.toJson.toList = '\x7b' ::
      ([','].intercalate ([log.member].map Json.Member.text) ++ ['\x7d']) := by
    unfold OperationLog.toJson
    rw [String.toList_append, String.toList_append, toList_intercalate_comma, List.map_map,
      List.map_singleton, List.intercalate_singleton]
    unfold Json.Member.text OperationLog.member
    simp only [List.append_assoc, List.cons_append]
    rfl
  rw [htext]
  exact Json.isPart_object hne

/-- The log is written as JSON, and a JSON reader gives back every field of
    every record, in order. -/
theorem operation_log_round_trips (log : OperationLog) :
    Json.IsText log.toJson.toList log.toValue
      ∧ Json.read log.toJson.toList = some log.toValue
      ∧ decodeOperations log.toValue = some log.records := by
  have htext : Json.IsText log.toJson.toList log.toValue := by
    -- Nothing stands around the object, so the blanks on both sides are empty.
    have hvalue := Json.IsText.text Json.isBlanks_nil (isPart_toJson log) Json.isBlanks_nil
    rw [List.nil_append, List.append_nil] at hvalue
    exact hvalue
  exact ⟨htext, Json.read_complete htext, decodeOperations_toValue log⟩

end Freezeit
