import Freezeit.HookHealthReport
import Freezeit.HookRegistry
import Freezeit.Lib.JsonObjects
import Freezeit.Lib.JsonReplace

/-! # The report of the hooks

    `HookHealthRegistry.toJson` and `ScopedHealthReport`, and what the daemon
    makes of the report: the way from the calls of the hooks to the word that
    the daemon reads. -/

namespace Freezeit

open Json (Field IsBareWord IsObjectText IsPart IsStringBody Member objectText objectValue)

/-! ## Writing the registry -/

/-- One character of `HookHealthRegistry.escape`. -/
def escapeHookChar (character : Char) : List Char :=
  if character = '\x08' then ['\\', 'b']
  else if character = '\t' then ['\\', 't']
  else if character = '\n' then ['\\', 'n']
  else if character = '\x0c' then ['\\', 'f']
  else if character = '\r' then ['\\', 'r']
  else if character = '"' then ['\\', '"']
  else if character = '\\' then ['\\', '\\']
  else if character.toNat < 0x20 then
    ['\\', 'u', '0', '0', Nat.digitChar ((character.toNat >>> 4) &&& 0x0f),
      Nat.digitChar (character.toNat &&& 0x0f)]
  else [character]

/-- `HookHealthRegistry.escape`; nothing is written for `null`. -/
def escapeHookText (value : Option String) : String :=
  match value with
  | none       => ""
  | some value => String.ofList (value.toList.flatMap escapeHookChar)

/-- A text in quotes, with nothing escaped. -/
def quotedText (text : String) : String := "\"" ++ text ++ "\""

namespace HookHealth

/-- A hook without a failure counts as active. -/
def status (health : HookHealth) : String :=
  if health.failureStage.isNone then "active" else "degraded"

def toJson (health : HookHealth) : String :=
  objectText
    [("id", quotedText (escapeHookText (some health.id))),
     ("critical", toString health.critical),
     ("status", quotedText health.status),
     ("class_resolved", toString health.classResolved),
     ("method_matched", toString health.methodMatched),
     ("registered", toString health.registered),
     ("runtime_invocations", toString health.runtimeInvocations),
     ("stage", quotedText (escapeHookText health.failureStage)),
     ("error_type", quotedText (escapeHookText health.errorType)),
     ("error_message", quotedText (escapeHookText health.errorMessage))]

end HookHealth

namespace HookHealthRegistry

section
variable (order : List HookHealth)

/-- Some critical hook in the list has failed. -/
def degradedIn : Bool := order.any fun health => health.critical && health.failureStage.isSome

/-- The sum of the counts, with the overflow of Java. -/
def registeredIn : Int := order.foldl (fun sum health => javaInt (sum + health.registered)) 0

/-- The sum of the invocations, in 64 bits. -/
def runtimeInvocationsIn : Int :=
  order.foldl (fun sum health => javaLong (sum + health.runtimeInvocations)) 0

/-- The status of a whole report, which depends on the failures of critical hooks and on
    whether there was any registration. -/
def statusIn : String :=
  if degradedIn order then "degraded" else if registeredIn order = 0 then "inactive" else "active"

/-- The text of the registry when its hooks are visited in the order given. -/
def toJson (registry : HookHealthRegistry) : String :=
  objectText
    [("status", quotedText (statusIn order)),
     ("scope", quotedText (escapeHookText (some registry.scope))),
     ("process", quotedText (escapeHookText (some registry.process))),
     ("hook_count", toString registry.hookCount),
     ("registered_count", toString (registeredIn order)),
     ("runtime_invocations", toString (runtimeInvocationsIn order)),
     ("hooks", "[" ++ ",".intercalate (order.map HookHealth.toJson) ++ "]")]

end

end HookHealthRegistry

/-! ## Writing the report -/

/-- `Character.isWhitespace`. -/
def isJavaWhitespace (c : Char) : Bool :=
  [0x20, 0x09, 0x0a, 0x0b, 0x0c, 0x0d, 0x1c, 0x1d, 0x1e, 0x1f, 0x1680, 0x2000, 0x2001, 0x2002, 0x2003,
    0x2004, 0x2005, 0x2006, 0x2008, 0x2009, 0x200a, 0x2028, 0x2029, 0x205f, 0x3000].contains c.toNat

namespace ScopedHealthReport

/-- The text by which an active report is recognised. -/
def activeStatus : List Char := "\"status\":\"active\"".toList

/-- The first field of the object is the status, and it is active. -/
def hasActiveRootHookHealth (hookHealthJson : Option String) : Bool :=
  match hookHealthJson with
  | none                => false
  | some hookHealthJson =>
    match hookHealthJson.toList.dropWhile isJavaWhitespace with
    | []        => false
    | c :: rest =>
      if c ≠ '\x7b' then false
      else
        let rest := rest.dropWhile isJavaWhitespace
        if !activeStatus.isPrefixOf rest then false
        else
          match (rest.drop activeStatus.length).dropWhile isJavaWhitespace with
          | []     => false
          | c :: _ => c = ',' || c = '\x7d'

/-- The report with its statuses renamed, so that the scan does not take one of them for
    that of the system. -/
def namespaceStatuses (hookHealthJson : Option String) : String :=
  match hookHealthJson with
  | none                => "\x7b\x7d"
  | some hookHealthJson =>
    if hookHealthJson.isEmpty then "\x7b\x7d"
    else
      String.ofList
        (Text.replaceAll "\"status\"".toList "\"hook_status\"".toList hookHealthJson.toList)

section
variable (systemServerReady configReady screenReady wakeLockReady networkReady : Bool)
  (hookHealthJson : Option String)

/-- The status on which the daemon decides. -/
def systemStatus : String :=
  if systemServerReady && configReady && hasActiveRootHookHealth hookHealthJson then "active"
  else "degraded"

/-- The older status, which no longer says anything. -/
def overallStatus : String := "degraded"

def systemServer : String :=
  let systemStatus := systemStatus systemServerReady configReady hookHealthJson
  objectText
    [("status", quotedText overallStatus),
     ("system_control_status", quotedText systemStatus),
     ("athena_status", quotedText "unknown"),
     ("scopes", objectText
        [("system", objectText
            [("scope_status", quotedText systemStatus), ("process", quotedText "system_server")]),
         ("athena", objectText
            [("scope_status", quotedText "unknown"), ("reason", quotedText "separate_process")])]),
     ("system_server_ready", toString systemServerReady),
     ("config_ready", toString configReady),
     ("screen_ready", toString screenReady),
     ("wakelock_ready", toString wakeLockReady),
     ("network_ready", toString networkReady),
     ("hook_health", namespaceStatuses hookHealthJson)]

end

end ScopedHealthReport

/-! ## The text of the registry is JSON -/

/-- A control character is written with two hexadecimal digits. -/
theorem hexValue_control {n : Nat} (h : n < 0x20) :
    Json.hexValue '0' '0' (Nat.digitChar ((n >>> 4) &&& 0x0f)) (Nat.digitChar (n &&& 0x0f)) = some n := by
  have hall : (List.range 0x20).all (fun n => Json.hexValue '0' '0' (Nat.digitChar ((n >>> 4) &&& 0x0f))
      (Nat.digitChar (n &&& 0x0f)) = some n) = true := by decide
  exact of_decide_eq_true (List.all_eq_true.mp hall n (List.mem_range.mpr h))

/-- What is written for a character is read back as that character. -/
theorem isStringBody_escapeHookChar (c : Char) {cs : List Char} {us : List Nat}
    (h : IsStringBody cs us) : IsStringBody (escapeHookChar c ++ cs) (c.toNat :: us) := by
  unfold escapeHookChar
  -- One case for each arm of the switch, in its order.
  by_cases hbackspace : c = '\x08'
  · rw [if_pos hbackspace, hbackspace]
    exact .escape (by decide) h
  rw [if_neg hbackspace]
  by_cases htab : c = '\t'
  · rw [if_pos htab, htab]
    exact .escape (by decide) h
  rw [if_neg htab]
  by_cases hnewline : c = '\n'
  · rw [if_pos hnewline, hnewline]
    exact .escape (by decide) h
  rw [if_neg hnewline]
  by_cases hfeed : c = '\x0c'
  · rw [if_pos hfeed, hfeed]
    exact .escape (by decide) h
  rw [if_neg hfeed]
  by_cases hreturn : c = '\r'
  · rw [if_pos hreturn, hreturn]
    exact .escape (by decide) h
  rw [if_neg hreturn]
  by_cases hquote : c = '"'
  · rw [if_pos hquote, hquote]
    exact .escape (by decide) h
  rw [if_neg hquote]
  by_cases hbackslash : c = '\\'
  · rw [if_pos hbackslash, hbackslash]
    exact .escape (by decide) h
  rw [if_neg hbackslash]
  by_cases hcontrol : c.toNat < 0x20
  · rw [if_pos hcontrol]
    exact .unicode (hexValue_control hcontrol) h
  · rw [if_neg hcontrol]
    exact .plain ⟨by omega, hquote, hbackslash⟩ h

/-- An escaped text is a string that reads back as the text. -/
theorem isPart_escapeHookText (value : Option String) :
    IsPart .value (quotedText (escapeHookText value)).toList (.string (value.getD "")) := by
  have hbody : ∀ chars : List Char,
      IsStringBody (chars.flatMap escapeHookChar ++ ['"']) (chars.map Char.toNat) := by
    intro chars
    induction chars with
    | nil => exact .close
    | cons c chars ih =>
      rw [List.flatMap_cons, List.append_assoc, List.map_cons]
      exact isStringBody_escapeHookChar c ih
  have hstring := Json.IsString.quoted (hbody (value.getD "").toList)
  rw [Json.spell_toNat, String.ofList_toList] at hstring
  have htext : (escapeHookText value).toList = (value.getD "").toList.flatMap escapeHookChar := by
    cases value with
    | none => rfl
    | some value => exact String.toList_ofList
  unfold quotedText
  rw [Json.toList_quoted, htext]
  exact .string hstring

/-- A text without escapes between quotes. -/
theorem isPart_quotedText {text : String} (h : Json.isPlainText text = true) :
    IsPart .value (quotedText text).toList (.string text) :=
  Json.isPart_plain (Json.forall_isPlain h)

/-- A field whose name is a plain word. -/
def plainField (key text : String) (value : Json) (hkey : Json.isPlainText key = true)
    (hvalue : IsPart .value text.toList value) : Field :=
  ⟨key, text, value, Json.forall_isPlain hkey, hvalue⟩

namespace HookHealth

/-- A status needs no escapes. -/
theorem status_plain (health : HookHealth) : Json.isPlainText health.status = true := by
  unfold status
  split
  · decide
  · decide

/-- The members of the object of one hook, each with a proof that its text is a value. -/
def fields (health : HookHealth) : List Field :=
  [plainField "id" _ _ (by decide) (isPart_escapeHookText (some health.id)),
   plainField "critical" _ _ (by decide) (Json.isPart_bool health.critical),
   plainField "status" _ _ (by decide) (isPart_quotedText health.status_plain),
   plainField "class_resolved" _ _ (by decide) (Json.isPart_int health.classResolved),
   plainField "method_matched" _ _ (by decide) (Json.isPart_int health.methodMatched),
   plainField "registered" _ _ (by decide) (Json.isPart_int health.registered),
   plainField "runtime_invocations" _ _ (by decide) (Json.isPart_int health.runtimeInvocations),
   plainField "stage" _ _ (by decide) (isPart_escapeHookText health.failureStage),
   plainField "error_type" _ _ (by decide) (isPart_escapeHookText health.errorType),
   plainField "error_message" _ _ (by decide) (isPart_escapeHookText health.errorMessage)]

/-- The value that the text of one hook stands for. -/
def toValue (health : HookHealth) : Json := objectValue health.fields

/-- The text of one hook is that of its fields. -/
theorem toJson_eq (health : HookHealth) :
    health.toJson = objectText (health.fields.map Field.written) := by
  unfold toJson fields
  simp only [List.map_cons, List.map_nil, Field.written, plainField]

/-- So the text of one hook is a JSON value. -/
theorem isPart_toJson (health : HookHealth) : IsPart .value health.toJson.toList health.toValue := by
  rw [toJson_eq]
  exact Json.isPart_objectText (List.cons_ne_nil _ _)

/-- The value of one hook is flat. -/
theorem nesting_toValue (health : HookHealth) : health.toValue.nesting = 1 := by
  simp [toValue, objectValue, fields, plainField, Json.nesting, Json.nestingMembers]

end HookHealth

namespace HookHealthRegistry

/-- The status of a report needs no escapes. -/
theorem statusIn_plain (order : List HookHealth) : Json.isPlainText (statusIn order) = true := by
  unfold statusIn
  split
  · decide
  · split
    · decide
    · decide

/-- The members of the report, each with a proof that its text is a value. -/
def fields (order : List HookHealth) (registry : HookHealthRegistry) : List Field :=
  [plainField "status" _ _ (by decide) (isPart_quotedText (statusIn_plain order)),
   plainField "scope" _ _ (by decide) (isPart_escapeHookText (some registry.scope)),
   plainField "process" _ _ (by decide) (isPart_escapeHookText (some registry.process)),
   plainField "hook_count" _ _ (by decide) (Json.isPart_nat registry.hookCount),
   plainField "registered_count" _ _ (by decide) (Json.isPart_int (registeredIn order)),
   plainField "runtime_invocations" _ _ (by decide) (Json.isPart_int (runtimeInvocationsIn order)),
   plainField "hooks" _ _ (by decide) (Json.isPart_arrayText HookHealth.isPart_toJson order)]

/-- The value that the report stands for. -/
def toValue (order : List HookHealth) (registry : HookHealthRegistry) : Json :=
  objectValue (registry.fields order)

/-- The text of the report is that of its fields. -/
theorem toJson_eq (order : List HookHealth) (registry : HookHealthRegistry) :
    registry.toJson order = objectText ((registry.fields order).map Field.written) := by
  unfold toJson fields
  simp only [List.map_cons, List.map_nil, Field.written, plainField]

/-- So the report is a JSON value. -/
theorem isPart_toJson (order : List HookHealth) (registry : HookHealthRegistry) :
    IsPart .value (registry.toJson order).toList (registry.toValue order) := by
  rw [toJson_eq]
  exact Json.isPart_objectText (List.cons_ne_nil _ _)

/-- The report is nested no deeper than its list of hooks. -/
theorem nesting_toValue (order : List HookHealth) (registry : HookHealthRegistry) :
    (registry.toValue order).nesting ≤ 3 := by
  have hhooks : Json.nestingItems (order.map HookHealth.toValue) ≤ 1 := by
    refine Json.nestingItems_le fun value hmem => ?_
    obtain ⟨health, -, rfl⟩ := List.mem_map.mp hmem
    rw [health.nesting_toValue]
  unfold toValue objectValue fields
  simp only [List.map_cons, List.map_nil, plainField, Json.nesting, Json.nestingMembers]
  omega

end HookHealthRegistry

/-! ## What the report is made of -/

namespace HookHealthRegistry

section
variable {registry : HookHealthRegistry} {calls : List HealthCall} {order : List HookHealth}

/-- With counts that fit, the sum is exact. -/
theorem registeredIn_eq (hnonneg : ∀ health ∈ order, 0 ≤ health.registered)
    (hsum : (order.map HookHealth.registered).sum < 2 ^ 31) :
    registeredIn order = (order.map HookHealth.registered).sum := by
  -- The partial sums stay between what was added and the whole.
  have hfold : ∀ (rest : List HookHealth) (sum : Int), 0 ≤ sum →
      (∀ health ∈ rest, 0 ≤ health.registered) →
      sum + (rest.map HookHealth.registered).sum < 2 ^ 31 →
      rest.foldl (fun sum health => javaInt (sum + health.registered)) sum
        = sum + (rest.map HookHealth.registered).sum := by
    intro rest
    induction rest with
    | nil => intro sum _ _ _; simp
    | cons health rest ih =>
      intro sum hle hrest hlt
      have hhead := hrest health List.mem_cons_self
      have htail : ∀ other ∈ rest, 0 ≤ other.registered :=
        fun other hother => hrest other (List.mem_cons_of_mem _ hother)
      have hpart : 0 ≤ (rest.map HookHealth.registered).sum := by
        refine List.sum_nonneg fun count hcount => ?_
        obtain ⟨other, hother, rfl⟩ := List.mem_map.mp hcount
        exact htail other hother
      rw [List.map_cons, List.sum_cons] at hlt ⊢
      rw [List.foldl_cons, javaInt_of_lt (by omega) (by omega), ih _ (by omega) htail (by omega)]
      omega
  have heq := hfold order 0 (Int.le_refl 0) hnonneg (by omega)
  unfold registeredIn
  omega

/-- The order in which the hooks come does not matter. -/
theorem degradedIn_eq (horder : order.Perm registry.hooks.values) :
    degradedIn order = registry.isDegraded := by
  unfold degradedIn isDegraded
  exact horder.any_eq

/-- The text says active while some hook is registered and no critical one is failing. -/
theorem statusIn_eq_active_iff (h : Tracks registry calls) (hlength : calls.length < 2 ^ 31)
    (horder : order.Perm registry.hooks.values) :
    statusIn order = "active" ↔ (∃ hookId, HealthCall.recordRegistered hookId ∈ calls)
      ∧ ∀ hookId, IsCritical hookId calls → ¬ IsFailing hookId calls := by
  have htotal := h.total hlength
  have hcount : calls.countP HealthCall.registers ≤ calls.length := List.countP_le_length
  have hperm : (order.map HookHealth.registered).sum
      = (registry.hooks.values.map HookHealth.registered).sum := (horder.map _).sum_eq
  -- The sum in the report is the number of registrations, whatever the order.
  have hregistered : registeredIn order = calls.countP HealthCall.registers := by
    rw [registeredIn_eq _ (by omega), hperm, htotal]
    intro health hmem
    exact h.registered_nonneg hlength (horder.mem_iff.mp hmem)
  -- It is not zero exactly if there was a registration.
  have hsome : (∃ hookId, HealthCall.recordRegistered hookId ∈ calls) ↔ registeredIn order ≠ 0 := by
    have hpos : 0 < calls.countP HealthCall.registers ↔ ∃ call ∈ calls, call.registers = true :=
      List.countP_pos_iff
    rw [hregistered]
    constructor
    · rintro ⟨hookId, hmem⟩
      have hlt := hpos.mpr ⟨_, hmem, rfl⟩
      omega
    · intro hne
      obtain ⟨call, hmem, hregisters⟩ := hpos.mp (by omega)
      cases call with
      | recordRegistered hookId => exact ⟨hookId, hmem⟩
      | _ => cases hregisters
  have hdegraded : degradedIn order = true
      ↔ ∃ hookId, IsCritical hookId calls ∧ IsFailing hookId calls := by
    rw [degradedIn_eq horder]
    exact h.isDegraded_iff
  have hsound : (∀ hookId, IsCritical hookId calls → ¬ IsFailing hookId calls)
      ↔ degradedIn order = false := by
    rw [← Bool.not_eq_true, hdegraded]
    simp only [not_exists, not_and]
  rw [hsome, hsound]
  unfold statusIn
  cases degradedIn order with
  | true => simp
  | false =>
    by_cases hzero : registeredIn order = 0
    · simp [hzero]
    · simp [hzero]

end

end HookHealthRegistry

namespace ScopedHealthReport

/-- A text that begins like the text of the registry. -/
theorem hasActiveRootHookHealth_of_begins {json status : String} {rest : List Char}
    (hstatus : status ∈ ["active", "degraded", "inactive"])
    (hjson : json.toList = '\x7b' :: ("\"status\":\"".toList ++ (status.toList ++ ('"' :: ',' :: rest)))) :
    hasActiveRootHookHealth (some json) = decide (status = "active") := by
  unfold hasActiveRootHookHealth
  dsimp only
  rw [hjson]
  simp only [List.mem_cons, List.not_mem_nil, or_false] at hstatus
  rcases hstatus with rfl | rfl | rfl
  · rfl
  · rfl
  · rfl

/-- The report is recognised as active exactly if its status is: the text of an active
    status occurs nowhere else before it. -/
theorem hasActiveRootHookHealth_toJson (order : List HookHealth) (registry : HookHealthRegistry) :
    hasActiveRootHookHealth (some (registry.toJson order))
      = decide (HookHealthRegistry.statusIn order = "active") := by
  have hstatus : HookHealthRegistry.statusIn order ∈ ["active", "degraded", "inactive"] := by
    unfold HookHealthRegistry.statusIn
    split
    · simp
    · split
      · simp
      · simp
  have hbegins : ("\"status\":\"".toList : List Char)
      = '"' :: ("status".toList ++ ['"']) ++ [':', '"'] := by rfl
  have hjson := Json.toList_objectText (registry.fields order)
  rw [← HookHealthRegistry.toJson_eq] at hjson
  unfold HookHealthRegistry.fields at hjson
  rw [List.map_cons, List.map_cons, List.intercalate_cons_cons] at hjson
  apply hasActiveRootHookHealth_of_begins hstatus
  rw [hjson, hbegins]
  simp only [Member.text, Field.member, plainField, quotedText, Json.toList_quoted, List.append_assoc,
    List.cons_append, List.nil_append]
  rfl

/-- The texts of the hooks keep their place, under another name. -/
theorem isPart_namespaceStatuses {json : String} {value : Json} (h : IsPart .value json.toList value) :
    ∃ value', IsPart .value (namespaceStatuses (some json)).toList value'
      ∧ value'.nesting = value.nesting := by
  have hword : IsBareWord "status".toList := by
    refine ⟨Json.forall_isPlain (by decide), 's', "tatus".toList, rfl, by decide, ?_⟩
    decide
  have hnew : ∀ c ∈ "hook_status".toList, Json.IsPlain c := Json.forall_isPlain (by decide)
  have hne : json.isEmpty = false := by
    obtain ⟨c, rest, hcons, -⟩ := h.starts rfl
    rw [← Bool.not_eq_true, String.isEmpty_iff]
    rintro rfl
    cases hcons
  unfold namespaceStatuses
  dsimp only
  rw [hne, if_neg Bool.false_ne_true, String.toList_ofList]
  exact Json.replace_value hword hnew h

section
variable {systemServerReady configReady screenReady wakeLockReady networkReady : Bool}

/-- The status of the system needs no escapes. -/
theorem systemStatus_plain (systemServerReady configReady : Bool) (hookHealthJson : Option String) :
    Json.isPlainText (systemStatus systemServerReady configReady hookHealthJson) = true := by
  unfold systemStatus
  split
  · decide
  · decide

/-- The fields of the report, with the value of the last one. -/
def fields (systemServerReady configReady screenReady wakeLockReady networkReady : Bool)
    (hookHealthJson : Option String) {value : Json}
    (hvalue : IsPart .value (namespaceStatuses hookHealthJson).toList value) : List Field :=
  have hstatus := isPart_quotedText (systemStatus_plain systemServerReady configReady hookHealthJson)
  [plainField "status" (quotedText overallStatus) _ (by decide) (isPart_quotedText (by decide)),
   plainField "system_control_status" _ _ (by decide) hstatus,
   plainField "athena_status" (quotedText "unknown") _ (by decide) (isPart_quotedText (by decide)),
   plainField "scopes" _ _ (by decide) (@Json.isPart_objectText
     [plainField "system" _ _ (by decide) (@Json.isPart_objectText
        [plainField "scope_status" _ _ (by decide) hstatus,
         plainField "process" (quotedText "system_server") _ (by decide) (isPart_quotedText (by decide))]
        (List.cons_ne_nil _ _)),
      plainField "athena" _ _ (by decide) (@Json.isPart_objectText
        [plainField "scope_status" (quotedText "unknown") _ (by decide) (isPart_quotedText (by decide)),
         plainField "reason" (quotedText "separate_process") _ (by decide)
           (isPart_quotedText (by decide))]
        (List.cons_ne_nil _ _))]
     (List.cons_ne_nil _ _)),
   plainField "system_server_ready" _ _ (by decide) (Json.isPart_bool systemServerReady),
   plainField "config_ready" _ _ (by decide) (Json.isPart_bool configReady),
   plainField "screen_ready" _ _ (by decide) (Json.isPart_bool screenReady),
   plainField "wakelock_ready" _ _ (by decide) (Json.isPart_bool wakeLockReady),
   plainField "network_ready" _ _ (by decide) (Json.isPart_bool networkReady),
   plainField "hook_health" _ _ (by decide) hvalue]

/-- The text of the report is that of its fields, if the hook report in it is a value. -/
theorem systemServer_eq {hookHealthJson : Option String} {value : Json}
    (hvalue : IsPart .value (namespaceStatuses hookHealthJson).toList value) :
    systemServer systemServerReady configReady screenReady wakeLockReady networkReady hookHealthJson
      = objectText ((fields systemServerReady configReady screenReady wakeLockReady networkReady
          hookHealthJson hvalue).map Field.written) := by
  unfold systemServer fields
  simp only [List.map_cons, List.map_nil, Field.written, plainField]

section
variable {hookHealthJson : Option String} {value : Json}
  (hvalue : IsPart .value (namespaceStatuses hookHealthJson).toList value)

/-- The member of the system scope. -/
def systemMember (systemServerReady configReady : Bool) (hookHealthJson : Option String) : Member :=
  (plainField "system_control_status" _ _ (by decide)
    (isPart_quotedText (systemStatus_plain systemServerReady configReady hookHealthJson))).member

/-- The member that decides is the status of the system. -/
theorem controlMember_fields :
    controlMember ((fields systemServerReady configReady screenReady wakeLockReady networkReady
      hookHealthJson hvalue).map Field.member)
      = some (systemMember systemServerReady configReady hookHealthJson) := by
  unfold controlMember
  have hlast : Json.lastMember "system_control_status" ((fields systemServerReady configReady screenReady
      wakeLockReady networkReady hookHealthJson hvalue).map Field.member)
      = some (systemMember systemServerReady configReady hookHealthJson) := by
    unfold Json.lastMember fields systemMember
    simp [Field.member, plainField]
  rw [hlast, Option.some_or]

/-- No name in the report is hidden behind escapes. -/
theorem plainControls_fields :
    PlainControls ((fields systemServerReady configReady screenReady wakeLockReady networkReady
      hookHealthJson hvalue).map Field.member) := by
  intro m hmem hkey
  obtain ⟨field, hfield, rfl⟩ := List.mem_map.mp hmem
  constructor
  · -- A name without escapes has no backslash.
    intro hslash
    simp only [Field.member, List.mem_cons, List.mem_append, List.not_mem_nil, or_false] at hslash
    rcases hslash with hquote | hslash | hquote
    · exact absurd hquote (by decide)
    · exact (field.key_ok _ hslash).2.2 rfl
    · exact absurd hquote (by decide)
  · have hkeys : field.key = "system_control_status" ∨ field.key = "status" := hkey
    unfold fields at hfield
    simp only [List.mem_cons, List.not_mem_nil, or_false] at hfield
    rcases hfield with rfl | rfl | rfl | rfl | rfl | rfl | rfl | rfl | rfl | rfl
    · exact ⟨_, rfl⟩
    · exact ⟨_, rfl⟩
    all_goals simp [plainField] at hkeys

/-- The members are not nested too deeply for the scan. -/
theorem nesting_fields (hnesting : value.nesting ≤ maxHealthJsonNesting) :
    ∀ m ∈ (fields systemServerReady configReady screenReady wakeLockReady networkReady
      hookHealthJson hvalue).map Field.member, m.value.nesting ≤ maxHealthJsonNesting := by
  intro m hmem
  obtain ⟨field, hfield, rfl⟩ := List.mem_map.mp hmem
  show field.value.nesting ≤ _
  unfold fields at hfield
  simp only [List.mem_cons, List.not_mem_nil, or_false] at hfield
  rcases hfield with rfl | rfl | rfl | rfl | rfl | rfl | rfl | rfl | rfl | rfl
  case inr.inr.inr.inr.inr.inr.inr.inr.inr => exact hnesting
  all_goals simp [plainField, objectValue, Json.nesting, Json.nestingMembers, maxHealthJsonNesting]

/-- The daemon reads the word of the system scope. -/
theorem classify_systemServer
    (hvalue : IsPart .value (namespaceStatuses hookHealthJson).toList value)
    (hnesting : value.nesting ≤ maxHealthJsonNesting) :
    classifyHookHealthPayload (systemServer systemServerReady configReady screenReady wakeLockReady
        networkReady hookHealthJson) = .active
      ↔ systemStatus systemServerReady configReady hookHealthJson = "active" := by
  have htext := @Json.isObjectText_objectText (fields systemServerReady configReady screenReady
    wakeLockReady networkReady hookHealthJson hvalue) (List.cons_ne_nil _ _)
  rw [← systemServer_eq] at htext
  rw [active_iff_controlMember htext (plainControls_fields hvalue) (nesting_fields hvalue hnesting),
    controlMember_fields]
  have hplain := Json.forall_isPlain (systemStatus_plain systemServerReady configReady hookHealthJson)
  constructor
  · rintro ⟨m, hm, hactive, -⟩
    obtain rfl := Option.some.inj hm
    exact Json.string.inj hactive
  · intro hactive
    refine ⟨_, rfl, congrArg Json.string hactive, ?_⟩
    show '\\' ∉ (quotedText _).toList
    rw [hactive]
    decide

end

end

end ScopedHealthReport

/-- A hook is registered and called. -/
def registeredHook : List RegistryCall :=
  [.beginScope (some "system_server") (some "system_server"), .hook (.declareHook "broadcast" true),
   .hook (.recordRegistered "broadcast"), .hook (.recordRuntimeInvocation "broadcast")]

/-- A hook that was registered and then failed while running. -/
def failedHook : List RegistryCall :=
  registeredHook ++ [.hook (.recordRuntimeFailure "broadcast" (some ⟨"java.lang.Error", none⟩))]

/-- The report after calls, when the service is ready. -/
def reportAfter (calls : List RegistryCall) : String :=
  let registry := HookHealthRegistry.run calls
  ScopedHealthReport.systemServer true true true true true (some (registry.toJson registry.hooks.values))

end Freezeit
