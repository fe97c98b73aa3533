import Freezeit.Lib.SortedMapFolds
import Mathlib.Data.String.Basic

/-! # The registry of the hooks

    `HookHealthRegistry`, which counts what became of each hook, and the
    report that `ScopedHealthReport` makes of it.  The map of the registry has
    no order of its own: what iterates over it is given the order. -/

namespace Freezeit

/-! ## Numbers of Java -/

/-- Arithmetic of `int` wraps around. -/
def javaInt (z : Int) : Int := z.bmod (2 ^ 32)

/-- Arithmetic of `long` wraps around. -/
def javaLong (z : Int) : Int := z.bmod (2 ^ 64)

/-- A number that fits is not wrapped. -/
theorem javaInt_of_lt {z : Int} (hnonneg : 0 ≤ z) (hlt : z < 2 ^ 31) : javaInt z = z := by
  unfold javaInt
  rw [Int.bmod_eq_of_le]
  all_goals omega

/-! ## The health of one hook -/

/-- What is asked of an error. -/
structure Throwable where
  className : String
  message   : Option String
  deriving DecidableEq, Repr

/-- What the registry knows of one hook, with the defaults of the source. -/
structure HookHealth where
  id                 : String
  critical           : Bool := true
  classResolved      : Int := 0
  methodMatched      : Int := 0
  registered         : Int := 0
  runtimeInvocations : Int := 0
  failureStage       : Option String := none
  errorType          : Option String := none
  errorMessage       : Option String := none
  deriving DecidableEq, Repr

namespace HookHealth

/-- The last failure of a hook replaces an earlier one. -/
def fail (health : HookHealth) (stage : String) (error : Option Throwable) : HookHealth :=
  { health with
    failureStage := some stage
    errorType := some (match error with
      | none       => "unknown"
      | some error => error.className)
    errorMessage := some (match error with
      | none       => ""
      | some error => error.message.getD "null") }

/-- A registration that succeeds removes the failure. -/
def clearFailure (health : HookHealth) : HookHealth :=
  { health with failureStage := none, errorType := none, errorMessage := none }

end HookHealth

/-! ## The registry -/

/-- The hooks that were declared, and the process they belong to. -/
structure HookHealthRegistry where
  hooks   : SortedMap String HookHealth := ∅
  scope   : String := "uninitialized"
  process : String := "unknown"
  deriving DecidableEq

/-- An identity that is missing or empty is replaced. -/
def safeIdentity (value : Option String) (fallback : String) : String :=
  match value with
  | none       => fallback
  | some value => if value.isEmpty then fallback else value

namespace HookHealthRegistry

/-- A new scope or process forgets the hooks of the old one. -/
def beginScope (newScope newProcess : Option String) (registry : HookHealthRegistry) :
    HookHealthRegistry :=
  let normalizedScope := safeIdentity newScope "unknown"
  let normalizedProcess := safeIdentity newProcess "unknown"
  { hooks :=
      if registry.scope ≠ normalizedScope ∨ registry.process ≠ normalizedProcess then ∅
      else registry.hooks
    scope := normalizedScope
    process := normalizedProcess }

/-- The record of a hook; a hook that has none gets one. -/
def get (hookId : String) (registry : HookHealthRegistry) : HookHealth :=
  (registry.hooks.get? hookId).getD { id := hookId }

/-- Writes to the record of a hook. -/
def modify (hookId : String) (write : HookHealth → HookHealth) (registry : HookHealthRegistry) :
    HookHealthRegistry :=
  { registry with hooks := registry.hooks.insert hookId (write (registry.get hookId)) }

/-- The hook is known from now on, as critical or not. -/
def declareHook (hookId : String) (critical : Bool) : HookHealthRegistry → HookHealthRegistry :=
  modify hookId fun health => { health with critical := critical }

/-- One more class was found. -/
def recordClassResolved (hookId : String) : HookHealthRegistry → HookHealthRegistry :=
  modify hookId fun health => { health with classResolved := javaInt (health.classResolved + 1) }

/-- The class was not found. -/
def recordClassResolutionFailure (hookId : String) (error : Option Throwable) :
    HookHealthRegistry → HookHealthRegistry :=
  modify hookId fun health => health.fail "class_resolution" error

def recordMethodMatched (hookId : String) : HookHealthRegistry → HookHealthRegistry :=
  modify hookId fun health => { health with methodMatched := javaInt (health.methodMatched + 1) }

def recordMethodMatchFailure (hookId : String) (error : Option Throwable) :
    HookHealthRegistry → HookHealthRegistry :=
  modify hookId fun health => health.fail "method_match" error

def recordRegistered (hookId : String) : HookHealthRegistry → HookHealthRegistry :=
  modify hookId fun health =>
    { health with registered := javaInt (health.registered + 1) }.clearFailure

def recordRegistrationFailure (hookId : String) (error : Option Throwable) :
    HookHealthRegistry → HookHealthRegistry :=
  modify hookId fun health => health.fail "registration" error

/-- An invocation of a hook that nothing was recorded of is not counted. -/
def recordRuntimeInvocation (hookId : String) (registry : HookHealthRegistry) : HookHealthRegistry :=
  match registry.hooks.get? hookId with
  | none        => registry
  | some health =>
    { registry with
      hooks := registry.hooks.insert hookId
        { health with runtimeInvocations := javaLong (health.runtimeInvocations + 1) } }

def recordRuntimeFailure (hookId : String) (error : Option Throwable) :
    HookHealthRegistry → HookHealthRegistry :=
  modify hookId fun health => health.fail "runtime" error

/-- The hook was registered, and its last failure, if any, was cleared by that. -/
def hasSuccessfulRegistration (hookId : String) (registry : HookHealthRegistry) : Bool :=
  match registry.hooks.get? hookId with
  | none        => false
  | some health => health.registered > 0 && health.failureStage.isNone

/-- How many hooks were declared. -/
def hookCount (registry : HookHealthRegistry) : Nat := registry.hooks.entries.length

/-- A critical hook has failed. -/
def isDegraded (registry : HookHealthRegistry) : Bool :=
  registry.hooks.values.any fun health => health.critical && health.failureStage.isSome

end HookHealthRegistry

/-! ## Runs of calls -/

/-- A call that is about one hook. -/
inductive HealthCall where
  | declareHook (hookId : String) (critical : Bool)
  | recordClassResolved (hookId : String)
  | recordClassResolutionFailure (hookId : String) (error : Option Throwable)
  | recordMethodMatched (hookId : String)
  | recordMethodMatchFailure (hookId : String) (error : Option Throwable)
  | recordRegistered (hookId : String)
  | recordRegistrationFailure (hookId : String) (error : Option Throwable)
  | recordRuntimeInvocation (hookId : String)
  | recordRuntimeFailure (hookId : String) (error : Option Throwable)
  deriving DecidableEq, Repr

/-- What the hook modules tell the registry. -/
inductive RegistryCall where
  | beginScope (newScope newProcess : Option String)
  | hook (call : HealthCall)
  deriving DecidableEq, Repr

namespace HealthCall

def perform : HealthCall → HookHealthRegistry → HookHealthRegistry
  | .declareHook hookId critical               => .declareHook hookId critical
  | .recordClassResolved hookId                => .recordClassResolved hookId
  | .recordClassResolutionFailure hookId error => .recordClassResolutionFailure hookId error
  | .recordMethodMatched hookId                => .recordMethodMatched hookId
  | .recordMethodMatchFailure hookId error     => .recordMethodMatchFailure hookId error
  | .recordRegistered hookId                   => .recordRegistered hookId
  | .recordRegistrationFailure hookId error    => .recordRegistrationFailure hookId error
  | .recordRuntimeInvocation hookId            => .recordRuntimeInvocation hookId
  | .recordRuntimeFailure hookId error         => .recordRuntimeFailure hookId error

def hookId : HealthCall → String
  | .declareHook hookId _                  => hookId
  | .recordClassResolved hookId            => hookId
  | .recordClassResolutionFailure hookId _ => hookId
  | .recordMethodMatched hookId            => hookId
  | .recordMethodMatchFailure hookId _     => hookId
  | .recordRegistered hookId               => hookId
  | .recordRegistrationFailure hookId _    => hookId
  | .recordRuntimeInvocation hookId        => hookId
  | .recordRuntimeFailure hookId _         => hookId

end HealthCall

namespace RegistryCall

def perform : RegistryCall → HookHealthRegistry → HookHealthRegistry
  | .beginScope newScope newProcess => .beginScope newScope newProcess
  | .hook call                      => call.perform

end RegistryCall

namespace HookHealthRegistry

/-- The registry after calls, from where the class is loaded. -/
def run (calls : List RegistryCall) : HookHealthRegistry :=
  calls.foldl (fun registry call => call.perform registry) {}

end HookHealthRegistry

/-! ## What the calls amount to -/

/-- The calls about hooks since the identity last changed. -/
def callsInScope : List RegistryCall → String → String → List HealthCall → List HealthCall
  | [], _, _, calls => calls
  | .hook call :: rest, scope, process, calls => callsInScope rest scope process (calls ++ [call])
  | .beginScope newScope newProcess :: rest, scope, process, calls =>
    let normalizedScope := safeIdentity newScope "unknown"
    let normalizedProcess := safeIdentity newProcess "unknown"
    callsInScope rest normalizedScope normalizedProcess
      (if scope ≠ normalizedScope ∨ process ≠ normalizedProcess then [] else calls)

/-- The calls since the scope was entered that the registry is in. -/
def currentCalls (calls : List RegistryCall) : List HealthCall :=
  callsInScope calls "uninitialized" "unknown" []

namespace HealthCall

/-- Whether a call says that the hook failed, or that it did not. -/
def failed : HealthCall → Option Bool
  | .recordClassResolutionFailure _ _ => some true
  | .recordMethodMatchFailure _ _     => some true
  | .recordRegistrationFailure _ _    => some true
  | .recordRuntimeFailure _ _         => some true
  | .recordRegistered _               => some false
  | _                                 => none

/-- Whether the call declares the hook as critical. -/
def declared : HealthCall → Option Bool
  | .declareHook _ critical => some critical
  | _                       => none

/-- The call is a successful registration. -/
def registers : HealthCall → Bool
  | .recordRegistered _ => true
  | _                   => false

end HealthCall

/-- The last that the calls about a hook say of it. -/
def lastSaid (said : HealthCall → Option Bool) (hookId : String) (calls : List HealthCall) :
    Option Bool :=
  (calls.reverse.filter fun call => call.hookId = hookId).findSome? said

/-- The last registration of the hook failed, or it failed since. -/
def IsFailing (hookId : String) (calls : List HealthCall) : Prop :=
  lastSaid HealthCall.failed hookId calls = some true

/-- A hook is critical unless it was declared otherwise. -/
def IsCritical (hookId : String) (calls : List HealthCall) : Prop :=
  lastSaid HealthCall.declared hookId calls ≠ some false

instance (hookId : String) (calls : List HealthCall) : Decidable (IsFailing hookId calls) :=
  inferInstanceAs (Decidable (_ = _))

instance (hookId : String) (calls : List HealthCall) : Decidable (IsCritical hookId calls) :=
  inferInstanceAs (Decidable (¬ _ = _))

/-! ## What one call changes -/

namespace HookHealthRegistry

variable {registry : HookHealthRegistry}

/-- What is read of a hook; of one without a record, what a new record says. -/
def read {β : Type} (part : HookHealth → β) (hookId : String) (registry : HookHealthRegistry) : β :=
  part (registry.get hookId)

section
variable {β : Type} {part : HookHealth → β} {hookId hookId' : String}

/-- A part of one hook is read from what was put in last. -/
theorem read_insert {health : HookHealth} :
    ({ registry with hooks := registry.hooks.insert hookId health } : HookHealthRegistry).read part hookId'
      = if hookId = hookId' then part health else registry.read part hookId' := by
  unfold read get
  show part (Option.getD ((registry.hooks.insert hookId health).get? hookId') _) = _
  rw [SortedMap.get?_insert]
  split
  · rfl
  · rfl

/-- A call writes to the record of its hook only. -/
theorem read_modify {write : HookHealth → HookHealth} (change : β → β)
    (hwrite : ∀ health, part (write health) = change (part health)) :
    (registry.modify hookId write).read part hookId'
      = if hookId = hookId' then change (registry.read part hookId') else registry.read part hookId' := by
  unfold modify
  rw [read_insert]
  by_cases heq : hookId = hookId'
  · rw [if_pos heq, if_pos heq, hwrite, heq]
    rfl
  · rw [if_neg heq, if_neg heq]

/-- An invocation changes no part that does not look at the number of invocations. -/
theorem read_invocation (hpart : ∀ health invocations,
    part { health with runtimeInvocations := invocations } = part health) :
    (registry.recordRuntimeInvocation hookId).read part hookId' = registry.read part hookId' := by
  unfold recordRuntimeInvocation
  cases hget : registry.hooks.get? hookId with
  | none => rfl
  | some health =>
    rw [read_insert]
    split
    · next heq =>
      unfold read get
      rw [hpart, ← heq, hget]
      rfl
    · rfl

end

/-- The hook has a failure that was not cleared. -/
def failing (health : HookHealth) : Bool := health.failureStage.isSome

end HookHealthRegistry

section
variable {registry : HookHealthRegistry} {hookId : String}

open HookHealthRegistry (read_modify read_invocation)

/-- A call decides whether its hook fails, or leaves that as it was. -/
theorem read_failing_perform (call : HealthCall) :
    (call.perform registry).read HookHealthRegistry.failing hookId
      = if call.hookId = hookId then call.failed.getD (registry.read HookHealthRegistry.failing hookId)
        else registry.read HookHealthRegistry.failing hookId := by
  cases call with
  | declareHook => exact read_modify id fun _ => rfl
  | recordClassResolved => exact read_modify id fun _ => rfl
  | recordMethodMatched => exact read_modify id fun _ => rfl
  | recordRegistered => exact read_modify (fun _ => false) fun _ => rfl
  | recordRuntimeInvocation => exact (read_invocation fun _ _ => rfl).trans (ite_self _).symm
  | _ => exact read_modify (fun _ => true) fun _ => rfl

/-- A declaration decides whether its hook is critical. -/
theorem read_critical_perform (call : HealthCall) :
    (call.perform registry).read HookHealth.critical hookId
      = if call.hookId = hookId then call.declared.getD (registry.read HookHealth.critical hookId)
        else registry.read HookHealth.critical hookId := by
  cases call with
  | declareHook _ critical => exact read_modify (fun _ => critical) fun _ => rfl
  | recordRuntimeInvocation => exact (read_invocation fun _ _ => rfl).trans (ite_self _).symm
  | _ => exact read_modify id fun _ => rfl

/-- A registration counts for its hook, with the overflow of Java. -/
theorem read_registered_perform (call : HealthCall) :
    (call.perform registry).read HookHealth.registered hookId
      = if call.hookId = hookId then
          if call.registers then javaInt (registry.read HookHealth.registered hookId + 1)
          else registry.read HookHealth.registered hookId
        else registry.read HookHealth.registered hookId := by
  cases call with
  | recordRegistered => exact read_modify (fun count => javaInt (count + 1)) fun _ => rfl
  | recordRuntimeInvocation => exact (read_invocation fun _ _ => rfl).trans (ite_self _).symm
  | _ => exact read_modify id fun _ => rfl

end

/-! ## Runs -/

/-- The last call on a hook has the last word, if it says anything. -/
theorem lastSaid_append (said : HealthCall → Option Bool) (hookId : String) (calls : List HealthCall)
    (call : HealthCall) :
    lastSaid said hookId (calls ++ [call])
      = if call.hookId = hookId then (said call).or (lastSaid said hookId calls)
        else lastSaid said hookId calls := by
  unfold lastSaid
  rw [List.reverse_append, List.reverse_singleton, List.singleton_append, List.filter_cons]
  by_cases heq : call.hookId = hookId
  · rw [if_pos (decide_eq_true heq), if_pos heq, List.findSome?_cons]
    cases said call with
    | none => rfl
    | some b => rfl
  · rw [if_neg (by simpa using heq), if_neg heq]

/-- How often the hook was registered. -/
def registrations (hookId : String) (calls : List HealthCall) : Nat :=
  calls.countP fun call => call.hookId = hookId ∧ call.registers

/-- The registry says of the hooks what the calls say.  The counts are those of
    an `int` that has not wrapped around. -/
structure Tracks (registry : HookHealthRegistry) (calls : List HealthCall) : Prop where
  failing    : ∀ hookId, registry.read HookHealthRegistry.failing hookId
    = (lastSaid HealthCall.failed hookId calls).getD false
  critical   : ∀ hookId, registry.read HookHealth.critical hookId
    = (lastSaid HealthCall.declared hookId calls).getD true
  registered : calls.length < 2 ^ 31 → ∀ hookId,
    registry.read HookHealth.registered hookId = registrations hookId calls
  total      : calls.length < 2 ^ 31 →
    (registry.hooks.values.map HookHealth.registered).sum = calls.countP HealthCall.registers

/-- An empty registry tracks no calls. -/
theorem tracks_nil {scope process : String} : Tracks { scope := scope, process := process } [] where
  failing _      := rfl
  critical _     := rfl
  registered _ _ := rfl
  total _        := rfl

section
variable {registry : HookHealthRegistry} {calls : List HealthCall}

/-- A call writes one record or nothing. -/
theorem perform_hooks (call : HealthCall) :
    ((call.perform registry).hooks = registry.hooks ∧ call.registers = false)
    ∨ ∃ health, (call.perform registry).hooks = registry.hooks.insert call.hookId health := by
  cases call with
  | recordRuntimeInvocation hookId =>
    show ((registry.recordRuntimeInvocation hookId).hooks = _ ∧ _) ∨ _
    unfold HookHealthRegistry.recordRuntimeInvocation
    cases hget : registry.hooks.get? hookId with
    | none => exact .inl ⟨rfl, rfl⟩
    | some health =>
      refine .inr ⟨{ health with runtimeInvocations := javaLong (health.runtimeInvocations + 1) }, ?_⟩
      show (HookHealthRegistry.recordRuntimeInvocation hookId registry).hooks = _
      unfold HookHealthRegistry.recordRuntimeInvocation
      rw [hget]
      rfl
  | _ => exact .inr ⟨_, rfl⟩

/-- A call on a hook leaves scope and process. -/
theorem perform_identity (call : HealthCall) :
    (call.perform registry).scope = registry.scope
    ∧ (call.perform registry).process = registry.process := by
  cases call with
  | recordRuntimeInvocation hookId =>
    show (registry.recordRuntimeInvocation hookId).scope = _
      ∧ (registry.recordRuntimeInvocation hookId).process = _
    unfold HookHealthRegistry.recordRuntimeInvocation
    cases registry.hooks.get? hookId with
    | none => exact ⟨rfl, rfl⟩
    | some health => exact ⟨rfl, rfl⟩
  | _ => exact ⟨rfl, rfl⟩

/-- One more call is one more registration, or none. -/
theorem registrations_append (hookId : String) (call : HealthCall) :
    registrations hookId (calls ++ [call])
      = registrations hookId calls + if call.hookId = hookId ∧ call.registers then 1 else 0 := by
  unfold registrations
  rw [List.countP_append, List.countP_singleton]
  simp only [decide_eq_true_eq]

/-- The count of a hook stays right, since fewer than 2^31 calls cannot overflow it. -/
theorem Tracks.registered_perform (h : Tracks registry calls) (call : HealthCall)
    (hlength : (calls ++ [call]).length < 2 ^ 31) (hookId : String) :
    (call.perform registry).read HookHealth.registered hookId
      = registrations hookId (calls ++ [call]) := by
  rw [List.length_append, List.length_singleton] at hlength
  have hbefore := h.registered (by omega) hookId
  have hcount : registrations hookId calls ≤ calls.length := List.countP_le_length
  have hwrap : javaInt (registrations hookId calls + 1) = registrations hookId calls + 1 :=
    javaInt_of_lt (by omega) (by omega)
  rw [read_registered_perform, registrations_append, hbefore, hwrap]
  by_cases hid : call.hookId = hookId
  · by_cases hregisters : call.registers = true
    · rw [if_pos hid, if_pos hregisters, if_pos ⟨hid, hregisters⟩]
      rfl
    · rw [if_pos hid, if_neg hregisters, if_neg fun hand => hregisters hand.2]
      rfl
  · rw [if_neg hid, if_neg fun hand => hid hand.1]
    rfl

/-- The record that a call writes makes the difference in the total. -/
theorem Tracks.total_perform (h : Tracks registry calls) (call : HealthCall)
    (hlength : (calls ++ [call]).length < 2 ^ 31) :
    ((call.perform registry).hooks.values.map HookHealth.registered).sum
      = (calls ++ [call]).countP HealthCall.registers := by
  have hafter := h.registered_perform call hlength call.hookId
  rw [registrations_append] at hafter
  rw [List.length_append, List.length_singleton] at hlength
  have hbefore := h.registered (by omega) call.hookId
  have htotal := h.total (by omega)
  rw [List.countP_append, List.countP_singleton]
  -- A call adds nothing to the table, or it writes the entry of its hook.
  rcases perform_hooks call with ⟨hhooks, hregisters⟩ | ⟨health, hhooks⟩
  · rw [hhooks, hregisters, htotal]
    rfl
  · have hsum := SortedMap.sum_values_insert HookHealth.registered registry.hooks call.hookId health
    have hnew : (call.perform registry).read HookHealth.registered call.hookId = health.registered := by
      unfold HookHealthRegistry.read HookHealthRegistry.get
      rw [hhooks, SortedMap.get?_insert_self]
      rfl
    have hold : (registry.hooks.get? call.hookId).elim 0 HookHealth.registered
        = registry.read HookHealth.registered call.hookId := by
      unfold HookHealthRegistry.read HookHealthRegistry.get
      cases registry.hooks.get? call.hookId with
      | none => rfl
      | some _ => rfl
    rw [hnew] at hafter
    rw [hold, hbefore, htotal, hafter] at hsum
    rw [hhooks]
    -- The sum changes by what the entry changes.
    by_cases hregisters : call.registers = true
    · rw [if_pos ⟨rfl, hregisters⟩] at hsum
      rw [if_pos hregisters]
      push_cast at hsum ⊢
      omega
    · rw [if_neg fun hand => hregisters hand.2] at hsum
      rw [if_neg hregisters]
      push_cast at hsum ⊢
      omega

/-- A call on a hook is tracked. -/
theorem Tracks.perform (h : Tracks registry calls) (call : HealthCall) :
    Tracks (call.perform registry) (calls ++ [call]) where
  failing hookId := by
    rw [read_failing_perform, lastSaid_append, h.failing]
    split
    · cases call.failed with
      | none => rfl
      | some b => rfl
    · rfl
  critical hookId := by
    rw [read_critical_perform, lastSaid_append, h.critical]
    split
    · cases call.declared with
      | none => rfl
      | some b => rfl
    · rfl
  registered hlength := h.registered_perform call hlength
  total hlength      := h.total_perform call hlength

/-- A change of scope or process starts anew, anything else goes on. -/
theorem tracks_beginScope (h : Tracks registry calls) (newScope newProcess : Option String) :
    Tracks (registry.beginScope newScope newProcess)
      (if registry.scope ≠ safeIdentity newScope "unknown"
        ∨ registry.process ≠ safeIdentity newProcess "unknown" then [] else calls) := by
  unfold HookHealthRegistry.beginScope
  dsimp only
  split
  · exact tracks_nil
  · exact ⟨h.failing, h.critical, h.registered, h.total⟩

/-- The run of calls from a registry that tracks those before. -/
theorem tracks_foldl (rest : List RegistryCall) (h : Tracks registry calls) :
    Tracks (rest.foldl (fun registry call => call.perform registry) registry)
      (callsInScope rest registry.scope registry.process calls) := by
  induction rest generalizing registry calls with
  | nil => exact h
  | cons call rest ih =>
    rw [List.foldl_cons]
    cases call with
    | hook call =>
      have hrest := ih (h.perform call)
      obtain ⟨hscope, hprocess⟩ := @perform_identity registry call
      rw [hscope, hprocess] at hrest
      exact hrest
    | beginScope newScope newProcess => exact ih (tracks_beginScope h newScope newProcess)

end

/-- Whatever calls were made, the registry tracks those of its scope. -/
theorem tracks_run (calls : List RegistryCall) : Tracks (.run calls) (currentCalls calls) :=
  tracks_foldl calls tracks_nil

/-- No more calls are in scope than were made. -/
theorem length_callsInScope (rest : List RegistryCall) (scope process : String) (calls : List HealthCall) :
    (callsInScope rest scope process calls).length ≤ calls.length + rest.length := by
  induction rest generalizing scope process calls with
  | nil => exact Nat.le_refl _
  | cons call rest ih =>
    cases call with
    | hook call =>
      have hlength := ih scope process (calls ++ [call])
      rw [List.length_append, List.length_singleton] at hlength
      rw [callsInScope, List.length_cons]
      omega
    | beginScope newScope newProcess =>
      have hkept : (if scope ≠ safeIdentity newScope "unknown"
          ∨ process ≠ safeIdentity newProcess "unknown" then [] else calls).length ≤ calls.length := by
        split
        · exact Nat.zero_le _
        · exact Nat.le_refl _
      have hlength := ih (safeIdentity newScope "unknown") (safeIdentity newProcess "unknown")
        (if scope ≠ safeIdentity newScope "unknown"
          ∨ process ≠ safeIdentity newProcess "unknown" then [] else calls)
      rw [callsInScope, List.length_cons]
      omega

/-- The same for a registry from its start. -/
theorem length_currentCalls (calls : List RegistryCall) : (currentCalls calls).length ≤ calls.length := by
  have hlength := length_callsInScope calls "uninitialized" "unknown" []
  rwa [List.length_nil, Nat.zero_add] at hlength

section
variable {registry : HookHealthRegistry} {calls : List HealthCall}

/-- A hook fails in the registry exactly if its last outcome was a failure. -/
theorem Tracks.failing_iff (h : Tracks registry calls) (hookId : String) :
    registry.read HookHealthRegistry.failing hookId = true ↔ IsFailing hookId calls := by
  rw [h.failing]
  unfold IsFailing
  rcases lastSaid HealthCall.failed hookId calls with - | - | -
  all_goals simp

/-- A hook is critical in the registry exactly if it was declared so, or never declared. -/
theorem Tracks.critical_iff (h : Tracks registry calls) (hookId : String) :
    registry.read HookHealth.critical hookId = true ↔ IsCritical hookId calls := by
  rw [h.critical]
  unfold IsCritical
  rcases lastSaid HealthCall.declared hookId calls with - | - | -
  all_goals simp

/-- A part of a hook that is there is read from its entry. -/
theorem read_of_get? {β : Type} {part : HookHealth → β} {hookId : String} {health : HookHealth}
    (hget : registry.hooks.get? hookId = some health) : registry.read part hookId = part health := by
  unfold HookHealthRegistry.read HookHealthRegistry.get
  rw [hget]
  rfl

/-- The registry is degraded while a critical hook is failing. -/
theorem Tracks.isDegraded_iff (h : Tracks registry calls) :
    registry.isDegraded = true ↔ ∃ hookId, IsCritical hookId calls ∧ IsFailing hookId calls := by
  unfold HookHealthRegistry.isDegraded
  rw [List.any_eq_true]
  constructor
  · rintro ⟨health, hmem, hboth⟩
    obtain ⟨hookId, hget⟩ := SortedMap.mem_values.mp hmem
    obtain ⟨hcritical, hfailing⟩ := Bool.and_eq_true_iff.mp hboth
    refine ⟨hookId, (h.critical_iff hookId).mp ?_, (h.failing_iff hookId).mp ?_⟩
    · rw [read_of_get? hget, hcritical]
    · rw [read_of_get? hget]
      exact hfailing
  · rintro ⟨hookId, hcritical, hfailing⟩
    have hcritical := (h.critical_iff hookId).mpr hcritical
    have hfailing := (h.failing_iff hookId).mpr hfailing
    cases hget : registry.hooks.get? hookId with
    | none =>
      -- A hook without a record is not failing.
      unfold HookHealthRegistry.read HookHealthRegistry.get at hfailing
      rw [hget] at hfailing
      cases hfailing
    | some health =>
      rw [read_of_get? hget] at hcritical hfailing
      exact ⟨health, SortedMap.mem_values.mpr ⟨hookId, hget⟩, Bool.and_eq_true_iff.mpr ⟨hcritical, hfailing⟩⟩

/-- No count is negative. -/
theorem Tracks.registered_nonneg (h : Tracks registry calls) (hlength : calls.length < 2 ^ 31)
    {health : HookHealth} (hmem : health ∈ registry.hooks.values) : 0 ≤ health.registered := by
  obtain ⟨hookId, hget⟩ := SortedMap.mem_values.mp hmem
  have hcount := h.registered hlength hookId
  rw [read_of_get? hget] at hcount
  rw [hcount]
  exact Int.natCast_nonneg _

/-- A hook has a registration that holds when it was registered and is not failing. -/
theorem Tracks.hasSuccessfulRegistration_iff (h : Tracks registry calls)
    (hlength : calls.length < 2 ^ 31) (hookId : String) :
    registry.hasSuccessfulRegistration hookId = true
      ↔ HealthCall.recordRegistered hookId ∈ calls ∧ ¬ IsFailing hookId calls := by
  have hcount := h.registered hlength hookId
  have hfailing := h.failing_iff hookId
  -- The count is positive exactly if there was a registration.
  have hpos : 0 < registrations hookId calls ↔ HealthCall.recordRegistered hookId ∈ calls := by
    unfold registrations
    rw [List.countP_pos_iff]
    constructor
    · rintro ⟨call, hmem, hcall⟩
      obtain ⟨hid, hregisters⟩ := of_decide_eq_true hcall
      cases call with
      | recordRegistered id =>
        obtain rfl : id = hookId := hid
        exact hmem
      | _ => cases hregisters
    · intro hmem
      exact ⟨_, hmem, decide_eq_true ⟨rfl, rfl⟩⟩
  rw [← hpos, ← hfailing]
  unfold HookHealthRegistry.hasSuccessfulRegistration
  -- A hook that is not in the table was never registered.
  cases hget : registry.hooks.get? hookId with
  | none =>
    unfold HookHealthRegistry.read HookHealthRegistry.get at hcount
    rw [hget] at hcount
    have hzero : (registrations hookId calls : Int) = 0 := hcount.symm
    simp only [Bool.false_eq_true, false_iff, not_and]
    omega
  | some health =>
    rw [read_of_get? hget] at hcount ⊢
    unfold HookHealthRegistry.failing
    rw [Bool.and_eq_true_iff, decide_eq_true_eq, hcount, Option.isNone_iff_eq_none,
      Bool.not_eq_true, Option.isSome_eq_false_iff, Option.isNone_iff_eq_none]
    simp

end

end Freezeit
