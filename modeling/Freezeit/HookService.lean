import Freezeit.Lib.SortedMap
import Freezeit.Lib.Text
import Freezeit.Lib.Utf8
import Freezeit.ManagerState

/-! # The configuration in the hook

    `FreezeitService.handleConfig`, in system_server: the payload of SetConfig
    is parsed as a whole before any of it is published.  An `int` is an
    integer here; `parseInt` keeps it in range. -/

namespace Freezeit

/-! ## Sets of uids -/

/-- The first uid of an app. -/
def uidMin : Int := 10000

/-- `XpUtils.BucketSet`: only uids of apps are ever added. -/
structure BucketSet where
  values : SortedSet Int
  isApp  : ∀ n ∈ values, uidMin ≤ n

namespace BucketSet

/-- No uid at all. -/
def empty : BucketSet := ⟨∅, fun n hn => absurd hn (SortedMap.not_mem_empty n)⟩

/-- A uid of an app is added, any other one is ignored. -/
def add (set : BucketSet) (n : Int) : BucketSet :=
  if h : n < uidMin then set
  else
    { values := set.values.insert n ()
      isApp  := fun m hm => (SortedMap.mem_insert.mp hm).elim (fun heq => by omega) (set.isApp m) }

/-- Whether an app uid is in the set. -/
def contains (set : BucketSet) (n : Int) : Bool := uidMin ≤ n && set.values.contains n

/-- The empty set contains nothing. -/
theorem contains_empty (n : Int) : empty.contains n = false := by
  simp [contains, empty, SortedMap.contains]

/-- The set contains what it did and the uid that was added, if that is one of an app. -/
theorem contains_add {set : BucketSet} {n m : Int} :
    (set.add n).contains m = true ↔ set.contains m = true ∨ m = n ∧ uidMin ≤ n := by
  unfold add contains
  split
  · next h =>
    constructor
    · intro hm
      exact .inl hm
    · intro hm
      cases hm with
      | inl hm => exact hm
      | inr hadded => exact absurd h (Int.not_lt.mpr hadded.2)
  · next h =>
    have hn : uidMin ≤ n := Int.not_lt.mp h
    simp only [Bool.and_eq_true, decide_eq_true_eq, SortedMap.contains_iff_mem,
      SortedMap.mem_insert]
    constructor
    · intro hm
      cases hm.2 with
      | inl heq => exact .inr ⟨heq, hn⟩
      | inr hin => exact .inl ⟨hm.1, hin⟩
    · intro hm
      cases hm with
      | inl hm => exact ⟨hm.1, .inr hm.2⟩
      | inr hadded => exact ⟨by rw [hadded.1]; exact hn, .inl hadded.1⟩

end BucketSet

/-- `XpUtils.VectorSet`. -/
structure VectorSet where
  maxSize : Nat
  vector  : List Int
  deriving DecidableEq, Repr

/-- An empty set with room for so many. -/
def VectorSet.new (maxSize : Nat) : VectorSet := ⟨maxSize, []⟩

/-! ## The state of the hook -/

/-- What the suppression of background work reads, as one value. -/
structure RuntimeSnapshot where
  managedApps    : BucketSet
  foregroundUids : VectorSet
  pendingUids    : VectorSet
  foregroundAtMs : Int
  pendingAtMs    : Int

/-- A snapshot in which nothing was reported yet. -/
def RuntimeSnapshot.empty (managedApps : BucketSet) : RuntimeSnapshot :=
  ⟨managedApps, .new 64, .new 64, -1, -1⟩

/-- An `int[256]`. -/
structure HookSettings where
  values : List Int
  length : values.length = 256

/-- The settings before the first configuration. -/
def HookSettings.zero : HookSettings := ⟨List.replicate 256 0, List.length_replicate⟩

/-- The first elements replaced by others. -/
def HookSettings.overwrite (settings : HookSettings) (values : List Int) (h : values.length ≤ 256) :
    HookSettings where
  values := values ++ settings.values.drop values.length
  length := by
    rw [List.length_append, List.length_drop, settings.length]
    omega

/-- What the hook keeps of the configuration and the latest reports. -/
structure HookConfig where
  settings      : HookSettings
  managedApp    : BucketSet
  permissive    : BucketSet
  foregroundUid : VectorSet
  pendingUid    : VectorSet
  uidIndex      : SortedMap String Int
  pkgIndex      : SortedMap Int String
  initField     : Bool

/-- The fields of a new object. -/
def HookConfig.initial : HookConfig where
  settings      := .zero
  managedApp    := .empty
  permissive    := .empty
  foregroundUid := .new 64
  pendingUid    := .new 64
  uidIndex      := ∅
  pkgIndex      := ∅
  initField     := false

/-- The configuration and the snapshot that the hooked methods read. -/
structure HookService where
  config          : HookConfig
  runtimeSnapshot : RuntimeSnapshot

/-- The service before the first request. -/
def HookService.initial : HookService := ⟨.initial, .empty .empty⟩

/-! ## Parsing the payload -/

/-- `String.trim`: everything up to the blank is cut off at both ends. -/
def javaTrim (text : List Char) : List Char :=
  ((text.dropWhile fun c => c.toNat ≤ 0x20).reverse.dropWhile fun c => c.toNat ≤ 0x20).reverse

/-- The pieces between runs of blanks. -/
def splitConfigLine (line : List Char) : List (List Char) :=
  (Text.splitChars (· = ' ') (javaTrim line)).filter fun piece => piece ≠ []

/-- The text consists of ASCII digits. -/
def isDecimal (value : List Char) : Bool := !value.isEmpty && value.all Char.isDigit

/-- `Integer.parseInt`. -/
def parseInt (text : List Char) : Except String Int :=
  match Text.parseSigned 32 (String.ofList text) with
  | some n => .ok n
  | none   => .error s!"For input string: {String.ofList text}"

/-- The settings of a line; those that it does not reach keep their values. -/
def parseSettings (settings : HookSettings) (elements : List (List Char)) :
    Except String HookSettings := do
  if elements.length = 0 ∨ elements.length > 256 then
    throw s!"invalid settings count: {elements.length}"
  let values ← elements.mapM parseInt
  if h : values.length ≤ 256 then return settings.overwrite values h
  else throw s!"invalid settings count: {elements.length}"

/-- The managed apps with the two indexes. -/
structure ManagedApps where
  apps     : BucketSet
  uidIndex : SortedMap String Int
  pkgIndex : SortedMap Int String

/-- The loop body for a managed app, `<uid>uid<uid>`. -/
def addManagedApp (managed : ManagedApps) (element : List Char) : Except String ManagedApps :=
  match Text.splitOnceChars "uid".toList element with
  | none => .error s!"invalid managed-app token: {String.ofList element}"
  | some (uidText, encodedUid) =>
    if uidText.isEmpty then .error s!"invalid managed-app token: {String.ofList element}"
    else if !isDecimal uidText || uidText ≠ encodedUid then
      .error s!"invalid managed-app UID: {String.ofList element}"
    else do
      let uid ← parseInt uidText
      let packName := String.ofList ("uid".toList ++ encodedUid)
      let apps := managed.apps.add uid
      if !apps.contains uid then throw s!"managed UID rejected: {uid}"
      return ⟨apps, managed.uidIndex.insert packName uid, managed.pkgIndex.insert uid packName⟩

/-- The loop body for a permissive uid. -/
def addPermissiveApp (managed permissive : BucketSet) (uidText : List Char) :
    Except String BucketSet :=
  if !isDecimal uidText then .error s!"invalid permissive UID: {String.ofList uidText}"
  else do
    let uid ← parseInt uidText
    if !managed.contains uid then throw s!"permissive UID is unmanaged: {uid}"
    let permissive := permissive.add uid
    if !permissive.contains uid then throw s!"permissive UID rejected: {uid}"
    return permissive

/-- The lines of the payload; one empty line too many at the end is dropped. -/
def configLines (payload : Bytes) : List (List Char) :=
  let lines := Text.splitChars (· = '\n') (Utf8.decodeLossy payload).toList
  if lines.length = 4 ∧ lines[3]? = some [] then lines.take 3 else lines

/-- A configuration that was read as a whole, before any of it is published. -/
structure ParsedConfig where
  settings   : HookSettings
  managed    : ManagedApps
  permissive : BucketSet

/-- The three lines one after the other; the first error refuses everything. -/
def parseConfigLines (settings : HookSettings) (first second : List Char)
    (third : Option (List Char)) : Except String ParsedConfig := do
  let settings ← parseSettings settings (splitConfigLine first)
  let managed ← (splitConfigLine second).foldlM addManagedApp ⟨.empty, ∅, ∅⟩
  let permissive ← match third with
    | some line => (splitConfigLine line).foldlM (addPermissiveApp managed.apps) .empty
    | none      => pure .empty
  return ⟨settings, managed, permissive⟩

/-- A payload of two or three lines. -/
def parseConfig (settings : HookSettings) (payload : Bytes) : Except String ParsedConfig :=
  match configLines payload with
  | [first, second]        => parseConfigLines settings first second none
  | [first, second, third] => parseConfigLines settings first second (some third)
  | lines                  => .error s!"invalid config line count: {lines.length}"

/-! ## Publishing it -/

/-- The reply to a configuration that was taken. -/
def replySuccess : Int := 2

/-- The reply to one that was refused. -/
def replyFailure : Int := 0

/-- The section that holds the monitor of the configuration. -/
def HookService.publish (service : HookService) (parsed : ParsedConfig) : HookService :=
  let snapshot := RuntimeSnapshot.empty parsed.managed.apps
  { config := { service.config with
      foregroundUid := snapshot.foregroundUids
      pendingUid    := snapshot.pendingUids
      settings      := parsed.settings
      managedApp    := parsed.managed.apps
      uidIndex      := parsed.managed.uidIndex
      pkgIndex      := (parsed.managed.pkgIndex.insert 1000 "AndroidSystem").insert (-1) "Unknown"
      permissive    := parsed.permissive }
    runtimeSnapshot := snapshot }

/-- `handleConfig`; `initSucceeds` says whether the reflection of `Config.Init`
    would find its fields now. -/
def handleConfig (initSucceeds : Bool) (service : HookService) (payload : Bytes) :
    Int × HookService :=
  match parseConfig service.config.settings payload with
  | .error _ => (replyFailure, service)
  | .ok parsed =>
    if service.config.initField then (replySuccess, service.publish parsed)
    else if initSucceeds then
      let initialised := { service with config := { service.config with initField := true } }
      (replySuccess, initialised.publish parsed)
    else (replyFailure, service)

end Freezeit
