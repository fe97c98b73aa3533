import Freezeit.Lib.Text
import Freezeit.Lib.Utf8
import Freezeit.ManagerState

/-! # The file of the app configuration

    The lines of the policy file, and what the manager rewrites of them when
    the configuration changes: unknown lines stay, a changed record keeps its
    token and its line ending, a new record is appended. -/

namespace Freezeit

/-! ## Policy lines -/

/-- One line of the policy file. -/
structure LegacyPolicyRecord where
  packageOrUid : String
  mode         : Int
  permissive   : Bool
  deriving DecidableEq, Repr

/-- What a line is about. -/
inductive LegacyPolicyTarget where
  | uid (uid : Nat)
  | packageName (name : String)
  deriving DecidableEq, Repr

/-- The line without blanks around it, unless it is empty or a comment. -/
def normalizeLegacyLine (line : String) : Option String :=
  let trimmed := Text.trim line
  if trimmed.isEmpty || trimmed.toList.head? = some '#' then none else some trimmed

/-- A line is a target, a mode and a flag that may be missing. -/
def parseLegacyPolicyLine (line : String) : Option LegacyPolicyRecord := do
  let line ← normalizeLegacyLine line
  match Text.splitWhitespace line with
  | token :: mode :: rest =>
    let mode ← Text.parseSigned 32 mode
    return ⟨token, mode, rest.head?.getD "1" ≠ "0"⟩
  | _ => none

/-- A target is a uid in one of the older spellings, or a package name. -/
def parseLegacyPolicyTarget (token : String) : Option LegacyPolicyTarget :=
  let token := Text.trim token
  if token.isEmpty then none
  else
    match Text.parseUnsigned (2 ^ 32) token with
    | some uid => some (.uid uid)
    | none =>
      match Text.splitOnceText "uid" token with
      | none => some (.packageName token)
      | some (legacyUid, encodedUid) =>
        if !legacyUid.toList.all Char.isDigit then some (.packageName token)
        else do
          let legacyUid ← Text.parseUnsigned (2 ^ 32) legacyUid
          let encodedUid ← Text.parseUnsigned (2 ^ 32) encodedUid
          if legacyUid = encodedUid then some (.uid legacyUid) else none

/-- The uid of a target that is none of a package. -/
def parseLegacyUidToken (token : String) : Option Nat :=
  match parseLegacyPolicyTarget token with
  | some (.uid uid)                => some uid
  | some (.packageName _) | none => none

/-- A line and its line break. -/
def splitLineEnding (line : String) : String × String :=
  match line.toList.reverse with
  | '\n' :: '\r' :: body => (String.ofList body.reverse, "\r\n")
  | '\n' :: body         => (String.ofList body.reverse, "\n")
  | _                    => (line, "")

/-- A line of the file with its ending and what it says. -/
structure PolicyLine where
  index  : Nat
  raw    : String
  ending : String
  parsed : Option LegacyPolicyRecord
  deriving DecidableEq, Repr

/-- The lines of a file in order. -/
def policyLines (text : String) : List PolicyLine :=
  (Text.splitInclusive '\n' text).zipIdx.map fun (raw, index) =>
    let (line, ending) := splitLineEnding raw
    ⟨index, raw, ending, parseLegacyPolicyLine line⟩

/-! ## Which line belongs to which record -/

/-- The records by uid; a later one of the same uid wins. -/
def recordsByUid (records : List ManagerAppConfigRecord) :
    SortedMap Nat ManagerAppConfigRecord :=
  (records.filter (·.uid ≠ u32Max)).foldl (fun byUid record => byUid.insert record.uid record) ∅

/-- Which lines are about which uids. -/
structure LineMatches where
  lineUids     : SortedMap Nat Nat
  matchedUids  : SortedSet Nat
  sourceTokens : SortedMap Nat String

/-- The line at `index` has the record of `uid`. -/
def LineMatches.add (found : LineMatches) (index uid : Nat) (token : String) : LineMatches where
  lineUids     := found.lineUids.insert index uid
  matchedUids  := found.matchedUids.insert uid ()
  sourceTokens := found.sourceTokens.insert uid token

/-- Lines whose token is the source token of a record, or its canonical uid token. -/
def matchByToken (uidByToken : SortedMap String Nat)
    (previousByUid : SortedMap Nat ManagerAppConfigRecord) :
    List PolicyLine → LineMatches → LineMatches
  | [], found => found
  | line :: rest, found =>
    match line.parsed with
    | none => matchByToken uidByToken previousByUid rest found
    | some parsed =>
      let uid := (uidByToken.get? parsed.packageOrUid).or
        ((parseLegacyUidToken parsed.packageOrUid).filter previousByUid.contains)
      match uid with
      | some uid =>
        matchByToken uidByToken previousByUid rest (found.add line.index uid parsed.packageOrUid)
      | none => matchByToken uidByToken previousByUid rest found

/-- The positional matching of a state without source tokens. -/
def matchByPosition : List PolicyLine → List Nat → LineMatches → LineMatches
  | [], _, found => found
  | line :: rest, remainingUids, found =>
    match line.parsed with
    | none => matchByPosition rest remainingUids found
    | some parsed =>
      if line.index ∈ found.lineUids then matchByPosition rest remainingUids found
      else
        match remainingUids with
        | []                   => found
        | uid :: remainingUids =>
          matchByPosition rest remainingUids (found.add line.index uid parsed.packageOrUid)

/-! ## The new text -/

/-- The lines of the new text and the uids that they keep. -/
def rewriteLines (byUid previousByUid : SortedMap Nat ManagerAppConfigRecord)
    (lineUids : SortedMap Nat Nat) : List PolicyLine → String × SortedSet Nat → String × SortedSet Nat
  | [], out => out
  | line :: rest, (payload, persistedUids) =>
    let keep := (payload ++ line.raw, persistedUids)
    match line.parsed, lineUids.get? line.index with
    | some parsed, some uid =>
      match previousByUid.get? uid with
      | none => rewriteLines byUid previousByUid lineUids rest keep
      | some previous =>
        let record := (byUid.get? uid).getD previous
        let text :=
          if record.mode = previous.mode ∧ record.permissive = previous.permissive then line.raw
          else s!"{parsed.packageOrUid} {record.mode} {if record.permissive then 1 else 0}"
            ++ line.ending
        rewriteLines byUid previousByUid lineUids rest
          (payload ++ text, persistedUids.insert uid ())
    | _, _ => rewriteLines byUid previousByUid lineUids rest keep

/-- Append the records that no line has. -/
def appendRecords (persistedUids : SortedSet Nat) :
    List ManagerAppConfigRecord → String × SortedMap Nat String → String × SortedMap Nat String
  | [], out => out
  | record :: rest, (payload, sourceTokens) =>
    if record.uid = u32Max ∨ record.uid ∈ persistedUids then
      appendRecords persistedUids rest (payload, sourceTokens)
    else
      let payload :=
        if payload ≠ "" ∧ payload.toList.getLast? ≠ some '\n' then payload ++ "\n" else payload
      let token := padFive record.uid ++ "uid" ++ toString record.uid
      let line := s!"{token} {record.mode} {if record.permissive then 1 else 0}\n"
      appendRecords persistedUids rest (payload ++ line, sourceTokens.insert record.uid token)

/-- The source tokens of records that are still loaded. -/
def retainedSourceTokens (state : ReadOnlyState) (previousRecords : List ManagerAppConfigRecord) :
    SortedMap Nat String :=
  state.appConfigSourceTokens.retain fun uid _ => (recordsByUid previousRecords).contains uid

/-- The text to persist and the source tokens that go with it. -/
def renderAppConfig (state : ReadOnlyState) (previousRecords records : List ManagerAppConfigRecord)
    (previousFile : Option Bytes) : Except DaemonError (String × SortedMap Nat String) := do
  let sourceTokens := retainedSourceTokens state previousRecords
  match previousFile with
  | none => return appendRecords ∅ records ("", sourceTokens)
  | some previousFile =>
    match Utf8.decodeStrict previousFile with
    | none => throw (.config "existing app config is not valid UTF-8")
    | some previousText =>
      let lines := policyLines previousText
      let previousByUid := recordsByUid previousRecords
      let uidByToken : SortedMap String Nat :=
        sourceTokens.entries.foldl (fun byToken (uid, token) => byToken.insert token uid) ∅
      let found := matchByToken uidByToken previousByUid lines ⟨∅, ∅, sourceTokens⟩
      let found :=
        if state.appConfigSourceTokens.isEmpty then
          let remainingUids := (previousRecords.filter fun record =>
            record.uid ≠ u32Max && !found.matchedUids.contains record.uid).map
              ManagerAppConfigRecord.uid
          matchByPosition lines remainingUids found
        else found
      let (payload, persistedUids) :=
        rewriteLines (recordsByUid records) previousByUid found.lineUids lines ("", ∅)
      return appendRecords persistedUids records (payload, found.sourceTokens)

/-! ## Merging -/

/-- The previous records with the requested changes, then the new records. -/
def mergeAppConfigRecords (previousRecords requestedRecords : List ManagerAppConfigRecord) :
    List ManagerAppConfigRecord :=
  let requestedByUid := recordsByUid requestedRecords
  let previousUids := previousRecords.map ManagerAppConfigRecord.uid
  previousRecords.map (fun record => (requestedByUid.get? record.uid).getD record)
    ++ requestedRecords.filter fun record =>
      record.uid ≠ u32Max && !previousUids.contains record.uid

/-- The log line about changed records. -/
def formatConfigChangeLog (previousRecords records : List ManagerAppConfigRecord) :
    Option String :=
  let previousByUid : SortedMap Nat ManagerAppConfigRecord :=
    previousRecords.foldl (fun byUid record => byUid.insert record.uid record) ∅
  let digit := fun (permissive : Bool) => if permissive then 1 else 0
  let changes := (records.filter (·.uid ≠ u32Max)).filterMap fun record => do
    let previous ← previousByUid.get? record.uid
    if previous.mode = record.mode ∧ previous.permissive = record.permissive then none
    else
      let permissiveChange :=
        if previous.permissive ≠ record.permissive then
          s!" 宽松:{digit previous.permissive}->{digit record.permissive}"
        else ""
      some (s!"{previous.mode}->{record.mode} [{record.uid}uid{record.uid}]" ++ permissiveChange)
  if changes.isEmpty then none else some ("配置变化：\n\n" ++ "\n".intercalate changes)

end Freezeit
