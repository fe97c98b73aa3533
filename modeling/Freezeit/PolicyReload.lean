import Freezeit.HookConfigCodec
import Freezeit.Lib.SortedMapFolds
import Freezeit.Lib.TextLines
import Freezeit.PolicyFile

/-! # The policy file is read back

    `load_manager_app_config_records` and `source_tokens_from_legacy_config`,
    and what they make of a file that the manager rewrote. -/

namespace Freezeit

/-! ## Loading -/

/-- A package of the inventory. -/
structure PackageRecord where
  packageName : String
  uid         : Nat
  deriving DecidableEq, Repr

/-- The uids by name; a later record of the same name wins. -/
def packageUids (packageRecords : List PackageRecord) : SortedMap String Nat :=
  packageRecords.foldl (fun uids record => uids.insert record.packageName record.uid) ∅

/-- The policy that a start of the daemon reads from the file. -/
def loadManagerAppConfigRecords (appConfig : Option String) (packageRecords : List PackageRecord) :
    List ManagerAppConfigRecord :=
  let lines := (appConfig.toList.flatMap Text.lines).filterMap parseLegacyPolicyLine
  lines.filterMap fun record => do
    let uid ← ((packageUids packageRecords).get? record.packageOrUid).or
      (parseLegacyUidToken record.packageOrUid)
    return ⟨uid, record.mode, record.permissive⟩

/-- The spelling of each uid in the file, the last one if there are several. -/
def sourceTokensFromLegacyConfig (appConfig : Option String)
    (resolvePackageUid : String → Option Nat) : SortedMap Nat String :=
  let lines := (appConfig.toList.flatMap Text.lines).filterMap parseLegacyPolicyLine
  (lines.filterMap fun record => do
    let uid ← (resolvePackageUid record.packageOrUid).or (parseLegacyUidToken record.packageOrUid)
    return (uid, record.packageOrUid)).foldl (fun tokens entry => tokens.insert entry.1 entry.2) ∅

/-- What the state is loaded with at the start. -/
def loadPolicy (appConfig : Option String) (packageRecords : List PackageRecord)
    (state : ReadOnlyState) : ReadOnlyState :=
  { state with
    appConfig := loadManagerAppConfigRecords appConfig packageRecords
    appConfigSourceTokens := sourceTokensFromLegacyConfig appConfig fun packageName =>
      (packageRecords.find? fun record => record.packageName = packageName).map PackageRecord.uid }

/-! ## The lines of the file -/

/-- The records that the lines of a text have. -/
def policyRecords (text : String) : List LegacyPolicyRecord :=
  (Text.splitInclusive '\n' text).filterMap parseLegacyPolicyLine

/-- Blanks around a line do not matter. -/
theorem parseLegacyPolicyLine_trim {line line' : String} (h : Text.trim line = Text.trim line') :
    parseLegacyPolicyLine line = parseLegacyPolicyLine line' := by
  unfold parseLegacyPolicyLine normalizeLegacyLine
  dsimp only
  rw [h]

/-- A line break at the end of a line does not matter. -/
theorem parseLegacyPolicyLine_append {cs ending : List Char}
    (h : ∀ c ∈ ending, Text.isWhitespace c = true) :
    parseLegacyPolicyLine (String.ofList (cs ++ ending)) = parseLegacyPolicyLine (String.ofList cs) :=
  parseLegacyPolicyLine_trim (Text.trim_append_blanks h)

/-- A line break is a blank. -/
theorem newline_blank : ∀ c ∈ ['\n'], Text.isWhitespace c = true := by
  intro c hc
  obtain rfl := List.mem_singleton.mp hc
  rfl

/-- A carriage return at the end does not matter. -/
theorem parse_stripCarriageReturn (cs : List Char) :
    parseLegacyPolicyLine (String.ofList (Text.stripCarriageReturn cs))
      = parseLegacyPolicyLine (String.ofList cs) := by
  unfold Text.stripCarriageReturn
  split
  · next hlast =>
    have hcs := List.dropLast_append_getLast? _ hlast
    have hparse := @parseLegacyPolicyLine_append cs.dropLast ['\r'] (by
      intro c hc
      obtain rfl := List.mem_singleton.mp hc
      rfl)
    rw [hcs] at hparse
    exact hparse.symm
  · rfl

/-- Nor does the line break. -/
theorem parse_lineOf (piece : List Char) :
    parseLegacyPolicyLine (String.ofList (Text.lineOf piece)) = parseLegacyPolicyLine (String.ofList piece) := by
  unfold Text.lineOf
  split
  · next hlast =>
    have hpiece := List.dropLast_append_getLast? _ hlast
    have hparse := @parseLegacyPolicyLine_append piece.dropLast ['\n'] newline_blank
    rw [hpiece] at hparse
    rw [parse_stripCarriageReturn, hparse]
  · rfl

/-- Loading and rewriting see the same records. -/
theorem filterMap_lines (text : String) :
    (Text.lines text).filterMap parseLegacyPolicyLine = policyRecords text := by
  have hparse : ∀ piece : String, parseLegacyPolicyLine (String.ofList (Text.lineOf piece.toList))
      = parseLegacyPolicyLine piece := by
    intro piece
    rw [parse_lineOf, String.ofList_toList]
  unfold policyRecords
  rw [Text.lines_eq_map, List.filterMap_map]
  exact List.filterMap_congr fun piece _ => hparse piece

/-- A piece is its line and its line break. -/
theorem splitLineEnding_spec (raw : String) :
    ∃ body : List Char, raw.toList = body ++ (splitLineEnding raw).2.toList
      ∧ (splitLineEnding raw).1 = String.ofList body
      ∧ ((splitLineEnding raw).2.toList = [] ∧ raw.toList.getLast? ≠ some '\n'
        ∨ (splitLineEnding raw).2.toList = ['\n'] ∨ (splitLineEnding raw).2.toList = ['\r', '\n']) := by
  have hnewline : "\n".toList = ['\n'] := by decide
  have hreturn : "\r\n".toList = ['\r', '\n'] := by decide
  unfold splitLineEnding
  split
  · next body hreverse =>
    have hraw := congrArg List.reverse hreverse
    rw [List.reverse_reverse] at hraw
    exact ⟨body.reverse, by rw [hraw]; simp, rfl, .inr (.inr hreturn)⟩
  · next body _ hreverse =>
    have hraw := congrArg List.reverse hreverse
    rw [List.reverse_reverse] at hraw
    exact ⟨body.reverse, by rw [hraw]; simp, rfl, .inr (.inl hnewline)⟩
  · next hnot =>
    refine ⟨raw.toList, by simp, String.ofList_toList.symm, .inl ⟨rfl, ?_⟩⟩
    intro hlast
    rw [List.getLast?_eq_head?_reverse] at hlast
    obtain ⟨body, hbody⟩ := List.head?_eq_some_iff.mp hlast
    exact hnot body hbody

/-- A line of the text, what was read of it, and how it ends. -/
structure IsPolicyLine (line : PolicyLine) : Prop where
  parsed : line.parsed = parseLegacyPolicyLine line.raw
  ending : line.ending.toList = [] ∧ line.raw.toList.getLast? ≠ some '\n'
    ∨ (∃ body, line.raw.toList = body ++ line.ending.toList)
      ∧ (line.ending.toList = ['\n'] ∨ line.ending.toList = ['\r', '\n'])

/-- The ending of a line is blank. -/
theorem IsPolicyLine.ending_blank {line : PolicyLine} (h : IsPolicyLine line) :
    ∀ c ∈ line.ending.toList, Text.isWhitespace c = true := by
  have hall : ([[], ['\n'], ['\r', '\n']] : List (List Char)).all
      (fun ending => ending.all Text.isWhitespace) = true := by decide
  have hmem : line.ending.toList ∈ ([[], ['\n'], ['\r', '\n']] : List (List Char)) := by
    rcases h.ending with ⟨hnil, -⟩ | ⟨-, hnewline | hreturn⟩
    · rw [hnil]; simp
    · rw [hnewline]; simp
    · rw [hreturn]; simp
  exact List.all_eq_true.mp (List.all_eq_true.mp hall _ hmem)

/-- The lines make up the text, and each of them is parsed on its own. -/
theorem policyLines_spec (text : String) :
    (policyLines text).map PolicyLine.raw = Text.splitInclusive '\n' text
    ∧ (∀ line ∈ policyLines text, IsPolicyLine line)
    ∧ ((policyLines text).map PolicyLine.index).Nodup := by
  unfold policyLines
  refine ⟨?_, ?_, ?_⟩
  · rw [List.map_map]
    exact List.zipIdx_map_fst _ _
  · intro line hmem
    obtain ⟨⟨raw, index⟩, -, rfl⟩ := List.mem_map.mp hmem
    obtain ⟨body, hraw, hbody, hending⟩ := splitLineEnding_spec raw
    have hblank : ∀ c ∈ (splitLineEnding raw).2.toList, Text.isWhitespace c = true := by
      intro c hc
      rcases hending with ⟨hnil, -⟩ | hnewline | hreturn
      · rw [hnil] at hc
        cases hc
      · rw [hnewline] at hc
        obtain rfl := List.mem_singleton.mp hc
        rfl
      · rw [hreturn] at hc
        rcases List.mem_cons.mp hc with rfl | hc
        · rfl
        · obtain rfl := List.mem_singleton.mp hc
          rfl
    constructor
    · show parseLegacyPolicyLine (splitLineEnding raw).1 = parseLegacyPolicyLine raw
      rw [hbody, ← parseLegacyPolicyLine_append hblank, ← hraw, String.ofList_toList]
    · rcases hending with hnone | hsome
      · exact .inl hnone
      · exact .inr ⟨⟨body, hraw⟩, hsome⟩
  -- The numbers of the lines are distinct, as they count up.
  · have hindex : ∀ {f : String × Nat → PolicyLine} {l : List (String × Nat)},
        (∀ e, (f e).index = e.2) → (l.map f).map PolicyLine.index = l.map Prod.snd := by
      intro f l hf
      rw [List.map_map]
      exact List.map_congr_left fun e _ => hf e
    rw [hindex fun _ => rfl, List.zipIdx_map_snd]
    exact List.nodup_range'

/-- The lines say what a reload reads from the text. -/
theorem filterMap_parsed (text : String) :
    (policyLines text).filterMap PolicyLine.parsed = policyRecords text := by
  obtain ⟨hraws, hlines, -⟩ := policyLines_spec text
  unfold policyRecords
  rw [← hraws, List.filterMap_map]
  exact List.filterMap_congr fun line hmem => (hlines line hmem).parsed

/-! ## Writing a line -/

/-- The line of a record. -/
def policyText (token : String) (mode : Int) (permissive : Bool) : String :=
  token ++ " " ++ toString mode ++ " " ++ toString (if permissive then 1 else 0)

/-- A token that a line of the file can begin with. -/
def IsPolicyToken (token : String) : Prop := Text.IsToken token ∧ token.toList.head? ≠ some '#'

/-- A line that is written consists of three tokens. -/
theorem policyText_eq (token : String) (mode : Int) (permissive : Bool) :
    policyText token mode permissive
      = " ".intercalate [token, toString mode, toString (if permissive then 1 else 0)] := by
  unfold policyText
  simp only [String.intercalate_cons_cons, String.intercalate_singleton, String.append_assoc]

/-- What is written for a record is read back as that record. -/
theorem parse_policyText {token : String} {mode : Int} {permissive : Bool} {ending : List Char}
    (htoken : IsPolicyToken token) (hmode : -2 ^ 31 ≤ mode ∧ mode < 2 ^ 31)
    (hending : ∀ c ∈ ending, Text.isWhitespace c = true) :
    parseLegacyPolicyLine (String.ofList ((policyText token mode permissive).toList ++ ending))
      = some ⟨token, mode, permissive⟩ := by
  obtain ⟨hword, hmark⟩ := htoken
  obtain ⟨c, rest, hcons⟩ := List.exists_cons_of_ne_nil
    (fun hnil => hword.1 (String.toList_inj.mp (hnil.trans String.toList_empty.symm)))
  have hdigit : ∀ b : Bool, Text.IsToken (toString (if b then 1 else 0)) := by
    intro b
    exact Text.isToken_toString_nat _
  have htokens : ∀ word ∈ [token, toString mode, toString (if permissive then 1 else 0)],
      Text.IsToken word := by
    intro word hmem
    simp only [List.mem_cons, List.not_mem_nil, or_false] at hmem
    rcases hmem with rfl | rfl | rfl
    · exact hword
    · exact Text.isToken_toString_int mode
    · exact hdigit permissive
  have hsplit := Text.splitWhitespace_intercalate htokens (List.cons_ne_nil _ _)
  have htext : (policyText token mode permissive).toList
      = c :: (rest ++ (" " ++ toString mode ++ " ").toList ++ [if permissive then '1' else '0']) := by
    have hdigits : (toString (if permissive then 1 else 0)).toList = [if permissive then '1' else '0'] := by
      cases permissive with
      | true => rfl
      | false => rfl
    unfold policyText
    rw [String.toList_append, hdigits]
    simp only [String.toList_append, hcons, List.cons_append, List.append_assoc]
  -- Neither end is blank, so trimming leaves the line as it is.
  have htrim : Text.trim (policyText token mode permissive) = policyText token mode permissive := by
    apply Text.trim_of_ends
    · rw [htext]
      intro d hd
      obtain rfl := Option.some.inj hd
      exact hword.2 _ (hcons ▸ List.mem_cons_self)
    · rw [htext, ← List.cons_append, List.getLast?_concat]
      intro d hd
      obtain rfl := Option.some.inj hd
      split
      · rfl
      · rfl
  -- It is no comment.
  have hnormal : normalizeLegacyLine (policyText token mode permissive)
      = some (policyText token mode permissive) := by
    have hne : (policyText token mode permissive).isEmpty = false := by
      rw [← Bool.not_eq_true, String.isEmpty_iff]
      intro hnil
      rw [hnil] at htext
      cases htext
    have hhead : (policyText token mode permissive).toList.head? = some c := by
      rw [htext]
      rfl
    have hc : c ≠ '#' := by
      rintro rfl
      exact hmark (by rw [hcons]; rfl)
    unfold normalizeLegacyLine
    rw [htrim]
    dsimp only
    rw [hne, hhead]
    simp [hc]
  have hparse : Text.parseSigned 32 (toString mode) = some mode := by
    rw [Text.parseSigned_toString_eq, if_pos hmode]
  rw [parseLegacyPolicyLine_append hending, String.ofList_toList]
  unfold parseLegacyPolicyLine
  rw [hnormal, policyText_eq]
  simp only [Option.bind_eq_bind, Option.bind_some, hsplit, hparse, List.head?_cons, Option.getD_some]
  cases permissive with
  | true => rfl
  | false => rfl

/-- What a line was read as can be written as a line. -/
theorem writable_of_parse {line : String} {record : LegacyPolicyRecord}
    (h : parseLegacyPolicyLine line = some record) :
    IsPolicyToken record.packageOrUid ∧ -2 ^ 31 ≤ record.mode ∧ record.mode < 2 ^ 31 := by
  unfold parseLegacyPolicyLine at h
  obtain ⟨trimmed, hnormal, hparse⟩ := Option.bind_eq_some_iff.mp h
  have htrimmed : trimmed = Text.trim line ∧ trimmed.toList.head? ≠ some '#' := by
    unfold normalizeLegacyLine at hnormal
    dsimp only at hnormal
    split at hnormal
    · cases hnormal
    · next hnot =>
      obtain rfl := Option.some.inj hnormal
      simp only [Bool.or_eq_true, decide_eq_true_eq, not_or] at hnot
      exact ⟨rfl, hnot.2⟩
  obtain ⟨rfl, hmark⟩ := htrimmed
  split at hparse
  · next token mode rest hsplit =>
    obtain ⟨value, hvalue, hrecord⟩ := Option.bind_eq_some_iff.mp hparse
    obtain rfl := Option.some.inj hrecord
    have hhead := Text.head_splitWhitespace (Text.head_trim line) hsplit
    have hmem : token ∈ Text.splitWhitespace (Text.trim line) := by
      rw [hsplit]
      exact List.mem_cons_self
    have htoken := Text.isToken_of_mem_splitWhitespace hmem
    have hfirst : token.toList.head? ≠ some '#' := by
      rw [hhead]
      exact hmark
    exact ⟨⟨htoken, hfirst⟩, Text.range_of_parseSigned hvalue⟩
  · cases hparse

/-! ## Canonical tokens -/

/-- The spelling that is written for a uid is a token. -/
theorem isPolicyToken_tokenText (uid : Nat) : IsPolicyToken (tokenText uid) := by
  have hchars : ∀ c ∈ (tokenText uid).toList, Text.isWhitespace c = false ∧ c ≠ '#' := by
    intro c hc
    rw [tokenText_toList] at hc
    have hdigit : c.isDigit = true → Text.isWhitespace c = false ∧ c ≠ '#' := by
      intro hdigit
      refine ⟨Text.not_isWhitespace_of_isDigit hdigit, ?_⟩
      rintro rfl
      cases hdigit
    rcases List.mem_append.mp hc with hpad | hc
    · exact hdigit (isDigit_of_mem_padFive hpad)
    rcases List.mem_append.mp hc with huid | hdigits
    · have hletter : c = 'u' ∨ c = 'i' ∨ c = 'd' := by simpa using huid
      rcases hletter with rfl | rfl | rfl
      · exact ⟨rfl, by decide⟩
      · exact ⟨rfl, by decide⟩
      · exact ⟨rfl, by decide⟩
    · exact hdigit (Text.isDigit_of_mem_toDigits hdigits)
  refine ⟨⟨?_, fun c hc => (hchars c hc).1⟩, ?_⟩
  · intro hempty
    have hlist := tokenText_toList uid
    rw [hempty] at hlist
    exact padFive_ne_nil uid (List.append_eq_nil_iff.mp hlist.symm).1
  · intro hhead
    exact (hchars '#' (List.mem_of_head? hhead)).2 rfl

/-- Leading zeros do not change a number. -/
theorem parseDigits_padFive (uid : Nat) : Text.parseDigits (padFive uid).toList = some uid := by
  have hall : (padFive uid).toList.all Char.isDigit = true :=
    List.all_eq_true.mpr fun c hc => isDigit_of_mem_padFive hc
  have hzeros : ∀ k : Nat, (List.replicate k '0').foldl
      (fun value c => value * 10 + (c.toNat - '0'.toNat)) 0 = 0 := by
    intro k
    induction k with
    | zero => rfl
    | succ k ih => exact ih
  unfold Text.parseDigits
  split
  · next hnil => exact absurd hnil (padFive_ne_nil uid)
  · rw [if_pos hall, padFive_toList, List.foldl_append, hzeros, Text.foldl_toDigits]

/-- A number within the bound is read from its digits. -/
theorem parseUnsigned_of_digits {bound n : Nat} {text : String} (hdigits : Text.parseDigits text.toList = some n)
    (hplus : text.toList.head? ≠ some '+') (hn : n < bound) :
    Text.parseUnsigned bound text = some n := by
  unfold Text.parseUnsigned
  split
  · next rest heq => exact absurd (by rw [heq]; rfl) hplus
  · dsimp only
    rw [hdigits]
    simp [Option.filter, hn]

/-- The canonical token of a uid is read as the uid. -/
theorem parseLegacyUidToken_tokenText {uid : Nat} (huid : uid < 2 ^ 32) :
    parseLegacyUidToken (tokenText uid) = some uid := by
  obtain ⟨⟨hne, hblanks⟩, -⟩ := isPolicyToken_tokenText uid
  have htrim : Text.trim (tokenText uid) = tokenText uid :=
    Text.trim_of_ends (fun c hc => hblanks c (List.mem_of_head? hc))
      fun c hc => hblanks c (List.mem_of_getLast? hc)
  have hnoPlus : ∀ {text : String}, (∀ c ∈ text.toList, c.isDigit = true) → text.toList.head? ≠ some '+' := by
    intro text hdigits hhead
    exact absurd (hdigits '+' (List.mem_of_head? hhead)) (by decide)
  have hpad : Text.parseUnsigned (2 ^ 32) (padFive uid) = some uid :=
    parseUnsigned_of_digits (parseDigits_padFive uid) (hnoPlus fun c hc => isDigit_of_mem_padFive hc) huid
  -- The letters keep the whole from being a number.
  have hletters : Text.parseUnsigned (2 ^ 32) (tokenText uid) = none := by
    have hall : (tokenText uid).toList.all Char.isDigit = false := by
      rw [← Bool.not_eq_true, List.all_eq_true]
      intro hdigits
      have hu : 'u' ∈ (tokenText uid).toList := by
        rw [tokenText_toList]
        simp
      exact absurd (hdigits 'u' hu) (by decide)
    have hhead : (tokenText uid).toList.head? ≠ some '+' := by
      rw [tokenText_toList, List.head?_append_of_ne_nil _ (padFive_ne_nil uid)]
      exact hnoPlus fun c hc => isDigit_of_mem_padFive hc
    have hparse : Text.parseDigits (tokenText uid).toList = none := by
      unfold Text.parseDigits
      split
      · rfl
      · rw [hall]
        rfl
    unfold Text.parseUnsigned
    split
    · next rest heq => exact absurd (by rw [heq]; rfl) hhead
    · dsimp only
      rw [hparse]
      rfl
  -- It is split at the letters, into the uid twice.
  have hsplit : Text.splitOnceText "uid" (tokenText uid) = some (padFive uid, toString uid) := by
    unfold Text.splitOnceText
    rw [splitOnce_tokenText, ← toList_natToString]
    show some (String.ofList (padFive uid).toList, String.ofList (toString uid).toList) = _
    rw [String.ofList_toList, String.ofList_toList]
  have hdigits : (padFive uid).toList.all Char.isDigit = true :=
    List.all_eq_true.mpr fun c hc => isDigit_of_mem_padFive hc
  have hempty : (tokenText uid).isEmpty = false := by
    rw [← Bool.not_eq_true, String.isEmpty_iff]
    exact hne
  have htarget : parseLegacyPolicyTarget (tokenText uid) = some (.uid uid) := by
    unfold parseLegacyPolicyTarget
    rw [htrim]
    dsimp only
    rw [hempty, hletters, hsplit]
    dsimp only
    rw [hdigits, hpad, Text.parseUnsigned_toString huid]
    simp
  unfold parseLegacyUidToken
  rw [htarget]

end Freezeit
