import Freezeit.ConfigAtomicity
import Freezeit.PolicyReload

/-! # What the manager makes of the policy file

    The lines of a rewritten file are those of the old one with the values of
    the records, and a canonical line for every record that had none. -/

namespace Freezeit

/-! ## Matching -/

section
variable (uidByToken : SortedMap String Nat) (previousByUid : SortedMap Nat ManagerAppConfigRecord)

/-- The uid whose line it is. -/
def lineUid (record : LegacyPolicyRecord) : Option Nat :=
  (uidByToken.get? record.packageOrUid).or
    ((parseLegacyUidToken record.packageOrUid).filter previousByUid.contains)

/-- The lines that are matched: index, uid and token. -/
def lineMatches (lines : List PolicyLine) : List (Nat × Nat × String) :=
  lines.filterMap fun line => do
    let record ← line.parsed
    let uid ← lineUid uidByToken previousByUid record
    return (line.index, uid, record.packageOrUid)

/-- The loop over the lines collects the matches of each. -/
theorem matchByToken_eq (lines : List PolicyLine) (found : LineMatches) :
    matchByToken uidByToken previousByUid lines found
      = (lineMatches uidByToken previousByUid lines).foldl
        (fun found e => found.add e.1 e.2.1 e.2.2) found := by
  induction lines generalizing found with
  | nil => rfl
  | cons line rest ih =>
    unfold lineMatches at ih ⊢
    rw [matchByToken]
    cases hparsed : line.parsed with
    | none =>
      dsimp only
      rw [ih, List.filterMap_cons_none (by rw [hparsed]; rfl)]
    | some record =>
      dsimp only
      cases huid : lineUid uidByToken previousByUid record with
      | none =>
        have hnone : (uidByToken.get? record.packageOrUid).or
            ((parseLegacyUidToken record.packageOrUid).filter previousByUid.contains) = none := huid
        rw [hnone, List.filterMap_cons_none (by rw [hparsed]; simp [huid]), ih]
      | some uid =>
        have hsome : (uidByToken.get? record.packageOrUid).or
            ((parseLegacyUidToken record.packageOrUid).filter previousByUid.contains) = some uid := huid
        rw [hsome, List.filterMap_cons_some (b := (line.index, uid, record.packageOrUid))
          (by rw [hparsed]; simp [huid]), List.foldl_cons, ← ih]

end

/-- Matches are collected in three maps at once. -/
theorem foldl_add (l : List (Nat × Nat × String)) (found : LineMatches) :
    l.foldl (fun found e => found.add e.1 e.2.1 e.2.2) found
      = { lineUids     := l.foldl (fun uids e => uids.insert e.1 e.2.1) found.lineUids
          matchedUids  := l.foldl (fun uids e => uids.insert e.2.1 ()) found.matchedUids
          sourceTokens := l.foldl (fun tokens e => tokens.insert e.2.1 e.2.2) found.sourceTokens } := by
  induction l generalizing found with
  | nil => rfl
  | cons e l ih =>
    rw [List.foldl_cons, ih]
    rfl

/-- Nothing is matched by position when no record is left. -/
theorem matchByPosition_nil (lines : List PolicyLine) (found : LineMatches) :
    matchByPosition lines [] found = found := by
  induction lines with
  | nil => rfl
  | cons line rest ih =>
    rw [matchByPosition]
    cases line.parsed with
    | none => exact ih
    | some record =>
      dsimp only
      split
      · exact ih
      · rfl

/-! ## Rewriting -/

section
variable (byUid previousByUid : SortedMap Nat ManagerAppConfigRecord) (lineUids : SortedMap Nat Nat)

/-- The text of a line in the new file. -/
def newText (line : PolicyLine) : String :=
  match line.parsed, lineUids.get? line.index with
  | some parsed, some uid =>
    match previousByUid.get? uid with
    | none => line.raw
    | some previous =>
      let record := (byUid.get? uid).getD previous
      if record.mode = previous.mode ∧ record.permissive = previous.permissive then line.raw
      else policyText parsed.packageOrUid record.mode record.permissive ++ line.ending
  | _, _ => line.raw

/-- The uid that is persisted with a line. -/
def keptUid (line : PolicyLine) : Option Nat := do
  let _ ← line.parsed
  let uid ← lineUids.get? line.index
  let _ ← previousByUid.get? uid
  return uid

/-- The loop over the lines writes the new text of each, and notes the uids kept. -/
theorem rewriteLines_eq (lines : List PolicyLine) (payload : String) (persistedUids : SortedSet Nat) :
    rewriteLines byUid previousByUid lineUids lines (payload, persistedUids)
      = (payload ++ String.join (lines.map (newText byUid previousByUid lineUids)),
        (lines.filterMap (keptUid previousByUid lineUids)).foldl (fun uids uid => uids.insert uid ())
          persistedUids) := by
  have hjoin : ∀ (text : String) (rest : List PolicyLine),
      String.join (text :: rest.map (newText byUid previousByUid lineUids))
        = text ++ String.join (rest.map (newText byUid previousByUid lineUids)) :=
    fun _ _ => String.join_cons
  -- On the lines, with what was written and noted so far.
  induction lines generalizing payload persistedUids with
  | nil =>
    rw [rewriteLines, List.map_nil, String.join_nil, String.append_empty]
    rfl
  | cons line rest ih =>
    rw [rewriteLines, List.map_cons, hjoin, ← String.append_assoc]
    have hkeep : ∀ {text : String} {kept : Option Nat},
        newText byUid previousByUid lineUids line = text → keptUid previousByUid lineUids line = none →
        (payload ++ text ++ String.join (rest.map (newText byUid previousByUid lineUids)),
          (rest.filterMap (keptUid previousByUid lineUids)).foldl (fun uids uid => uids.insert uid ())
            persistedUids)
        = (payload ++ newText byUid previousByUid lineUids line
            ++ String.join (rest.map (newText byUid previousByUid lineUids)),
          ((line :: rest).filterMap (keptUid previousByUid lineUids)).foldl
            (fun uids uid => uids.insert uid ()) persistedUids) := by
      intro text _ htext hkept
      rw [htext, List.filterMap_cons_none hkept]
    cases hparsed : line.parsed with
    | none =>
      dsimp only
      rw [ih]
      exact @hkeep _ none (by simp [newText, hparsed]) (by simp [keptUid, hparsed])
    | some parsed =>
      cases huid : lineUids.get? line.index with
      | none =>
        dsimp only
        rw [ih]
        exact @hkeep _ none (by simp [newText, hparsed, huid]) (by simp [keptUid, hparsed, huid])
      | some uid =>
        dsimp only
        cases hprevious : previousByUid.get? uid with
        | none =>
          dsimp only
          rw [ih]
          exact @hkeep _ none (by simp [newText, hparsed, huid, hprevious])
            (by simp [keptUid, hparsed, huid, hprevious])
        | some previous =>
          have hkept : keptUid previousByUid lineUids line = some uid := by
            simp [keptUid, hparsed, huid, hprevious]
          dsimp only
          rw [ih, List.filterMap_cons_some hkept, List.foldl_cons]
          refine congrArg (fun text => (payload ++ text ++ _, _)) ?_
          unfold newText
          rw [hparsed, huid]
          dsimp only
          rw [hprevious]
          rfl

end

/-! ## Appending -/

/-- The records that get a line of their own. -/
def freshRecords (persistedUids : SortedSet Nat) (records : List ManagerAppConfigRecord) :
    List ManagerAppConfigRecord :=
  records.filter fun record => !(decide (record.uid = u32Max) || decide (record.uid ∈ persistedUids))

/-- The text with one more line. -/
def appendLine (payload : String) (record : ManagerAppConfigRecord) : String :=
  (if payload ≠ "" ∧ payload.toList.getLast? ≠ some '\n' then payload ++ "\n" else payload)
    ++ (policyText (tokenText record.uid) record.mode record.permissive ++ "\n")

/-- The loop over the records appends those that no line stands for. -/
theorem appendRecords_eq (persistedUids : SortedSet Nat) (records : List ManagerAppConfigRecord)
    (payload : String) (sourceTokens : SortedMap Nat String) :
    appendRecords persistedUids records (payload, sourceTokens)
      = ((freshRecords persistedUids records).foldl appendLine payload,
        (freshRecords persistedUids records).foldl
          (fun tokens record => tokens.insert record.uid (tokenText record.uid)) sourceTokens) := by
  induction records generalizing payload sourceTokens with
  | nil => rfl
  | cons record rest ih =>
    unfold freshRecords at ih ⊢
    have hfresh : (!(decide (record.uid = u32Max) || decide (record.uid ∈ persistedUids))) = true
        ↔ ¬ (record.uid = u32Max ∨ record.uid ∈ persistedUids) := by
      simp only [Bool.not_eq_true', Bool.or_eq_false_iff, decide_eq_false_iff_not, not_or]
    rw [appendRecords]
    by_cases hskip : record.uid = u32Max ∨ record.uid ∈ persistedUids
    · rw [if_pos hskip, ih, List.filter_cons, if_neg fun h => hfresh.mp h hskip]
    · rw [if_neg hskip, List.filter_cons, if_pos (hfresh.mpr hskip), List.foldl_cons, List.foldl_cons]
      dsimp only
      rw [ih]
      rfl

/-! ## What the new text is read as -/

/-- Texts are read one after the other, if the first one ends with a line break. -/
theorem policyRecords_append {payload : String}
    (h : payload = "" ∨ payload.toList.getLast? = some '\n') (text : String) :
    policyRecords (payload ++ text) = policyRecords payload ++ policyRecords text := by
  have hends : payload.toList = [] ∨ payload.toList.getLast? = some '\n' := by
    rcases h with rfl | h
    · exact .inl String.toList_empty
    · exact .inr h
  unfold policyRecords Text.splitInclusive
  rw [String.toList_append, Text.splitInclusiveChars_append hends, List.map_append, List.filterMap_append]

/-- A line break at the end of the text changes nothing. -/
theorem policyRecords_end {payload : String} (hne : payload ≠ "")
    (h : payload.toList.getLast? ≠ some '\n') : policyRecords (payload ++ "\n") = policyRecords payload := by
  have hcs : payload.toList ≠ [] := fun hnil =>
    hne (String.toList_inj.mp (hnil.trans String.toList_empty.symm))
  obtain ⟨pieces, last, heq, heq'⟩ := Text.splitInclusiveChars_end hcs h
  have hnewline : "\n".toList = ['\n'] := by decide
  have hlast := @parseLegacyPolicyLine_append last ['\n'] newline_blank
  unfold policyRecords Text.splitInclusive
  rw [String.toList_append, hnewline, heq, heq', List.map_append, List.map_append, List.filterMap_append,
    List.filterMap_append, List.map_singleton, List.map_singleton]
  unfold List.filterMap
  rw [hlast]

/-- A line that is written has no line break in it. -/
theorem newline_not_mem_policyText {token : String} (htoken : Text.IsToken token) (mode : Int)
    (permissive : Bool) : '\n' ∉ (policyText token mode permissive).toList := by
  have hblank : ∀ {word : String}, Text.IsToken word → '\n' ∉ word.toList :=
    fun hword hmem => absurd (hword.2 _ hmem) (by decide)
  have hspace : " ".toList = [' '] := by decide
  intro hmem
  unfold policyText at hmem
  simp only [String.toList_append, List.mem_append, hspace, List.mem_singleton] at hmem
  rcases hmem with (((hmem | hmem) | hmem) | hmem) | hmem
  · exact hblank htoken hmem
  · exact absurd hmem (by decide)
  · exact hblank (Text.isToken_toString_int mode) hmem
  · exact absurd hmem (by decide)
  · exact hblank (Text.isToken_toString_nat _) hmem

/-- The record that a canonical line is read as. -/
def canonicalRecord (record : ManagerAppConfigRecord) : LegacyPolicyRecord :=
  ⟨tokenText record.uid, record.mode, record.permissive⟩

section
variable {record : ManagerAppConfigRecord} {records : List ManagerAppConfigRecord}

/-- One line that is written is read as one record. -/
theorem policyRecords_line (hrange : record.InRange) :
    policyRecords (policyText (tokenText record.uid) record.mode record.permissive ++ "\n")
      = [canonicalRecord record] := by
  have htoken := isPolicyToken_tokenText record.uid
  have hnewline : "\n".toList = ['\n'] := by decide
  have hpiece := Text.splitInclusiveChars_terminated
    (newline_not_mem_policyText htoken.1 record.mode record.permissive) []
  have hparse := @parse_policyText _ record.mode record.permissive ['\n'] htoken hrange.mode newline_blank
  unfold policyRecords Text.splitInclusive
  rw [String.toList_append, hnewline, hpiece]
  show List.filterMap _ [String.ofList _] = _
  rw [List.filterMap_cons_some hparse]
  rfl

/-- A line that is appended is read after the others. -/
theorem policyRecords_appendLine (payload : String) (hrange : record.InRange) :
    policyRecords (appendLine payload record) = policyRecords payload ++ [canonicalRecord record] := by
  unfold appendLine
  split
  · next hopen =>
    obtain ⟨hne, hlast⟩ := hopen
    have hends : (payload ++ "\n").toList.getLast? = some '\n' := by
      have hnewline : "\n".toList = ['\n'] := by decide
      rw [String.toList_append, hnewline, List.getLast?_concat]
    rw [policyRecords_append (.inr hends), policyRecords_end hne hlast, policyRecords_line hrange]
  · next hclosed =>
    have hends : payload = "" ∨ payload.toList.getLast? = some '\n' := by
      by_contra hnot
      rw [not_or] at hnot
      exact hclosed hnot
    rw [policyRecords_append hends, policyRecords_line hrange]

/-- So are any number of them. -/
theorem policyRecords_foldl (payload : String) (hrange : ∀ record ∈ records, record.InRange) :
    policyRecords (records.foldl appendLine payload)
      = policyRecords payload ++ records.map canonicalRecord := by
  induction records generalizing payload with
  | nil => rw [List.foldl_nil, List.map_nil, List.append_nil]
  | cons record rest ih =>
    rw [List.foldl_cons, ih _ fun other hother => hrange other (List.mem_cons_of_mem _ hother),
      policyRecords_appendLine payload (hrange record List.mem_cons_self), List.append_assoc, List.map_cons]
    rfl

end

/-! ## The rewritten lines -/

section
variable {byUid previousByUid : SortedMap Nat ManagerAppConfigRecord} {lineUids : SortedMap Nat Nat}

/-- What a line that is written anew is read as. -/
def rewrittenRecord (byUid previousByUid : SortedMap Nat ManagerAppConfigRecord)
    (lineUids : SortedMap Nat Nat) (line : PolicyLine) : Option LegacyPolicyRecord :=
  line.parsed.map fun parsed =>
    match lineUids.get? line.index with
    | none => parsed
    | some uid =>
      match previousByUid.get? uid with
      | none => parsed
      | some previous =>
        let record := (byUid.get? uid).getD previous
        ⟨parsed.packageOrUid, record.mode, record.permissive⟩

/-- The values of a line are those of the record before. -/
def AgreesWith (previousByUid : SortedMap Nat ManagerAppConfigRecord) (lineUids : SortedMap Nat Nat)
    (line : PolicyLine) : Prop :=
  ∀ parsed uid previous, line.parsed = some parsed → lineUids.get? line.index = some uid →
    previousByUid.get? uid = some previous →
    parsed.mode = previous.mode ∧ parsed.permissive = previous.permissive

/-- The new text of a line says what the line should say. -/
theorem parse_newText {line : PolicyLine} (hline : IsPolicyLine line)
    (hagrees : AgreesWith previousByUid lineUids line)
    (hrange : ∀ uid record, byUid.get? uid = some record → record.InRange) :
    parseLegacyPolicyLine (newText byUid previousByUid lineUids line)
      = rewrittenRecord byUid previousByUid lineUids line := by
  unfold newText rewrittenRecord
  cases hparsed : line.parsed with
  | none =>
    show parseLegacyPolicyLine line.raw = none
    rw [← hline.parsed, hparsed]
  | some parsed =>
    have hraw : parseLegacyPolicyLine line.raw = some parsed := by rw [← hline.parsed, hparsed]
    -- A line that stands for no uid is kept as it is.
    cases huid : lineUids.get? line.index with
    | none => exact hraw
    | some uid =>
      rw [Option.map_some]
      dsimp only
      cases hprevious : previousByUid.get? uid with
      | none => exact hraw
      | some previous =>
        obtain ⟨hmode, hpermissive⟩ := hagrees parsed uid previous hparsed huid hprevious
        dsimp only
        split
        · next hsame =>
          -- The line stands as it was.
          rw [hraw, hsame.1, hsame.2, ← hmode, ← hpermissive]
        · next hchanged =>
          obtain ⟨htoken, -⟩ := writable_of_parse hraw
          cases hrecord : byUid.get? uid with
          | none =>
            rw [hrecord] at hchanged
            exact absurd ⟨rfl, rfl⟩ hchanged
          | some record =>
            have hmodes := (hrange uid record hrecord).mode
            have hparse := @parse_policyText _ record.mode record.permissive _ htoken hmodes hline.ending_blank
            rw [← String.toList_append, String.ofList_toList] at hparse
            exact hparse

/-- The new text is the old one, or a record with the old ending. -/
theorem newText_cases (line : PolicyLine) :
    newText byUid previousByUid lineUids line = line.raw
    ∨ ∃ parsed mode permissive, line.parsed = some parsed
      ∧ newText byUid previousByUid lineUids line
        = policyText parsed.packageOrUid mode permissive ++ line.ending := by
  unfold newText
  cases hparsed : line.parsed with
  | none => exact .inl rfl
  | some parsed =>
    cases lineUids.get? line.index with
    | none => exact .inl rfl
    | some uid =>
      dsimp only
      cases previousByUid.get? uid with
      | none => exact .inl rfl
      | some previous =>
        dsimp only
        split
        · exact .inl rfl
        · exact .inr ⟨parsed, _, _, rfl, rfl⟩

/-- The new text of a line ends as the old one did. -/
theorem sameEnd_newText {line : PolicyLine} (hline : IsPolicyLine line)
    (hraw : Text.SameEnd '\n' line.raw.toList line.raw.toList) :
    Text.SameEnd '\n' line.raw.toList (newText byUid previousByUid lineUids line).toList := by
  rcases @newText_cases byUid previousByUid lineUids line with hsame | ⟨parsed, mode, permissive, hparsed, hnew⟩
  · rwa [hsame]
  obtain ⟨⟨htoken, -⟩, -⟩ := writable_of_parse (hline.parsed ▸ hparsed)
  have hnone := newline_not_mem_policyText htoken mode permissive
  rw [hnew, String.toList_append]
  rcases hline.ending with ⟨hnil, hlast⟩ | ⟨⟨body, hbody⟩, hbreak⟩
  · -- The last line of a text that does not end with a line break.
    right
    have hopen : '\n' ∉ line.raw.toList := by
      rcases hraw with ⟨body, -, -, -, heq, -⟩ | ⟨hopen, -, -⟩
      · rw [heq, List.getLast?_concat] at hlast
        exact absurd rfl hlast
      · exact hopen
    rw [hnil, List.append_nil]
    refine ⟨hopen, hnone, fun hempty => htoken.1 ?_⟩
    unfold policyText at hempty
    simp only [String.toList_append, List.append_eq_nil_iff] at hempty
    exact String.toList_inj.mp (hempty.1.1.1.1.trans String.toList_empty.symm)
  · left
    have hclosed : '\n' ∈ line.raw.toList := by
      rw [hbody]
      -- The line ends with a line break, so does its new text.
      rcases hbreak with hnewline | hreturn
      · rw [hnewline]
        simp
      · rw [hreturn]
        simp
    rcases hraw with ⟨rawBody, -, hrawBody, -, heq, -⟩ | ⟨hopen, -, -⟩
    · rcases hbreak with hnewline | hreturn
      · exact ⟨rawBody, _, hrawBody, hnone, heq, by rw [hnewline]⟩
      · refine ⟨rawBody, (policyText parsed.packageOrUid mode permissive).toList ++ ['\r'], hrawBody, ?_,
          heq, by rw [hreturn, List.append_assoc]; rfl⟩
        intro hmem
        rcases List.mem_append.mp hmem with hmem | hmem
        · exact hnone hmem
        · exact absurd (List.mem_singleton.mp hmem) (by decide)
    · exact absurd hclosed hopen

/-- The lines of the new text are read one by one. -/
theorem policyRecords_rewritten {text : String}
    (hagrees : ∀ line ∈ policyLines text, AgreesWith previousByUid lineUids line)
    (hrange : ∀ uid record, byUid.get? uid = some record → record.InRange) :
    policyRecords (String.join ((policyLines text).map (newText byUid previousByUid lineUids)))
      = (policyLines text).filterMap (rewrittenRecord byUid previousByUid lineUids) := by
  obtain ⟨hraws, hlines, -⟩ := policyLines_spec text
  obtain ⟨hpieces, -⟩ := @Text.pieces_splitInclusiveChars '\n' text.toList
  have hold : (policyLines text).map (fun line => line.raw.toList) = Text.splitInclusiveChars '\n' text.toList := by
    have hmap := congrArg (List.map String.toList) hraws
    unfold Text.splitInclusive at hmap
    rw [List.map_map, List.map_map] at hmap
    rw [show (fun line : PolicyLine => line.raw.toList) = String.toList ∘ PolicyLine.raw from rfl, hmap]
    conv_rhs => rw [← List.map_id (Text.splitInclusiveChars '\n' text.toList)]
    exact List.map_congr_left fun _ _ => String.toList_ofList
  rw [← hold] at hpieces
  have hsame : ∀ line ∈ policyLines text, Text.SameEnd '\n' line.raw.toList
      (newText byUid previousByUid lineUids line).toList := by
    intro line hmem
    exact sameEnd_newText (hlines line hmem)
      (Text.SameEnd.refl hpieces _ (List.mem_map_of_mem hmem))
  have hnew := Text.splitInclusiveChars_flatten (hpieces.map hsame)
  unfold policyRecords Text.splitInclusive
  rw [String.toList_join, List.flatMap_map]
  show List.filterMap _ (List.map _ (Text.splitInclusiveChars '\n' (List.flatMap _ _))) = _
  rw [List.flatMap_def, hnew, List.map_map, List.filterMap_map]
  refine List.filterMap_congr fun line hmem => ?_
  show parseLegacyPolicyLine (String.ofList (newText byUid previousByUid lineUids line).toList) = _
  rw [String.ofList_toList]
  exact parse_newText (hlines line hmem) (hagrees line hmem) hrange

end

end Freezeit
