import Freezeit.LedgerStore
import Mathlib.Data.List.Infix

/-! # The texts of the SIGSTOP ledger

    What the daemon writes to the two files, it reads back. -/

namespace Freezeit

variable {identity i : SignalStopIdentity} {generation g : SignalStopLedgerGeneration}

/-! ## Lines -/

/-- A parsed number is below the bound. -/
theorem Text.lt_of_parseUnsigned {bound n : Nat} {text : String}
    (h : Text.parseUnsigned bound text = some n) : n < bound := by
  unfold Text.parseUnsigned at h
  simpa using (Option.filter_eq_some_iff.mp h).2

/-- A parsed number fits in its width. -/
theorem Text.range_of_parseSigned {bits : Nat} {z : Int} {text : String}
    (h : Text.parseSigned bits text = some z) : -(2 ^ (bits - 1)) ≤ z ∧ z < 2 ^ (bits - 1) := by
  unfold Text.parseSigned at h
  simpa using (Option.filter_eq_some_iff.mp h).2

/-- The identity is a pair of an `i32` and a `u64`. -/
structure SignalStopIdentity.Fits (identity : SignalStopIdentity) : Prop where
  low   : -(2 ^ 31) ≤ identity.pid
  high  : identity.pid < 2 ^ 31
  ticks : identity.startTimeTicks < 2 ^ 64

/-- Device and inode are `u64`s. -/
structure SignalStopLedgerGeneration.Fits (generation : SignalStopLedgerGeneration) : Prop where
  device : generation.device < 2 ^ 64
  inode  : generation.inode < 2 ^ 64

/-- A character of joined pieces is the separator or in one of them. -/
theorem Text.mem_intercalate {pieces : List (List Char)} {c d : Char}
    (h : d ∈ [c].intercalate pieces) : d = c ∨ ∃ piece ∈ pieces, d ∈ piece := by
  induction pieces with
  | nil => cases h
  | cons piece rest ih =>
    cases rest with
    | nil =>
      rw [List.intercalate_singleton] at h
      exact .inr ⟨piece, List.mem_cons_self, h⟩
    | cons next rest =>
      rw [List.intercalate_cons_cons, List.append_assoc, List.mem_append, List.mem_append] at h
      rcases h with hpiece | hsep | hrest
      · exact .inr ⟨piece, List.mem_cons_self, hpiece⟩
      · exact .inl (List.mem_singleton.mp hsep)
      · rcases ih hrest with heq | ⟨piece', hpiece', hmem⟩
        · exact .inl heq
        · exact .inr ⟨piece', List.mem_cons_of_mem _ hpiece', hmem⟩

/-- Tokens with blanks between them make a line. -/
theorem Text.isLine_intercalate {tokens : List String} (h : ∀ token ∈ tokens, Text.IsToken token) :
    Text.IsLine (" ".intercalate tokens) := by
  intro c hc
  rw [String.toList_intercalate] at hc
  have hspace : ∀ {d : Char}, Text.isWhitespace d = false → d ≠ '\n' ∧ d ≠ '\r' := by
    intro d hd
    refine ⟨?_, ?_⟩
    · rintro rfl
      cases hd
    · rintro rfl
      cases hd
  rcases Text.mem_intercalate hc with rfl | ⟨piece, hpiece, hmem⟩
  · exact ⟨by decide, by decide⟩
  · obtain ⟨token, htoken, rfl⟩ := List.mem_map.mp hpiece
    exact hspace ((h token htoken).2 c hmem)

/-- The tokens of a line of the main ledger. -/
def SignalStopIdentity.tokens (identity : SignalStopIdentity) : List String :=
  [toString identity.pid, toString identity.startTimeTicks]

/-- Numbers are written without blanks. -/
theorem isToken_of_mem_tokens {token : String} (h : token ∈ identity.tokens) :
    Text.IsToken token := by
  simp only [SignalStopIdentity.tokens, List.mem_cons, List.not_mem_nil, or_false] at h
  rcases h with rfl | rfl
  · exact Text.isToken_toString_int _
  · exact Text.isToken_toString_nat _

/-- A line of the main ledger splits into its two tokens. -/
theorem splitWhitespace_ledgerLine (identity : SignalStopIdentity) :
    Text.splitWhitespace (ledgerLine identity) = identity.tokens :=
  Text.splitWhitespace_intercalate (fun _ => isToken_of_mem_tokens)
    (by simp [SignalStopIdentity.tokens])

theorem toList_sidecarToken (generation : SignalStopLedgerGeneration) :
    generation.sidecarToken.toList
      = (toString generation.device).toList ++ ':' :: (toString generation.inode).toList := by
  unfold SignalStopLedgerGeneration.sidecarToken
  rw [String.toList_append, String.toList_append, List.append_assoc]
  rfl

theorem isToken_sidecarToken (generation : SignalStopLedgerGeneration) :
    Text.IsToken generation.sidecarToken := by
  refine ⟨?_, ?_⟩
  · intro hempty
    have htext := toList_sidecarToken generation
    rw [hempty] at htext
    have hnonempty : (toString generation.device).toList
        ++ ':' :: (toString generation.inode).toList ≠ [] := by simp
    exact hnonempty htext.symm
  · intro c hc
    rw [toList_sidecarToken] at hc
    rcases List.mem_append.mp hc with hdevice | hrest
    · exact (Text.isToken_toString_nat _).2 c hdevice
    · cases hrest with
      | head => rfl
      | tail _ hinode => exact (Text.isToken_toString_nat _).2 c hinode

/-- The tokens of a line of the sidecar. -/
def provenanceTokens (identity : SignalStopIdentity) (generation : SignalStopLedgerGeneration) :
    List String :=
  identity.tokens ++ ["SignalOnly", generation.sidecarToken]

theorem isToken_signalOnly : Text.IsToken "SignalOnly" := by
  have hchars : "SignalOnly" = String.ofList ['S', 'i', 'g', 'n', 'a', 'l', 'O', 'n', 'l', 'y'] := rfl
  have hall : ['S', 'i', 'g', 'n', 'a', 'l', 'O', 'n', 'l', 'y'].all
      (fun c => Text.isWhitespace c == false) = true := rfl
  refine ⟨by decide, ?_⟩
  intro c hc
  rw [hchars, String.toList_ofList] at hc
  exact eq_of_beq (List.all_eq_true.mp hall c hc)

theorem isToken_of_mem_provenanceTokens {token : String}
    (h : token ∈ provenanceTokens identity generation) : Text.IsToken token := by
  rcases List.mem_append.mp h with h | h
  · exact isToken_of_mem_tokens h
  · simp only [List.mem_cons, List.not_mem_nil, or_false] at h
    rcases h with rfl | rfl
    · exact isToken_signalOnly
    · exact isToken_sidecarToken _

theorem provenanceLine_eq (identity : SignalStopIdentity)
    (generation : SignalStopLedgerGeneration) :
    provenanceLine identity generation = " ".intercalate (provenanceTokens identity generation) := by
  apply String.toList_injective
  unfold provenanceLine provenanceTokens SignalStopIdentity.tokens
  rw [String.toList_intercalate]
  simp only [String.toList_append, List.cons_append, List.nil_append, List.map_cons, List.map_nil,
    List.append_assoc, List.intercalate_cons_cons, List.intercalate_singleton]
  rfl

/-- A line of the sidecar splits into its four tokens. -/
theorem splitWhitespace_provenanceLine (identity : SignalStopIdentity)
    (generation : SignalStopLedgerGeneration) :
    Text.splitWhitespace (provenanceLine identity generation)
      = provenanceTokens identity generation := by
  rw [provenanceLine_eq]
  exact Text.splitWhitespace_intercalate (fun _ => isToken_of_mem_provenanceTokens)
    (by simp [provenanceTokens])

/-- A token is read back if its numbers are in range. -/
theorem fromSidecarToken_sidecarToken (h : generation.Fits) :
    SignalStopLedgerGeneration.fromSidecarToken generation.sidecarToken = some generation := by
  -- The only colon is the one between the numbers, so the token is cut there and the
  -- second part is not refused.
  have hcolon : ∀ n : Nat, ∀ c ∈ (toString n).toList, c ≠ ':' := by
    intro n c hc heq
    have htext : (toString n).toList = Nat.toDigits 10 n := by simp
    rw [htext] at hc
    have hdigit := Text.isDigit_of_mem_toDigits hc
    rw [heq] at hdigit
    cases hdigit
  have hsplit : Text.splitOnce ':' generation.sidecarToken
      = some (toString generation.device, toString generation.inode) := by
    have hpos : ∀ c ∈ (toString generation.device).toList, decide (c ≠ ':') = true :=
      fun c hc => decide_eq_true (hcolon _ c hc)
    unfold Text.splitOnce Text.before
    rw [toList_sidecarToken, List.dropWhile_append_of_pos hpos, List.takeWhile_append_of_pos hpos]
    have hstop : ∀ rest : List Char, (':' :: rest).takeWhile (fun c => decide (c ≠ ':')) = [] :=
      fun _ => rfl
    have hdrop : ∀ rest : List Char, (':' :: rest).dropWhile (fun c => decide (c ≠ ':')) = ':' :: rest :=
      fun _ => rfl
    rw [hstop, hdrop, List.append_nil]
    dsimp only
    rw [String.ofList_toList, String.ofList_toList]
  have hinode : Text.contains (toString generation.inode) ":" = false := by
    unfold Text.contains
    rw [List.any_eq_false]
    intro suffix hsuffix hprefix
    obtain ⟨rest, hrest⟩ := List.isPrefixOf_iff_prefix.mp hprefix
    refine hcolon generation.inode ':' ?_ rfl
    apply ((List.mem_tails _ _).mp hsuffix).subset
    rw [← hrest]
    exact List.mem_cons_self
  unfold SignalStopLedgerGeneration.fromSidecarToken
  rw [hsplit]
  dsimp only [Option.bind_eq_bind, Option.bind_some]
  rw [hinode, Text.parseUnsigned_toString h.device, Text.parseUnsigned_toString h.inode]
  rfl

/-- A line of the main ledger is read back as its identity. -/
theorem parseLedgerLine_ledgerLine (h : identity.Fits) :
    parseLedgerLine (ledgerLine identity) = some (identity, .canonical) := by
  unfold parseLedgerLine
  rw [splitWhitespace_ledgerLine]
  unfold SignalStopIdentity.tokens
  dsimp only
  rw [Text.parseSigned_toString_eq, if_pos ⟨h.low, h.high⟩, Text.parseUnsigned_toString h.ticks]
  rfl

/-- A record that was read is in range. -/
theorem fits_of_parseLedgerLine {line : String} {record : SignalStopLedgerRecord}
    (h : parseLedgerLine line = some (identity, record)) : identity.Fits := by
  unfold parseLedgerLine at h
  split at h
  · next pid startTimeTicks more _ =>
    cases hpid : Text.parseSigned 32 pid with
    | none =>
      rw [hpid] at h
      cases h
    | some z =>
      cases hticks : Text.parseUnsigned (2 ^ 64) startTimeTicks with
      | none =>
        rw [hpid, hticks] at h
        cases h
      | some n =>
        rw [hpid, hticks] at h
        cases h
        exact ⟨(Text.range_of_parseSigned hpid).1, (Text.range_of_parseSigned hpid).2,
          Text.lt_of_parseUnsigned hticks⟩
  · cases h

/-- A line of the sidecar is read back as its identity and generation. -/
theorem parseProvenanceLine_provenanceLine (hi : identity.Fits) (hg : generation.Fits) :
    parseProvenanceLine (provenanceLine identity generation)
      = some (identity, .signalOnly generation) := by
  unfold parseProvenanceLine
  rw [splitWhitespace_provenanceLine]
  unfold provenanceTokens SignalStopIdentity.tokens
  dsimp only [List.cons_append, List.nil_append]
  rw [Text.parseSigned_toString_eq, if_pos ⟨hi.low, hi.high⟩, Text.parseUnsigned_toString hi.ticks]
  show some (_, ((SignalStopLedgerGeneration.fromSidecarToken generation.sidecarToken).map
    SignalStopProvenanceRecord.signalOnly).getD .invalid) = _
  rw [fromSidecarToken_sidecarToken hg]
  rfl

/-- Whatever is read from a line of the sidecar is about the identity written there. -/
theorem parseProvenanceLine_identity {entry : SignalStopIdentity × SignalStopProvenanceRecord}
    (h : parseProvenanceLine (provenanceLine identity generation) = some entry) :
    entry.1 = identity := by
  unfold parseProvenanceLine at h
  rw [splitWhitespace_provenanceLine] at h
  unfold provenanceTokens SignalStopIdentity.tokens at h
  dsimp only [List.cons_append, List.nil_append] at h
  rw [Text.parseSigned_toString_eq, Text.parseUnsigned_toString_eq] at h
  split at h
  · split at h
    · cases h
      rfl
    · cases h
  · cases h

/-! ## Files -/

/-- The records of the main ledger, as they are read. -/
def ledgerRecords (text : Option String) : SortedMap SignalStopIdentity SignalStopLedgerRecord :=
  match text with
  | some text => ((Text.lines text).filterMap parseLedgerLine).foldl addLedgerRecord ∅
  | none      => ∅

/-- The sidecar, as it is read. -/
def provenanceOf (text : Option String) : SignalStopProvenanceLedger :=
  match text with
  | some text => readSignalStopProvenance (.ok text)
  | none      => ⟨∅, false⟩

/-- Both readers add entries in the way of the library, each with its own mark for an
    identity that occurs twice. -/
theorem addLedgerRecord_eq : addLedgerRecord = SortedMap.insertOnce .residualUnknown := rfl

theorem addProvenanceRecord_eq : addProvenanceRecord = SortedMap.insertOnce .invalid := rfl

/-- Reading what was written for some lines is parsing these lines. -/
theorem ledgerRecords_linesText {lines : List String} (h : ∀ line ∈ lines, Text.IsLine line) :
    ledgerRecords (linesText lines) = (lines.filterMap parseLedgerLine).foldl addLedgerRecord ∅ := by
  unfold linesText
  split
  · next hempty =>
    rw [List.isEmpty_iff.mp hempty]
    rfl
  · next hempty =>
    have hlines := Text.lines_intercalate h (by simpa using hempty)
    unfold ledgerRecords ledgerText
    dsimp only
    rw [hlines]

/-- The same holds for the sidecar, with its check that every line can be parsed. -/
theorem provenanceOf_linesText {lines : List String} (h : ∀ line ∈ lines, Text.IsLine line) :
    provenanceOf (linesText lines) =
      ⟨(lines.filterMap parseProvenanceLine).foldl addProvenanceRecord ∅,
        lines.any fun line => (parseProvenanceLine line).isNone⟩ := by
  unfold linesText
  split
  · next hempty =>
    rw [List.isEmpty_iff.mp hempty]
    rfl
  · next hempty =>
    have hlines := Text.lines_intercalate h (by simpa using hempty)
    unfold provenanceOf readSignalStopProvenance ledgerText
    dsimp only
    rw [hlines]

/-! ### What is written is read back -/

theorem isLine_ledgerLine (identity : SignalStopIdentity) : Text.IsLine (ledgerLine identity) :=
  Text.isLine_intercalate fun _ => isToken_of_mem_tokens

theorem isLine_provenanceLine (identity : SignalStopIdentity)
    (generation : SignalStopLedgerGeneration) :
    Text.IsLine (provenanceLine identity generation) := by
  rw [provenanceLine_eq]
  exact Text.isLine_intercalate fun _ => isToken_of_mem_provenanceTokens

/-- Identities that are in range and all different are read back as canonical records. -/
theorem ledgerRecords_get? {identities : List SignalStopIdentity} (hnodup : identities.Nodup)
    (hfits : ∀ identity ∈ identities, identity.Fits) :
    (ledgerRecords (linesText (identities.map ledgerLine))).get? i =
      if i ∈ identities then some .canonical else none := by
  have hlines : ∀ line ∈ identities.map ledgerLine, Text.IsLine line := by
    intro line hline
    obtain ⟨identity, -, rfl⟩ := List.mem_map.mp hline
    exact isLine_ledgerLine identity
  have hparsed : (identities.map ledgerLine).filterMap parseLedgerLine
      = identities.map fun identity => (identity, SignalStopLedgerRecord.canonical) := by
    rw [List.filterMap_map, ← List.filterMap_eq_map]
    apply List.filterMap_congr
    intro identity hidentity
    exact parseLedgerLine_ledgerLine (hfits identity hidentity)
  -- No identity occurs twice, so no entry is spoilt on the way.
  have hkeys : ((identities.map fun identity => (identity, SignalStopLedgerRecord.canonical)).map
      Prod.fst).Nodup := by
    rw [List.map_map]
    show (identities.map id).Nodup
    rw [List.map_id]
    exact hnodup
  have hget : ∀ record, (ledgerRecords (linesText (identities.map ledgerLine))).get? i = some record
      ↔ i ∈ identities ∧ record = .canonical := by
    intro record
    rw [ledgerRecords_linesText hlines, hparsed, addLedgerRecord_eq,
      SortedMap.get?_foldl_insertOnce_of_nodup hkeys fun _ _ => SortedMap.not_mem_empty _]
    simp [eq_comm]
  split
  · next hmem => exact (hget _).mpr ⟨hmem, rfl⟩
  · next hmem =>
    cases hcase : (ledgerRecords (linesText (identities.map ledgerLine))).get? i with
    | none => rfl
    | some record => exact absurd ((hget record).mp hcase).1 hmem

/-- The records of a map that stand for a SIGSTOP alone. -/
def signalOnlyEntries (records : SortedMap SignalStopIdentity SignalStopProvenanceRecord) :
    List (SignalStopIdentity × SignalStopLedgerGeneration) :=
  records.entries.filterMap fun entry =>
    match entry.2 with
    | .signalOnly generation => some (entry.1, generation)
    | .invalid               => none

/-- The invalid records are not written. -/
theorem lines_eq (records : SortedMap SignalStopIdentity SignalStopProvenanceRecord) :
    SignalStopProvenanceLedger.lines records
      = (signalOnlyEntries records).map fun entry => provenanceLine entry.1 entry.2 := by
  unfold SignalStopProvenanceLedger.lines signalOnlyEntries
  rw [List.map_filterMap]
  apply List.filterMap_congr
  intro entry _
  cases entry.2 with
  | signalOnly generation => rfl
  | invalid => rfl

/-- These entries are the records that the map has. -/
theorem mem_signalOnlyEntries {records : SortedMap SignalStopIdentity SignalStopProvenanceRecord} :
    (i, g) ∈ signalOnlyEntries records ↔ records.get? i = some (.signalOnly g) := by
  unfold signalOnlyEntries
  rw [List.mem_filterMap]
  constructor
  · intro h
    obtain ⟨⟨i', record⟩, hmem, hentry⟩ := h
    cases record with
    | signalOnly g' =>
      cases hentry
      exact (SortedMap.lookupEntry_eq_some_iff records.sorted).mpr hmem
    | invalid => cases hentry
  · intro h
    exact ⟨(i, .signalOnly g), (SortedMap.lookupEntry_eq_some_iff records.sorted).mp h, rfl⟩

/-- No identity is written twice, since the keys of a map are distinct. -/
theorem nodup_signalOnlyEntries
    (records : SortedMap SignalStopIdentity SignalStopProvenanceRecord) :
    ((signalOnlyEntries records).map Prod.fst).Nodup := by
  have hsub : ((signalOnlyEntries records).map Prod.fst).Sublist records.keys := by
    unfold signalOnlyEntries SortedMap.keys
    induction records.entries with
    | nil => exact .slnil
    | cons entry rest ih =>
      obtain ⟨i, record⟩ := entry
      cases record with
      | signalOnly g => exact ih.cons_cons i
      | invalid => exact ih.cons i
  exact hsub.nodup records.nodup_keys

theorem isLine_of_mem_lines {records : SortedMap SignalStopIdentity SignalStopProvenanceRecord}
    {line : String} (h : line ∈ SignalStopProvenanceLedger.lines records) : Text.IsLine line := by
  rw [lines_eq] at h
  obtain ⟨entry, -, rfl⟩ := List.mem_map.mp h
  exact isLine_provenanceLine _ _

/-- The sidecar that is written for records is read back as their claims. -/
theorem provenanceOf_lines {records : SortedMap SignalStopIdentity SignalStopProvenanceRecord}
    (hfits : ∀ i g, records.get? i = some (.signalOnly g) → i.Fits ∧ g.Fits) :
    (provenanceOf (linesText (SignalStopProvenanceLedger.lines records))).globallyUntrusted = false
      ∧ ∀ i record, (provenanceOf (linesText
          (SignalStopProvenanceLedger.lines records))).records.get? i = some record
        ↔ records.get? i = some record ∧ record ≠ .invalid := by
  have hread : ∀ entry ∈ signalOnlyEntries records,
      parseProvenanceLine (provenanceLine entry.1 entry.2) = some (entry.1, .signalOnly entry.2) := by
    intro entry hentry
    have hfit := hfits entry.1 entry.2 (mem_signalOnlyEntries.mp hentry)
    exact parseProvenanceLine_provenanceLine hfit.1 hfit.2
  -- Every line parses, so the sidecar is trusted and its entries are those of the map.
  have hparsed : (SignalStopProvenanceLedger.lines records).filterMap parseProvenanceLine
      = (signalOnlyEntries records).map fun entry =>
        (entry.1, SignalStopProvenanceRecord.signalOnly entry.2) := by
    rw [lines_eq, List.filterMap_map, ← List.filterMap_eq_map]
    apply List.filterMap_congr
    exact hread
  have hkeys : (((signalOnlyEntries records).map fun entry =>
      (entry.1, SignalStopProvenanceRecord.signalOnly entry.2)).map Prod.fst).Nodup := by
    rw [List.map_map]
    exact nodup_signalOnlyEntries records
  rw [provenanceOf_linesText fun _ => isLine_of_mem_lines]
  refine ⟨?_, ?_⟩
  · show (SignalStopProvenanceLedger.lines records).any _ = false
    rw [lines_eq, List.any_map, List.any_eq_false]
    intro entry hentry
    simp [hread entry hentry]
  · intro i record
    dsimp only
    rw [hparsed, addProvenanceRecord_eq,
      SortedMap.get?_foldl_insertOnce_of_nodup hkeys fun _ _ => SortedMap.not_mem_empty _,
      SortedMap.get?_empty, List.mem_map]
    constructor
    · intro h
      cases h with
      | inl hnone => cases hnone
      | inr h =>
        obtain ⟨⟨i', g⟩, hmem, heq⟩ := h
        cases heq
        exact ⟨mem_signalOnlyEntries.mp hmem, by simp⟩
    · intro h
      obtain ⟨hget, hvalid⟩ := h
      cases record with
      | signalOnly g => exact .inr ⟨(i, g), mem_signalOnlyEntries.mpr hget, rfl⟩
      | invalid => exact absurd rfl hvalid

/-- What a sidecar claims that was written for records, they claim. -/
theorem claims_of_lines {records : SortedMap SignalStopIdentity SignalStopProvenanceRecord}
    (h : (provenanceOf (linesText (SignalStopProvenanceLedger.lines records))).records.get? i
      = some (.signalOnly g)) : ∃ g', records.get? i = some (.signalOnly g') := by
  rw [provenanceOf_linesText fun _ => isLine_of_mem_lines] at h
  dsimp only at h
  rw [addProvenanceRecord_eq] at h
  -- An entry was there before, comes from a line, or was spoilt by a second line.
  rcases SortedMap.get?_foldl_insertOnce h with hnone | hmem | hspoilt
  · cases hnone
  · obtain ⟨line, hline, hparse⟩ := List.mem_filterMap.mp hmem
    rw [lines_eq] at hline
    obtain ⟨⟨i', g'⟩, hentry, rfl⟩ := List.mem_map.mp hline
    have heq : i = i' := parseProvenanceLine_identity hparse
    rw [heq]
    exact ⟨g', mem_signalOnlyEntries.mp hentry⟩
  · cases hspoilt

end Freezeit
