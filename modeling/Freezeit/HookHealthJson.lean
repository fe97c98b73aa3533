import Freezeit.HookHealthScan

/-! # What the health scanner reads

    The report is an object, and the last string of one of two fields decides.
    A comma may stand before the brace that closes the report. -/

namespace Freezeit

open Json (Part)

/-! ## The grammar of the report -/

/-- The members of the report after its opening brace: the texts of the names
    and of the values. -/
inductive LaxMembers : Bytes → List (Bytes × Bytes) → Prop where
  /-- Nothing follows, neither the opening brace nor a comma. -/
  | close {ws} : IsJsonBlanks ws → LaxMembers (ws ++ [asciiByte '\x7d']) []
  | last {ws₁ ws₂ ws₃ ws₄ name key bytes} : IsJsonBlanks ws₁ → LaxString name key →
      IsJsonBlanks ws₂ → IsJsonBlanks ws₃ → LaxPart .value 0 bytes → IsJsonBlanks ws₄ →
      LaxMembers (ws₁ ++ (name ++ (ws₂ ++ asciiByte ':'
        :: (ws₃ ++ (bytes ++ (ws₄ ++ [asciiByte '\x7d'])))))) [(name, bytes)]
  | next {ws₁ ws₂ ws₃ ws₄ name key bytes rest members} : IsJsonBlanks ws₁ → LaxString name key →
      IsJsonBlanks ws₂ → IsJsonBlanks ws₃ → LaxPart .value 0 bytes → IsJsonBlanks ws₄ →
      LaxMembers rest members →
      LaxMembers (ws₁ ++ (name ++ (ws₂ ++ asciiByte ':'
        :: (ws₃ ++ (bytes ++ (ws₄ ++ asciiByte ',' :: rest)))))) ((name, bytes) :: members)

/-- The report is one object between blanks. -/
inductive LaxReport : Bytes → List (Bytes × Bytes) → Prop where
  | report {ws body ws' members} : IsJsonBlanks ws → LaxMembers body members → IsJsonBlanks ws' →
      LaxReport (ws ++ asciiByte '\x7b' :: (body ++ ws')) members

/-- A text in quotes, without escapes. -/
def quoted (text : String) : Bytes :=
  asciiByte '"' :: (text.toList.map asciiByte ++ [asciiByte '"'])

/-- The text of the last member of a name. -/
def lastText (name : Bytes) (members : List (Bytes × Bytes)) : Option Bytes :=
  (members.reverse.find? fun member => member.1 = name).map Prod.snd

/-- The text of the member that decides. -/
def controlText (members : List (Bytes × Bytes)) : Option Bytes :=
  (lastText (quoted "system_control_status") members).or (lastText (quoted "status") members)

/-! ## Words -/

/-- A character that stands for itself in a string, and for no other. -/
def IsWordChar (c : Char) : Prop := 0x20 ≤ c.toNat ∧ c.toNat < 0x80 ∧ c ∉ ['"', '\\', '/', '?']

instance (c : Char) : Decidable (IsWordChar c) := inferInstanceAs (Decidable (_ ∧ _ ∧ _))

/-- A text of plain letters, such as the names of the fields. -/
def IsWord (text : String) : Prop := ∀ c ∈ text.toList, IsWordChar c

instance (text : String) : Decidable (IsWord text) :=
  decidable_of_iff ((text.toList.all fun c => decide (IsWordChar c)) = true) (by
    rw [List.all_eq_true]
    exact forall₂_congr fun _ _ => decide_eq_true_iff)

/-- The byte of an ASCII character has its number. -/
theorem asciiByte_toNat {c : Char} (h : c.toNat < 0x80) : (asciiByte c).toNat = c.toNat := by
  unfold asciiByte
  rw [UInt8.toNat_ofNat']
  omega

/-- Every byte is that of some character. -/
theorem asciiByte_ofNat (byte : UInt8) : asciiByte (Char.ofNat byte.toNat) = byte := by
  have hbyte : byte.toNat < 256 := UInt8.toNat_lt byte
  have hvalid : Nat.isValidChar byte.toNat := .inl (by omega)
  have hchar : (Char.ofNat byte.toNat).toNat = byte.toNat := by
    unfold Char.ofNat
    rw [dif_pos hvalid]
    rfl
  unfold asciiByte
  rw [hchar, UInt8.ofNat_toNat]

/-- No escape stands for a letter of a word. -/
theorem jsonEscape_not_word {escaped : UInt8} {c : Char} (h : jsonEscape escaped = some c) :
    ¬ IsWordChar c := by
  unfold jsonEscape at h
  split at h
  · exact Option.some.inj h ▸ by decide
  split at h
  · exact Option.some.inj h ▸ by decide
  split at h
  · exact Option.some.inj h ▸ by decide
  split at h
  · exact Option.some.inj h ▸ by decide
  split at h
  · exact Option.some.inj h ▸ by decide
  split at h
  · exact Option.some.inj h ▸ by decide
  split at h
  · exact Option.some.inj h ▸ by decide
  split at h
  · exact Option.some.inj h ▸ by decide
  · cases h

/-- A string that is read as a word is written without escapes. -/
theorem LaxStringBody.eq_of_word {bytes : Bytes} {cs : List Char} (h : LaxStringBody bytes cs)
    (hword : ∀ c ∈ cs, IsWordChar c) : bytes = cs.map asciiByte ++ [asciiByte '"'] := by
  induction h with
  | close => rfl
  | @plain byte bytes cs _ _ _ _ ih =>
    have hrest := ih fun c hc => hword c (List.mem_cons_of_mem _ hc)
    rw [hrest, List.map_cons, asciiByte_ofNat, List.cons_append]
  | escape hescape _ _ =>
    exact absurd (hword _ List.mem_cons_self) (jsonEscape_not_word hescape)
  | unicode _ _ _ => exact absurd (hword _ List.mem_cons_self) (by decide)

/-- A word is the body of a string as it is, without escapes. -/
theorem laxStringBody_word {cs : List Char} (hword : ∀ c ∈ cs, IsWordChar c) :
    LaxStringBody (cs.map asciiByte ++ [asciiByte '"']) cs := by
  induction cs with
  | nil => exact .close
  | cons c cs ih =>
    have hrest := ih fun other hother => hword other (List.mem_cons_of_mem _ hother)
    obtain ⟨hlow, hhigh, hmarks⟩ := hword c List.mem_cons_self
    have hnat := asciiByte_toNat hhigh
    have hne : ∀ mark : Char, mark.toNat < 0x80 → c ≠ mark → asciiByte c ≠ asciiByte mark := by
      intro mark hmark hne heq
      apply hne
      rw [← Char.toNat_inj, ← hnat, ← asciiByte_toNat hmark, heq]
    have hplain := LaxStringBody.plain
      (hne '"' (by decide) fun heq => hmarks (by simp [heq]))
      (hne '\\' (by decide) fun heq => hmarks (by simp [heq]))
      (by rw [UInt8.lt_iff_toNat_lt, hnat]; exact Nat.not_lt.mpr hlow) hrest
    rwa [hnat, Char.ofNat_toNat] at hplain

/-- A word in quotes is a string of that value. -/
theorem laxString_word {word : String} (hword : IsWord word) : LaxString (quoted word) word := by
  have hbody := LaxString.quoted (laxStringBody_word hword)
  rwa [String.ofList_toList] at hbody

/-- A string text has one value. -/
theorem laxString_unique {text : Bytes} {value value' : String} (h : LaxString text value)
    (h' : LaxString text value') : value = value' := by
  have hparse := parseJsonString_complete h []
  rw [parseJsonString_complete h' []] at hparse
  exact (congrArg Prod.fst (Option.some.inj hparse)).symm

/-- The bytes alone tell whether a string is read as a word. -/
theorem LaxString.eq_word_iff {text : Bytes} {value word : String} (h : LaxString text value)
    (hword : IsWord word) : value = word ↔ text = Freezeit.quoted word := by
  constructor
  · rintro rfl
    cases h with
    | quoted hbody =>
      rename_i cs
      have hchars : (String.ofList cs).toList = cs := String.toList_ofList
      unfold Freezeit.quoted
      rw [hchars]
      rw [IsWord, hchars] at hword
      rw [hbody.eq_of_word hword]
  · rintro rfl
    exact laxString_unique h (laxString_word hword)

/-! ## The loop over the report -/

section
variable {field key : String} {name text after : Bytes} {value : Option String}

/-- What the text of a string is read as. -/
def textOf (text : Bytes) : Option String := (parseJsonString text).map Prod.fst

/-- The value of a string text is found by the scanner. -/
theorem LaxString.textOf {value : String} (h : LaxString text value) :
    Freezeit.textOf text = some value := by
  have hparse := parseJsonString_complete h []
  rw [List.append_nil] at hparse
  unfold Freezeit.textOf
  rw [hparse]
  rfl

/-- A value is a string, or it begins with another byte than the quote. -/
theorem LaxPart.string_or (h : LaxPart .value 0 text) :
    (∃ value, LaxString text value) ∨ ∃ byte tail, text = byte :: tail ∧ byte ≠ asciiByte '"' := by
  cases h with
  | literal hmem =>
    simp only [List.mem_cons, List.not_mem_nil, or_false] at hmem
    rcases hmem with rfl | rfl | rfl
    · exact .inr ⟨_, _, rfl, by decide⟩
    · exact .inr ⟨_, _, rfl, by decide⟩
    · exact .inr ⟨_, _, rfl, by decide⟩
  | number hstart _ => exact .inr ⟨_, _, rfl, startsJsonNumber_other hstart (by decide)⟩
  | string hstring => exact .inl ⟨_, hstring⟩
  | emptyArray _ _ => exact .inr ⟨_, _, rfl, by decide⟩
  | array _ _ => exact .inr ⟨_, _, rfl, by decide⟩
  | emptyObject _ _ => exact .inr ⟨_, _, rfl, by decide⟩
  | object _ _ => exact .inr ⟨_, _, rfl, by decide⟩

/-- A value is read as a string if it is one. -/
theorem LaxPart.parse (h : LaxPart .value 0 text) (after : Bytes) :
    parseJsonString (text ++ after) = (textOf text).map fun value => (value, after) := by
  rcases h.string_or with ⟨value, hstring⟩ | ⟨byte, tail, rfl, hbyte⟩
  · rw [parseJsonString_complete hstring, hstring.textOf]
    rfl
  · unfold textOf
    rw [List.cons_append, parseJsonString, parseJsonString, if_neg hbyte, if_neg hbyte]
    rfl

/-- So a value that is read as a text is a string of that text. -/
theorem LaxPart.textOf_eq {value : String} (h : LaxPart .value 0 text)
    (hvalue : textOf text = some value) : LaxString text value := by
  rcases h.string_or with ⟨value', hstring⟩ | ⟨byte, tail, rfl, hbyte⟩
  · rw [hstring.textOf] at hvalue
    obtain rfl := Option.some.inj hvalue
    exact hstring
  · unfold textOf at hvalue
    rw [parseJsonString, if_neg hbyte] at hvalue
    cases hvalue

/-- Looking at one member ends. -/
theorem topLevelJsonValue_ends (rest : Bytes) : Ends (topLevelJsonValue field key rest value) := by
  unfold topLevelJsonValue
  split
  · exact orMalformed_ends _
  · have hfuel : partFuel .value rest.length ≤ 2 * rest.length + 2 := Nat.le_succ _
    exact (endsAt _ 0 .value rest hfuel).map _

/-- What is passed over is a value of the grammar, with blanks before it. -/
theorem topLevelJsonValue_sound {rest : Bytes} {value' : Option String}
    (h : topLevelJsonValue field key rest value = .ok (value', after)) :
    ∃ ws text, rest = ws ++ (text ++ after) ∧ IsJsonBlanks ws ∧ LaxPart .value 0 text := by
  unfold topLevelJsonValue at h
  split at h
  · obtain ⟨⟨text, rest'⟩, hparse, heq⟩ := Option.map_eq_some_iff.mp (orMalformed_eq_ok.mp h)
    obtain ⟨-, rfl⟩ := Prod.mk.inj heq
    obtain ⟨name, rfl, hlax⟩ := parseJsonString_sound hparse
    exact ⟨[], name, rfl, isJsonBlanks_nil, .string hlax⟩
  · cases hskip : skipJsonValue (2 * rest.length + 2) 0 rest with
    | error error =>
      rw [hskip] at h
      cases h
    | ok rest' =>
      rw [hskip] at h
      obtain ⟨-, rfl⟩ := Prod.mk.inj (Except.ok.inj h)
      exact skipsParts (2 * rest.length + 2) 0 .value rest _ hskip

/-- A value of the grammar is passed over; under the name that is asked for it is read. -/
theorem topLevelJsonValue_complete (hpart : LaxPart .value 0 text) (hafter : NumberEnds text after) :
    topLevelJsonValue field key (text ++ after) value =
      if key = field then orMalformed ((textOf text).map fun text => (some text, after))
      else .ok (value, after) := by
  unfold topLevelJsonValue
  by_cases hkey : key = field
  · rw [if_pos hkey, if_pos hkey, hpart.parse, Option.map_map]
    rfl
  · have hskip := @skipJsonPart_complete (2 * (text ++ after).length + 2) _ _ after _ hpart
      (by simp only [List.length_append]; omega) fun _ => hafter
    rw [if_neg hkey, if_neg hkey]
    change skipJsonValue _ 0 (text ++ after) = _ at hskip
    rw [hskip]
    rfl

/-- After the closing brace only blanks may follow. -/
theorem endOfJsonObject_eq_ok {rest : Bytes} {r : Option String} :
    endOfJsonObject rest value = .ok r ↔ IsJsonBlanks rest ∧ value = r := by
  have hblanks : (skipJsonWhitespace rest).isEmpty = true ↔ IsJsonBlanks rest := by
    rw [List.isEmpty_iff]
    exact List.dropWhile_eq_nil_iff
  unfold endOfJsonObject
  by_cases hempty : (skipJsonWhitespace rest).isEmpty = true
  · rw [if_pos hempty]
    exact ⟨fun h => ⟨hblanks.mp hempty, Except.ok.inj h⟩, fun h => congrArg _ h.2⟩
  · rw [if_neg hempty]
    exact ⟨nofun, fun h => absurd (hblanks.mpr h.1) hempty⟩

/-- The scan of the members ends if the fuel exceeds their length, since each of them
    takes some bytes. -/
theorem topLevelJsonMembers_ends {fuel : Nat} {bytes : Bytes} (hfuel : bytes.length < fuel) :
    Ends (topLevelJsonMembers field fuel bytes value) := by
  induction fuel generalizing bytes value with
  | zero => exact absurd hfuel (Nat.not_lt_zero _)
  | succ fuel ih =>
    have hend : ∀ rest value, Ends (endOfJsonObject rest value) := by
      intro rest value
      unfold endOfJsonObject
      split
      · exact nofun
      · exact nofun
    have hlength := length_skipJsonWhitespace_le bytes
    rw [topLevelJsonMembers]
    dsimp only
    split
    · exact hend _ _
    apply Ends.bind (orMalformed_ends _)
    rintro ⟨key, afterName⟩ hkey
    -- The name took at least its quotes, so something was read.
    have hafterName := parseJsonString_length_le (orMalformed_eq_ok.mp hkey)
    -- What is left only gets shorter, so the fuel stays larger.
    have hlength' := length_skipJsonWhitespace_le afterName
    dsimp only
    cases hcolon : skipJsonWhitespace afterName with
    | nil => exact nofun
    | cons colon tail =>
      rw [hcolon, List.length_cons] at hlength'
      dsimp only
      split
      · apply Ends.bind (topLevelJsonValue_ends _)
        rintro ⟨value', after⟩ hvalue
        obtain ⟨ws, text, htail, -, -⟩ := topLevelJsonValue_sound hvalue
        have hafter : after.length ≤ tail.length := by
          have hle := length_skipJsonWhitespace_le tail
          rw [htail, List.length_append, List.length_append] at hle
          omega
        have hlength'' := length_skipJsonWhitespace_le after
        dsimp only
        cases hnext : skipJsonWhitespace after with
        | nil => exact nofun
        | cons mark more =>
          rw [hnext, List.length_cons] at hlength''
          dsimp only
          split
          -- After a comma the loop goes on with the rest.
          · exact ih (by omega)
          split
          · exact hend _ _
          · exact nofun
      · exact nofun

/-- A payload that is scanned to its end has the members of the grammar. -/
theorem topLevelJsonMembers_sound {fuel : Nat} {bytes : Bytes} {r : Option String}
    (h : topLevelJsonMembers field fuel bytes value = .ok r) :
    ∃ body ws members, bytes = body ++ ws ∧ LaxMembers body members ∧ IsJsonBlanks ws := by
  induction fuel generalizing bytes value with
  | zero => cases h
  | succ fuel ih =>
    obtain ⟨ws₁, hbytes, hws₁⟩ := skipJsonWhitespace_spec bytes
    rw [topLevelJsonMembers] at h
    dsimp only at h
    -- The object ends here, also after a comma, or there is one more member.
    by_cases hclose : (skipJsonWhitespace bytes).head? = some (asciiByte '\x7d')
    · obtain ⟨rest, hrest⟩ := List.head?_eq_some_iff.mp hclose
      rw [if_pos hclose, hrest] at h
      obtain ⟨hws, -⟩ := endOfJsonObject_eq_ok.mp h
      refine ⟨_, rest, _, ?_, .close hws₁, hws⟩
      rw [hbytes, hrest]
      simp
    rw [if_neg hclose, scan_bind_eq_ok] at h
    obtain ⟨⟨key, afterName⟩, hkey, h⟩ := h
    obtain ⟨name, hname, hlax⟩ := parseJsonString_sound (orMalformed_eq_ok.mp hkey)
    obtain ⟨ws₂, hafterName, hws₂⟩ := skipJsonWhitespace_spec afterName
    dsimp only at h
    cases hcolon : skipJsonWhitespace afterName with
    | nil =>
      rw [hcolon] at h
      cases h
    | cons colon tail =>
      rw [hcolon] at h hafterName
      dsimp only at h
      by_cases hmark : colon = asciiByte ':'
      · rw [if_pos hmark, scan_bind_eq_ok] at h
        obtain ⟨⟨value', after⟩, hvalue, h⟩ := h
        obtain ⟨ws, text, htext, hws, hpart⟩ := topLevelJsonValue_sound hvalue
        obtain ⟨ws₃, htail, hws₃⟩ := skipJsonWhitespace_spec tail
        obtain ⟨ws₄, hafter, hws₄⟩ := skipJsonWhitespace_spec after
        rw [htext, ← List.append_assoc] at htail
        dsimp only at h
        cases hnext : skipJsonWhitespace after with
        | nil =>
          rw [hnext] at h
          cases h
        | cons mark more =>
          rw [hnext] at h hafter
          dsimp only at h
          have hbytes' : bytes = ws₁ ++ (name ++ (ws₂ ++ asciiByte ':'
              :: ((ws₃ ++ ws) ++ (text ++ (ws₄ ++ mark :: more))))) := by
            rw [hbytes, hname, hafterName, hmark, htail, hafter]
          -- The induction gives the members after the comma; before it stands the one just
          -- read.
          by_cases hcomma : mark = asciiByte ','
          · rw [if_pos hcomma] at h
            obtain ⟨body, ws', members, rfl, hmembers, hws'⟩ := ih h
            refine ⟨_, ws', _, ?_, .next hws₁ hlax hws₂ (hws₃.append hws) hpart hws₄ hmembers, hws'⟩
            rw [hbytes', hcomma]
            simp
          rw [if_neg hcomma] at h
          by_cases hclosed : mark = asciiByte '\x7d'
          · rw [if_pos hclosed] at h
            obtain ⟨hws', -⟩ := endOfJsonObject_eq_ok.mp h
            refine ⟨_, more, _, ?_, .last hws₁ hlax hws₂ (hws₃.append hws) hpart hws₄, hws'⟩
            rw [hbytes', hclosed]
            simp
          · rw [if_neg hclosed] at h
            cases h
      · rw [if_neg hmark] at h
        cases h

/-- What the loop keeps of the members: the last string of the field. -/
def readLast (field : String) :
    List (Bytes × Bytes) → Option String → Except ScanError (Option String)
  | [], value => .ok value
  | (name, text) :: members, value =>
    if name = quoted field then (orMalformed (textOf text)).bind fun text =>
      readLast field members (some text)
    else readLast field members value

/-- One member decides, unless a later one has the same name. -/
theorem readLast_cons (field : String) (name text : Bytes) (members : List (Bytes × Bytes))
    (value : Option String) : readLast field ((name, text) :: members) value =
      (if name = quoted field then (orMalformed (textOf text)).map some else .ok value).bind
        (readLast field members) := by
  rw [readLast]
  by_cases hname : name = quoted field
  · rw [if_pos hname, if_pos hname]
    cases textOf text with
    | none => rfl
    | some value => rfl
  · rw [if_neg hname, if_neg hname]
    rfl

/-- A member of the report, and what the mark after it asks for. -/
theorem topLevelJsonMembers_mark {fuel : Nat} {ws₁ ws₂ ws₃ ws₄ : Bytes} {mark : UInt8}
    (hfield : IsWord field) (hws₁ : IsJsonBlanks ws₁) (hname : LaxString name key)
    (hws₂ : IsJsonBlanks ws₂) (hws₃ : IsJsonBlanks ws₃) (hpart : LaxPart .value 0 text)
    (hws₄ : IsJsonBlanks ws₄) (hmark : isJsonWhitespace mark = false)
    (hnumber : isJsonNumberByte mark = false) :
    topLevelJsonMembers field (fuel + 1) (ws₁ ++ (name ++ (ws₂ ++ asciiByte ':'
        :: (ws₃ ++ (text ++ (ws₄ ++ mark :: after)))))) value =
      (if name = quoted field then (orMalformed (textOf text)).map some else .ok value).bind
        fun value =>
          if mark = asciiByte ',' then topLevelJsonMembers field fuel after value
          else if mark = asciiByte '\x7d' then endOfJsonObject after value
          else .error .malformed := by
  have hopen : ∀ rest : Bytes, (name ++ rest).head? ≠ some (asciiByte '\x7d') := by
    intro rest
    cases hname with
    | quoted _ => exact nofun
  rw [topLevelJsonMembers, skipJsonWhitespace_append hws₁, skipJsonWhitespace_self (hname.nextNot _)]
  dsimp only
  rw [if_neg (hopen _), parseJsonString_complete hname, orMalformed_some, ok_bind]
  dsimp only
  rw [skipJsonWhitespace_mark hws₂ (by decide)]
  dsimp only
  rw [if_pos rfl, skipJsonWhitespace_append hws₃, skipJsonWhitespace_self (hpart.nextNot _),
    topLevelJsonValue_complete hpart (numberEnds_mark hws₄ hnumber)]
  -- Only the member that is asked for leaves its text behind.
  by_cases hkey : key = field
  · rw [if_pos hkey, if_pos ((hname.eq_word_iff hfield).mp hkey)]
    cases textOf text with
    | none => rfl
    | some value =>
      rw [Option.map_some, orMalformed_some, orMalformed_some, ok_bind, skipJsonWhitespace_mark hws₄ hmark]
      rfl
  · rw [if_neg hkey, if_neg fun heq => hkey ((hname.eq_word_iff hfield).mpr heq)]
    rw [ok_bind]
    dsimp only
    rw [skipJsonWhitespace_mark hws₄ hmark]
    rfl

/-- Members of the grammar are scanned to the end, and the scan reads the last one of the
    name. The induction is on the grammar, with one unit of fuel for each member. -/
theorem topLevelJsonMembers_complete {fuel : Nat} {body ws : Bytes} {members : List (Bytes × Bytes)}
    (hfield : IsWord field) (h : LaxMembers body members) (hws : IsJsonBlanks ws)
    (hfuel : body.length ≤ fuel) :
    topLevelJsonMembers field fuel (body ++ ws) value = readLast field members value := by
  induction h generalizing fuel value with
  | @close ws₁ hws₁ =>
    simp only [List.length_append, List.length_cons, List.length_nil] at hfuel
    obtain ⟨n, rfl⟩ : ∃ n, fuel = n + 1 := ⟨fuel - 1, by omega⟩
    simp only [List.append_assoc, List.cons_append, List.nil_append]
    rw [topLevelJsonMembers, skipJsonWhitespace_mark hws₁ (by decide)]
    dsimp only
    rw [List.head?_cons, if_pos rfl]
    exact endOfJsonObject_eq_ok.mpr ⟨hws, rfl⟩
  | @last ws₁ ws₂ ws₃ ws₄ name key text hws₁ hname hws₂ hws₃ hpart hws₄ =>
    simp only [List.length_append, List.length_cons, List.length_nil] at hfuel
    obtain ⟨n, rfl⟩ : ∃ n, fuel = n + 1 := ⟨fuel - 1, by omega⟩
    have hend : ∀ value, endOfJsonObject ws value = .ok value := fun value =>
      endOfJsonObject_eq_ok.mpr ⟨hws, rfl⟩
    simp only [List.append_assoc, List.cons_append, List.nil_append]
    rw [topLevelJsonMembers_mark hfield hws₁ hname hws₂ hws₃ hpart hws₄ (by decide) (by decide),
      readLast_cons]
    apply congrArg (Except.bind _)
    funext value
    rw [if_neg (by decide), if_pos rfl, hend]
    rfl
  -- A comma and blanks follow, then the remaining members.
  | @next ws₁ ws₂ ws₃ ws₄ name key text rest members hws₁ hname hws₂ hws₃ hpart hws₄ _ ih =>
    simp only [List.length_append, List.length_cons] at hfuel
    obtain ⟨n, rfl⟩ : ∃ n, fuel = n + 1 := ⟨fuel - 1, by omega⟩
    simp only [List.append_assoc, List.cons_append]
    rw [topLevelJsonMembers_mark hfield hws₁ hname hws₂ hws₃ hpart hws₄ (by decide) (by decide),
      readLast_cons]
    apply congrArg (Except.bind _)
    funext value
    rw [if_pos rfl, ih (by omega)]

end

/-! ## The member that decides -/

section
variable {field : String} {members : List (Bytes × Bytes)} {value r : Option String}

/-- The last text of a name lies in the tail, or it is the head. -/
theorem lastText_cons (name name' text : Bytes) (members : List (Bytes × Bytes)) :
    lastText name ((name', text) :: members) =
      (lastText name members).or (if name' = name then some text else none) := by
  unfold lastText
  rw [List.reverse_cons, List.find?_append]
  cases members.reverse.find? fun member => decide (member.1 = name) with
  | some member => rfl
  | none =>
    by_cases hname : name' = name
    · simp [hname]
    · simp [hname]

/-- It is one of the members. -/
theorem mem_of_lastText {name text : Bytes} (h : lastText name members = some text) :
    (name, text) ∈ members := by
  obtain ⟨⟨name', text'⟩, hfind, rfl⟩ := Option.map_eq_some_iff.mp h
  have hname := List.find?_some hfind
  obtain rfl : name' = name := of_decide_eq_true hname
  exact List.mem_reverse.mp (List.mem_of_find?_eq_some hfind)

/-- The loop keeps what it had, or the last string of the field. -/
theorem readLast_eq_ok (h : readLast field members value = .ok r) :
    (lastText (quoted field) members = none ∧ r = value)
      ∨ ∃ text word, lastText (quoted field) members = some text ∧ textOf text = some word
        ∧ r = some word := by
  induction members generalizing value with
  | nil => exact .inl ⟨rfl, (Except.ok.inj h).symm⟩
  | cons member members ih =>
    obtain ⟨name, text⟩ := member
    rw [lastText_cons]
    rw [readLast] at h
    by_cases hname : name = quoted field
    · rw [if_pos hname] at h
      rw [if_pos hname]
      cases htext : textOf text with
      | none =>
        rw [htext] at h
        cases h
      | some word =>
        rw [htext] at h
        rcases ih h with ⟨hnone, rfl⟩ | ⟨text', word', hlast, htext', rfl⟩
        · exact .inr ⟨text, word, by rw [hnone]; rfl, htext, rfl⟩
        · exact .inr ⟨text', word', by rw [hlast]; rfl, htext', rfl⟩
    · rw [if_neg hname] at h
      rw [if_neg hname, Option.or_none]
      exact ih h

/-- Reading the last member succeeds if all members of that name are strings. -/
theorem readLast_ok (h : ∀ text, (quoted field, text) ∈ members → (textOf text).isSome = true) :
    ∃ r, readLast field members value = .ok r := by
  induction members generalizing value with
  | nil => exact ⟨value, rfl⟩
  | cons member members ih =>
    obtain ⟨name, text⟩ := member
    have hrest : ∀ text, (quoted field, text) ∈ members → (textOf text).isSome = true :=
      fun text hmem => h text (List.mem_cons_of_mem _ hmem)
    rw [readLast]
    by_cases hname : name = quoted field
    · obtain ⟨word, hword⟩ := Option.isSome_iff_exists.mp
        (h text (by rw [hname]; exact List.mem_cons_self))
      rw [if_pos hname, hword]
      exact ih hrest
    · rw [if_neg hname]
      exact ih hrest

/-- The search for a field ends on every payload. -/
theorem topLevelJsonStringField_ends (payload : Bytes) :
    Ends (topLevelJsonStringField payload field) := by
  unfold topLevelJsonStringField
  cases skipJsonWhitespace payload with
  | nil => exact nofun
  | cons byte rest =>
    dsimp only
    split
    · exact topLevelJsonMembers_ends (Nat.lt_succ_self _)
    · exact nofun

/-- A payload in which the search succeeds is an object of the grammar. -/
theorem topLevelJsonStringField_sound {payload : Bytes}
    (h : topLevelJsonStringField payload field = .ok r) : ∃ members, LaxReport payload members := by
  obtain ⟨ws, hpayload, hws⟩ := skipJsonWhitespace_spec payload
  unfold topLevelJsonStringField at h
  cases hnext : skipJsonWhitespace payload with
  | nil =>
    rw [hnext] at h
    cases h
  | cons byte rest =>
    rw [hnext] at h hpayload
    dsimp only at h
    by_cases hbrace : byte = asciiByte '\x7b'
    · rw [if_pos hbrace] at h
      obtain ⟨body, ws', members, rfl, hmembers, hws'⟩ := topLevelJsonMembers_sound h
      rw [hpayload, hbrace]
      exact ⟨members, .report hws hmembers hws'⟩
    · rw [if_neg hbrace] at h
      cases h

/-- In an object of the grammar the search finds the last member of the name. -/
theorem topLevelJsonStringField_complete {payload : Bytes} (hfield : IsWord field)
    (h : LaxReport payload members) :
    topLevelJsonStringField payload field = readLast field members none := by
  cases h with
  | @report ws body ws' members hws hmembers hws' =>
    unfold topLevelJsonStringField
    rw [skipJsonWhitespace_mark hws (by decide)]
    dsimp only
    rw [if_pos rfl]
    exact topLevelJsonMembers_complete hfield hmembers hws' (by simp; omega)

/-- Each of the members is a value of the grammar. -/
theorem LaxMembers.part {body name text : Bytes} (h : LaxMembers body members)
    (hmem : (name, text) ∈ members) : LaxPart .value 0 text := by
  induction h with
  | close _ => cases hmem
  | last _ _ _ _ hpart _ =>
    obtain ⟨-, rfl⟩ := Prod.mk.inj (List.mem_singleton.mp hmem)
    exact hpart
  | next _ _ _ _ hpart _ _ ih =>
    rcases List.mem_cons.mp hmem with heq | hrest
    · obtain ⟨-, rfl⟩ := Prod.mk.inj heq
      exact hpart
    · exact ih hrest

/-- The same for the members of a report. -/
theorem LaxReport.part {payload name text : Bytes} (h : LaxReport payload members)
    (hmem : (name, text) ∈ members) : LaxPart .value 0 text := by
  cases h with
  | report _ hmembers _ => exact hmembers.part hmem

end

section
variable {payload : Bytes} {members : List (Bytes × Bytes)} {r : Option String}

/-- The newer name of the status is a word. -/
theorem isWord_system : IsWord "system_control_status" := by decide

/-- The older name of the status is a word. -/
theorem isWord_status : IsWord "status" := by decide

/-- The scan of the report comes to an end. -/
theorem hookControlStatus_ends (payload : Bytes) : Ends (hookControlStatus payload) := by
  have hends := @topLevelJsonStringField_ends "system_control_status" payload
  unfold hookControlStatus
  cases hfirst : topLevelJsonStringField payload "system_control_status" with
  | error error =>
    rw [hfirst] at hends
    exact fun herror => hends (congrArg _ (Except.error.inj herror))
  | ok status =>
    cases status with
    | none => exact topLevelJsonStringField_ends payload
    | some status => exact nofun

/-- Only reports of the grammar have a status. -/
theorem hookControlStatus_report (h : hookControlStatus payload = .ok r) :
    ∃ members, LaxReport payload members := by
  unfold hookControlStatus at h
  cases hfirst : topLevelJsonStringField payload "system_control_status" with
  | error error =>
    rw [hfirst] at h
    cases h
  | ok status => exact topLevelJsonStringField_sound hfirst

/-- The status that is read is that of the member that decides. -/
theorem hookControlStatus_sound (hreport : LaxReport payload members)
    (h : hookControlStatus payload = .ok r) : r = (controlText members).bind textOf := by
  unfold hookControlStatus at h
  cases hfirst : topLevelJsonStringField payload "system_control_status" with
  | error error =>
    rw [hfirst] at h
    cases h
  | ok status =>
    rw [hfirst] at h
    rw [topLevelJsonStringField_complete isWord_system hreport] at hfirst
    unfold controlText
    rcases readLast_eq_ok hfirst with ⟨hnone, rfl⟩ | ⟨text, word, hlast, htext, rfl⟩
    · dsimp only at h
      rw [topLevelJsonStringField_complete isWord_status hreport] at h
      rw [hnone, Option.none_or]
      rcases readLast_eq_ok h with ⟨hnone', rfl⟩ | ⟨text, word, hlast, htext, rfl⟩
      · rw [hnone']
        rfl
      · rw [hlast]
        exact htext.symm
    · obtain rfl := Except.ok.inj h
      rw [hlast, Option.some_or]
      exact htext.symm

/-- The text that decides is that of a member. -/
theorem mem_of_controlText {text : Bytes} (h : controlText members = some text) :
    ∃ name, (name, text) ∈ members := by
  rcases Option.or_eq_some_iff.mp h with hsystem | ⟨-, hstatus⟩
  · exact ⟨_, mem_of_lastText hsystem⟩
  · exact ⟨_, mem_of_lastText hstatus⟩

/-- A word is read from nothing but the word in quotes. -/
theorem controlText_of_word {word : String} (hword : IsWord word) (hreport : LaxReport payload members)
    (h : hookControlStatus payload = .ok (some word)) : controlText members = some (quoted word) := by
  obtain ⟨text, hcontrol, htext⟩ := Option.bind_eq_some_iff.mp (hookControlStatus_sound hreport h).symm
  obtain ⟨name, hmem⟩ := mem_of_controlText hcontrol
  have hstring := (hreport.part hmem).textOf_eq htext
  rw [hcontrol, (hstring.eq_word_iff hword).mp rfl]

/-- The status of a report is the string that decides, if all values under the two names
    are strings. -/
theorem hookControlStatus_complete (h : LaxReport payload members)
    (hstrings : ∀ name text, (name, text) ∈ members →
      name = quoted "system_control_status" ∨ name = quoted "status" →
        (textOf text).isSome = true) :
    hookControlStatus payload = .ok ((controlText members).bind textOf) := by
  have hsystem : ∀ text, (quoted "system_control_status", text) ∈ members →
      (textOf text).isSome = true := fun text hmem => hstrings _ text hmem (.inl rfl)
  have hstatus : ∀ text, (quoted "status", text) ∈ members → (textOf text).isSome = true :=
    fun text hmem => hstrings _ text hmem (.inr rfl)
  obtain ⟨first, hfirst⟩ := @readLast_ok _ _ none hsystem
  obtain ⟨second, hsecond⟩ := @readLast_ok _ _ none hstatus
  unfold hookControlStatus controlText
  rw [topLevelJsonStringField_complete isWord_system h, hfirst]
  rcases readLast_eq_ok hfirst with ⟨hnone, rfl⟩ | ⟨text, word, hlast, htext, rfl⟩
  · dsimp only
    rw [topLevelJsonStringField_complete isWord_status h, hsecond, hnone, Option.none_or]
    rcases readLast_eq_ok hsecond with ⟨hnone', rfl⟩ | ⟨text, word, hlast, htext, rfl⟩
    · rw [hnone']
      rfl
    · rw [hlast]
      exact congrArg _ htext.symm
  · rw [hlast, Option.some_or]
    exact congrArg _ htext.symm

/-- A payload counts as active exactly if its status is `active`. -/
theorem classifyHookHealthPayload_active_iff (payload : String) :
    classifyHookHealthPayload payload = .active
      ↔ hookControlStatus (utf8Bytes payload) = .ok (some "active") := by
  unfold classifyHookHealthPayload
  cases hookControlStatus (utf8Bytes payload) with
  | error error => exact ⟨nofun, nofun⟩
  | ok status =>
    dsimp only
    by_cases hactive : status = some "active"
    · rw [if_pos hactive]
      exact ⟨fun _ => congrArg _ hactive, fun _ => rfl⟩
    · rw [if_neg hactive]
      refine ⟨fun h => ?_, fun h => absurd (Except.ok.inj h) hactive⟩
      split at h
      · cases h
      · cases h

end

end Freezeit
