import Freezeit.HookHealth
import Freezeit.Lib.Json
import Mathlib.Data.List.TakeWhile

/-! # What the health scanner skips

    `skip_json_value` skips the values of a grammar of its own: that of RFC 8259
    with any run of number characters for a number, up to a depth. -/

namespace Freezeit

open Json (Part)

/-! ## The grammar -/

/-- Any number of blanks. -/
def IsJsonBlanks (bytes : Bytes) : Prop := ∀ byte ∈ bytes, isJsonWhitespace byte = true

/-- A string after its opening quote, and how it is read. -/
inductive LaxStringBody : Bytes → List Char → Prop where
  | close : LaxStringBody [asciiByte '"'] []
  | plain {byte bytes cs} : byte ≠ asciiByte '"' → byte ≠ asciiByte '\\' → ¬ byte < 0x20 →
      LaxStringBody bytes cs → LaxStringBody (byte :: bytes) (Char.ofNat byte.toNat :: cs)
  | escape {escaped c bytes cs} : jsonEscape escaped = some c → LaxStringBody bytes cs →
      LaxStringBody (asciiByte '\\' :: escaped :: bytes) (c :: cs)
  | unicode {h₁ h₂ h₃ h₄ bytes cs} : [h₁, h₂, h₃, h₄].all isAsciiHexDigit = true →
      LaxStringBody bytes cs →
      LaxStringBody (asciiByte '\\' :: asciiByte 'u' :: h₁ :: h₂ :: h₃ :: h₄ :: bytes) ('?' :: cs)

/-- A string in quotes, with the text that the scan reads from it. -/
inductive LaxString : Bytes → String → Prop where
  | quoted {bytes cs} : LaxStringBody bytes cs →
      LaxString (asciiByte '"' :: bytes) (String.ofList cs)

/-- A byte that a number begins with. -/
def startsJsonNumber (byte : UInt8) : Bool :=
  byte = asciiByte '-' || (asciiByte '0' ≤ byte && byte ≤ asciiByte '9')

/-- The parts of a value, with the number of containers around it. -/
inductive LaxPart : Part → Nat → Bytes → Prop where
  | literal {depth literal} : literal ∈ ["true", "false", "null"] →
      LaxPart .value depth (literal.toList.map asciiByte)
  | number {depth byte bytes} : startsJsonNumber byte = true →
      (∀ b ∈ bytes, isJsonNumberByte b = true) → LaxPart .value depth (byte :: bytes)
  | string {depth bytes value} : LaxString bytes value → LaxPart .value depth bytes
  | emptyArray {depth ws} : depth < maxHealthJsonNesting → IsJsonBlanks ws →
      LaxPart .value depth (asciiByte '[' :: (ws ++ [asciiByte ']']))
  | array {depth bytes} : depth < maxHealthJsonNesting → LaxPart .elements depth bytes →
      LaxPart .value depth (asciiByte '[' :: bytes)
  | emptyObject {depth ws} : depth < maxHealthJsonNesting → IsJsonBlanks ws →
      LaxPart .value depth (asciiByte '\x7b' :: (ws ++ [asciiByte '\x7d']))
  | object {depth bytes} : depth < maxHealthJsonNesting → LaxPart .members depth bytes →
      LaxPart .value depth (asciiByte '\x7b' :: bytes)
  | lastElement {depth ws ws' bytes} : IsJsonBlanks ws → LaxPart .value (depth + 1) bytes →
      IsJsonBlanks ws' → LaxPart .elements depth (ws ++ (bytes ++ (ws' ++ [asciiByte ']'])))
  | nextElement {depth ws ws' bytes rest} : IsJsonBlanks ws → LaxPart .value (depth + 1) bytes →
      IsJsonBlanks ws' → LaxPart .elements depth rest →
      LaxPart .elements depth (ws ++ (bytes ++ (ws' ++ asciiByte ',' :: rest)))
  | lastMember {depth ws₁ ws₂ ws₃ ws₄ name key bytes} : IsJsonBlanks ws₁ → LaxString name key →
      IsJsonBlanks ws₂ → IsJsonBlanks ws₃ → LaxPart .value (depth + 1) bytes → IsJsonBlanks ws₄ →
      LaxPart .members depth (ws₁ ++ (name ++ (ws₂ ++ asciiByte ':'
        :: (ws₃ ++ (bytes ++ (ws₄ ++ [asciiByte '\x7d']))))))
  | nextMember {depth ws₁ ws₂ ws₃ ws₄ name key bytes rest} : IsJsonBlanks ws₁ →
      LaxString name key → IsJsonBlanks ws₂ → IsJsonBlanks ws₃ → LaxPart .value (depth + 1) bytes →
      IsJsonBlanks ws₄ → LaxPart .members depth rest →
      LaxPart .members depth (ws₁ ++ (name ++ (ws₂ ++ asciiByte ':'
        :: (ws₃ ++ (bytes ++ (ws₄ ++ asciiByte ',' :: rest))))))

/-! ## Blanks -/

/-- The next byte, if there is one, is not of this kind. -/
def NextNot (kind : UInt8 → Bool) (bytes : Bytes) : Prop := ∀ byte ∈ bytes.head?, kind byte = false

/-- The next byte is the first one. -/
theorem nextNot_cons {kind : UInt8 → Bool} {byte : UInt8} {rest : Bytes} (h : kind byte = false) :
    NextNot kind (byte :: rest) := by
  intro b hb
  obtain rfl := Option.some.inj hb
  exact h

/-- Blanks after blanks are blanks. -/
theorem IsJsonBlanks.append {ws ws' : Bytes} (h : IsJsonBlanks ws) (h' : IsJsonBlanks ws') :
    IsJsonBlanks (ws ++ ws') := by
  intro byte hmem
  rcases List.mem_append.mp hmem with hl | hr
  · exact h byte hl
  · exact h' byte hr

/-- There may be no blanks at all. -/
theorem isJsonBlanks_nil : IsJsonBlanks [] := nofun

/-- Blanks at the head are skipped. -/
theorem skipJsonWhitespace_append {ws : Bytes} (hws : IsJsonBlanks ws) (bytes : Bytes) :
    skipJsonWhitespace (ws ++ bytes) = skipJsonWhitespace bytes := by
  unfold skipJsonWhitespace
  exact List.dropWhile_append_of_pos hws

/-- Nothing is skipped if no blank comes next. -/
theorem skipJsonWhitespace_self {bytes : Bytes} (h : NextNot isJsonWhitespace bytes) :
    skipJsonWhitespace bytes = bytes := by
  cases bytes with
  | nil => rfl
  | cons byte rest => exact List.dropWhile_cons_of_neg (by simp [h byte rfl])

theorem orMalformed_some {α : Type} (a : α) : orMalformed (some a) = .ok a := rfl

theorem ok_bind {α β : Type} (a : α) (f : α → Except ScanError β) : (Except.ok a >>= f) = f a := rfl

/-- A mark after blanks is what comes next. -/
theorem skipJsonWhitespace_mark {ws rest : Bytes} {mark : UInt8} (hws : IsJsonBlanks ws)
    (hmark : isJsonWhitespace mark = false) :
    skipJsonWhitespace (ws ++ mark :: rest) = mark :: rest := by
  rw [skipJsonWhitespace_append hws]
  exact skipJsonWhitespace_self (nextNot_cons hmark)

/-- What is skipped is blank. -/
theorem skipJsonWhitespace_spec (bytes : Bytes) :
    ∃ ws, bytes = ws ++ skipJsonWhitespace bytes ∧ IsJsonBlanks ws := by
  refine ⟨bytes.takeWhile isJsonWhitespace, List.takeWhile_append_dropWhile.symm, ?_⟩
  intro byte hmem
  exact List.mem_takeWhile_imp hmem

/-! ## Strings -/

/-- The body of a string is read up to its closing quote, whatever follows. -/
theorem jsonStringBody_complete {bytes : Bytes} {cs : List Char} (h : LaxStringBody bytes cs)
    (rest : Bytes) : jsonStringBody (bytes ++ rest) = some (cs, rest) := by
  induction h with
  | close =>
    show jsonStringBody (asciiByte '"' :: rest) = _
    rw [jsonStringBody.eq_def]
    dsimp only
    rw [if_pos rfl]
  | @plain byte bytes cs hquote hslash hcontrol _ ih =>
    rw [List.cons_append, jsonStringBody.eq_def]
    dsimp only
    rw [if_neg hquote, if_neg hslash, if_neg hcontrol, ih]
    rfl
  | @escape escaped c bytes cs hescape _ ih =>
    rw [List.cons_append, List.cons_append, jsonStringBody.eq_def]
    dsimp only
    rw [if_neg (by decide), if_pos rfl, hescape]
    dsimp only
    rw [ih]
    rfl
  | @unicode h₁ h₂ h₃ h₄ bytes cs hhex _ ih =>
    have hnone : jsonEscape (asciiByte 'u') = none := by decide
    simp only [List.cons_append]
    rw [jsonStringBody.eq_def]
    dsimp only
    rw [if_neg (by decide), if_pos rfl, hnone]
    dsimp only
    rw [if_pos rfl, if_pos hhex, ih]
    rfl

/-- What is read as the body of a string is one. -/
theorem jsonStringBody_sound {bytes rest : Bytes} {cs : List Char}
    (h : jsonStringBody bytes = some (cs, rest)) :
    ∃ body, bytes = body ++ rest ∧ LaxStringBody body cs := by
  fun_induction jsonStringBody bytes generalizing cs with
  | case2 tail =>
    obtain ⟨rfl, rfl⟩ := Prod.mk.inj (Option.some.inj h)
    exact ⟨[asciiByte '"'], rfl, .close⟩
  | case4 escaped tail c hescape _ ih =>
    obtain ⟨⟨cs, after⟩, hbody, heq⟩ := Option.map_eq_some_iff.mp h
    obtain ⟨rfl, rfl⟩ := Prod.mk.inj heq
    obtain ⟨body, rfl, hlax⟩ := ih hbody
    exact ⟨_ :: _ :: body, rfl, .escape hescape hlax⟩
  | case5 h₁ h₂ h₃ h₄ tail hhex _ _ ih =>
    obtain ⟨⟨cs, after⟩, hbody, heq⟩ := Option.map_eq_some_iff.mp h
    obtain ⟨rfl, rfl⟩ := Prod.mk.inj heq
    obtain ⟨body, rfl, hlax⟩ := ih hbody
    exact ⟨_ :: _ :: h₁ :: h₂ :: h₃ :: h₄ :: body, rfl, .unicode hhex hlax⟩
  | case10 byte tail hquote hslash hcontrol ih =>
    obtain ⟨⟨cs, after⟩, hbody, heq⟩ := Option.map_eq_some_iff.mp h
    obtain ⟨rfl, rfl⟩ := Prod.mk.inj heq
    obtain ⟨body, rfl, hlax⟩ := ih hbody
    exact ⟨byte :: body, rfl, .plain hquote hslash hcontrol hlax⟩
  | _ => cases h

/-- A string of the grammar is read at the head of any bytes. -/
theorem parseJsonString_complete {bytes : Bytes} {text : String} (h : LaxString bytes text)
    (rest : Bytes) : parseJsonString (bytes ++ rest) = some (text, rest) := by
  cases h with
  | quoted hbody =>
    show parseJsonString (asciiByte '"' :: (_ ++ rest)) = _
    unfold parseJsonString
    dsimp only
    rw [if_pos rfl, jsonStringBody_complete hbody]
    rfl

/-- What is read as a string is one of the grammar. -/
theorem parseJsonString_sound {bytes rest : Bytes} {text : String}
    (h : parseJsonString bytes = some (text, rest)) :
    ∃ name, bytes = name ++ rest ∧ LaxString name text := by
  unfold parseJsonString at h
  cases bytes with
  | nil => cases h
  | cons byte tail =>
    dsimp only at h
    by_cases hquote : byte = asciiByte '"'
    · rw [if_pos hquote] at h
      obtain ⟨⟨cs, after⟩, hbody, heq⟩ := Option.map_eq_some_iff.mp h
      obtain ⟨rfl, rfl⟩ := Prod.mk.inj heq
      obtain ⟨body, rfl, hlax⟩ := jsonStringBody_sound hbody
      exact ⟨asciiByte '"' :: body, by rw [hquote]; rfl, .quoted hlax⟩
    · rw [if_neg hquote] at h
      cases h

/-- A literal that is consumed was there. -/
theorem consumeJsonLiteral_sound {literal : String} {bytes rest : Bytes}
    (h : consumeJsonLiteral literal bytes = some rest) :
    bytes = literal.toList.map asciiByte ++ rest := by
  unfold consumeJsonLiteral at h
  dsimp only at h
  by_cases hprefix : (literal.toList.map asciiByte).isPrefixOf bytes = true
  · rw [if_pos hprefix] at h
    obtain rfl := Option.some.inj h
    exact (List.prefix_iff_eq_append.mp (List.isPrefixOf_iff_prefix.mp hprefix)).symm
  · rw [if_neg hprefix] at h
    cases h

/-- A literal that is there is consumed. -/
theorem consumeJsonLiteral_complete (literal : String) (rest : Bytes) :
    consumeJsonLiteral literal (literal.toList.map asciiByte ++ rest) = some rest := by
  unfold consumeJsonLiteral
  dsimp only
  rw [if_pos (List.isPrefixOf_iff_prefix.mpr (List.prefix_append _ _)), List.drop_left]

/-! ## What is skipped is a value -/

section
variable {α β : Type}

/-- Two parts of a scan succeed if the first one does, and then the second one. -/
theorem scan_bind_eq_ok {scan : Except ScanError α} {next : α → Except ScanError β} {b : β} :
    (scan >>= next) = .ok b ↔ ∃ a, scan = .ok a ∧ next a = .ok b := by
  cases scan with
  | error error => exact ⟨nofun, nofun⟩
  | ok a => exact ⟨fun h => ⟨a, rfl, h⟩, fun ⟨_, heq, h⟩ => Except.ok.inj heq ▸ h⟩

/-- A part is not malformed if it is there. -/
theorem orMalformed_eq_ok {result : Option α} {a : α} :
    orMalformed result = .ok a ↔ result = some a := by
  cases result with
  | none => exact ⟨nofun, nofun⟩
  | some a => exact ⟨fun h => congrArg some (Except.ok.inj h), fun h => congrArg _ (Option.some.inj h)⟩

end

section
variable {fuel depth : Nat} {bytes rest : Bytes} {p : Part}

/-- The scan of a part; the source passes the blanks before its loops. -/
def skipJsonPart (fuel depth : Nat) : Part → Bytes → Except ScanError Bytes
  | .value, bytes    => skipJsonValue fuel depth bytes
  | .elements, bytes => skipJsonElements fuel depth (skipJsonWhitespace bytes)
  | .members, bytes  => skipJsonMembers fuel depth (skipJsonWhitespace bytes)

/-- What is skipped is a part of the grammar. -/
def SkipsParts (fuel : Nat) : Prop :=
  ∀ depth p bytes rest, skipJsonPart fuel depth p bytes = .ok rest →
    ∃ ws text, bytes = ws ++ (text ++ rest) ∧ IsJsonBlanks ws ∧ LaxPart p depth text

/-- Blanks before the elements or the members belong to them. -/
theorem LaxPart.blanks {ws text : Bytes} (hp : p ≠ .value) (hws : IsJsonBlanks ws)
    (h : LaxPart p depth text) : LaxPart p depth (ws ++ text) := by
  cases p with
  | value => exact absurd rfl hp
  | elements =>
    cases h with
    | lastElement hws₁ hvalue hws₂ =>
      rw [← List.append_assoc]
      exact .lastElement (hws.append hws₁) hvalue hws₂
    | nextElement hws₁ hvalue hws₂ hrest =>
      rw [← List.append_assoc]
      exact .nextElement (hws.append hws₁) hvalue hws₂ hrest
  | members =>
    cases h with
    | lastMember hws₁ hname hws₂ hws₃ hvalue hws₄ =>
      rw [← List.append_assoc]
      exact .lastMember (hws.append hws₁) hname hws₂ hws₃ hvalue hws₄
    | nextMember hws₁ hname hws₂ hws₃ hvalue hws₄ hrest =>
      rw [← List.append_assoc]
      exact .nextMember (hws.append hws₁) hname hws₂ hws₃ hvalue hws₄ hrest

/-- An array or an object: its mark, and then what closes it or its items. -/
theorem container_sound {mark close : UInt8} (ih : SkipsParts fuel) (hp : p ≠ .value)
    (hempty : ∀ {ws}, IsJsonBlanks ws → LaxPart .value depth (mark :: (ws ++ [close])))
    (hfull : ∀ {text}, LaxPart p depth text → LaxPart .value depth (mark :: text))
    (h : (if (skipJsonWhitespace bytes).head? = some close then
        .ok (skipJsonWhitespace bytes).tail else skipJsonPart fuel depth p bytes) = .ok rest) :
    ∃ text, mark :: bytes = text ++ rest ∧ LaxPart .value depth text := by
  by_cases hclose : (skipJsonWhitespace bytes).head? = some close
  · obtain ⟨ws, hbytes, hws⟩ := skipJsonWhitespace_spec bytes
    obtain ⟨after, hafter⟩ := List.head?_eq_some_iff.mp hclose
    rw [if_pos hclose, hafter] at h
    obtain rfl : after = rest := Except.ok.inj h
    refine ⟨mark :: (ws ++ [close]), ?_, hempty hws⟩
    rw [hbytes, hafter]
    simp
  · rw [if_neg hclose] at h
    obtain ⟨ws, text, rfl, hws, hpart⟩ := ih depth p bytes rest h
    refine ⟨mark :: (ws ++ text), ?_, hfull (hpart.blanks hp hws)⟩
    simp

/-- What is skipped as a value is one of the grammar, if that holds of the parts inside
    it, which are skipped with less fuel. -/
theorem skipJsonValue_sound (ih : SkipsParts fuel)
    (h : skipJsonValue (fuel + 1) depth bytes = .ok rest) :
    ∃ ws text, bytes = ws ++ (text ++ rest) ∧ IsJsonBlanks ws ∧ LaxPart .value depth text := by
  obtain ⟨ws, hbytes, hws⟩ := skipJsonWhitespace_spec bytes
  rw [skipJsonValue] at h
  suffices htext : ∃ text, skipJsonWhitespace bytes = text ++ rest ∧ LaxPart .value depth text by
    obtain ⟨text, heq, hpart⟩ := htext
    exact ⟨ws, text, by rw [← heq, ← hbytes], hws, hpart⟩
  cases hnext : skipJsonWhitespace bytes with
  | nil =>
    rw [hnext] at h
    cases h
  | cons byte tail =>
    rw [hnext] at h
    dsimp only at h
    have hliteral : ∀ {literal : String}, literal ∈ ["true", "false", "null"] →
        orMalformed (consumeJsonLiteral literal (byte :: tail)) = .ok rest →
          ∃ text, byte :: tail = text ++ rest ∧ LaxPart .value depth text := by
      intro literal hmem hconsume
      exact ⟨_, consumeJsonLiteral_sound (orMalformed_eq_ok.mp hconsume), .literal hmem⟩
    -- In the order in which the scan looks at the first byte.
    by_cases hquote : byte = asciiByte '"'
    · rw [if_pos hquote, orMalformed_eq_ok] at h
      obtain ⟨⟨value, after⟩, hparse, rfl⟩ := Option.map_eq_some_iff.mp h
      obtain ⟨name, heq, hlax⟩ := parseJsonString_sound hparse
      exact ⟨name, heq, .string hlax⟩
    rw [if_neg hquote] at h
    by_cases hbrace : byte = asciiByte '\x7b'
    · rw [if_pos hbrace] at h
      by_cases hdepth : depth ≥ maxHealthJsonNesting
      · rw [if_pos hdepth] at h
        cases h
      rw [if_neg hdepth] at h
      rw [hbrace]
      exact @container_sound _ _ _ _ .members _ _ ih nofun (.emptyObject (Nat.lt_of_not_ge hdepth))
        (.object (Nat.lt_of_not_ge hdepth)) h
    rw [if_neg hbrace] at h
    by_cases hbracket : byte = asciiByte '['
    · rw [if_pos hbracket] at h
      by_cases hdepth : depth ≥ maxHealthJsonNesting
      · rw [if_pos hdepth] at h
        cases h
      rw [if_neg hdepth] at h
      rw [hbracket]
      exact @container_sound _ _ _ _ .elements _ _ ih nofun (.emptyArray (Nat.lt_of_not_ge hdepth))
        (.array (Nat.lt_of_not_ge hdepth)) h
    rw [if_neg hbracket] at h
    by_cases htrue : byte = asciiByte 't'
    · rw [if_pos htrue] at h
      exact hliteral (by simp) h
    rw [if_neg htrue] at h
    by_cases hfalse : byte = asciiByte 'f'
    · rw [if_pos hfalse] at h
      exact hliteral (by simp) h
    rw [if_neg hfalse] at h
    by_cases hnull : byte = asciiByte 'n'
    · rw [if_pos hnull] at h
      exact hliteral (by simp) h
    rw [if_neg hnull] at h
    change (if startsJsonNumber byte = true then _ else _) = _ at h
    by_cases hnumber : startsJsonNumber byte = true
    · rw [if_pos hnumber] at h
      obtain rfl := Except.ok.inj h
      refine ⟨byte :: tail.takeWhile isJsonNumberByte, ?_, .number hnumber ?_⟩
      · rw [List.cons_append, List.takeWhile_append_dropWhile]
      · intro b hb
        exact List.mem_takeWhile_imp hb
    · rw [if_neg hnumber] at h
      cases h

/-- What is skipped as elements is elements of the grammar. -/
theorem skipJsonElements_sound (ih : SkipsParts fuel)
    (h : skipJsonElements (fuel + 1) depth bytes = .ok rest) :
    ∃ text, bytes = text ++ rest ∧ LaxPart .elements depth text := by
  rw [skipJsonElements, scan_bind_eq_ok] at h
  obtain ⟨after, hvalue, h⟩ := h
  obtain ⟨ws, text, rfl, hws, hpart⟩ := ih (depth + 1) .value bytes after hvalue
  obtain ⟨ws', hafter, hws'⟩ := skipJsonWhitespace_spec after
  cases hnext : skipJsonWhitespace after with
  | nil =>
    rw [hnext] at h
    cases h
  | cons mark tail =>
    rw [hnext] at h hafter
    dsimp only at h
    by_cases hcomma : mark = asciiByte ','
    · rw [if_pos hcomma] at h
      obtain ⟨ws'', text', rfl, hws'', hpart'⟩ := ih depth .elements tail rest h
      refine ⟨_, ?_, .nextElement hws hpart hws' (hpart'.blanks nofun hws'')⟩
      rw [hafter, hcomma]
      simp
    rw [if_neg hcomma] at h
    by_cases hclose : mark = asciiByte ']'
    · rw [if_pos hclose] at h
      obtain rfl := Except.ok.inj h
      refine ⟨_, ?_, .lastElement hws hpart hws'⟩
      rw [hafter, hclose]
      simp
    · rw [if_neg hclose] at h
      cases h

/-- What is skipped as members is members of the grammar. -/
theorem skipJsonMembers_sound (ih : SkipsParts fuel)
    (h : skipJsonMembers (fuel + 1) depth bytes = .ok rest) :
    ∃ text, bytes = text ++ rest ∧ LaxPart .members depth text := by
  rw [skipJsonMembers, scan_bind_eq_ok] at h
  obtain ⟨⟨key, afterName⟩, hkey, h⟩ := h
  obtain ⟨name, rfl, hname⟩ := parseJsonString_sound (orMalformed_eq_ok.mp hkey)
  obtain ⟨ws₂, hafterName, hws₂⟩ := skipJsonWhitespace_spec afterName
  dsimp only at h
  cases hcolon : skipJsonWhitespace afterName with
  | nil =>
    rw [hcolon] at h
    cases h
  | cons colon tail =>
    rw [hcolon] at h hafterName
    dsimp only at h
    -- After the colon comes a value, then a comma and more members, or the end.
    by_cases hmark : colon = asciiByte ':'
    · rw [if_pos hmark, scan_bind_eq_ok] at h
      obtain ⟨after, hvalue, h⟩ := h
      obtain ⟨ws₃, text, rfl, hws₃, hpart⟩ := ih (depth + 1) .value tail after hvalue
      obtain ⟨ws₄, hafter, hws₄⟩ := skipJsonWhitespace_spec after
      cases hnext : skipJsonWhitespace after with
      | nil =>
        rw [hnext] at h
        cases h
      | cons mark tail =>
        rw [hnext] at h hafter
        dsimp only at h
        by_cases hcomma : mark = asciiByte ','
        · rw [if_pos hcomma] at h
          obtain ⟨ws', text', rfl, hws', hpart'⟩ := ih depth .members tail rest h
          refine ⟨_, ?_, .nextMember isJsonBlanks_nil hname hws₂ hws₃ hpart hws₄
            (hpart'.blanks nofun hws')⟩
          rw [hafterName, hmark, hafter, hcomma]
          simp
        rw [if_neg hcomma] at h
        by_cases hclose : mark = asciiByte '\x7d'
        · rw [if_pos hclose] at h
          obtain rfl := Except.ok.inj h
          refine ⟨_, ?_, .lastMember isJsonBlanks_nil hname hws₂ hws₃ hpart hws₄⟩
          rw [hafterName, hmark, hafter, hclose]
          simp
        · rw [if_neg hclose] at h
          cases h
    · rw [if_neg hmark] at h
      cases h

/-- So each of the three skips parts of the grammar only, by induction on the fuel. -/
theorem skipsParts (fuel : Nat) : SkipsParts fuel := by
  induction fuel with
  | zero =>
    intro depth p bytes rest h
    cases p with
    | value => cases h
    | elements => cases h
    | members => cases h
  | succ fuel ih =>
    intro depth p bytes rest h
    cases p with
    | value => exact skipJsonValue_sound ih h
    | elements =>
      obtain ⟨ws, hbytes, hws⟩ := skipJsonWhitespace_spec bytes
      obtain ⟨text, heq, hpart⟩ := skipJsonElements_sound ih h
      exact ⟨ws, text, by rw [← heq, ← hbytes], hws, hpart⟩
    | members =>
      obtain ⟨ws, hbytes, hws⟩ := skipJsonWhitespace_spec bytes
      obtain ⟨text, heq, hpart⟩ := skipJsonMembers_sound ih h
      exact ⟨ws, text, by rw [← heq, ← hbytes], hws, hpart⟩

end

/-! ## Every value of the grammar is skipped -/

section
variable {fuel depth : Nat} {text rest : Bytes} {p : Part}

/-- The text of a number goes on to the last number byte. -/
def NumberEnds (text rest : Bytes) : Prop :=
  ∀ byte ∈ text.head?, startsJsonNumber byte = true → NextNot isJsonNumberByte rest

/-- A number ends before blanks and a mark. -/
theorem numberEnds_mark {ws : Bytes} {mark : UInt8} (hws : IsJsonBlanks ws)
    (hmark : isJsonNumberByte mark = false) : NumberEnds text (ws ++ mark :: rest) := by
  intro _ _ _
  cases ws with
  | nil => exact nextNot_cons hmark
  | cons blank ws =>
    apply nextNot_cons
    have hblank := hws blank List.mem_cons_self
    simp only [isJsonWhitespace, Bool.or_eq_true, decide_eq_true_eq] at hblank
    rcases hblank with ((rfl | rfl) | rfl) | rfl
    · rfl
    · rfl
    · rfl
    · rfl

/-- The bytes that a value does not begin with. -/
theorem startsJsonNumber_other {byte other : UInt8} (h : startsJsonNumber byte = true)
    (hother : startsJsonNumber other = false) : byte ≠ other := by
  rintro rfl
  rw [h] at hother
  cases hother

/-- A number does not begin with a blank. -/
theorem not_isJsonWhitespace_of_startsJsonNumber {byte : UInt8} (h : startsJsonNumber byte = true) :
    isJsonWhitespace byte = false := by
  simp only [isJsonWhitespace, Bool.or_eq_false_iff, decide_eq_false_iff_not]
  exact ⟨⟨⟨startsJsonNumber_other h (by decide), startsJsonNumber_other h (by decide)⟩,
    startsJsonNumber_other h (by decide)⟩, startsJsonNumber_other h (by decide)⟩

/-- A value begins with a byte that is no blank and closes nothing. -/
theorem LaxPart.starts (h : LaxPart .value depth text) : ∃ byte tail, text = byte :: tail
    ∧ isJsonWhitespace byte = false ∧ byte ≠ asciiByte ']' := by
  cases h with
  | literal hmem =>
    simp only [List.mem_cons, List.not_mem_nil, or_false] at hmem
    rcases hmem with rfl | rfl | rfl
    · exact ⟨_, _, rfl, by decide, by decide⟩
    · exact ⟨_, _, rfl, by decide, by decide⟩
    · exact ⟨_, _, rfl, by decide, by decide⟩
  | number hstart _ =>
    exact ⟨_, _, rfl, not_isJsonWhitespace_of_startsJsonNumber hstart,
      startsJsonNumber_other hstart (by decide)⟩
  | string hstring =>
    cases hstring with
    | quoted _ => exact ⟨_, _, rfl, by decide, by decide⟩
  | emptyArray _ _ => exact ⟨_, _, rfl, by decide, by decide⟩
  | array _ _ => exact ⟨_, _, rfl, by decide, by decide⟩
  | emptyObject _ _ => exact ⟨_, _, rfl, by decide, by decide⟩
  | object _ _ => exact ⟨_, _, rfl, by decide, by decide⟩

/-- A value does not begin with a blank. -/
theorem LaxPart.nextNot (h : LaxPart .value depth text) (rest : Bytes) :
    NextNot isJsonWhitespace (text ++ rest) := by
  obtain ⟨byte, tail, rfl, hbyte, -⟩ := h.starts
  exact nextNot_cons hbyte

/-- A string does not begin with a blank. -/
theorem LaxString.nextNot {value : String} (h : LaxString text value) (rest : Bytes) :
    NextNot isJsonWhitespace (text ++ rest) := by
  cases h with
  | quoted _ => exact nextNot_cons (by decide)

/-- Blanks before a value are skipped with it. -/
theorem skipJsonValue_blanks {ws : Bytes} (hws : IsJsonBlanks ws) (bytes : Bytes) :
    skipJsonValue fuel depth (ws ++ bytes) = skipJsonValue fuel depth bytes := by
  cases fuel with
  | zero => rfl
  | succ fuel => rw [skipJsonValue, skipJsonValue, skipJsonWhitespace_append hws]

/-- A part that is not empty does not begin with the mark that closes it. -/
theorem LaxPart.not_closed (h : LaxPart p depth text) (rest : Bytes) :
    (p = .elements → (skipJsonWhitespace (text ++ rest)).head? ≠ some (asciiByte ']'))
      ∧ (p = .members → (skipJsonWhitespace (text ++ rest)).head? ≠ some (asciiByte '\x7d')) := by
  -- The first byte of a value is never a closing bracket.
  have hvalue : ∀ {ws value more : Bytes}, IsJsonBlanks ws → LaxPart .value (depth + 1) value →
      (skipJsonWhitespace (ws ++ (value ++ more))).head? ≠ some (asciiByte ']') := by
    intro ws value more hws hpart
    rw [skipJsonWhitespace_append hws, skipJsonWhitespace_self (hpart.nextNot more)]
    obtain ⟨byte, tail, rfl, -, hbyte⟩ := hpart.starts
    simpa using hbyte
  -- The first byte of a name is a quote.
  have hname : ∀ {ws name more : Bytes} {key : String}, IsJsonBlanks ws → LaxString name key →
      (skipJsonWhitespace (ws ++ (name ++ more))).head? ≠ some (asciiByte '\x7d') := by
    intro ws name more key hws hstring
    rw [skipJsonWhitespace_append hws, skipJsonWhitespace_self (hstring.nextNot more)]
    cases hstring with
    | quoted _ => exact nofun
  refine ⟨?_, ?_⟩
  · rintro rfl
    cases h with
    | lastElement hws hpart _ =>
      rw [List.append_assoc, List.append_assoc]
      exact hvalue hws hpart
    | nextElement hws hpart _ _ =>
      rw [List.append_assoc, List.append_assoc]
      exact hvalue hws hpart
  · rintro rfl
    cases h with
    | lastMember hws hstring _ _ _ _ =>
      rw [List.append_assoc, List.append_assoc]
      exact hname hws hstring
    | nextMember hws hstring _ _ _ _ _ =>
      rw [List.append_assoc, List.append_assoc]
      exact hname hws hstring

/-- A number is skipped with all number bytes that follow it. -/
theorem skipJsonValue_number {byte : UInt8} {bytes : Bytes} (hstart : startsJsonNumber byte = true)
    (hbytes : ∀ b ∈ bytes, isJsonNumberByte b = true) (hrest : NextNot isJsonNumberByte rest) :
    skipJsonValue (fuel + 1) depth (byte :: bytes ++ rest) = .ok rest := by
  have hdrop : (bytes ++ rest).dropWhile isJsonNumberByte = rest := by
    rw [List.dropWhile_append_of_pos hbytes]
    cases rest with
    | nil => rfl
    | cons next tail => exact List.dropWhile_cons_of_neg (by simp [hrest next rfl])
  rw [List.cons_append, skipJsonValue, skipJsonWhitespace_self
    (nextNot_cons (not_isJsonWhitespace_of_startsJsonNumber hstart))]
  dsimp only
  rw [if_neg (startsJsonNumber_other hstart (by decide)),
    if_neg (startsJsonNumber_other hstart (by decide)),
    if_neg (startsJsonNumber_other hstart (by decide)),
    if_neg (startsJsonNumber_other hstart (by decide)),
    if_neg (startsJsonNumber_other hstart (by decide)),
    if_neg (startsJsonNumber_other hstart (by decide)), hdrop]
  exact if_pos hstart

/-- A literal is skipped. -/
theorem skipJsonValue_literal {literal : String} (h : literal ∈ ["true", "false", "null"]) :
    skipJsonValue (fuel + 1) depth (literal.toList.map asciiByte ++ rest) = .ok rest := by
  have hconsume := consumeJsonLiteral_complete literal rest
  simp only [List.mem_cons, List.not_mem_nil, or_false] at h
  rcases h with rfl | rfl | rfl
  · have htext : "true".toList.map asciiByte = asciiByte 't' :: "rue".toList.map asciiByte := by rfl
    rw [htext, List.cons_append] at hconsume ⊢
    rw [skipJsonValue, skipJsonWhitespace_self (nextNot_cons (by decide))]
    dsimp only
    rw [if_neg (by decide), if_neg (by decide), if_neg (by decide), if_pos rfl, hconsume]
    rfl
  · have htext : "false".toList.map asciiByte = asciiByte 'f' :: "alse".toList.map asciiByte := by
      rfl
    rw [htext, List.cons_append] at hconsume ⊢
    rw [skipJsonValue, skipJsonWhitespace_self (nextNot_cons (by decide))]
    dsimp only
    rw [if_neg (by decide), if_neg (by decide), if_neg (by decide), if_neg (by decide), if_pos rfl,
      hconsume]
    rfl
  · have htext : "null".toList.map asciiByte = asciiByte 'n' :: "ull".toList.map asciiByte := by rfl
    rw [htext, List.cons_append] at hconsume ⊢
    rw [skipJsonValue, skipJsonWhitespace_self (nextNot_cons (by decide))]
    dsimp only
    rw [if_neg (by decide), if_neg (by decide), if_neg (by decide), if_neg (by decide),
      if_neg (by decide), if_pos rfl, hconsume]
    rfl

/-- A string is skipped. -/
theorem skipJsonValue_string {value : String} (h : LaxString text value) :
    skipJsonValue (fuel + 1) depth (text ++ rest) = .ok rest := by
  have hparse := parseJsonString_complete h rest
  cases h with
  | quoted _ =>
    rw [List.cons_append] at hparse ⊢
    rw [skipJsonValue, skipJsonWhitespace_self (nextNot_cons (by decide))]
    dsimp only
    rw [if_pos rfl, hparse]
    rfl

/-- An empty array is skipped, if the depth permits one more level. -/
theorem skipJsonValue_emptyArray {ws : Bytes} (hdepth : depth < maxHealthJsonNesting)
    (hws : IsJsonBlanks ws) :
    skipJsonValue (fuel + 1) depth (asciiByte '[' :: (ws ++ asciiByte ']' :: rest)) = .ok rest := by
  rw [skipJsonValue, skipJsonWhitespace_self (nextNot_cons (by decide))]
  dsimp only
  rw [if_neg (by decide), if_neg (by decide), if_pos rfl, if_neg (Nat.not_le.mpr hdepth),
    skipJsonWhitespace_mark hws (by decide)]
  rfl

/-- An empty object is skipped, if the depth permits one more level. -/
theorem skipJsonValue_emptyObject {ws : Bytes} (hdepth : depth < maxHealthJsonNesting)
    (hws : IsJsonBlanks ws) :
    skipJsonValue (fuel + 1) depth (asciiByte '\x7b' :: (ws ++ asciiByte '\x7d' :: rest))
      = .ok rest := by
  rw [skipJsonValue, skipJsonWhitespace_self (nextNot_cons (by decide))]
  dsimp only
  rw [if_neg (by decide), if_pos rfl, if_neg (Nat.not_le.mpr hdepth),
    skipJsonWhitespace_mark hws (by decide)]
  rfl

/-- An array is skipped if its elements are. -/
theorem skipJsonValue_array (hdepth : depth < maxHealthJsonNesting)
    (hpart : LaxPart .elements depth text)
    (h : skipJsonPart fuel depth .elements (text ++ rest) = .ok rest) :
    skipJsonValue (fuel + 1) depth (asciiByte '[' :: (text ++ rest)) = .ok rest := by
  rw [skipJsonValue, skipJsonWhitespace_self (nextNot_cons (by decide))]
  dsimp only
  rw [if_neg (by decide), if_neg (by decide), if_pos rfl, if_neg (Nat.not_le.mpr hdepth),
    if_neg ((hpart.not_closed rest).1 rfl)]
  exact h

/-- An object is skipped if its members are. -/
theorem skipJsonValue_object (hdepth : depth < maxHealthJsonNesting)
    (hpart : LaxPart .members depth text)
    (h : skipJsonPart fuel depth .members (text ++ rest) = .ok rest) :
    skipJsonValue (fuel + 1) depth (asciiByte '\x7b' :: (text ++ rest)) = .ok rest := by
  rw [skipJsonValue, skipJsonWhitespace_self (nextNot_cons (by decide))]
  dsimp only
  rw [if_neg (by decide), if_pos rfl, if_neg (Nat.not_le.mpr hdepth),
    if_neg ((hpart.not_closed rest).2 rfl)]
  exact h

/-- An element, and what the mark after it asks for. -/
theorem skipJsonElements_mark {ws ws' after : Bytes} {mark : UInt8} (hws : IsJsonBlanks ws)
    (hpart : LaxPart .value (depth + 1) text) (hws' : IsJsonBlanks ws')
    (hmark : isJsonWhitespace mark = false)
    (hvalue : skipJsonValue fuel (depth + 1) (text ++ (ws' ++ mark :: after))
      = .ok (ws' ++ mark :: after)) :
    skipJsonPart (fuel + 1) depth .elements (ws ++ (text ++ (ws' ++ mark :: after))) =
      if mark = asciiByte ',' then skipJsonPart fuel depth .elements after
      else if mark = asciiByte ']' then .ok after else .error .malformed := by
  show skipJsonElements (fuel + 1) depth (skipJsonWhitespace _) = _
  rw [skipJsonWhitespace_append hws, skipJsonWhitespace_self (hpart.nextNot _), skipJsonElements,
    hvalue, ok_bind, skipJsonWhitespace_mark hws' hmark]
  rfl

/-- A member, and what the mark after it asks for. -/
theorem skipJsonMembers_mark {ws₁ ws₂ ws₃ ws₄ name after : Bytes} {key : String} {mark : UInt8}
    (hws₁ : IsJsonBlanks ws₁) (hname : LaxString name key) (hws₂ : IsJsonBlanks ws₂)
    (hws₃ : IsJsonBlanks ws₃) (hws₄ : IsJsonBlanks ws₄) (hmark : isJsonWhitespace mark = false)
    (hvalue : skipJsonValue fuel (depth + 1) (text ++ (ws₄ ++ mark :: after))
      = .ok (ws₄ ++ mark :: after)) :
    skipJsonPart (fuel + 1) depth .members (ws₁ ++ (name ++ (ws₂ ++ asciiByte ':'
        :: (ws₃ ++ (text ++ (ws₄ ++ mark :: after)))))) =
      if mark = asciiByte ',' then skipJsonPart fuel depth .members after
      else if mark = asciiByte '\x7d' then .ok after else .error .malformed := by
  show skipJsonMembers (fuel + 1) depth (skipJsonWhitespace _) = _
  rw [skipJsonWhitespace_append hws₁, skipJsonWhitespace_self (hname.nextNot _), skipJsonMembers,
    parseJsonString_complete hname, orMalformed_some, ok_bind]
  dsimp only
  rw [skipJsonWhitespace_mark hws₂ (by decide)]
  dsimp only
  rw [if_pos rfl, skipJsonValue_blanks hws₃, hvalue, ok_bind, skipJsonWhitespace_mark hws₄ hmark]
  rfl

/-- Everything in the grammar is skipped, if the fuel is no less than its length. A number
    alone depends on what follows it. -/
theorem skipJsonPart_complete (h : LaxPart p depth text) (hfuel : text.length ≤ fuel)
    (hrest : p = .value → NumberEnds text rest) :
    skipJsonPart fuel depth p (text ++ rest) = .ok rest := by
  -- On the derivation; each part inside is shorter by at least one byte.
  induction h generalizing fuel rest with
  | @literal depth literal hmem =>
    have hlength : 0 < (literal.toList.map asciiByte).length := by
      simp only [List.mem_cons, List.not_mem_nil, or_false] at hmem
      rcases hmem with rfl | rfl | rfl
      · decide
      · decide
      · decide
    obtain ⟨n, rfl⟩ : ∃ n, fuel = n + 1 := ⟨fuel - 1, by omega⟩
    exact skipJsonValue_literal hmem
  | number hstart hbytes =>
    rw [List.length_cons] at hfuel
    obtain ⟨n, rfl⟩ : ∃ n, fuel = n + 1 := ⟨fuel - 1, by omega⟩
    exact skipJsonValue_number hstart hbytes (hrest rfl _ rfl hstart)
  | string hstring =>
    obtain ⟨n, rfl⟩ : ∃ n, fuel = n + 1 := by
      cases hstring with
      | quoted _ =>
        rw [List.length_cons] at hfuel
        exact ⟨fuel - 1, by omega⟩
    exact skipJsonValue_string hstring
  | emptyArray hdepth hws =>
    rw [List.length_cons] at hfuel
    obtain ⟨n, rfl⟩ : ∃ n, fuel = n + 1 := ⟨fuel - 1, by omega⟩
    rw [List.cons_append, List.append_assoc, List.singleton_append]
    exact skipJsonValue_emptyArray hdepth hws
  | emptyObject hdepth hws =>
    rw [List.length_cons] at hfuel
    obtain ⟨n, rfl⟩ : ∃ n, fuel = n + 1 := ⟨fuel - 1, by omega⟩
    rw [List.cons_append, List.append_assoc, List.singleton_append]
    exact skipJsonValue_emptyObject hdepth hws
  | array hdepth hpart ih =>
    rw [List.length_cons] at hfuel
    obtain ⟨n, rfl⟩ : ∃ n, fuel = n + 1 := ⟨fuel - 1, by omega⟩
    exact skipJsonValue_array hdepth hpart (ih (by omega) nofun)
  | object hdepth hpart ih =>
    rw [List.length_cons] at hfuel
    obtain ⟨n, rfl⟩ : ∃ n, fuel = n + 1 := ⟨fuel - 1, by omega⟩
    exact skipJsonValue_object hdepth hpart (ih (by omega) nofun)
  | @lastElement depth ws ws' value hws hpart hws' ih =>
    simp only [List.length_append, List.length_cons, List.length_nil] at hfuel
    obtain ⟨n, rfl⟩ : ∃ n, fuel = n + 1 := ⟨fuel - 1, by omega⟩
    have hvalue : skipJsonValue n (depth + 1) (value ++ (ws' ++ asciiByte ']' :: rest))
        = .ok (ws' ++ asciiByte ']' :: rest) :=
      ih (by omega) fun _ => numberEnds_mark hws' (by decide)
    simp only [List.append_assoc, List.cons_append, List.nil_append]
    rw [skipJsonElements_mark hws hpart hws' (by decide) hvalue, if_neg (by decide), if_pos rfl]
  -- The value first, then the elements after the comma.
  | @nextElement depth ws ws' value more hws hpart hws' _ ih ihrest =>
    simp only [List.length_append, List.length_cons] at hfuel
    obtain ⟨n, rfl⟩ : ∃ n, fuel = n + 1 := ⟨fuel - 1, by omega⟩
    have hvalue : skipJsonValue n (depth + 1) (value ++ (ws' ++ asciiByte ',' :: (more ++ rest)))
        = .ok (ws' ++ asciiByte ',' :: (more ++ rest)) :=
      ih (by omega) fun _ => numberEnds_mark hws' (by decide)
    simp only [List.append_assoc, List.cons_append]
    rw [skipJsonElements_mark hws hpart hws' (by decide) hvalue, if_pos rfl]
    exact ihrest (by omega) nofun
  | @lastMember depth ws₁ ws₂ ws₃ ws₄ name key value hws₁ hname hws₂ hws₃ _ hws₄ ih =>
    simp only [List.length_append, List.length_cons, List.length_nil] at hfuel
    obtain ⟨n, rfl⟩ : ∃ n, fuel = n + 1 := ⟨fuel - 1, by omega⟩
    have hvalue : skipJsonValue n (depth + 1) (value ++ (ws₄ ++ asciiByte '\x7d' :: rest))
        = .ok (ws₄ ++ asciiByte '\x7d' :: rest) :=
      ih (by omega) fun _ => numberEnds_mark hws₄ (by decide)
    simp only [List.append_assoc, List.cons_append, List.nil_append]
    rw [skipJsonMembers_mark hws₁ hname hws₂ hws₃ hws₄ (by decide) hvalue, if_neg (by decide),
      if_pos rfl]
  | @nextMember depth ws₁ ws₂ ws₃ ws₄ name key value more hws₁ hname hws₂ hws₃ _ hws₄ _ ih ihrest =>
    simp only [List.length_append, List.length_cons] at hfuel
    obtain ⟨n, rfl⟩ : ∃ n, fuel = n + 1 := ⟨fuel - 1, by omega⟩
    have hvalue : skipJsonValue n (depth + 1) (value ++ (ws₄ ++ asciiByte ',' :: (more ++ rest)))
        = .ok (ws₄ ++ asciiByte ',' :: (more ++ rest)) :=
      ih (by omega) fun _ => numberEnds_mark hws₄ (by decide)
    simp only [List.append_assoc, List.cons_append]
    rw [skipJsonMembers_mark hws₁ hname hws₂ hws₃ hws₄ (by decide) hvalue, if_pos rfl]
    exact ihrest (by omega) nofun

end

/-! ## The fuel is enough -/

section
variable {α β : Type}

/-- The scan does not run out of fuel. -/
def Ends (scan : Except ScanError α) : Prop := scan ≠ .error .outOfFuel

/-- A scan in two parts ends if both do. -/
theorem Ends.bind {scan : Except ScanError α} {next : α → Except ScanError β} (h : Ends scan)
    (hnext : ∀ a, scan = .ok a → Ends (next a)) : Ends (scan >>= next) := by
  cases scan with
  | error error => exact fun herror => h (congrArg _ (Except.error.inj herror))
  | ok a => exact hnext a rfl

/-- What is made of the result does not matter. -/
theorem Ends.map {scan : Except ScanError α} (h : Ends scan) (f : α → β) : Ends (scan.map f) := by
  cases scan with
  | error error => exact fun herror => h (congrArg _ (Except.error.inj herror))
  | ok a => exact nofun

/-- A part that is missing is an answer too. -/
theorem orMalformed_ends (result : Option α) : Ends (orMalformed result) := by
  cases result with
  | none => exact nofun
  | some a => exact nofun

end

section
variable {fuel depth : Nat} {bytes rest : Bytes} {p : Part}

/-- Skipping blanks leaves no more than there was. -/
theorem length_skipJsonWhitespace_le (bytes : Bytes) :
    (skipJsonWhitespace bytes).length ≤ bytes.length := (List.dropWhile_suffix _).length_le

/-- Skipping a part leaves no more than there was. -/
theorem skipJsonPart_length_le (h : skipJsonPart fuel depth p bytes = .ok rest) :
    rest.length ≤ bytes.length := by
  obtain ⟨ws, text, rfl, -, -⟩ := skipsParts fuel depth p bytes rest h
  simp only [List.length_append]
  omega

/-- The fuel that a part of some length may take. -/
def partFuel : Part → Nat → Nat
  | .value, length    => 2 * length + 1
  | .elements, length => 2 * length + 2
  | .members, length  => 2 * length + 2

/-- With this much fuel every part ends whose text is short enough. -/
def EndsAt (fuel : Nat) : Prop :=
  ∀ depth p bytes, partFuel p bytes.length ≤ fuel → Ends (skipJsonPart fuel depth p bytes)

/-- A value ends if the parts inside it do, and those are shorter. -/
theorem skipJsonValue_ends (ih : EndsAt fuel) (hfuel : 2 * bytes.length + 1 ≤ fuel + 1) :
    Ends (skipJsonValue (fuel + 1) depth bytes) := by
  have hlength := length_skipJsonWhitespace_le bytes
  rw [skipJsonValue]
  cases hnext : skipJsonWhitespace bytes with
  | nil => exact nofun
  | cons byte tail =>
    rw [hnext, List.length_cons] at hlength
    -- What follows the opening bracket is shorter than the value, by one byte and so by
    -- two units of fuel.
    have hparts : ∀ p, p ≠ .value → Ends (skipJsonPart fuel depth p tail) := by
      intro p hp
      apply ih
      cases p with
      | value => exact absurd rfl hp
      | elements => show 2 * tail.length + 2 ≤ fuel; omega
      | members => show 2 * tail.length + 2 ≤ fuel; omega
    dsimp only
    split
    · exact orMalformed_ends _
    split
    · split
      · exact nofun
      split
      · exact nofun
      · exact hparts .members nofun
    split
    · split
      · exact nofun
      split
      · exact nofun
      · exact hparts .elements nofun
    split
    · exact orMalformed_ends _
    split
    · exact orMalformed_ends _
    split
    · exact orMalformed_ends _
    split
    · exact nofun
    · exact nofun

/-- Elements end, since the value that comes first leaves less. -/
theorem skipJsonElements_ends (ih : EndsAt fuel) (hfuel : 2 * bytes.length + 2 ≤ fuel + 1) :
    Ends (skipJsonElements (fuel + 1) depth bytes) := by
  rw [skipJsonElements]
  apply Ends.bind (ih (depth + 1) .value bytes (by show 2 * bytes.length + 1 ≤ fuel; omega))
  intro after hvalue
  have hafter : after.length ≤ bytes.length := @skipJsonPart_length_le fuel _ _ _ .value hvalue
  have hlength := length_skipJsonWhitespace_le after
  cases hnext : skipJsonWhitespace after with
  | nil => exact nofun
  | cons mark tail =>
    rw [hnext, List.length_cons] at hlength
    dsimp only
    split
    · exact ih depth .elements tail (by show 2 * tail.length + 2 ≤ fuel; omega)
    split
    · exact nofun
    · exact nofun

/-- A string takes at least its two quotes. -/
theorem parseJsonString_length_le {text : String} (h : parseJsonString bytes = some (text, rest)) :
    rest.length + 2 ≤ bytes.length := by
  obtain ⟨name, rfl, hname⟩ := parseJsonString_sound h
  have hlength : 2 ≤ name.length := by
    cases hname with
    | quoted hbody =>
      cases hbody with
      | close => exact Nat.le_refl 2
      | plain _ _ _ _ => simp
      | escape _ _ => simp
      | unicode _ _ => simp
  rw [List.length_append]
  omega

/-- Members end, since the name that comes first leaves less. -/
theorem skipJsonMembers_ends (ih : EndsAt fuel) (hfuel : 2 * bytes.length + 2 ≤ fuel + 1) :
    Ends (skipJsonMembers (fuel + 1) depth bytes) := by
  rw [skipJsonMembers]
  apply Ends.bind (orMalformed_ends _)
  rintro ⟨key, afterName⟩ hkey
  have hafterName := parseJsonString_length_le (orMalformed_eq_ok.mp hkey)
  have hlength := length_skipJsonWhitespace_le afterName
  dsimp only
  cases hcolon : skipJsonWhitespace afterName with
  | nil => exact nofun
  | cons colon tail =>
    rw [hcolon, List.length_cons] at hlength
    dsimp only
    split
    · apply Ends.bind (ih (depth + 1) .value tail (by show 2 * tail.length + 1 ≤ fuel; omega))
      intro after hvalue
      have hafter : after.length ≤ tail.length := @skipJsonPart_length_le fuel _ _ _ .value hvalue
      have hlength' := length_skipJsonWhitespace_le after
      cases hnext : skipJsonWhitespace after with
      | nil => exact nofun
      | cons mark more =>
        rw [hnext, List.length_cons] at hlength'
        dsimp only
        split
        · exact ih depth .members more (by show 2 * more.length + 2 ≤ fuel; omega)
        split
        · exact nofun
        · exact nofun
    · exact nofun

/-- So the fuel is enough for every part, by induction on it. -/
theorem endsAt (fuel : Nat) : EndsAt fuel := by
  induction fuel with
  | zero =>
    intro depth p bytes hfuel
    cases p with
    | value => exact absurd hfuel (Nat.not_succ_le_zero _)
    | elements => exact absurd hfuel (Nat.not_succ_le_zero _)
    | members => exact absurd hfuel (Nat.not_succ_le_zero _)
  | succ fuel ih =>
    intro depth p bytes hfuel
    have hlength := length_skipJsonWhitespace_le bytes
    cases p with
    | value => exact skipJsonValue_ends ih hfuel
    | elements =>
      have hfuel' : 2 * bytes.length + 2 ≤ fuel + 1 := hfuel
      exact skipJsonElements_ends ih (by omega)
    | members =>
      have hfuel' : 2 * bytes.length + 2 ≤ fuel + 1 := hfuel
      exact skipJsonMembers_ends ih (by omega)

end

end Freezeit
