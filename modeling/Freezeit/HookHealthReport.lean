import Freezeit.HookHealthJson
import Freezeit.Lib.JsonMembers
import Mathlib.Data.List.Find

/-! # The reports of RFC 8259

    Every object of RFC 8259 that nests no deeper than the scanner goes is a
    report of its grammar, and it is classified by the member that decides. -/

namespace Freezeit

open Json (IsBlanks IsPart IsString IsStringBody IsMembers IsObjectText Member NumberText)

/-! ## Characters and their bytes -/

/-- A text in UTF-8. -/
def encodeChars (cs : List Char) : Bytes := cs.flatMap String.utf8EncodeChar

/-- Two texts are encoded one after the other. -/
theorem encodeChars_append (cs cs' : List Char) : encodeChars (cs ++ cs') = encodeChars cs ++ encodeChars cs' :=
  List.flatMap_append

/-- A text is encoded character by character. -/
theorem encodeChars_cons (c : Char) (cs : List Char) :
    encodeChars (c :: cs) = String.utf8EncodeChar c ++ encodeChars cs := List.flatMap_cons

/-- Texts are told apart by their bytes. -/
theorem encodeChars_inj {cs cs' : List Char} (h : encodeChars cs = encodeChars cs') : cs = cs' := by
  have hdecode := congrArg Utf8.decode h
  unfold encodeChars at hdecode
  rw [Utf8.decode_encode, Utf8.decode_encode] at hdecode
  exact List.map_injective_iff.mpr (Option.some_injective _) hdecode

/-- An ASCII character takes one byte. -/
theorem utf8EncodeChar_ascii {c : Char} (h : c.toNat < 0x80) :
    String.utf8EncodeChar c = [asciiByte c] := by
  have hval : c.val.toNat = c.toNat := rfl
  unfold String.utf8EncodeChar
  dsimp only
  rw [hval, if_pos (by omega)]
  rfl

/-- A text that begins with an ASCII character begins with its byte. -/
theorem encodeChars_cons_ascii {c : Char} (h : c.toNat < 0x80) (cs : List Char) :
    encodeChars (c :: cs) = asciiByte c :: encodeChars cs := by
  rw [encodeChars_cons, utf8EncodeChar_ascii h]
  rfl

/-- A text of ASCII characters has one byte for each. -/
theorem encodeChars_ascii {cs : List Char} (h : ∀ c ∈ cs, c.toNat < 0x80) :
    encodeChars cs = cs.map asciiByte := by
  induction cs with
  | nil => rfl
  | cons c cs ih =>
    rw [encodeChars_cons_ascii (h c List.mem_cons_self), List.map_cons,
      ih fun other hother => h other (List.mem_cons_of_mem _ hother)]

/-- The bytes of other characters are no marks. -/
theorem utf8EncodeChar_high {c : Char} (h : 0x80 ≤ c.toNat) :
    ∀ byte ∈ String.utf8EncodeChar c, 0x80 ≤ byte.toNat := by
  have hval : c.val.toNat = c.toNat := rfl
  intro byte hmem
  unfold String.utf8EncodeChar at hmem
  dsimp only at hmem
  rw [hval, if_neg (by omega)] at hmem
  generalize c.toNat = n at *
  split at hmem
  · simp only [List.mem_cons, List.not_mem_nil, or_false] at hmem
    rcases hmem with rfl | rfl
    · simp; omega
    · simp; omega
  split at hmem
  · simp only [List.mem_cons, List.not_mem_nil, or_false] at hmem
    rcases hmem with rfl | rfl | rfl
    · simp; omega
    · simp; omega
    · simp; omega
  · simp only [List.mem_cons, List.not_mem_nil, or_false] at hmem
    rcases hmem with rfl | rfl | rfl | rfl
    · simp; omega
    · simp; omega
    · simp; omega
    · simp; omega

/-! ## The texts of RFC 8259 are of the grammar -/

/-- Blanks are blanks in bytes. -/
theorem isJsonBlanks_encodeChars {ws : List Char} (h : IsBlanks ws) : IsJsonBlanks (encodeChars ws) := by
  induction ws with
  | nil => exact isJsonBlanks_nil
  | cons c ws ih =>
    have hrest := ih fun other hother => h other (List.mem_cons_of_mem _ hother)
    have hc := h c List.mem_cons_self
    have hascii : c.toNat < 0x80 ∧ isJsonWhitespace (asciiByte c) = true := by
      simp only [Json.isBlank, Bool.or_eq_true, decide_eq_true_eq] at hc
      rcases hc with ((rfl | rfl) | rfl) | rfl
      · decide
      · decide
      · decide
      · decide
    rw [encodeChars_cons_ascii hascii.1]
    intro byte hmem
    rcases List.mem_cons.mp hmem with rfl | hmem
    · exact hascii.2
    · exact hrest byte hmem

/-- The bytes of a character that stands for itself in a string. -/
theorem plain_encodeChars {c : Char} (h : Json.IsPlain c) : ∀ byte ∈ String.utf8EncodeChar c,
    byte ≠ asciiByte '"' ∧ byte ≠ asciiByte '\\' ∧ ¬ byte < 0x20 := by
  obtain ⟨hlow, hquote, hslash⟩ := h
  intro byte hmem
  have hne : ∀ mark : Char, mark.toNat < 0x80 → c ≠ mark → byte.toNat ≠ mark.toNat := by
    intro mark hmark hne heq
    by_cases hascii : c.toNat < 0x80
    · rw [utf8EncodeChar_ascii hascii] at hmem
      rw [List.mem_singleton.mp hmem, asciiByte_toNat hascii] at heq
      exact hne (Char.toNat_inj.mp heq)
    · have hhigh := utf8EncodeChar_high (Nat.le_of_not_lt hascii) byte hmem
      omega
  have hbyte : 0x20 ≤ byte.toNat := by
    by_cases hascii : c.toNat < 0x80
    · rw [utf8EncodeChar_ascii hascii] at hmem
      rwa [List.mem_singleton.mp hmem, asciiByte_toNat hascii]
    · have hhigh := utf8EncodeChar_high (Nat.le_of_not_lt hascii) byte hmem
      omega
  refine ⟨?_, ?_, ?_⟩
  · rintro rfl
    exact hne '"' (by decide) hquote rfl
  · rintro rfl
    exact hne '\\' (by decide) hslash rfl
  · rw [UInt8.lt_iff_toNat_lt]
    exact Nat.not_lt.mpr hbyte

/-- Plain bytes may be put before the body of a string. -/
theorem laxStringBody_append {bytes body : Bytes} {cs : List Char} (h : LaxStringBody body cs)
    (hplain : ∀ byte ∈ bytes, byte ≠ asciiByte '"' ∧ byte ≠ asciiByte '\\' ∧ ¬ byte < 0x20) :
    ∃ cs', LaxStringBody (bytes ++ body) cs' := by
  induction bytes with
  | nil => exact ⟨cs, h⟩
  | cons byte bytes ih =>
    obtain ⟨cs', hrest⟩ := ih fun other hother => hplain other (List.mem_cons_of_mem _ hother)
    obtain ⟨hquote, hslash, hcontrol⟩ := hplain byte List.mem_cons_self
    exact ⟨_, .plain hquote hslash hcontrol hrest⟩

/-- An escape of JSON is one that the scan knows. -/
theorem jsonEscape_of_escapeUnit {c : Char} {u : Nat} (h : Json.escapeUnit c = some u) :
    c.toNat < 0x80 ∧ ∃ escaped, jsonEscape (asciiByte c) = some escaped := by
  have hmem : c ∈ ['"', '\\', '/', 'b', 'f', 'n', 'r', 't'] := by
    by_contra hmem
    simp only [List.mem_cons, List.not_mem_nil, or_false, not_or] at hmem
    obtain ⟨h₁, h₂, h₃, h₄, h₅, h₆, h₇, h₈⟩ := hmem
    unfold Json.escapeUnit at h
    rw [if_neg h₁, if_neg h₂, if_neg h₃, if_neg h₄, if_neg h₅, if_neg h₆, if_neg h₇, if_neg h₈] at h
    cases h
  have hall : (['"', '\\', '/', 'b', 'f', 'n', 'r', 't'].all fun c =>
      decide (c.toNat < 0x80) && (jsonEscape (asciiByte c)).isSome) = true := by decide
  have hc := List.all_eq_true.mp hall c hmem
  obtain ⟨hascii, hsome⟩ := Bool.and_eq_true_iff.mp hc
  exact ⟨of_decide_eq_true hascii, Option.isSome_iff_exists.mp hsome⟩

/-- A range of ASCII characters is one of bytes. -/
theorem asciiByte_range {c low high : Char} (h : low ≤ c ∧ c ≤ high) (hhigh : high.toNat < 0x80) :
    c.toNat < 0x80 ∧ asciiByte low ≤ asciiByte c ∧ asciiByte c ≤ asciiByte high := by
  have hlow : low.toNat ≤ c.toNat := h.1
  have hle : c.toNat ≤ high.toNat := h.2
  have hc : c.toNat < 0x80 := by omega
  rw [UInt8.le_iff_toNat_le, UInt8.le_iff_toNat_le, asciiByte_toNat hc, asciiByte_toNat hhigh,
    asciiByte_toNat (by omega)]
  exact ⟨hc, hlow, hle⟩

/-- A hexadecimal digit is one for the scan. -/
theorem isAsciiHexDigit_of_hexDigit {c : Char} {n : Nat} (h : Json.hexDigit c = some n) :
    c.toNat < 0x80 ∧ isAsciiHexDigit (asciiByte c) = true := by
  unfold Json.hexDigit at h
  unfold isAsciiHexDigit
  simp only [Bool.or_eq_true, Bool.and_eq_true, decide_eq_true_eq]
  split at h
  · next hdigit =>
    obtain ⟨hc, hrange⟩ := asciiByte_range hdigit (by decide)
    exact ⟨hc, .inl (.inl hrange)⟩
  split at h
  · next hlower =>
    obtain ⟨hc, hrange⟩ := asciiByte_range hlower (by decide)
    exact ⟨hc, .inl (.inr hrange)⟩
  split at h
  · next hupper =>
    obtain ⟨hc, hrange⟩ := asciiByte_range hupper (by decide)
    exact ⟨hc, .inr hrange⟩
  · cases h

/-- The body of a JSON string is accepted by the scan, which may read it differently where
    surrogates are escaped. -/
theorem laxStringBody_encodeChars {cs : List Char} {us : List Nat} (h : IsStringBody cs us) :
    ∃ text, LaxStringBody (encodeChars cs) text := by
  induction h with
  | close => exact ⟨[], .close⟩
  | plain hplain _ ih =>
    obtain ⟨text, hrest⟩ := ih
    rw [encodeChars_cons]
    exact laxStringBody_append hrest (plain_encodeChars hplain)
  | escape hunit _ ih =>
    obtain ⟨text, hrest⟩ := ih
    obtain ⟨hascii, escaped, hescape⟩ := jsonEscape_of_escapeUnit hunit
    rw [encodeChars_cons_ascii (by decide), encodeChars_cons_ascii hascii]
    exact ⟨_, .escape hescape hrest⟩
  -- The grammar gives each of the four digits a value, so the scanner takes each of them.
  | unicode hhex _ ih =>
    obtain ⟨text, hrest⟩ := ih
    unfold Json.hexValue at hhex
    obtain ⟨_, ha, hhex⟩ := Option.bind_eq_some_iff.mp hhex
    obtain ⟨_, hb, hhex⟩ := Option.bind_eq_some_iff.mp hhex
    obtain ⟨_, hc, hhex⟩ := Option.bind_eq_some_iff.mp hhex
    obtain ⟨_, hd, -⟩ := Option.bind_eq_some_iff.mp hhex
    obtain ⟨ha, ha'⟩ := isAsciiHexDigit_of_hexDigit ha
    obtain ⟨hb, hb'⟩ := isAsciiHexDigit_of_hexDigit hb
    obtain ⟨hc, hc'⟩ := isAsciiHexDigit_of_hexDigit hc
    obtain ⟨hd, hd'⟩ := isAsciiHexDigit_of_hexDigit hd
    rw [encodeChars_cons_ascii (by decide), encodeChars_cons_ascii (by decide),
      encodeChars_cons_ascii ha, encodeChars_cons_ascii hb, encodeChars_cons_ascii hc,
      encodeChars_cons_ascii hd]
    exact ⟨_, .unicode (by simp [ha', hb', hc', hd']) hrest⟩

/-- A JSON string is accepted by the scan. -/
theorem laxString_encodeChars {cs : List Char} {s : String} (h : IsString cs s) :
    ∃ text, LaxString (encodeChars cs) text := by
  cases h with
  | quoted hbody =>
    obtain ⟨text, hlax⟩ := laxStringBody_encodeChars hbody
    rw [encodeChars_cons_ascii (by decide)]
    exact ⟨_, .quoted hlax⟩

/-! ### Numbers -/

/-- The byte of a digit lies between those of 0 and 9. -/
theorem asciiByte_digit {c : Char} (h : c.isDigit = true) :
    c.toNat < 0x80 ∧ asciiByte '0' ≤ asciiByte c ∧ asciiByte c ≤ asciiByte '9' := by
  unfold Char.isDigit at h
  simp only [Bool.and_eq_true, decide_eq_true_eq] at h
  exact asciiByte_range h (by decide)

/-- Every character of a number is one that the scan takes for it. -/
theorem numberChar_byte {c : Char} (h : Json.IsNumberChar c) :
    c.toNat < 0x80 ∧ isJsonNumberByte (asciiByte c) = true := by
  rcases h with hdigit | hmark
  · obtain ⟨hc, hlow, hhigh⟩ := asciiByte_digit hdigit
    exact ⟨hc, by simp [isJsonNumberByte, hlow, hhigh]⟩
  · have hall : (['+', '-', '.', 'e', 'E'].all fun c =>
        decide (c.toNat < 0x80) && isJsonNumberByte (asciiByte c)) = true := by decide
    obtain ⟨hascii, hbyte⟩ := Bool.and_eq_true_iff.mp (List.all_eq_true.mp hall c hmark)
    exact ⟨of_decide_eq_true hascii, hbyte⟩

/-- A JSON number is accepted by the scan. -/
theorem laxPart_number (n : NumberText) (depth : Nat) :
    LaxPart .value depth (encodeChars n.chars) := by
  have hall : ∀ c ∈ n.chars, c.toNat < 0x80 ∧ isJsonNumberByte (asciiByte c) = true :=
    fun c hc => numberChar_byte (Json.isNumberChar_of_mem hc)
  rw [encodeChars_ascii fun c hc => (hall c hc).1]
  obtain ⟨c, cs, hcs, hstart⟩ := n.head
  rw [hcs] at hall ⊢
  rw [List.map_cons]
  refine .number ?_ ?_
  · rcases hstart with rfl | hdigit
    · decide
    · obtain ⟨-, hlow, hhigh⟩ := asciiByte_digit hdigit
      simp [startsJsonNumber, hlow, hhigh]
  · intro byte hmem
    obtain ⟨c', hc', rfl⟩ := List.mem_map.mp hmem
    exact (hall c' (List.mem_cons_of_mem _ hc')).2

/-! ### Values and members -/

/-- Blanks and a mark of the grammar, in bytes. -/
theorem encodeChars_mark {ws : List Char} {mark : Char} (hmark : mark.toNat < 0x80)
    (rest : List Char) :
    encodeChars (ws ++ mark :: rest) = encodeChars ws ++ asciiByte mark :: encodeChars rest := by
  rw [encodeChars_append, encodeChars_cons_ascii hmark]

/-- The text of a value that does not nest too deep is one of the grammar. -/
theorem laxPart_encodeChars {p : Json.Part} {cs : List Char} {v : Json} (h : IsPart p cs v)
    {depth : Nat} (hdepth : depth + v.nesting ≤ maxHealthJsonNesting) :
    LaxPart p depth (encodeChars cs) := by
  -- On the derivation. Going into an array or an object uses up one level of the depth.
  induction h generalizing depth with
  | nullLiteral => exact @LaxPart.literal depth "null" (by simp)
  | trueLiteral => exact @LaxPart.literal depth "true" (by simp)
  | falseLiteral => exact @LaxPart.literal depth "false" (by simp)
  -- What the grammar calls a number the scanner takes as a run of number bytes.
  | number n => exact laxPart_number n depth
  | string hstring =>
    obtain ⟨text, hlax⟩ := laxString_encodeChars hstring
    exact .string hlax
  | emptyArray hws =>
    rw [Json.nesting_array] at hdepth
    rw [encodeChars_cons_ascii (by decide), encodeChars_mark (by decide)]
    exact .emptyArray (by omega) (isJsonBlanks_encodeChars hws)
  | emptyObject hws =>
    rw [Json.nesting_object] at hdepth
    rw [encodeChars_cons_ascii (by decide), encodeChars_mark (by decide)]
    exact .emptyObject (by omega) (isJsonBlanks_encodeChars hws)
  | array hbody ih =>
    -- The array nests at least itself, so one more level is allowed here.
    have hopen : depth < maxHealthJsonNesting := by
      cases hbody with
      | lastElement _ _ _ => rw [Json.nesting_array] at hdepth; omega
      | nextElement _ _ _ _ => rw [Json.nesting_array] at hdepth; omega
    rw [encodeChars_cons_ascii (by decide)]
    exact .array hopen (ih hdepth)
  | object hbody ih =>
    have hopen : depth < maxHealthJsonNesting := by
      cases hbody with
      | lastMember _ _ _ _ _ _ => rw [Json.nesting_object] at hdepth; omega
      | nextMember _ _ _ _ _ _ _ => rw [Json.nesting_object] at hdepth; omega
    rw [encodeChars_cons_ascii (by decide)]
    exact .object hopen (ih hdepth)
  | lastElement hws _ hws' ih =>
    rw [Json.nesting_array, Json.nestingItems_cons] at hdepth
    rw [encodeChars_append, encodeChars_append, encodeChars_mark (by decide)]
    exact .lastElement (isJsonBlanks_encodeChars hws) (ih (by omega)) (isJsonBlanks_encodeChars hws')
  -- The remaining elements are those of a smaller array, at the same depth.
  | @nextElement _ _ _ _ _ vs hws _ hws' _ ih ihrest =>
    rw [Json.nesting_array, Json.nestingItems_cons] at hdepth
    have hrest : depth + (Json.array vs).nesting ≤ maxHealthJsonNesting := by
      rw [Json.nesting_array]
      omega
    rw [encodeChars_append, encodeChars_append, encodeChars_mark (by decide)]
    exact .nextElement (isJsonBlanks_encodeChars hws) (ih (by omega))
      (isJsonBlanks_encodeChars hws') (ihrest hrest)
  | lastMember hws₁ hname hws₂ hws₃ _ hws₄ ih =>
    rw [Json.nesting_object, Json.nestingMembers_cons] at hdepth
    obtain ⟨text, hlax⟩ := laxString_encodeChars hname
    rw [encodeChars_append, encodeChars_append, encodeChars_mark (by decide), encodeChars_append,
      encodeChars_append, encodeChars_mark (by decide)]
    exact .lastMember (isJsonBlanks_encodeChars hws₁) hlax (isJsonBlanks_encodeChars hws₂)
      (isJsonBlanks_encodeChars hws₃) (ih (by omega)) (isJsonBlanks_encodeChars hws₄)
  | @nextMember _ _ _ _ _ _ _ _ _ ms hws₁ hname hws₂ hws₃ _ hws₄ _ ih ihrest =>
    rw [Json.nesting_object, Json.nestingMembers_cons] at hdepth
    obtain ⟨text, hlax⟩ := laxString_encodeChars hname
    have hrest : depth + (Json.object ms).nesting ≤ maxHealthJsonNesting := by
      rw [Json.nesting_object]
      omega
    rw [encodeChars_append, encodeChars_append, encodeChars_mark (by decide), encodeChars_append,
      encodeChars_append, encodeChars_mark (by decide)]
    exact .nextMember (isJsonBlanks_encodeChars hws₁) hlax (isJsonBlanks_encodeChars hws₂)
      (isJsonBlanks_encodeChars hws₃) (ih (by omega)) (isJsonBlanks_encodeChars hws₄) (ihrest hrest)

/-- A member as the scanner sees it. -/
def memberBytes (m : Member) : Bytes × Bytes := (encodeChars m.name, encodeChars m.chars)

/-- The members of a JSON object are members for the scan. -/
theorem laxMembers_encodeChars {cs : List Char} {ms : List Member} (h : IsMembers cs ms)
    (hdepth : ∀ m ∈ ms, m.value.nesting ≤ maxHealthJsonNesting) :
    LaxMembers (encodeChars cs) (ms.map memberBytes) := by
  induction h with
  | last m hws₁ hws₂ hws₃ hws₄ =>
    obtain ⟨text, hlax⟩ := laxString_encodeChars m.name_ok
    have hvalue := laxPart_encodeChars m.value_ok (by
      rw [Nat.zero_add]
      exact hdepth m List.mem_cons_self)
    rw [encodeChars_append, encodeChars_append, encodeChars_mark (by decide), encodeChars_append,
      encodeChars_append, encodeChars_mark (by decide)]
    exact .last (isJsonBlanks_encodeChars hws₁) hlax (isJsonBlanks_encodeChars hws₂)
      (isJsonBlanks_encodeChars hws₃) hvalue (isJsonBlanks_encodeChars hws₄)
  | next m hws₁ hws₂ hws₃ hws₄ _ ih =>
    obtain ⟨text, hlax⟩ := laxString_encodeChars m.name_ok
    have hvalue := laxPart_encodeChars m.value_ok (by
      rw [Nat.zero_add]
      exact hdepth m List.mem_cons_self)
    rw [encodeChars_append, encodeChars_append, encodeChars_mark (by decide), encodeChars_append,
      encodeChars_append, encodeChars_mark (by decide)]
    exact .next (isJsonBlanks_encodeChars hws₁) hlax (isJsonBlanks_encodeChars hws₂)
      (isJsonBlanks_encodeChars hws₃) hvalue (isJsonBlanks_encodeChars hws₄)
      (ih fun other hother => hdepth other (List.mem_cons_of_mem _ hother))

/-- A JSON object that is not nested too deeply is a report for the scan. -/
theorem laxReport_encodeChars {cs : List Char} {ms : List Member} (h : IsObjectText cs ms)
    (hdepth : ∀ m ∈ ms, m.value.nesting ≤ maxHealthJsonNesting) :
    LaxReport (encodeChars cs) (ms.map memberBytes) := by
  cases h with
  | empty hws hblanks hws' =>
    rw [encodeChars_append, encodeChars_append, encodeChars_cons_ascii (by decide),
      encodeChars_mark (by decide)]
    exact .report (isJsonBlanks_encodeChars hws) (.close (isJsonBlanks_encodeChars hblanks))
      (isJsonBlanks_encodeChars hws')
  | members hws hms hws' =>
    rw [encodeChars_append, encodeChars_append, encodeChars_cons_ascii (by decide)]
    exact .report (isJsonBlanks_encodeChars hws) (laxMembers_encodeChars hms hdepth)
      (isJsonBlanks_encodeChars hws')

/-! ## The classification -/

/-- The names under which the status is reported. -/
def IsControlKey (key : String) : Prop := key = "system_control_status" ∨ key = "status"

/-- The member that decides. -/
def controlMember (ms : List Member) : Option Member :=
  (Json.lastMember "system_control_status" ms).or (Json.lastMember "status" ms)

/-- The fields that decide are written without escapes, and they are strings. -/
def PlainControls (ms : List Member) : Prop :=
  ∀ m ∈ ms, IsControlKey m.key → '\\' ∉ m.name ∧ ∃ s, m.value = .string s

/-- A letter of a word is written as it is. -/
theorem isPlain_of_isWordChar {c : Char} (h : IsWordChar c) : Json.IsPlain c := by
  obtain ⟨hlow, -, hmarks⟩ := h
  refine ⟨hlow, ?_, ?_⟩
  · rintro rfl
    exact hmarks (by simp)
  · rintro rfl
    exact hmarks (by simp)

/-- A word in quotes has the bytes of its text. -/
theorem quoted_eq_encodeChars {word : String} (hword : IsWord word) :
    quoted word = encodeChars ('"' :: (word.toList ++ ['"'])) := by
  rw [encodeChars_cons_ascii (by decide), encodeChars_append,
    encodeChars_ascii fun c hc => (hword c hc).2.1]
  rfl

/-- A string of RFC 8259 in the bytes of a word in quotes is the word. -/
theorem isString_eq_quoted_iff {cs : List Char} {s word : String} (h : IsString cs s)
    (hword : IsWord word) : encodeChars cs = quoted word ↔ s = word ∧ '\\' ∉ cs := by
  have hplain : ∀ c ∈ word.toList, Json.IsPlain c := fun c hc => isPlain_of_isWordChar (hword c hc)
  rw [quoted_eq_encodeChars hword]
  constructor
  · intro heq
    have hcs := encodeChars_inj heq
    refine ⟨Json.isString_unique h (hcs ▸ Json.isString_plain hplain), ?_⟩
    rw [hcs]
    intro hmem
    simp only [List.mem_cons, List.mem_append, List.not_mem_nil, or_false] at hmem
    rcases hmem with hquote | hmem | hquote
    · exact absurd hquote (by decide)
    · exact (hplain _ hmem).2.2 rfl
    · exact absurd hquote (by decide)
  · rintro ⟨rfl, hescape⟩
    rw [h.eq_of_plain hescape]

/-- If no name hides the word behind escapes, the last member of the name is the one that
    the scan finds. -/
theorem lastText_map {word : String} {ms : List Member} (hword : IsWord word)
    (hplain : ∀ m ∈ ms, m.key = word → '\\' ∉ m.name) :
    lastText (quoted word) (ms.map memberBytes)
      = (Json.lastMember word ms).map fun m => encodeChars m.chars := by
  have hsame : ∀ m ∈ ms.reverse, decide ((memberBytes m).1 = quoted word) = decide (m.key = word) := by
    intro m hmem
    have hiff := isString_eq_quoted_iff m.name_ok hword
    have hname := hplain m (List.mem_reverse.mp hmem)
    exact decide_eq_decide.mpr ⟨fun h => (hiff.mp h).1, fun h => hiff.mpr ⟨h, hname h⟩⟩
  unfold lastText Json.lastMember
  rw [← List.map_reverse, List.find?_map, Option.map_map]
  exact congrArg _ (List.find?_congr hsame)

section
variable {ms : List Member} {m : Member}

/-- The same for the member that decides the status. -/
theorem controlText_map (hplain : PlainControls ms) :
    controlText (ms.map memberBytes) = (controlMember ms).map fun m => encodeChars m.chars := by
  have hsystem := @lastText_map "system_control_status" ms isWord_system fun m hmem hkey =>
    (hplain m hmem (.inl hkey)).1
  have hstatus := @lastText_map "status" ms isWord_status fun m hmem hkey =>
    (hplain m hmem (.inr hkey)).1
  unfold controlText controlMember
  rw [hsystem, hstatus]
  cases Json.lastMember "system_control_status" ms with
  | none => rw [Option.map_none, Option.none_or, Option.none_or]
  | some m => rfl

/-- The deciding member is one of the report. -/
theorem mem_of_controlMember (h : controlMember ms = some m) : m ∈ ms ∧ IsControlKey m.key := by
  rcases Option.or_eq_some_iff.mp h with hsystem | ⟨-, hstatus⟩
  · obtain ⟨hmem, hkey⟩ := Json.mem_of_lastMember hsystem
    exact ⟨hmem, .inl hkey⟩
  · obtain ⟨hmem, hkey⟩ := Json.mem_of_lastMember hstatus
    exact ⟨hmem, .inr hkey⟩

/-- The bytes of the value tell whether it is the word. -/
theorem controlMember_eq_quoted_iff {word : String} (hword : IsWord word) (hplain : PlainControls ms)
    (h : controlMember ms = some m) :
    encodeChars m.chars = quoted word ↔ m.value = .string word ∧ '\\' ∉ m.chars := by
  obtain ⟨hmem, hkey⟩ := mem_of_controlMember h
  obtain ⟨-, s, hvalue⟩ := hplain m hmem hkey
  have hstring : IsString m.chars s := by
    have hpart := m.value_ok
    rw [hvalue] at hpart
    exact hpart.isString
  rw [isString_eq_quoted_iff hstring hword, hvalue, Json.string.injEq]

/-- In such a report every value under the two names is a string. -/
theorem plainControls_strings (hplain : PlainControls ms) (name text : Bytes)
    (hmem : (name, text) ∈ ms.map memberBytes)
    (hname : name = quoted "system_control_status" ∨ name = quoted "status") :
    (textOf text).isSome = true := by
  obtain ⟨m, hm, heq⟩ := List.mem_map.mp hmem
  obtain ⟨rfl, rfl⟩ := Prod.mk.inj heq
  have hkey : IsControlKey m.key := by
    rcases hname with hsystem | hstatus
    · exact .inl ((isString_eq_quoted_iff m.name_ok isWord_system).mp hsystem).1
    · exact .inr ((isString_eq_quoted_iff m.name_ok isWord_status).mp hstatus).1
  obtain ⟨-, s, hvalue⟩ := hplain m hm hkey
  have hpart := m.value_ok
  rw [hvalue] at hpart
  obtain ⟨text, hlax⟩ := laxString_encodeChars hpart.isString
  show (textOf (encodeChars m.chars)).isSome = true
  rw [hlax.textOf]
  rfl

end

/-- The status `active` is a word. -/
theorem isWord_active : IsWord "active" := by decide

/-- A report of RFC 8259 is active exactly when the member that decides says so. -/
theorem active_iff_controlMember {payload : String} {ms : List Member}
    (htext : IsObjectText payload.toList ms) (hplain : PlainControls ms)
    (hdepth : ∀ m ∈ ms, m.value.nesting ≤ maxHealthJsonNesting) :
    classifyHookHealthPayload payload = .active ↔
      ∃ m, controlMember ms = some m ∧ m.value = .string "active" ∧ '\\' ∉ m.chars := by
  have hreport : LaxReport (utf8Bytes payload) (ms.map memberBytes) :=
    laxReport_encodeChars htext hdepth
  have htexts := controlText_map hplain
  rw [classifyHookHealthPayload_active_iff]
  constructor
  · intro h
    have hcontrol := controlText_of_word isWord_active hreport h
    rw [htexts] at hcontrol
    obtain ⟨m, hm, hquoted⟩ := Option.map_eq_some_iff.mp hcontrol
    exact ⟨m, hm, (controlMember_eq_quoted_iff isWord_active hplain hm).mp hquoted⟩
  · rintro ⟨m, hm, hvalue⟩
    have hquoted := (controlMember_eq_quoted_iff isWord_active hplain hm).mpr hvalue
    rw [hookControlStatus_complete hreport (plainControls_strings hplain), htexts, hm,
      Option.map_some, hquoted, Option.bind_some, (laxString_word isWord_active).textOf]

/-- The scan of a report always ends.  A report that is active is of the grammar
    of the scanner, and the last field that decides is the word `active`; for the
    objects of RFC 8259 that field alone decides. -/
theorem hook_health_is_classified (payload : String) :
    (∀ bytes : Bytes, Ends (hookControlStatus bytes))
    ∧ (classifyHookHealthPayload payload = .active → ∃ members,
        LaxReport (utf8Bytes payload) members ∧ controlText members = some (quoted "active"))
    ∧ ∀ ms, IsObjectText payload.toList ms → PlainControls ms →
        (∀ m ∈ ms, m.value.nesting ≤ maxHealthJsonNesting) →
        (classifyHookHealthPayload payload = .active ↔
          ∃ m, controlMember ms = some m ∧ m.value = .string "active" ∧ '\\' ∉ m.chars) := by
  refine ⟨hookControlStatus_ends, ?_, ?_⟩
  · intro h
    rw [classifyHookHealthPayload_active_iff] at h
    obtain ⟨members, hreport⟩ := hookControlStatus_report h
    exact ⟨members, hreport, controlText_of_word isWord_active hreport h⟩
  · intro ms htext hplain hdepth
    exact active_iff_controlMember htext hplain hdepth

/-- The member of the report of an older hook. -/
def olderMember : Member where
  name := '"' :: ("status".toList ++ ['"'])
  key := "status"
  chars := '"' :: ("active".toList ++ ['"'])
  value := .string "active"
  name_ok := Json.isString_plain (Json.forall_isPlain (by decide))
  value_ok := .string (Json.isString_plain (Json.forall_isPlain (by decide)))

/-- A report with the older name. -/
def olderReport : String :=
  String.ofList ('\x7b' :: (olderMember.name ++ ':' :: (olderMember.chars ++ ['\x7d'])))

/-- It is a JSON object. -/
theorem olderReport_isObjectText : IsObjectText olderReport.toList [olderMember] := by
  have hnil := Json.isBlanks_nil
  have htext := IsObjectText.members hnil (.last olderMember hnil hnil hnil hnil) hnil
  unfold olderReport
  rw [String.toList_ofList]
  simpa using htext

/-- It counts as active. -/
theorem hook_health_is_classified_sample :
    Ends (hookControlStatus (utf8Bytes olderReport))
    ∧ (classifyHookHealthPayload olderReport = .active ↔
      ∃ m, controlMember [olderMember] = some m ∧ m.value = .string "active" ∧ '\\' ∉ m.chars) := by
  obtain ⟨hends, -, hreports⟩ := hook_health_is_classified olderReport
  refine ⟨hends _, hreports [olderMember] olderReport_isObjectText ?_ ?_⟩
  · intro m hm _
    obtain rfl := List.mem_singleton.mp hm
    exact ⟨by decide, "active", rfl⟩
  · intro m hm
    rw [List.mem_singleton.mp hm]
    show (Json.string "active").nesting ≤ maxHealthJsonNesting
    rw [Json.nesting_string]
    exact Nat.zero_le _

/-- A report with a number that RFC 8259 does not have. -/
def laxNumberReport : String := "\x7b\"status\":\"active\",\"hooks\":1-2\x7d"

/-- A payload that is no JSON can count as active, because the scan takes any number bytes
    for a number. -/
theorem lax_number_report_is_active :
    ¬ ∀ payload : String, classifyHookHealthPayload payload = .active →
      ∃ ms m, IsObjectText payload.toList ms ∧ controlMember ms = some m
        ∧ m.value = .string "active" := by
  intro h
  obtain ⟨ms, m, htext, -⟩ := h laxNumberReport (by decide +kernel)
  have hread := Json.read_complete (Json.isText_object_iff.mpr ⟨ms, htext, rfl⟩)
  have hnone : (Json.read laxNumberReport.toList).isNone = true := by
    decide +kernel
  rw [hread] at hnone
  cases hnone

end Freezeit
