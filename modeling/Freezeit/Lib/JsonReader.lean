import Freezeit.Lib.Json

/-! # Reading JSON

    A reader for the grammar.  It reads every text of the grammar as the value
    that the text stands for, so no text stands for two values. -/

namespace Json

/-! ## The reader -/

def skipBlanks (cs : List Char) : List Char := cs.dropWhile isBlank

/-- A string after its opening quote: its code units, and what follows. -/
def readStringBody : List Char → Option (List Nat × List Char)
  | [] => none
  | c :: rest =>
    if c = '"' then some ([], rest)
    else if c = '\\' then
      match rest with
      | [] => none
      | escaped :: rest =>
        match escapeUnit escaped with
        | some u => (readStringBody rest).map fun (us, after) => (u :: us, after)
        | none =>
          if escaped = 'u' then
            match rest with
            | a :: b :: c :: d :: rest =>
              match hexValue a b c d with
              | some u => (readStringBody rest).map fun (us, after) => (u :: us, after)
              | none   => none
            | _ => none
          else none
    else if IsPlain c then (readStringBody rest).map fun (us, after) => (c.toNat :: us, after)
    else none

def readString : List Char → Option (String × List Char)
  | [] => none
  | c :: rest =>
    if c = '"' then
      (readStringBody rest).map fun (us, after) => (String.ofList (spell us), after)
    else none

/-- The digits after a decimal point, or none. -/
def readFraction : List Char → Option (List Char × List Char)
  | [] => some ([], [])
  | c :: rest =>
    if c = '.' then
      if rest.takeWhile Char.isDigit = [] then none
      else some (rest.takeWhile Char.isDigit, rest.dropWhile Char.isDigit)
    else some ([], c :: rest)

/-- A sign, if there is one. -/
def readSign : List Char → Option Char × List Char
  | [] => (none, [])
  | c :: rest => if c = '+' ∨ c = '-' then (some c, rest) else (none, c :: rest)

/-- An exponent, if there is one. -/
def readExponent : List Char → Option (Int × List Char)
  | [] => some (0, [])
  | c :: rest =>
    if c = 'e' ∨ c = 'E' then
      let (sign, rest) := readSign rest
      let digits := rest.takeWhile Char.isDigit
      if digits = [] then none
      else
        some (if sign = some '-' then -(digitsValue digits : Int) else digitsValue digits,
          rest.dropWhile Char.isDigit)
    else some (0, c :: rest)

/-- A number, which is read as far as it goes. -/
def readNumber (cs : List Char) : Option (ℚ × List Char) :=
  let negative := cs.head? = some '-'
  let rest := if negative then cs.tail else cs
  let integer := rest.takeWhile Char.isDigit
  if integer = [] ∨ (integer.head? = some '0' ∧ integer ≠ ['0']) then none
  else do
    let (fraction, rest) ← readFraction (rest.dropWhile Char.isDigit)
    let (exponent, rest) ← readExponent rest
    return (numberValue negative integer fraction exponent, rest)

/-- One of the three words of the grammar. -/
def readLiteral (literal : List Char) (v : Json) (cs : List Char) : Option (Json × List Char) :=
  if literal.isPrefixOf cs then some (v, cs.drop literal.length) else none

/-- Puts an element before those that were read after it. -/
def consItem (v : Json) : Json × List Char → Option (Json × List Char)
  | (.array vs, after) => some (.array (v :: vs), after)
  | _                  => none

/-- Puts a member before those that were read after it. -/
def consMember (k : String) (v : Json) : Json × List Char → Option (Json × List Char)
  | (.object ms, after) => some (.object ((k, v) :: ms), after)
  | _                   => none

/-- Reads a part; the fuel bounds the depth of the recursion. -/
def readPart : Nat → Part → List Char → Option (Json × List Char)
  | 0, _, _ => none
  | _ + 1, .value, [] => none
  | fuel + 1, .value, c :: rest =>
    if c = '"' then (readString (c :: rest)).map fun (s, after) => (.string s, after)
    else if c = '[' then
      if (skipBlanks rest).head? = some ']' then some (.array [], (skipBlanks rest).tail)
      else readPart fuel .elements rest
    else if c = '\x7b' then
      if (skipBlanks rest).head? = some '\x7d' then some (.object [], (skipBlanks rest).tail)
      else readPart fuel .members rest
    else if c = 'n' then readLiteral ['n', 'u', 'l', 'l'] .null (c :: rest)
    else if c = 't' then readLiteral ['t', 'r', 'u', 'e'] (.bool true) (c :: rest)
    else if c = 'f' then readLiteral ['f', 'a', 'l', 's', 'e'] (.bool false) (c :: rest)
    else (readNumber (c :: rest)).map fun (n, after) => (.number n, after)
  | fuel + 1, .elements, cs => do
    let (v, rest) ← readPart fuel .value (skipBlanks cs)
    match skipBlanks rest with
    | [] => none
    | c :: rest =>
      if c = ',' then (readPart fuel .elements rest).bind (consItem v)
      else if c = ']' then some (.array [v], rest)
      else none
  | fuel + 1, .members, cs => do
    let (k, rest) ← readString (skipBlanks cs)
    match skipBlanks rest with
    | [] => none
    | c :: rest =>
      if c = ':' then do
        let (v, rest) ← readPart fuel .value (skipBlanks rest)
        match skipBlanks rest with
        | [] => none
        | c :: rest =>
          if c = ',' then (readPart fuel .members rest).bind (consMember k v)
          else if c = '\x7d' then some (.object [(k, v)], rest)
          else none
      else none

/-- The value of a text; nothing but blanks may follow it. -/
def read (cs : List Char) : Option Json :=
  match readPart (2 * cs.length) .value (skipBlanks cs) with
  | some (v, rest) => if skipBlanks rest = [] then some v else none
  | none           => none

/-! ## Blanks -/

/-- The text does not begin with a character of `p`. -/
def HeadNot (p : Char → Bool) (cs : List Char) : Prop := ∀ c ∈ cs.head?, p c = false

/-- What satisfies `p` is taken up to the point where the rest begins. -/
theorem takeWhile_append_of_headNot {p : Char → Bool} {cs rest : List Char}
    (h : ∀ c ∈ cs, p c = true) (hrest : HeadNot p rest) : (cs ++ rest).takeWhile p = cs := by
  have hstop : rest.takeWhile p = [] := by
    cases rest with
    | nil => rfl
    | cons c rest => rw [List.takeWhile_cons_of_neg (by simp [hrest c rfl])]
  rw [List.takeWhile_append_of_pos h, hstop, List.append_nil]

/-- The rest is left. -/
theorem dropWhile_append_of_headNot {p : Char → Bool} {cs rest : List Char}
    (h : ∀ c ∈ cs, p c = true) (hrest : HeadNot p rest) : (cs ++ rest).dropWhile p = rest := by
  have hstop : rest.dropWhile p = rest := by
    cases rest with
    | nil => rfl
    | cons c rest => rw [List.dropWhile_cons_of_neg (by simp [hrest c rfl])]
  rw [List.dropWhile_append_of_pos h, hstop]

theorem skipBlanks_append {ws rest : List Char} (h : IsBlanks ws) (hrest : HeadNot isBlank rest) :
    skipBlanks (ws ++ rest) = rest := dropWhile_append_of_headNot h hrest

theorem headNot_cons {p : Char → Bool} {c : Char} {rest : List Char} (h : p c = false) :
    HeadNot p (c :: rest) := by
  intro d hd
  cases hd
  exact h

/-! ## Strings -/

/-- Every string is read, and reading stops at its closing quote. -/
theorem readStringBody_complete {cs : List Char} {us : List Nat} (h : IsStringBody cs us)
    (rest : List Char) : readStringBody (cs ++ rest) = some (us, rest) := by
  induction h with
  | close =>
    rw [List.singleton_append, readStringBody.eq_def]
    rfl
  | plain hplain _ ih =>
    rw [List.cons_append, readStringBody.eq_def]
    dsimp only
    rw [if_neg hplain.2.1, if_neg hplain.2.2, if_pos hplain, ih]
    rfl
  | escape hescape _ ih =>
    rw [List.cons_append, List.cons_append, readStringBody.eq_def]
    dsimp only
    rw [if_neg (by decide), if_pos rfl, hescape]
    dsimp only
    rw [ih]
    rfl
  | unicode hhex _ ih =>
    have hnone : escapeUnit 'u' = none := by decide
    rw [List.cons_append, List.cons_append, List.cons_append, List.cons_append, List.cons_append,
      List.cons_append, readStringBody.eq_def]
    dsimp only
    rw [if_neg (by decide), if_pos rfl, hnone]
    dsimp only
    rw [if_pos rfl, hhex]
    dsimp only
    rw [ih]
    rfl

theorem readString_complete {cs : List Char} {s : String} (h : IsString cs s)
    (rest : List Char) : readString (cs ++ rest) = some (s, rest) := by
  cases h with
  | quoted hbody =>
    rw [List.cons_append, readString, if_pos rfl, readStringBody_complete hbody]
    rfl

/-! ## Numbers -/

/-- A character that would continue a number. -/
def continuesNumber (c : Char) : Bool := c.isDigit || c = '.' || c = 'e' || c = 'E'

theorem HeadNot.mono {p q : Char → Bool} {cs : List Char} (h : HeadNot p cs)
    (hpq : ∀ c, q c = true → p c = true) : HeadNot q cs := by
  intro c hc
  have hp := h c hc
  cases hq : q c with
  | false => rfl
  | true =>
    rw [hpq c hq] at hp
    cases hp

theorem HeadNot.digit {cs : List Char} (h : HeadNot continuesNumber cs) :
    HeadNot Char.isDigit cs := by
  apply h.mono
  intro c hc
  simp [continuesNumber, hc]

theorem readFraction_absent {cs : List Char} (h : cs.head? ≠ some '.') :
    readFraction cs = some ([], cs) := by
  cases cs with
  | nil => rfl
  | cons c rest =>
    rw [readFraction, if_neg]
    intro hc
    rw [hc] at h
    exact h rfl

theorem readExponent_absent {cs : List Char} (he : cs.head? ≠ some 'e')
    (hE : cs.head? ≠ some 'E') : readExponent cs = some (0, cs) := by
  cases cs with
  | nil => rfl
  | cons c rest =>
    rw [readExponent, if_neg]
    intro hc
    rcases hc with rfl | rfl
    · exact he rfl
    · exact hE rfl

theorem readSign_complete {sign : Option Char} {digits rest : List Char}
    (hsign : ∀ c ∈ sign, c = '+' ∨ c = '-') (hdigits : IsDigits digits) :
    readSign (sign.toList ++ (digits ++ rest)) = (sign, digits ++ rest) := by
  cases sign with
  | some c =>
    show readSign (c :: (digits ++ rest)) = _
    rw [readSign, if_pos (hsign c rfl)]
  | none =>
    obtain ⟨hne, hall⟩ := hdigits
    cases digits with
    | nil => exact absurd rfl hne
    | cons c cs =>
      show readSign (c :: (cs ++ rest)) = _
      rw [readSign, if_neg]
      · rfl
      · have hdigit := hall c List.mem_cons_self
        intro hc
        rcases hc with rfl | rfl
        · cases hdigit
        · cases hdigit

theorem readExponent_complete {n : NumberText} {rest : List Char}
    (hrest : HeadNot continuesNumber rest) :
    readExponent (n.exponentChars ++ rest)
      = some ((n.exponent.map Exponent.value).getD 0, rest) := by
  unfold NumberText.exponentChars
  cases n.exponent with
  | none =>
    apply readExponent_absent
    · intro hhead
      cases hrest 'e' hhead
    · intro hhead
      cases hrest 'E' hhead
  | some e =>
    show readExponent (e.letter :: (e.sign.toList ++ e.digits) ++ rest) = some (e.value, rest)
    obtain ⟨hne, hall⟩ := e.digits_ok
    rw [List.cons_append, List.append_assoc, readExponent, if_pos e.letter_ok,
      readSign_complete e.sign_ok e.digits_ok]
    dsimp only
    rw [takeWhile_append_of_headNot hall hrest.digit, dropWhile_append_of_headNot hall hrest.digit,
      if_neg hne]
    rfl

theorem readFraction_complete {n : NumberText} {rest : List Char}
    (hdigit : HeadNot Char.isDigit rest) (hpoint : rest.head? ≠ some '.') :
    readFraction (n.fractionChars ++ rest) = some (n.fraction.getD [], rest) := by
  have hok := n.fraction_ok
  unfold NumberText.fractionChars
  cases hfraction : n.fraction with
  | none => exact readFraction_absent hpoint
  | some digits =>
    obtain ⟨hne, hall⟩ := hok digits hfraction
    show readFraction ('.' :: (digits ++ rest)) = some (digits, rest)
    rw [readFraction, if_pos rfl, takeWhile_append_of_headNot hall hdigit,
      dropWhile_append_of_headNot hall hdigit, if_neg hne]

/-- What follows the fraction is no digit and no point. -/
theorem exponent_head {n : NumberText} {rest : List Char} (hrest : HeadNot continuesNumber rest) :
    HeadNot Char.isDigit (n.exponentChars ++ rest)
      ∧ (n.exponentChars ++ rest).head? ≠ some '.' := by
  unfold NumberText.exponentChars
  cases n.exponent with
  | none =>
    refine ⟨hrest.digit, ?_⟩
    intro hhead
    cases hrest '.' hhead
  | some e =>
    show HeadNot Char.isDigit (e.letter :: _) ∧ some e.letter ≠ some '.'
    rcases e.letter_ok with h | h
    · rw [h]
      exact ⟨headNot_cons rfl, by decide⟩
    · rw [h]
      exact ⟨headNot_cons rfl, by decide⟩

/-- What follows the integer part is no digit. -/
theorem fraction_head {n : NumberText} {rest : List Char} (hrest : HeadNot Char.isDigit rest) :
    HeadNot Char.isDigit (n.fractionChars ++ rest) := by
  unfold NumberText.fractionChars
  cases n.fraction with
  | none => exact hrest
  | some digits => exact headNot_cons rfl

theorem readNumber_complete (n : NumberText) {rest : List Char}
    (hrest : HeadNot continuesNumber rest) :
    readNumber (n.chars ++ rest) = some (n.value, rest) := by
  obtain ⟨⟨hne, hall⟩, hzero⟩ := n.integer_ok
  obtain ⟨hdigit, hpoint⟩ := exponent_head (n := n) hrest
  have hminus : (n.chars ++ rest).head? = some '-' ↔ n.negative = true := by
    unfold NumberText.chars
    cases hn : n.negative with
    | true => simp
    | false =>
      obtain ⟨c, cs, hcs⟩ := List.exists_cons_of_ne_nil hne
      have hc := hall c (by rw [hcs]; exact List.mem_cons_self)
      have hc' : c ≠ '-' := by
        rintro rfl
        cases hc
      rw [hcs]
      simp [hc']
  have htail : (if (n.chars ++ rest).head? = some '-' then (n.chars ++ rest).tail
      else n.chars ++ rest) = n.integer ++ (n.fractionChars ++ (n.exponentChars ++ rest)) := by
    simp only [hminus]
    unfold NumberText.chars
    cases n.negative with
    | true => simp
    | false => simp
  have hnegative : decide ((n.chars ++ rest).head? = some '-') = n.negative := by
    cases hn : n.negative with
    | true => exact decide_eq_true (hminus.mpr hn)
    | false =>
      apply decide_eq_false
      rw [hminus, hn]
      exact Bool.false_ne_true
  unfold readNumber
  dsimp only
  rw [htail, takeWhile_append_of_headNot hall (fraction_head hdigit),
    dropWhile_append_of_headNot hall (fraction_head hdigit), hnegative, if_neg,
    readFraction_complete hdigit hpoint]
  · simp only [Option.bind_eq_bind, Option.bind_some]
    rw [readExponent_complete hrest]
    rfl
  · rintro (hnil | ⟨hhead, hother⟩)
    · exact hne hnil
    · exact hother (hzero hhead)

theorem NumberText.head (n : NumberText) :
    ∃ c rest, n.chars = c :: rest ∧ (c = '-' ∨ c.isDigit = true) := by
  obtain ⟨⟨hne, hall⟩, -⟩ := n.integer_ok
  obtain ⟨c, cs, hcs⟩ := List.exists_cons_of_ne_nil hne
  unfold NumberText.chars
  cases n.negative with
  | true => exact ⟨'-', _, rfl, .inl rfl⟩
  | false =>
    rw [hcs]
    exact ⟨c, _, rfl, .inr (hall c (by rw [hcs]; exact List.mem_cons_self))⟩

/-! ## Values -/

/-- A value begins with a character that is no blank and ends no bracket. -/
def StartsValue (c : Char) : Prop := isBlank c = false ∧ c ≠ ']' ∧ c ≠ '\x7d'

theorem startsValue_of_isDigit {c : Char} (h : c.isDigit = true) : StartsValue c := by
  refine ⟨?_, ?_, ?_⟩
  · cases hblank : isBlank c with
    | false => rfl
    | true =>
      simp only [isBlank, Bool.or_eq_true, decide_eq_true_eq] at hblank
      rcases hblank with ((rfl | rfl) | rfl) | rfl
      · cases h
      · cases h
      · cases h
      · cases h
  · rintro rfl
    cases h
  · rintro rfl
    cases h

/-- The first character of a value. -/
theorem IsPart.starts {p : Part} {cs : List Char} {v : Json} (h : IsPart p cs v)
    (hp : p = .value) : ∃ c rest, cs = c :: rest ∧ StartsValue c := by
  have hstarts : ∀ c, StartsValue c ↔ isBlank c = false ∧ c ≠ ']' ∧ c ≠ '\x7d' := fun _ => Iff.rfl
  cases h with
  | nullLiteral => exact ⟨_, _, rfl, by rw [hstarts]; decide⟩
  | trueLiteral => exact ⟨_, _, rfl, by rw [hstarts]; decide⟩
  | falseLiteral => exact ⟨_, _, rfl, by rw [hstarts]; decide⟩
  | number n =>
    obtain ⟨c, rest, heq, hc⟩ := n.head
    refine ⟨c, rest, heq, ?_⟩
    rcases hc with rfl | hdigit
    · rw [hstarts]
      decide
    · exact startsValue_of_isDigit hdigit
  | string hstring =>
    cases hstring with
    | quoted _ => exact ⟨_, _, rfl, by rw [hstarts]; decide⟩
  | emptyArray _ => exact ⟨_, _, rfl, by rw [hstarts]; decide⟩
  | array _ => exact ⟨_, _, rfl, by rw [hstarts]; decide⟩
  | emptyObject _ => exact ⟨_, _, rfl, by rw [hstarts]; decide⟩
  | object _ => exact ⟨_, _, rfl, by rw [hstarts]; decide⟩
  | lastElement _ _ _ => cases hp
  | nextElement _ _ _ _ => cases hp
  | lastMember _ _ _ _ _ _ => cases hp
  | nextMember _ _ _ _ _ _ _ => cases hp

theorem skipBlanks_value {ws cs rest : List Char} {v : Json} (hws : IsBlanks ws)
    (h : IsPart .value cs v) : skipBlanks (ws ++ (cs ++ rest)) = cs ++ rest := by
  obtain ⟨c, cs', rfl, hc⟩ := h.starts rfl
  exact skipBlanks_append hws (headNot_cons hc.1)

theorem skipBlanks_string {ws cs rest : List Char} {s : String} (hws : IsBlanks ws)
    (h : IsString cs s) : skipBlanks (ws ++ (cs ++ rest)) = cs ++ rest := by
  cases h with
  | quoted _ => exact skipBlanks_append hws (headNot_cons rfl)

/-- No blank and no mark after a value continues a number. -/
theorem not_continuesNumber_of_isBlank {c : Char} (h : isBlank c = true) :
    continuesNumber c = false := by
  simp only [isBlank, Bool.or_eq_true, decide_eq_true_eq] at h
  rcases h with ((rfl | rfl) | rfl) | rfl
  · rfl
  · rfl
  · rfl
  · rfl

theorem headNot_after {ws rest : List Char} {c : Char} (hws : IsBlanks ws)
    (hc : continuesNumber c = false) : HeadNot continuesNumber (ws ++ c :: rest) := by
  cases ws with
  | nil => exact headNot_cons hc
  | cons b ws =>
    exact headNot_cons (not_continuesNumber_of_isBlank (hws b List.mem_cons_self))

theorem readLiteral_complete (literal : List Char) (v : Json) (rest : List Char) :
    readLiteral literal v (literal ++ rest) = some (v, rest) := by
  unfold readLiteral
  rw [if_pos (List.isPrefixOf_iff_prefix.mpr (List.prefix_append _ _)), List.drop_left]

/-- A part that is not empty does not begin with the mark that closes it. -/
theorem IsPart.not_closed {p : Part} {cs rest : List Char} {v : Json} (h : IsPart p cs v) :
    (p = .elements → (skipBlanks (cs ++ rest)).head? ≠ some ']')
      ∧ (p = .members → (skipBlanks (cs ++ rest)).head? ≠ some '\x7d') := by
  have hvalue : ∀ {ws cs more : List Char} {v : Json}, IsBlanks ws → IsPart .value cs v →
      (skipBlanks (ws ++ (cs ++ more))).head? ≠ some ']' := by
    intro ws cs more v hws hv
    rw [skipBlanks_value hws hv]
    obtain ⟨c, cs', rfl, hc⟩ := hv.starts rfl
    simpa using hc.2.1
  have hstring : ∀ {ws cs more : List Char} {s : String}, IsBlanks ws → IsString cs s →
      (skipBlanks (ws ++ (cs ++ more))).head? ≠ some '\x7d' := by
    intro ws cs more s hws hs
    rw [skipBlanks_string hws hs]
    cases hs with
    | quoted _ => simp
  refine ⟨?_, ?_⟩
  · rintro rfl
    cases h with
    | lastElement hws hv _ =>
      rw [List.append_assoc, List.append_assoc]
      exact hvalue hws hv
    | nextElement hws hv _ _ =>
      rw [List.append_assoc, List.append_assoc]
      exact hvalue hws hv
  · rintro rfl
    cases h with
    | lastMember hws hname _ _ _ _ =>
      rw [List.append_assoc, List.append_assoc]
      exact hstring hws hname
    | nextMember hws hname _ _ _ _ _ =>
      rw [List.append_assoc, List.append_assoc]
      exact hstring hws hname

section
variable {fuel : Nat} {cs rest : List Char} {v : Json}

theorem readPart_number (n : NumberText) (hrest : HeadNot continuesNumber rest) :
    readPart (fuel + 1) .value (n.chars ++ rest) = some (.number n.value, rest) := by
  have hread := readNumber_complete n hrest
  obtain ⟨c, cs, hcs, hc⟩ := n.head
  rw [hcs, List.cons_append] at hread ⊢
  -- No case of the reader before the last one takes a minus sign or a digit.
  have hother : ∀ d : Char, d ≠ '-' → d.isDigit = false → c ≠ d := by
    rintro d hminus hdigit rfl
    rcases hc with hc | hc
    · exact hminus hc
    · rw [hdigit] at hc
      cases hc
  rw [readPart, if_neg (hother _ (by decide) (by decide)), if_neg (hother _ (by decide) (by decide)),
    if_neg (hother _ (by decide) (by decide)), if_neg (hother _ (by decide) (by decide)),
    if_neg (hother _ (by decide) (by decide)), if_neg (hother _ (by decide) (by decide)), hread]
  rfl

theorem readPart_string {s : String} (h : IsString cs s) :
    readPart (fuel + 1) .value (cs ++ rest) = some (.string s, rest) := by
  have hread := readString_complete h rest
  cases h with
  | quoted hbody =>
    rw [List.cons_append] at hread ⊢
    show (readString _).map _ = _
    rw [hread]
    rfl

theorem readPart_array (h : readPart fuel .elements (cs ++ rest) = some (v, rest))
    (hopen : (skipBlanks (cs ++ rest)).head? ≠ some ']') :
    readPart (fuel + 1) .value ('[' :: cs ++ rest) = some (v, rest) := by
  show (if (skipBlanks (cs ++ rest)).head? = some ']' then _
    else readPart fuel .elements (cs ++ rest)) = _
  rw [if_neg hopen, h]

theorem readPart_object (h : readPart fuel .members (cs ++ rest) = some (v, rest))
    (hopen : (skipBlanks (cs ++ rest)).head? ≠ some '\x7d') :
    readPart (fuel + 1) .value ('\x7b' :: cs ++ rest) = some (v, rest) := by
  show (if (skipBlanks (cs ++ rest)).head? = some '\x7d' then _
    else readPart fuel .members (cs ++ rest)) = _
  rw [if_neg hopen, h]

/-- An element, read with the blanks around it. -/
theorem readPart_elements {ws ws' after : List Char} {c : Char} (hws : IsBlanks ws)
    (h : IsPart .value cs v) (hws' : IsBlanks ws') (hc : isBlank c = false)
    (hread : readPart fuel .value (cs ++ (ws' ++ c :: after)) = some (v, ws' ++ c :: after)) :
    readPart (fuel + 1) .elements (ws ++ (cs ++ (ws' ++ c :: after))) =
      if c = ',' then (readPart fuel .elements after).bind (consItem v)
      else if c = ']' then some (.array [v], after) else none := by
  show (readPart fuel .value (skipBlanks _)).bind _ = _
  rw [skipBlanks_value hws h, hread]
  dsimp only [Option.bind_some]
  rw [skipBlanks_append hws' (headNot_cons hc)]

/-- A member, read with the blanks around its parts. -/
theorem readPart_members {ws₁ ws₂ ws₃ ws₄ name after : List Char} {k : String} {c : Char}
    (hws₁ : IsBlanks ws₁) (hname : IsString name k) (hws₂ : IsBlanks ws₂) (hws₃ : IsBlanks ws₃)
    (h : IsPart .value cs v) (hws₄ : IsBlanks ws₄) (hc : isBlank c = false)
    (hread : readPart fuel .value (cs ++ (ws₄ ++ c :: after)) = some (v, ws₄ ++ c :: after)) :
    readPart (fuel + 1) .members
        (ws₁ ++ (name ++ (ws₂ ++ ':' :: (ws₃ ++ (cs ++ (ws₄ ++ c :: after)))))) =
      if c = ',' then (readPart fuel .members after).bind (consMember k v)
      else if c = '\x7d' then some (.object [(k, v)], after) else none := by
  show (readString (skipBlanks _)).bind _ = _
  rw [skipBlanks_string hws₁ hname, readString_complete hname]
  dsimp only [Option.bind_eq_bind, Option.bind_some]
  rw [skipBlanks_append hws₂ (headNot_cons (by decide))]
  dsimp only
  rw [if_pos rfl, skipBlanks_value hws₃ h, hread]
  dsimp only [Option.bind_some]
  rw [skipBlanks_append hws₄ (headNot_cons hc)]

/-- Every part of the grammar is read, whatever follows that does not continue it. -/
theorem readPart_complete {p : Part} (h : IsPart p cs v) (hfuel : 2 * cs.length ≤ fuel)
    (hrest : p = .value → HeadNot continuesNumber rest) :
    readPart fuel p (cs ++ rest) = some (v, rest) := by
  -- The induction is on the grammar.  Going into a bracket spends a character and going
  -- on to its first item spends none, so two levels of fuel for each character are enough.
  induction h generalizing fuel rest with
  | nullLiteral =>
    obtain ⟨n, rfl⟩ : ∃ n, fuel = n + 1 := ⟨fuel - 1, by simp at hfuel; omega⟩
    exact readLiteral_complete ['n', 'u', 'l', 'l'] .null rest
  | trueLiteral =>
    obtain ⟨n, rfl⟩ : ∃ n, fuel = n + 1 := ⟨fuel - 1, by simp at hfuel; omega⟩
    exact readLiteral_complete ['t', 'r', 'u', 'e'] (.bool Bool.true) rest
  | falseLiteral =>
    obtain ⟨n, rfl⟩ : ∃ n, fuel = n + 1 := ⟨fuel - 1, by simp at hfuel; omega⟩
    exact readLiteral_complete ['f', 'a', 'l', 's', 'e'] (.bool Bool.false) rest
  | number n =>
    obtain ⟨c, cs, hcs, -⟩ := n.head
    rw [hcs, List.length_cons] at hfuel
    obtain ⟨m, rfl⟩ : ∃ m, fuel = m + 1 := ⟨fuel - 1, by omega⟩
    exact readPart_number n (hrest rfl)
  | string hstring =>
    cases hstring with
    | quoted hbody =>
      rw [List.length_cons] at hfuel
      obtain ⟨m, rfl⟩ : ∃ m, fuel = m + 1 := ⟨fuel - 1, by omega⟩
      exact readPart_string (.quoted hbody)
  | emptyArray hws =>
    rw [List.length_cons] at hfuel
    obtain ⟨m, rfl⟩ : ∃ m, fuel = m + 1 := ⟨fuel - 1, by omega⟩
    rw [List.cons_append, List.append_assoc, List.singleton_append]
    show (if (skipBlanks _).head? = some ']' then some (_, (skipBlanks _).tail) else _) = _
    rw [skipBlanks_append hws (headNot_cons (by decide))]
    rfl
  | emptyObject hws =>
    rw [List.length_cons] at hfuel
    obtain ⟨m, rfl⟩ : ∃ m, fuel = m + 1 := ⟨fuel - 1, by omega⟩
    rw [List.cons_append, List.append_assoc, List.singleton_append]
    show (if (skipBlanks _).head? = some '\x7d' then some (_, (skipBlanks _).tail) else _) = _
    rw [skipBlanks_append hws (headNot_cons (by decide))]
    rfl
  | array hbody ih =>
    rw [List.length_cons] at hfuel
    obtain ⟨m, rfl⟩ : ∃ m, fuel = m + 1 := ⟨fuel - 1, by omega⟩
    exact readPart_array (ih (by omega) nofun) (hbody.not_closed.1 rfl)
  | object hbody ih =>
    rw [List.length_cons] at hfuel
    obtain ⟨m, rfl⟩ : ∃ m, fuel = m + 1 := ⟨fuel - 1, by omega⟩
    exact readPart_object (ih (by omega) nofun) (hbody.not_closed.2 rfl)
  | @lastElement ws ws' cs v hws hv hws' ih =>
    simp only [List.length_append, List.length_cons, List.length_nil] at hfuel
    obtain ⟨m, rfl⟩ : ∃ m, fuel = m + 1 := ⟨fuel - 1, by omega⟩
    have hread : readPart m .value (cs ++ (ws' ++ ']' :: rest)) = some (v, ws' ++ ']' :: rest) :=
      ih (by omega) fun _ => headNot_after hws' (by decide)
    simp only [List.append_assoc, List.cons_append, List.nil_append]
    rw [readPart_elements hws hv hws' (by decide) hread, if_neg (by decide), if_pos rfl]
  | @nextElement ws ws' cs more v vs hws hv hws' _ ih ihrest =>
    simp only [List.length_append, List.length_cons] at hfuel
    obtain ⟨m, rfl⟩ : ∃ m, fuel = m + 1 := ⟨fuel - 1, by omega⟩
    have hread : readPart m .value (cs ++ (ws' ++ ',' :: (more ++ rest)))
        = some (v, ws' ++ ',' :: (more ++ rest)) :=
      -- A number among the elements ends here, since a comma or a blank does not continue
      -- it.
      ih (by omega) fun _ => headNot_after hws' (by decide)
    have hitems : readPart m .elements (more ++ rest) = some (.array vs, rest) :=
      ihrest (by omega) nofun
    simp only [List.append_assoc, List.cons_append]
    rw [readPart_elements hws hv hws' (by decide) hread, if_pos rfl, hitems]
    rfl
  | @lastMember ws₁ ws₂ ws₃ ws₄ name cs k v hws₁ hname hws₂ hws₃ hv hws₄ ih =>
    simp only [List.length_append, List.length_cons, List.length_nil] at hfuel
    obtain ⟨m, rfl⟩ : ∃ m, fuel = m + 1 := ⟨fuel - 1, by omega⟩
    have hread : readPart m .value (cs ++ (ws₄ ++ '\x7d' :: rest))
        = some (v, ws₄ ++ '\x7d' :: rest) :=
      ih (by omega) fun _ => headNot_after hws₄ (by decide)
    simp only [List.append_assoc, List.cons_append, List.nil_append]
    rw [readPart_members hws₁ hname hws₂ hws₃ hv hws₄ (by decide) hread, if_neg (by decide),
      if_pos rfl]
  | @nextMember ws₁ ws₂ ws₃ ws₄ name cs more k v ms hws₁ hname hws₂ hws₃ hv hws₄ _ ih ihrest =>
    simp only [List.length_append, List.length_cons] at hfuel
    obtain ⟨m, rfl⟩ : ∃ m, fuel = m + 1 := ⟨fuel - 1, by omega⟩
    have hread : readPart m .value (cs ++ (ws₄ ++ ',' :: (more ++ rest)))
        = some (v, ws₄ ++ ',' :: (more ++ rest)) :=
      ih (by omega) fun _ => headNot_after hws₄ (by decide)
    have hmembers : readPart m .members (more ++ rest) = some (.object ms, rest) :=
      ihrest (by omega) nofun
    simp only [List.append_assoc, List.cons_append]
    rw [readPart_members hws₁ hname hws₂ hws₃ hv hws₄ (by decide) hread, if_pos rfl, hmembers]
    rfl

end

/-- Every text of the grammar is read as the value it stands for. -/
theorem read_complete {cs : List Char} {v : Json} (h : IsText cs v) : read cs = some v := by
  cases h with
  | @text ws ws' cs v hws hv hws' =>
    have hend : HeadNot continuesNumber ws' := by
      intro c hc
      exact not_continuesNumber_of_isBlank (hws' c (List.mem_of_head? hc))
    have hread : readPart (2 * (ws ++ (cs ++ ws')).length) .value (cs ++ ws') = some (v, ws') :=
      readPart_complete hv (by simp only [List.length_append]; omega) fun _ => hend
    have hdone : skipBlanks ws' = [] := by
      have hnil : HeadNot isBlank [] := by
        intro c hc
        cases hc
      have happend := skipBlanks_append hws' hnil
      rw [List.append_nil] at happend
      exact happend
    unfold read
    rw [skipBlanks_value hws hv, hread]
    dsimp only
    rw [if_pos hdone]

/-- A text stands for one value. -/
theorem isText_unique {cs : List Char} {v v' : Json} (h : IsText cs v) (h' : IsText cs v') :
    v = v' := Option.some.inj ((read_complete h).symm.trans (read_complete h'))

end Json
