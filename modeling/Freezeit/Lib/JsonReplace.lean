import Freezeit.Lib.JsonMembers

/-! # Replacing a quoted word in a JSON text

    A text function that replaces one quoted word by another knows nothing of
    JSON: it also finds the word at the end of a longer string.  What it leaves
    is a JSON text all the same, and it nests no deeper. -/

namespace Text

/-! ## Replacing -/

/-- Replaces from the left; the number is what is still to be passed of a match. -/
def replaceFrom (needle new : List Char) : Nat → List Char → List Char
  | _, [] => []
  | skip + 1, _ :: rest => replaceFrom needle new skip rest
  | 0, c :: rest =>
    if needle.isPrefixOf (c :: rest) then new ++ replaceFrom needle new (needle.length - 1) rest
    else c :: replaceFrom needle new 0 rest

/-- Every occurrence is replaced, from left to right, and none overlaps the one before. -/
def replaceAll (needle new : List Char) (cs : List Char) : List Char := replaceFrom needle new 0 cs

section
variable {needle new : List Char}

/-- The characters of an occurrence are passed over. -/
theorem replaceFrom_skip (passed rest : List Char) :
    replaceFrom needle new passed.length (passed ++ rest) = replaceAll needle new rest := by
  induction passed with
  | nil => rfl
  | cons c passed ih => exact ih

/-- At an occurrence the new text is put, and the search goes on after the old one. -/
theorem replaceAll_match (hne : needle ≠ []) (rest : List Char) :
    replaceAll needle new (needle ++ rest) = new ++ replaceAll needle new rest := by
  obtain ⟨c, tail, rfl⟩ := List.exists_cons_of_ne_nil hne
  have hbegins : (c :: tail).isPrefixOf (c :: (tail ++ rest)) = true :=
    List.isPrefixOf_iff_prefix.mpr (List.prefix_append (c :: tail) rest)
  show replaceFrom _ _ 0 (c :: (tail ++ rest)) = _
  rw [replaceFrom, if_pos hbegins, List.length_cons, Nat.add_sub_cancel, replaceFrom_skip]

/-- Where no occurrence begins, one character is kept. -/
theorem replaceAll_pass {c : Char} {rest : List Char} (h : ¬ needle <+: c :: rest) :
    replaceAll needle new (c :: rest) = c :: replaceAll needle new rest := by
  unfold replaceAll
  rw [replaceFrom, if_neg fun hbegins => h (List.isPrefixOf_iff_prefix.mp hbegins)]

end

end Text

namespace Json

open Text (replaceAll replaceAll_match replaceAll_pass)

/-- The word as a string without escapes. -/
def quote (word : List Char) : List Char := '"' :: (word ++ ['"'])

/-- A word that neither has escapes nor begins like what follows a string. -/
structure IsBareWord (word : List Char) : Prop where
  plain : ∀ c ∈ word, IsPlain c
  start : ∃ c rest, word = c :: rest ∧ isBlank c = false ∧ c ∉ [',', ':', ']', '\x7d']

/-- What follows a string: the word does not begin here. -/
def Follows (word rest : List Char) : Prop := ¬ word ++ ['"'] <+: rest

section
variable {word new : List Char}

/-! ## Where the word can be -/

theorem quote_prefix_iff {c : Char} {rest : List Char} :
    quote word <+: c :: rest ↔ c = '"' ∧ word ++ ['"'] <+: rest := by
  unfold quote
  rw [List.cons_prefix_cons, eq_comm]

theorem pass_other {c : Char} (rest : List Char) (hc : c ≠ '"') :
    replaceAll (quote word) new (c :: rest) = c :: replaceAll (quote word) new rest :=
  replaceAll_pass fun h => hc (quote_prefix_iff.mp h).1

/-- A stretch without quotes is kept as it is. -/
theorem pass_others {cs : List Char} (hcs : ∀ c ∈ cs, c ≠ '"') (rest : List Char) :
    replaceAll (quote word) new (cs ++ rest) = cs ++ replaceAll (quote word) new rest := by
  induction cs with
  | nil => rfl
  | cons c cs ih =>
    rw [List.cons_append, pass_other _ (hcs c List.mem_cons_self),
      ih fun other hother => hcs other (List.mem_cons_of_mem _ hother), List.cons_append]

theorem not_blank_quote {c : Char} (h : isBlank c = true) : c ≠ '"' := by
  rintro rfl
  cases h

theorem pass_blanks {ws : List Char} (hws : IsBlanks ws) (rest : List Char) :
    replaceAll (quote word) new (ws ++ rest) = ws ++ replaceAll (quote word) new rest :=
  pass_others (fun c hc => not_blank_quote (hws c hc)) rest

theorem follows_nil : Follows word [] := by
  intro h
  have hlength := h.length_le
  simp at hlength

/-- After a string comes a mark with blanks before it, and the word begins like neither. -/
theorem follows_mark (hword : IsBareWord word) {ws rest : List Char} {mark : Char}
    (hws : IsBlanks ws) (hmark : mark ∈ [',', ':', ']', '\x7d']) :
    Follows word (ws ++ mark :: rest) := by
  obtain ⟨c, tail, rfl, hblank, hother⟩ := hword.start
  intro h
  cases ws with
  | nil =>
    obtain ⟨rfl, -⟩ := List.cons_prefix_cons.mp h
    exact hother hmark
  | cons blank ws =>
    obtain ⟨rfl, -⟩ := List.cons_prefix_cons.mp h
    rw [hws c List.mem_cons_self] at hblank
    cases hblank

/-- The word and a quote begin a string only if they are all of it. -/
theorem IsStringBody.eq_word {cs rest : List Char} {us : List Nat} (h : IsStringBody cs us)
    (hplain : ∀ c ∈ word, IsPlain c) (hbegins : word ++ ['"'] <+: cs ++ rest) :
    cs = word ++ ['"'] := by
  -- The two are compared character by character, and no character of the word is a quote
  -- or a backslash.
  induction word generalizing cs us with
  | nil =>
    cases h with
    | close => rfl
    | plain hc _ =>
      obtain ⟨heq, -⟩ := List.cons_prefix_cons.mp hbegins
      exact absurd heq.symm hc.2.1
    | escape _ _ =>
      obtain ⟨heq, -⟩ := List.cons_prefix_cons.mp hbegins
      exact absurd heq (by decide)
    | unicode _ _ =>
      obtain ⟨heq, -⟩ := List.cons_prefix_cons.mp hbegins
      exact absurd heq (by decide)
  | cons w word ih =>
    have hw := hplain w List.mem_cons_self
    cases h with
    | close =>
      obtain ⟨heq, -⟩ := List.cons_prefix_cons.mp hbegins
      exact absurd heq hw.2.1
    | plain _ hbody =>
      obtain ⟨rfl, htail⟩ := List.cons_prefix_cons.mp hbegins
      rw [ih hbody (fun c hc => hplain c (List.mem_cons_of_mem _ hc)) htail, List.cons_append]
    | escape _ _ =>
      obtain ⟨heq, -⟩ := List.cons_prefix_cons.mp hbegins
      exact absurd heq hw.2.2
    | unicode _ _ =>
      obtain ⟨heq, -⟩ := List.cons_prefix_cons.mp hbegins
      exact absurd heq hw.2.2

/-! ## Strings stay strings -/

/-- The new word is the body of a string. -/
theorem isStringBody_plain (h : ∀ c ∈ new, IsPlain c) :
    IsStringBody (new ++ ['"']) (new.map Char.toNat) := by
  induction new with
  | nil => exact .close
  | cons c new ih =>
    exact .plain (h c List.mem_cons_self) (ih fun other hother => h other (List.mem_cons_of_mem _ hother))

theorem hexDigit_ne_quote {c : Char} {n : Nat} (h : hexDigit c = some n) : c ≠ '"' := by
  rintro rfl
  cases h

/-- The body of a string stays the body of some string. -/
theorem replace_stringBody (hword : IsBareWord word) (hnew : ∀ c ∈ new, IsPlain c)
    {cs rest : List Char} {us : List Nat} (h : IsStringBody cs us) (hrest : Follows word rest) :
    ∃ cs' us', IsStringBody cs' us'
      ∧ replaceAll (quote word) (quote new) (cs ++ rest)
        = cs' ++ replaceAll (quote word) (quote new) rest := by
  induction h with
  | close =>
    refine ⟨['"'], [], .close, ?_⟩
    exact replaceAll_pass fun hbegins => hrest (quote_prefix_iff.mp hbegins).2
  | @plain c cs us hc _ ih =>
    obtain ⟨cs', us', hbody, heq⟩ := ih
    refine ⟨c :: cs', c.toNat :: us', .plain hc hbody, ?_⟩
    rw [List.cons_append, pass_other _ hc.2.1, heq, List.cons_append]
  | @escape c u cs us hunit hbody ih =>
    rw [List.cons_append, List.cons_append, pass_other _ (by decide)]
    by_cases hmatch : quote word <+: c :: (cs ++ rest)
    · -- The quote is escaped, and the word ends the string.
      obtain ⟨rfl, hbegins⟩ := quote_prefix_iff.mp hmatch
      have hcs := hbody.eq_word hword.plain hbegins
      have heq := @replaceAll_match (quote word) (quote new) (List.cons_ne_nil _ _) rest
      refine ⟨'\\' :: quote new, _, .escape hunit (isStringBody_plain hnew), ?_⟩
      rw [hcs]
      show '\\' :: replaceAll _ _ (quote word ++ rest) = _
      rw [heq, List.cons_append]
    · obtain ⟨cs', us', hbody', heq⟩ := ih
      refine ⟨'\\' :: c :: cs', u :: us', .escape hunit hbody', ?_⟩
      rw [replaceAll_pass hmatch, heq, List.cons_append, List.cons_append]
  | @unicode a b c d u cs us hhex _ ih =>
    -- Four hexadecimal digits hold no quote, so the escape is passed as a whole.
    obtain ⟨cs', us', hbody, heq⟩ := ih
    have hhex' := hhex
    unfold hexValue at hhex'
    obtain ⟨_, ha, hhex'⟩ := Option.bind_eq_some_iff.mp hhex'
    obtain ⟨_, hb, hhex'⟩ := Option.bind_eq_some_iff.mp hhex'
    obtain ⟨_, hc, hhex'⟩ := Option.bind_eq_some_iff.mp hhex'
    obtain ⟨_, hd, -⟩ := Option.bind_eq_some_iff.mp hhex'
    refine ⟨'\\' :: 'u' :: a :: b :: c :: d :: cs', u :: us', .unicode hhex hbody, ?_⟩
    simp only [List.cons_append]
    rw [pass_other _ (by decide), pass_other _ (by decide), pass_other _ (hexDigit_ne_quote ha),
      pass_other _ (hexDigit_ne_quote hb), pass_other _ (hexDigit_ne_quote hc),
      pass_other _ (hexDigit_ne_quote hd), heq]

/-- A string stays a string: the word itself becomes the new word, and any other string
    can change only behind an escaped quote. -/
theorem replace_string (hword : IsBareWord word) (hnew : ∀ c ∈ new, IsPlain c)
    {cs rest : List Char} {s : String} (h : IsString cs s) (hrest : Follows word rest) :
    ∃ cs' s', IsString cs' s'
      ∧ replaceAll (quote word) (quote new) (cs ++ rest)
        = cs' ++ replaceAll (quote word) (quote new) rest := by
  cases h with
  | @quoted cs us hbody =>
    by_cases hmatch : quote word <+: '"' :: (cs ++ rest)
    · have hcs := hbody.eq_word hword.plain (quote_prefix_iff.mp hmatch).2
      refine ⟨quote new, _, .quoted (isStringBody_plain hnew), ?_⟩
      rw [hcs]
      exact replaceAll_match (List.cons_ne_nil _ _) rest
    · obtain ⟨cs', us', hbody', heq⟩ := replace_stringBody hword hnew hbody hrest
      refine ⟨'"' :: cs', _, .quoted hbody', ?_⟩
      rw [List.cons_append, replaceAll_pass hmatch, heq, List.cons_append]

/-! ## Values stay values -/

theorem number_ne_quote {n : NumberText} {c : Char} (h : c ∈ n.chars) : c ≠ '"' := by
  rintro rfl
  rcases isNumberChar_of_mem h with hdigit | hmark
  · cases hdigit
  · exact absurd hmark (by decide)

theorem IsPart.exists_array {p : Part} {cs : List Char} {v : Json} (h : IsPart p cs v)
    (hp : p = .elements) : ∃ items, v = .array items := by
  cases h with
  | lastElement _ _ _ => exact ⟨_, rfl⟩
  | nextElement _ _ _ _ => exact ⟨_, rfl⟩
  | _ => cases hp

theorem IsPart.exists_object {p : Part} {cs : List Char} {v : Json} (h : IsPart p cs v)
    (hp : p = .members) : ∃ members, v = .object members := by
  cases h with
  | lastMember _ _ _ _ _ _ => exact ⟨_, rfl⟩
  | nextMember _ _ _ _ _ _ _ => exact ⟨_, rfl⟩
  | _ => cases hp

/-- The part after the word is replaced, which nests as deep as before. -/
def Replaced (word new : List Char) (p : Part) (v : Json) (cs rest : List Char) : Prop :=
  ∃ cs' v', IsPart p cs' v' ∧ v'.nesting = v.nesting
    ∧ replaceAll (quote word) (quote new) (cs ++ rest)
      = cs' ++ replaceAll (quote word) (quote new) rest

theorem replaced_of_unquoted {p : Part} {cs rest : List Char} {v : Json} (h : IsPart p cs v)
    (hcs : ∀ c ∈ cs, c ≠ '"') : Replaced word new p v cs rest :=
  ⟨cs, v, h, rfl, pass_others hcs rest⟩

theorem unquoted_of_all {cs : List Char} (h : (cs.all fun c => decide (c ≠ '"')) = true) :
    ∀ c ∈ cs, c ≠ '"' := fun c hc => of_decide_eq_true (List.all_eq_true.mp h c hc)

/-- A part of the grammar, after the word is replaced, is a part of the grammar. -/
theorem replace_part (hword : IsBareWord word) (hnew : ∀ c ∈ new, IsPlain c) {p : Part}
    {cs rest : List Char} {v : Json} (h : IsPart p cs v) (hrest : Follows word rest) :
    Replaced word new p v cs rest := by
  induction h generalizing rest with
  | nullLiteral => exact replaced_of_unquoted .nullLiteral (unquoted_of_all (by decide))
  | trueLiteral => exact replaced_of_unquoted .trueLiteral (unquoted_of_all (by decide))
  | falseLiteral => exact replaced_of_unquoted .falseLiteral (unquoted_of_all (by decide))
  | number n => exact replaced_of_unquoted (.number n) fun c hc => number_ne_quote hc
  | string hstring =>
    obtain ⟨cs', s', hstring', heq⟩ := replace_string hword hnew hstring hrest
    exact ⟨cs', .string s', .string hstring', by rw [nesting_string, nesting_string], heq⟩
  | @emptyArray ws hws =>
    refine replaced_of_unquoted (.emptyArray hws) ?_
    intro c hc
    simp only [List.mem_cons, List.mem_append, List.not_mem_nil, or_false] at hc
    rcases hc with rfl | hc | rfl
    · decide
    · exact not_blank_quote (hws c hc)
    · decide
  | @emptyObject ws hws =>
    refine replaced_of_unquoted (.emptyObject hws) ?_
    intro c hc
    simp only [List.mem_cons, List.mem_append, List.not_mem_nil, or_false] at hc
    rcases hc with rfl | hc | rfl
    · decide
    · exact not_blank_quote (hws c hc)
    · decide
  | array _ ih =>
    obtain ⟨cs', v', hpart, hnesting, heq⟩ := ih hrest
    refine ⟨'[' :: cs', v', .array hpart, hnesting, ?_⟩
    rw [List.cons_append, pass_other _ (by decide), heq, List.cons_append]
  | object _ ih =>
    obtain ⟨cs', v', hpart, hnesting, heq⟩ := ih hrest
    refine ⟨'\x7b' :: cs', v', .object hpart, hnesting, ?_⟩
    rw [List.cons_append, pass_other _ (by decide), heq, List.cons_append]
  | @lastElement ws ws' cs v hws _ hws' ih =>
    -- What follows the element is blanks and a bracket, so the word does not begin there.
    obtain ⟨cs', v', hpart, hnesting, heq⟩ := @ih (ws' ++ ']' :: rest)
      (follows_mark hword hws' (by simp))
    refine ⟨_, .array [v'], .lastElement hws hpart hws', ?_, ?_⟩
    · simp [hnesting]
    · simp only [List.append_assoc, List.cons_append, List.nil_append]
      rw [pass_blanks hws, heq, pass_blanks hws', pass_other _ (by decide)]
  | @nextElement ws ws' cs more v vs hws _ hws' hmore ih ihmore =>
    obtain ⟨cs', v', hpart, hnesting, heq⟩ := @ih (ws' ++ ',' :: (more ++ rest))
      (follows_mark hword hws' (by simp))
    obtain ⟨more', vs', hpart', hnesting', heq'⟩ := ihmore hrest
    obtain ⟨items, rfl⟩ := hpart'.exists_array rfl
    rw [nesting_array, nesting_array] at hnesting'
    refine ⟨_, .array (v' :: items), .nextElement hws hpart hws' hpart', ?_, ?_⟩
    · rw [nesting_array, nesting_array, nestingItems_cons, nestingItems_cons, hnesting]
      omega
    · simp only [List.append_assoc, List.cons_append]
      rw [pass_blanks hws, heq, pass_blanks hws', pass_other _ (by decide), heq']
  | @lastMember ws₁ ws₂ ws₃ ws₄ name cs k v hws₁ hname hws₂ hws₃ _ hws₄ ih =>
    obtain ⟨name', k', hname', heqname⟩ := @replace_string _ _ hword hnew _
      (ws₂ ++ ':' :: (ws₃ ++ (cs ++ (ws₄ ++ '\x7d' :: rest)))) _ hname
      (follows_mark hword hws₂ (by simp))
    obtain ⟨cs', v', hpart, hnesting, heq⟩ := @ih (ws₄ ++ '\x7d' :: rest)
      (follows_mark hword hws₄ (by simp))
    refine ⟨_, .object [(k', v')], .lastMember hws₁ hname' hws₂ hws₃ hpart hws₄, ?_, ?_⟩
    · simp [hnesting]
    · simp only [List.append_assoc, List.cons_append, List.nil_append]
      rw [pass_blanks hws₁, heqname, pass_blanks hws₂, pass_other _ (by decide), pass_blanks hws₃,
        heq, pass_blanks hws₄, pass_other _ (by decide)]
  | @nextMember ws₁ ws₂ ws₃ ws₄ name cs more k v ms hws₁ hname hws₂ hws₃ _ hws₄ hmore ih ihmore =>
    obtain ⟨name', k', hname', heqname⟩ := @replace_string _ _ hword hnew _
      (ws₂ ++ ':' :: (ws₃ ++ (cs ++ (ws₄ ++ ',' :: (more ++ rest))))) _ hname
      (follows_mark hword hws₂ (by simp))
    obtain ⟨cs', v', hpart, hnesting, heq⟩ := @ih (ws₄ ++ ',' :: (more ++ rest))
      (follows_mark hword hws₄ (by simp))
    obtain ⟨more', vs', hpart', hnesting', heq'⟩ := ihmore hrest
    obtain ⟨members, rfl⟩ := hpart'.exists_object rfl
    rw [nesting_object, nesting_object] at hnesting'
    refine ⟨_, .object ((k', v') :: members),
      .nextMember hws₁ hname' hws₂ hws₃ hpart hws₄ hpart', ?_, ?_⟩
    · rw [nesting_object, nesting_object, nestingMembers_cons, nestingMembers_cons, hnesting]
      omega
    · simp only [List.append_assoc, List.cons_append]
      rw [pass_blanks hws₁, heqname, pass_blanks hws₂, pass_other _ (by decide), pass_blanks hws₃,
        heq, pass_blanks hws₄, pass_other _ (by decide), heq']

/-- A value is a value after the word is replaced. -/
theorem replace_value (hword : IsBareWord word) (hnew : ∀ c ∈ new, IsPlain c) {cs : List Char}
    {v : Json} (h : IsPart .value cs v) :
    ∃ v', IsPart .value (replaceAll (quote word) (quote new) cs) v' ∧ v'.nesting = v.nesting := by
  obtain ⟨cs', v', hpart, hnesting, heq⟩ := @replace_part _ _ hword hnew _ _ [] _ h follows_nil
  have hnil : replaceAll (quote word) (quote new) [] = [] := rfl
  rw [List.append_nil, hnil, List.append_nil] at heq
  rw [heq]
  exact ⟨v', hpart, hnesting⟩

end

end Json
