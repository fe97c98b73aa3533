import Freezeit.Lib.JsonReader
import Freezeit.Lib.JsonWriter

/-! # The members of a JSON object

    The texts of the members of an object, how deep a value nests, and strings
    that are written without escapes. -/

namespace Json

/-! ## Nesting -/

mutual

/-- How many arrays and objects a value nests. -/
def nesting : Json → Nat
  | .array items    => nestingItems items + 1
  | .object members => nestingMembers members + 1
  | _               => 0

def nestingItems : List Json → Nat
  | []            => 0
  | item :: items => max (nesting item) (nestingItems items)

def nestingMembers : List (String × Json) → Nat
  | []                     => 0
  | (_, value) :: members => max (nesting value) (nestingMembers members)

end

@[simp] theorem nesting_string (s : String) : nesting (.string s) = 0 := by
  simp [nesting]

@[simp] theorem nesting_array (items : List Json) :
    nesting (.array items) = nestingItems items + 1 := by rw [nesting]

@[simp] theorem nesting_object (members : List (String × Json)) :
    nesting (.object members) = nestingMembers members + 1 := by rw [nesting]

@[simp] theorem nestingItems_cons (item : Json) (items : List Json) :
    nestingItems (item :: items) = max (nesting item) (nestingItems items) := by rw [nestingItems]

@[simp] theorem nestingMembers_cons (key : String) (value : Json) (members : List (String × Json)) :
    nestingMembers ((key, value) :: members) = max (nesting value) (nestingMembers members) := by
  rw [nestingMembers]

/-! ## Members -/

/-- The members of an object after its opening brace. -/
inductive IsMembers : List Char → List Member → Prop where
  | last {ws₁ ws₂ ws₃ ws₄} (m : Member) : IsBlanks ws₁ → IsBlanks ws₂ → IsBlanks ws₃ →
      IsBlanks ws₄ →
      IsMembers (ws₁ ++ (m.name ++ (ws₂ ++ ':' :: (ws₃ ++ (m.chars ++ (ws₄ ++ ['\x7d'])))))) [m]
  | next {ws₁ ws₂ ws₃ ws₄ rest ms} (m : Member) : IsBlanks ws₁ → IsBlanks ws₂ → IsBlanks ws₃ →
      IsBlanks ws₄ → IsMembers rest ms →
      IsMembers (ws₁ ++ (m.name ++ (ws₂ ++ ':' :: (ws₃ ++ (m.chars ++ (ws₄ ++ ',' :: rest))))))
        (m :: ms)

/-- A text that is an object, with its members. -/
inductive IsObjectText : List Char → List Member → Prop where
  | empty {ws ws' ws''} : IsBlanks ws → IsBlanks ws' → IsBlanks ws'' →
      IsObjectText (ws ++ ('\x7b' :: (ws' ++ ['\x7d']) ++ ws'')) []
  | members {ws cs ws' ms} : IsBlanks ws → IsMembers cs ms → IsBlanks ws' →
      IsObjectText (ws ++ ('\x7b' :: cs ++ ws')) ms

/-- The object that the members make up. -/
def objectOf (ms : List Member) : Json := .object (ms.map fun m => (m.key, m.value))

/-- Members make up an object of the grammar. -/
theorem IsMembers.isPart {cs : List Char} {ms : List Member} (h : IsMembers cs ms) :
    IsPart .members cs (objectOf ms) := by
  induction h with
  | last m hws₁ hws₂ hws₃ hws₄ => exact .lastMember hws₁ m.name_ok hws₂ hws₃ m.value_ok hws₄
  | next m hws₁ hws₂ hws₃ hws₄ _ ih =>
    exact .nextMember hws₁ m.name_ok hws₂ hws₃ m.value_ok hws₄ ih

/-- An object of the grammar has members. -/
theorem IsPart.exists_members {p : Part} {cs : List Char} {v : Json} (h : IsPart p cs v)
    (hp : p = .members) : ∃ ms, IsMembers cs ms ∧ v = objectOf ms := by
  induction h with
  | lastMember hws₁ hname hws₂ hws₃ hvalue hws₄ _ =>
    exact ⟨_, .last ⟨_, _, _, _, hname, hvalue⟩ hws₁ hws₂ hws₃ hws₄, rfl⟩
  | nextMember hws₁ hname hws₂ hws₃ hvalue hws₄ _ _ ih =>
    obtain ⟨ms, hms, heq⟩ := ih rfl
    refine ⟨_, .next ⟨_, _, _, _, hname, hvalue⟩ hws₁ hws₂ hws₃ hws₄ hms, ?_⟩
    rw [Json.object.inj heq]
    rfl
  | _ => cases hp

/-- The texts of objects are those of the grammar. -/
theorem isText_object_iff {cs : List Char} {members : List (String × Json)} :
    IsText cs (.object members) ↔ ∃ ms, IsObjectText cs ms ∧ objectOf ms = .object members := by
  constructor
  · intro h
    cases h with
    | text hws hvalue hws' =>
      cases hvalue with
      | array hbody => cases hbody
      | emptyObject hblanks => exact ⟨[], .empty hws hblanks hws', rfl⟩
      | object hbody =>
        obtain ⟨ms, hms, heq⟩ := hbody.exists_members rfl
        exact ⟨ms, .members hws hms hws', heq.symm⟩
  · rintro ⟨ms, htext, heq⟩
    rw [← heq]
    cases htext with
    | empty hws hblanks hws' => exact .text hws (.emptyObject hblanks) hws'
    | members hws hms hws' => exact .text hws (.object hms.isPart) hws'

/-- The last member of that name. -/
def lastMember (name : String) (ms : List Member) : Option Member :=
  ms.reverse.find? fun m => m.key = name

/-- It is one of the members, and it has the name. -/
theorem mem_of_lastMember {name : String} {ms : List Member} {m : Member}
    (h : lastMember name ms = some m) : m ∈ ms ∧ m.key = name := by
  have hname := List.find?_some h
  exact ⟨List.mem_reverse.mp (List.mem_of_find?_eq_some h), of_decide_eq_true hname⟩

/-! ## The characters of a number -/

def IsNumberChar (c : Char) : Prop := c.isDigit = true ∨ c ∈ ['+', '-', '.', 'e', 'E']

/-- A number is written with these characters alone. -/
theorem isNumberChar_of_mem {n : NumberText} {c : Char} (h : c ∈ n.chars) : IsNumberChar c := by
  have hfraction : c ∈ n.fractionChars → IsNumberChar c := by
    unfold NumberText.fractionChars
    cases hpoint : n.fraction with
    | none => exact nofun
    | some digits =>
      intro hmem
      rcases List.mem_cons.mp hmem with rfl | hmem
      · exact .inr (by simp)
      · exact .inl ((n.fraction_ok digits hpoint).2 c hmem)
  have hexponent : c ∈ n.exponentChars → IsNumberChar c := by
    unfold NumberText.exponentChars
    cases n.exponent with
    | none => exact nofun
    | some e =>
      intro hmem
      rcases List.mem_cons.mp hmem with rfl | hmem
      · rcases e.letter_ok with hletter | hletter
        · exact .inr (by simp [hletter])
        · exact .inr (by simp [hletter])
      rcases List.mem_append.mp hmem with hsign | hdigits
      · rcases e.sign_ok c (Option.mem_toList.mp hsign) with rfl | rfl
        · exact .inr (by simp)
        · exact .inr (by simp)
      · exact .inl (e.digits_ok.2 c hdigits)
  unfold NumberText.chars at h
  rcases List.mem_append.mp h with hminus | h
  · split at hminus
    · rw [List.mem_singleton.mp hminus]
      exact .inr (by simp)
    · cases hminus
  rcases List.mem_append.mp h with hinteger | h
  · exact .inl (n.integer_ok.1.2 c hinteger)
  rcases List.mem_append.mp h with h | h
  · exact hfraction h
  · exact hexponent h

/-! ## Strings without escapes -/

theorem IsStringBody.eq_of_plain {cs : List Char} {us : List Nat} (h : IsStringBody cs us)
    (hplain : '\\' ∉ cs) : ∃ chars, cs = chars ++ ['"'] ∧ us = chars.map Char.toNat := by
  induction h with
  | close => exact ⟨[], rfl, rfl⟩
  | @plain c cs us _ _ ih =>
    obtain ⟨chars, rfl, rfl⟩ := ih fun hmem => hplain (List.mem_cons_of_mem _ hmem)
    exact ⟨c :: chars, rfl, rfl⟩
  | escape _ _ _ => exact absurd List.mem_cons_self hplain
  | unicode _ _ _ => exact absurd List.mem_cons_self hplain

/-- A string without escapes is its characters between quotes. -/
theorem IsString.eq_of_plain {cs : List Char} {s : String} (h : IsString cs s)
    (hplain : '\\' ∉ cs) : cs = '"' :: (s.toList ++ ['"']) := by
  cases h with
  | quoted hbody =>
    obtain ⟨chars, rfl, rfl⟩ := hbody.eq_of_plain fun hmem => hplain (List.mem_cons_of_mem _ hmem)
    rw [spell_toNat, String.toList_ofList]

/-- Characters that need no escape are a string when they are put between quotes. -/
theorem isString_plain {s : String} (h : ∀ c ∈ s.toList, IsPlain c) :
    IsString ('"' :: (s.toList ++ ['"'])) s := by
  have hbody : ∀ {chars : List Char}, (∀ c ∈ chars, IsPlain c) →
      IsStringBody (chars ++ ['"']) (chars.map Char.toNat) := by
    intro chars hchars
    induction chars with
    | nil => exact .close
    | cons c chars ih =>
      exact .plain (hchars c List.mem_cons_self) (ih fun c hc => hchars c (List.mem_cons_of_mem _ hc))
  have hquoted := IsString.quoted (hbody h)
  rwa [spell_toNat, String.ofList_toList] at hquoted

/-- Nothing in the text needs an escape. -/
def isPlainText (s : String) : Bool := s.toList.all fun c => decide (IsPlain c)

theorem forall_isPlain {s : String} (h : isPlainText s = true) : ∀ c ∈ s.toList, IsPlain c :=
  fun c hc => of_decide_eq_true (List.all_eq_true.mp h c hc)

/-- A text is not two strings. -/
theorem isString_unique {cs : List Char} {s s' : String} (h : IsString cs s)
    (h' : IsString cs s') : s = s' := by
  have hread := readString_complete h []
  rw [readString_complete h' []] at hread
  exact (congrArg Prod.fst (Option.some.inj hread)).symm

theorem IsPart.isString {cs : List Char} {s : String} (h : IsPart .value cs (.string s)) :
    IsString cs s := by
  cases h with
  | string hstring => exact hstring
  | array hbody => cases hbody
  | object hbody => cases hbody

end Json
