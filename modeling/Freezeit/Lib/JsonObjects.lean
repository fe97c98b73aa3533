import Freezeit.Lib.JsonMembers

/-! # Objects that are written by hand

    A program that writes JSON puts the names between quotes and the values
    after them.  The text is an object of the grammar when the names need no
    escape and every value is a text of its own. -/

namespace Json

/-- A field as it is written, and the value it stands for. -/
structure Field where
  key   : String
  text  : String
  value : Json
  key_ok   : ∀ c ∈ key.toList, IsPlain c
  value_ok : IsPart .value text.toList value

def Field.written (f : Field) : String × String := (f.key, f.text)

def Field.member (f : Field) : Member where
  name     := '"' :: (f.key.toList ++ ['"'])
  key      := f.key
  chars    := f.text.toList
  value    := f.value
  name_ok  := isString_plain f.key_ok
  value_ok := f.value_ok

/-- The text of an object. -/
def objectText (fields : List (String × String)) : String :=
  "\x7b" ++ ",".intercalate (fields.map fun (name, value) => "\"" ++ name ++ "\":" ++ value) ++ "\x7d"

theorem toList_quoted (s : String) : ("\"" ++ s ++ "\"").toList = '"' :: (s.toList ++ ['"']) := by
  rw [String.toList_append, String.toList_append]
  rfl

/-- The text that is put together is a brace, the members between commas, and a brace. -/
theorem toList_objectText (fields : List Field) :
    (objectText (fields.map Field.written)).toList
      = '\x7b' :: ([','].intercalate (fields.map fun f => f.member.text) ++ ['\x7d']) := by
  have hfield : ∀ f : Field, ("\"" ++ f.key ++ "\":" ++ f.text).toList = f.member.text := by
    intro f
    rw [String.toList_append, String.toList_append, String.toList_append]
    unfold Member.text Field.member
    simp
  have hcomma : ",".toList = [','] := by rfl
  unfold objectText
  rw [String.toList_append, String.toList_append, String.toList_intercalate, hcomma, List.map_map,
    List.map_map]
  have hmap : List.map ((String.toList ∘ fun (name, value) => "\"" ++ name ++ "\":" ++ value)
      ∘ Field.written) fields = fields.map fun f => f.member.text :=
    List.map_congr_left fun f _ => hfield f
  rw [hmap]
  rfl

/-- Members between commas are members of the grammar without blanks. -/
theorem isMembers_intercalate {ms : List Member} (hne : ms ≠ []) :
    IsMembers ([','].intercalate (ms.map Member.text) ++ ['\x7d']) ms := by
  induction ms with
  | nil => exact absurd rfl hne
  | cons m rest ih =>
    cases rest with
    | nil =>
      have hlast := IsMembers.last m isBlanks_nil isBlanks_nil isBlanks_nil isBlanks_nil
      rw [List.map_singleton, List.intercalate_singleton, Member.text, List.append_assoc]
      exact hlast
    | cons next rest =>
      have hnext := IsMembers.next m isBlanks_nil isBlanks_nil isBlanks_nil isBlanks_nil (ih (by simp))
      rw [List.map_cons, List.map_cons, List.intercalate_cons_cons, List.append_assoc,
        List.append_assoc, ← List.map_cons, Member.text, List.append_assoc]
      exact hnext

/-- So the text is that of an object with these members. -/
theorem isObjectText_objectText {fields : List Field} (hne : fields ≠ []) :
    IsObjectText (objectText (fields.map Field.written)).toList (fields.map Field.member) := by
  have hmembers : IsMembers ([','].intercalate (fields.map fun f => f.member.text) ++ ['\x7d'])
      (fields.map Field.member) := by
    have hms := @isMembers_intercalate (fields.map Field.member) (by simpa using hne)
    rwa [List.map_map] at hms
  have htext := IsObjectText.members isBlanks_nil hmembers isBlanks_nil
  rw [toList_objectText]
  rwa [List.nil_append, List.append_nil] at htext

/-- The object that the fields make up. -/
def objectValue (fields : List Field) : Json := .object (fields.map fun f => (f.key, f.value))

/-- Seen as a value, it is the object of the fields. -/
theorem isPart_objectText {fields : List Field} (hne : fields ≠ []) :
    IsPart .value (objectText (fields.map Field.written)).toList (objectValue fields) := by
  have hobject := @isPart_object (fields.map Field.member) (by simpa using hne)
  rw [List.map_map, List.map_map] at hobject
  rw [toList_objectText]
  exact hobject

/-- Values between commas and brackets are an array. -/
theorem isPart_arrayText {α : Type} {text : α → String} {value : α → Json}
    (h : ∀ a, IsPart .value (text a).toList (value a)) (as : List α) :
    IsPart .value ("[" ++ ",".intercalate (as.map text) ++ "]").toList (.array (as.map value)) := by
  have hcomma : ",".toList = [','] := by rfl
  rw [String.toList_append, String.toList_append, String.toList_intercalate, hcomma, List.map_map]
  exact isPart_array h as

theorem isPart_bool (b : Bool) : IsPart .value (toString b).toList (.bool b) := by
  cases b with
  | false => exact .falseLiteral
  | true => exact .trueLiteral

theorem isPart_plain {s : String} (h : ∀ c ∈ s.toList, IsPlain c) :
    IsPart .value ("\"" ++ s ++ "\"").toList (.string s) := by
  rw [toList_quoted]
  exact .string (isString_plain h)

theorem nestingItems_le {n : Nat} {items : List Json} (h : ∀ v ∈ items, nesting v ≤ n) :
    nestingItems items ≤ n := by
  induction items with
  | nil => rw [nestingItems]; exact Nat.zero_le n
  | cons v items ih =>
    rw [nestingItems_cons]
    exact Nat.max_le.mpr ⟨h _ List.mem_cons_self, ih fun other hother => h other (List.mem_cons_of_mem _ hother)⟩

end Json
