import Freezeit.Lib.Json
import Mathlib.Tactic.Ring

/-! # Writing JSON

    Texts without blanks: numbers in decimal, elements and members between
    commas.  Each is a text of the grammar. -/

namespace Json

/-! ## Numbers -/

theorem digitsValue_toDigits (n : Nat) : digitsValue (Nat.toDigits 10 n) = n :=
  Text.foldl_toDigits n

/-- Only zero is written with a leading zero. -/
theorem head_toDigits (n : Nat) (h : (Nat.toDigits 10 n).head? = some '0') :
    Nat.toDigits 10 n = ['0'] := by
  induction n using Nat.strongRecOn with
  | ind n ih =>
    rw [Nat.toDigits_eq_if (by omega)] at h ⊢
    split at h
    · next hlt =>
      rw [if_pos hlt]
      rw [List.head?_cons, Option.some.injEq] at h
      rw [h]
    · next hge =>
      exfalso
      obtain ⟨c, cs, hcs⟩ := List.exists_cons_of_ne_nil (Nat.toDigits_ne_nil (n := n / 10) (b := 10))
      have hhead : (Nat.toDigits 10 (n / 10)).head? = some '0' := by
        rw [hcs] at h ⊢
        exact h
      have hzero := ih (n / 10) (by omega) hhead
      have hvalue := digitsValue_toDigits (n / 10)
      rw [hzero] at hvalue
      have hvalue : 0 = n / 10 := hvalue
      omega

theorem isDigits_toDigits (n : Nat) : IsDigits (Nat.toDigits 10 n) :=
  ⟨Nat.toDigits_ne_nil, fun _ => Text.isDigit_of_mem_toDigits⟩

/-- An integer in decimal. -/
def NumberText.ofInt (z : Int) : NumberText where
  negative := z < 0
  integer := Nat.toDigits 10 z.natAbs
  fraction := none
  exponent := none
  integer_ok := ⟨isDigits_toDigits _, head_toDigits _⟩
  fraction_ok := nofun

theorem NumberText.chars_ofInt (z : Int) : (NumberText.ofInt z).chars = (toString z).toList := by
  rw [Text.toList_toString_int]
  by_cases hneg : z < 0
  · simp [NumberText.chars, NumberText.ofInt, NumberText.fractionChars, NumberText.exponentChars,
      hneg]
  · simp [NumberText.chars, NumberText.ofInt, NumberText.fractionChars, NumberText.exponentChars,
      hneg]

theorem NumberText.value_ofInt (z : Int) : (NumberText.ofInt z).value = (z : ℚ) := by
  have hmagnitude : (digitsValue (Nat.toDigits 10 z.natAbs ++ []) : ℚ)
      * 10 ^ ((0 : Int) - (([] : List Char).length : Int)) = (z.natAbs : ℚ) := by
    rw [List.append_nil, digitsValue_toDigits]
    simp
  show numberValue (decide (z < 0)) (Nat.toDigits 10 z.natAbs) [] 0 = _
  unfold numberValue
  dsimp only
  rw [hmagnitude, Nat.cast_natAbs]
  by_cases hneg : z < 0
  · rw [if_pos (by simpa using hneg), abs_of_neg hneg]
    push_cast
    ring
  · rw [if_neg (by simpa using hneg), abs_of_nonneg (by omega)]

/-- An integer is written as itself. -/
theorem isPart_int (z : Int) : IsPart .value (toString z).toList (.number z) := by
  have hnumber := IsPart.number (NumberText.ofInt z)
  rw [NumberText.chars_ofInt, NumberText.value_ofInt] at hnumber
  exact hnumber

theorem isPart_nat (n : Nat) : IsPart .value (toString n).toList (.number n) := isPart_int (n : Int)

/-! ## Strings -/

/-- Code units that are characters spell these characters. -/
theorem spell_toNat (cs : List Char) : spell (cs.map Char.toNat) = cs := by
  have hsurrogate : ∀ c : Char, (isHighSurrogate c.toNat || isLowSurrogate c.toNat) = false := by
    intro c
    have hvalid : c.toNat < 0xd800 ∨ (0xdfff < c.toNat ∧ c.toNat < 0x110000) := c.valid
    simp only [isHighSurrogate, isLowSurrogate, Bool.or_eq_false_iff, Bool.and_eq_false_imp,
      decide_eq_true_eq, decide_eq_false_iff_not]
    omega
  induction cs with
  | nil => rfl
  | cons c cs ih =>
    have hc := hsurrogate c
    have hhigh : isHighSurrogate c.toNat = false := (Bool.or_eq_false_iff.mp hc).1
    cases cs with
    | nil =>
      show [if isHighSurrogate c.toNat || isLowSurrogate c.toNat then _ else Char.ofNat c.toNat] = _
      rw [hc, if_neg Bool.false_ne_true, Char.ofNat_toNat]
    | cons d ds =>
      rw [List.map_cons, List.map_cons, spell, hhigh, Bool.false_and, if_neg Bool.false_ne_true,
        Bool.false_or, (Bool.or_eq_false_iff.mp hc).2, if_neg Bool.false_ne_true,
        Char.ofNat_toNat, ← List.map_cons, ih]

/-! ## Arrays and objects -/

theorem isBlanks_nil : IsBlanks [] := nofun

section
variable {α : Type} {chars : α → List Char} {value : α → Json}

theorem isPart_elements (h : ∀ a, IsPart .value (chars a) (value a)) {as : List α} (hne : as ≠ []) :
    IsPart .elements ([','].intercalate (as.map chars) ++ [']']) (.array (as.map value)) := by
  induction as with
  | nil => exact absurd rfl hne
  | cons a rest ih =>
    cases rest with
    | nil =>
      have hlast := IsPart.lastElement isBlanks_nil (h a) isBlanks_nil
      rw [List.map_singleton, List.intercalate_singleton]
      exact hlast
    | cons next rest =>
      have hrest := ih (by simp)
      rw [List.map_cons, List.map_cons, List.intercalate_cons_cons, List.append_assoc,
        List.append_assoc, ← List.map_cons]
      exact .nextElement isBlanks_nil (h a) isBlanks_nil hrest

theorem isPart_array (h : ∀ a, IsPart .value (chars a) (value a)) (as : List α) :
    IsPart .value ('[' :: ([','].intercalate (as.map chars) ++ [']'])) (.array (as.map value)) := by
  cases as with
  | nil => exact .emptyArray isBlanks_nil
  | cons a rest => exact .array (isPart_elements h (by simp))

end

/-- A member as it is written and as it is read. -/
structure Member where
  name  : List Char
  key   : String
  chars : List Char
  value : Json
  name_ok  : IsString name key
  value_ok : IsPart .value chars value

def Member.text (m : Member) : List Char := m.name ++ ':' :: m.chars

theorem isPart_members {ms : List Member} (hne : ms ≠ []) :
    IsPart .members ([','].intercalate (ms.map Member.text) ++ ['\x7d'])
      (.object (ms.map fun m => (m.key, m.value))) := by
  induction ms with
  | nil => exact absurd rfl hne
  | cons m rest ih =>
    cases rest with
    | nil =>
      have hlast := IsPart.lastMember isBlanks_nil m.name_ok isBlanks_nil isBlanks_nil m.value_ok
        isBlanks_nil
      rw [List.map_singleton, List.intercalate_singleton, Member.text, List.append_assoc]
      exact hlast
    | cons next rest =>
      have hnext := IsPart.nextMember isBlanks_nil m.name_ok isBlanks_nil isBlanks_nil m.value_ok
        isBlanks_nil (ih (by simp))
      rw [List.map_cons, List.map_cons, List.intercalate_cons_cons, List.append_assoc,
        List.append_assoc, ← List.map_cons, Member.text, List.append_assoc]
      exact hnext

theorem isPart_object {ms : List Member} (hne : ms ≠ []) :
    IsPart .value ('\x7b' :: ([','].intercalate (ms.map Member.text) ++ ['\x7d']))
      (.object (ms.map fun m => (m.key, m.value))) := .object (isPart_members hne)

/-! ## Taking values apart -/

def nat? : Json → Option Nat
  | .number q => if q.den = 1 ∧ 0 ≤ q.num then some q.num.toNat else none
  | _         => none

def int? : Json → Option Int
  | .number q => if q.den = 1 then some q.num else none
  | _         => none

def string? : Json → Option String
  | .string s => some s
  | _         => none

def array? : Json → Option (List Json)
  | .array items => some items
  | _            => none

/-- The value of the last member of that name. -/
def field (name : String) : Json → Option Json
  | .object members => (members.reverse.find? fun m => m.1 = name).map Prod.snd
  | _               => none

@[simp] theorem nat?_natCast (n : Nat) : nat? (.number n) = some n := by
  simp [nat?]

@[simp] theorem int?_intCast (z : Int) : int? (.number z) = some z := by
  simp [int?]

end Json
