import Freezeit.Lib.Text
import Mathlib.Algebra.Order.Ring.Rat

/-! # JSON texts

    The grammar of RFC 8259 with the value that each text stands for.  A text is
    a list of characters; a number stands for a rational, a string for the
    characters that its UTF-16 code units spell. -/

/-- The values that a text can stand for. An object keeps its members in order, and keeps
    those with the same name. -/
inductive Json where
  | null
  | bool (value : Bool)
  | number (value : ℚ)
  | string (value : String)
  | array (items : List Json)
  | object (members : List (String × Json))

namespace Json

/-! ## Blanks and numbers -/

def isBlank (c : Char) : Bool := c = ' ' || c = '\n' || c = '\r' || c = '\t'

def IsBlanks (cs : List Char) : Prop := ∀ c ∈ cs, isBlank c = true

/-- The value of decimal digits. -/
def digitsValue (digits : List Char) : Nat :=
  digits.foldl (fun n c => n * 10 + (c.toNat - '0'.toNat)) 0

def IsDigits (cs : List Char) : Prop := cs ≠ [] ∧ ∀ c ∈ cs, c.isDigit = true

/-- `e` or `E`, a sign, and digits. -/
structure Exponent where
  letter : Char
  sign   : Option Char
  digits : List Char
  letter_ok : letter = 'e' ∨ letter = 'E'
  sign_ok   : ∀ c ∈ sign, c = '+' ∨ c = '-'
  digits_ok : IsDigits digits

/-- A number as it is written. -/
structure NumberText where
  negative : Bool
  integer  : List Char
  fraction : Option (List Char)
  exponent : Option Exponent
  integer_ok  : IsDigits integer ∧ (integer.head? = some '0' → integer = ['0'])
  fraction_ok : ∀ digits ∈ fraction, IsDigits digits

def Exponent.chars (e : Exponent) : List Char := e.letter :: (e.sign.toList ++ e.digits)

def Exponent.value (e : Exponent) : Int :=
  if e.sign = some '-' then -(digitsValue e.digits : Int) else digitsValue e.digits

namespace NumberText

def fractionChars (n : NumberText) : List Char :=
  match n.fraction with
  | none        => []
  | some digits => '.' :: digits

def exponentChars (n : NumberText) : List Char :=
  match n.exponent with
  | none   => []
  | some e => e.chars

def chars (n : NumberText) : List Char :=
  (if n.negative then ['-'] else []) ++ (n.integer ++ (n.fractionChars ++ n.exponentChars))

end NumberText

/-- The value of a sign, the digits before and after the point, and an exponent. -/
def numberValue (negative : Bool) (integer fraction : List Char) (exponent : Int) : ℚ :=
  let magnitude : ℚ :=
    (digitsValue (integer ++ fraction) : ℚ) * 10 ^ (exponent - (fraction.length : Int))
  if negative then -magnitude else magnitude

def NumberText.value (n : NumberText) : ℚ :=
  numberValue n.negative n.integer (n.fraction.getD [])
    ((n.exponent.map Exponent.value).getD 0)

/-! ## Strings -/

/-- The code unit of a one-letter escape. -/
def escapeUnit (c : Char) : Option Nat :=
  if c = '"' then some 0x22
  else if c = '\\' then some 0x5c
  else if c = '/' then some 0x2f
  else if c = 'b' then some 0x08
  else if c = 'f' then some 0x0c
  else if c = 'n' then some 0x0a
  else if c = 'r' then some 0x0d
  else if c = 't' then some 0x09
  else none

def hexDigit (c : Char) : Option Nat :=
  if '0' ≤ c ∧ c ≤ '9' then some (c.toNat - '0'.toNat)
  else if 'a' ≤ c ∧ c ≤ 'f' then some (c.toNat - 'a'.toNat + 10)
  else if 'A' ≤ c ∧ c ≤ 'F' then some (c.toNat - 'A'.toNat + 10)
  else none

/-- Four hexadecimal digits. -/
def hexValue (a b c d : Char) : Option Nat := do
  let a ← hexDigit a
  let b ← hexDigit b
  let c ← hexDigit c
  let d ← hexDigit d
  return ((a * 16 + b) * 16 + c) * 16 + d

/-- A character that may stand in a string as it is. -/
def IsPlain (c : Char) : Prop := 0x20 ≤ c.toNat ∧ c ≠ '"' ∧ c ≠ '\\'

instance (c : Char) : Decidable (IsPlain c) := inferInstanceAs (Decidable (_ ∧ _ ∧ _))

/-- A string after its opening quote, with its code units. -/
inductive IsStringBody : List Char → List Nat → Prop where
  | close : IsStringBody ['"'] []
  | plain {c cs us} : IsPlain c → IsStringBody cs us → IsStringBody (c :: cs) (c.toNat :: us)
  | escape {c u cs us} : escapeUnit c = some u → IsStringBody cs us →
      IsStringBody ('\\' :: c :: cs) (u :: us)
  | unicode {a b c d u cs us} : hexValue a b c d = some u → IsStringBody cs us →
      IsStringBody ('\\' :: 'u' :: a :: b :: c :: d :: cs) (u :: us)

def isHighSurrogate (u : Nat) : Bool := 0xd800 ≤ u && u < 0xdc00

def isLowSurrogate (u : Nat) : Bool := 0xdc00 ≤ u && u < 0xe000

/-- The characters that code units spell; a lone surrogate is replaced. -/
def spell : List Nat → List Char
  | [] => []
  | [u] => [if isHighSurrogate u || isLowSurrogate u then Char.ofNat 0xfffd else Char.ofNat u]
  | u :: v :: rest =>
    if isHighSurrogate u && isLowSurrogate v then
      Char.ofNat (0x10000 + (u - 0xd800) * 0x400 + (v - 0xdc00)) :: spell rest
    else if isHighSurrogate u || isLowSurrogate u then Char.ofNat 0xfffd :: spell (v :: rest)
    else Char.ofNat u :: spell (v :: rest)

/-- A string with its quotes. -/
inductive IsString : List Char → String → Prop where
  | quoted {cs us} : IsStringBody cs us → IsString ('"' :: cs) (String.ofList (spell us))

/-! ## Values -/

/-- The parts of the grammar that recurse: a value, and what follows the bracket
    of an array or the brace of an object that is not empty. -/
inductive Part where
  | value | elements | members
  deriving DecidableEq, Repr

/-- The grammar, one rule for each way to write a part. The value of a bracketed part is
    built from the inside, so that the rules for elements and members give arrays and objects. -/
inductive IsPart : Part → List Char → Json → Prop where
  | nullLiteral : IsPart .value ['n', 'u', 'l', 'l'] .null
  | trueLiteral : IsPart .value ['t', 'r', 'u', 'e'] (.bool true)
  | falseLiteral : IsPart .value ['f', 'a', 'l', 's', 'e'] (.bool false)
  | number (n : NumberText) : IsPart .value n.chars (.number n.value)
  | string {cs s} : IsString cs s → IsPart .value cs (.string s)
  | emptyArray {ws} : IsBlanks ws → IsPart .value ('[' :: (ws ++ [']'])) (.array [])
  | array {cs v} : IsPart .elements cs v → IsPart .value ('[' :: cs) v
  | emptyObject {ws} : IsBlanks ws → IsPart .value ('\x7b' :: (ws ++ ['\x7d'])) (.object [])
  | object {cs v} : IsPart .members cs v → IsPart .value ('\x7b' :: cs) v
  | lastElement {ws ws' cs v} : IsBlanks ws → IsPart .value cs v → IsBlanks ws' →
      IsPart .elements (ws ++ (cs ++ (ws' ++ [']']))) (.array [v])
  | nextElement {ws ws' cs rest v vs} : IsBlanks ws → IsPart .value cs v → IsBlanks ws' →
      IsPart .elements rest (.array vs) →
      IsPart .elements (ws ++ (cs ++ (ws' ++ ',' :: rest))) (.array (v :: vs))
  | lastMember {ws₁ ws₂ ws₃ ws₄ name cs k v} : IsBlanks ws₁ → IsString name k → IsBlanks ws₂ →
      IsBlanks ws₃ → IsPart .value cs v → IsBlanks ws₄ →
      IsPart .members (ws₁ ++ (name ++ (ws₂ ++ ':' :: (ws₃ ++ (cs ++ (ws₄ ++ ['\x7d']))))))
        (.object [(k, v)])
  | nextMember {ws₁ ws₂ ws₃ ws₄ name cs rest k v ms} : IsBlanks ws₁ → IsString name k →
      IsBlanks ws₂ → IsBlanks ws₃ → IsPart .value cs v → IsBlanks ws₄ →
      IsPart .members rest (.object ms) →
      IsPart .members (ws₁ ++ (name ++ (ws₂ ++ ':' :: (ws₃ ++ (cs ++ (ws₄ ++ ',' :: rest))))))
        (.object ((k, v) :: ms))

/-- A text is a value between blanks. -/
inductive IsText : List Char → Json → Prop where
  | text {ws ws' cs v} : IsBlanks ws → IsPart .value cs v → IsBlanks ws' →
      IsText (ws ++ (cs ++ ws')) v

end Json
