import Mathlib.Data.List.Basic

/-! # UTF-8

    Decoding by structural recursion on the bytes, so that it reduces on
    closed input.  An invalid sequence is reported as its longest prefix that
    could have begun a character. -/

namespace Utf8

def isContinuation (b : UInt8) : Bool := 0x80 ≤ b && b ≤ 0xBF

/-- The bytes that may follow the first byte of a character of three or four bytes. -/
def secondInRange (first second : UInt8) : Bool :=
  if first = 0xE0 then 0xA0 ≤ second && second ≤ 0xBF
  else if first = 0xED then 0x80 ≤ second && second ≤ 0x9F
  else if first = 0xF0 then 0x90 ≤ second && second ≤ 0xBF
  else if first = 0xF4 then 0x80 ≤ second && second ≤ 0x8F
  else isContinuation second

/-- The six bits that a continuation byte carries. -/
def payload (b : UInt8) : Nat := b.toNat % 64

/-- The characters, with `none` for each invalid sequence. -/
def decode : List UInt8 → List (Option Char)
  | [] => []
  | b₀ :: rest₀ =>
    if b₀ < 0x80 then some (.ofNat b₀.toNat) :: decode rest₀
    else if 0xC2 ≤ b₀ && b₀ ≤ 0xDF then
      match rest₀ with
      | [] => [none]
      | b₁ :: rest₁ =>
        if isContinuation b₁ then
          some (.ofNat (b₀.toNat % 32 * 64 + payload b₁)) :: decode rest₁
        else none :: decode (b₁ :: rest₁)
    else if 0xE0 ≤ b₀ && b₀ ≤ 0xEF then
      match rest₀ with
      | [] => [none]
      | b₁ :: rest₁ =>
        if !secondInRange b₀ b₁ then none :: decode (b₁ :: rest₁)
        else
          match rest₁ with
          | [] => [none]
          | b₂ :: rest₂ =>
            if isContinuation b₂ then
              some (.ofNat ((b₀.toNat % 16 * 64 + payload b₁) * 64 + payload b₂)) :: decode rest₂
            else none :: decode (b₂ :: rest₂)
    else if 0xF0 ≤ b₀ && b₀ ≤ 0xF4 then
      match rest₀ with
      | [] => [none]
      | b₁ :: rest₁ =>
        if !secondInRange b₀ b₁ then none :: decode (b₁ :: rest₁)
        else
          match rest₁ with
          | [] => [none]
          | b₂ :: rest₂ =>
            if !isContinuation b₂ then none :: decode (b₂ :: rest₂)
            else
              match rest₂ with
              | [] => [none]
              | b₃ :: rest₃ =>
                if isContinuation b₃ then
                  some (.ofNat (((b₀.toNat % 8 * 64 + payload b₁) * 64 + payload b₂) * 64
                    + payload b₃)) :: decode rest₃
                else none :: decode (b₃ :: rest₃)
    else none :: decode rest₀

/-- The text, when all of it is valid. -/
def decodeStrict (bytes : List UInt8) : Option String :=
  ((decode bytes).mapM fun c => c).map String.ofList

/-- The text with a replacement character for each invalid sequence. -/
def decodeLossy (bytes : List UInt8) : String :=
  String.ofList ((decode bytes).map fun c => c.getD '�')

/-! ## Reading back what was encoded -/

/-- The scalar values: everything but the surrogates. -/
theorem toNat_valid (c : Char) : c.toNat < 0xD800 ∨ 0xDFFF < c.toNat ∧ c.toNat < 0x110000 := c.valid

theorem isContinuation_iff {b : UInt8} : isContinuation b = true ↔ 0x80 ≤ b.toNat ∧ b.toNat ≤ 0xBF := by
  simp [isContinuation, UInt8.le_iff_toNat_le]

theorem secondInRange_iff {first second : UInt8} : secondInRange first second = true ↔
    0x80 ≤ second.toNat ∧ second.toNat ≤ 0xBF ∧ (first.toNat = 0xE0 → 0xA0 ≤ second.toNat)
      ∧ (first.toNat = 0xED → second.toNat ≤ 0x9F) ∧ (first.toNat = 0xF0 → 0x90 ≤ second.toNat)
      ∧ (first.toNat = 0xF4 → second.toNat ≤ 0x8F) := by
  unfold secondInRange
  simp only [← UInt8.toNat_inj, UInt8.le_iff_toNat_le, isContinuation]
  split
  · next h => simp only [Bool.and_eq_true, decide_eq_true_eq, UInt8.reduceToNat] at *; omega
  · split
    · next h => simp only [Bool.and_eq_true, decide_eq_true_eq, UInt8.reduceToNat] at *; omega
    · split
      · next h => simp only [Bool.and_eq_true, decide_eq_true_eq, UInt8.reduceToNat] at *; omega
      · split
        · next h => simp only [Bool.and_eq_true, decide_eq_true_eq, UInt8.reduceToNat] at *; omega
        · simp only [Bool.and_eq_true, decide_eq_true_eq, UInt8.reduceToNat] at *; omega

/-- A character is read back from its bytes. -/
theorem decode_encodeChar (c : Char) (rest : List UInt8) :
    decode (String.utf8EncodeChar c ++ rest) = some c :: decode rest := by
  -- The cases are the lengths of the encoding. In each the first byte shows the length,
  -- the others are continuations, and the parts of the code come together again.
  have hvalid := toNat_valid c
  have hchar := Char.ofNat_toNat c
  have hval : c.val.toNat = c.toNat := rfl
  unfold String.utf8EncodeChar
  dsimp only
  rw [hval]
  generalize c.toNat = n at *
  split
  · next h =>
    rw [List.singleton_append, decode.eq_def]
    dsimp only
    rw [if_pos]
    · rw [show (UInt8.ofNat n).toNat = n by simp; omega, hchar]
    · simp only [UInt8.lt_iff_toNat_lt, UInt8.toNat_ofNat', UInt8.reduceToNat]
      omega
  · split
    · next h =>
      have h₀ : (UInt8.ofNat (n / 64 % 0x20 + 0xc0)).toNat = n / 64 + 0xc0 := by
        simp; omega
      have h₁ : (UInt8.ofNat (n % 0x40 + 0x80)).toNat = n % 64 + 0x80 := by
        simp; omega
      generalize UInt8.ofNat (n / 64 % 0x20 + 0xc0) = b₀ at *
      generalize UInt8.ofNat (n % 0x40 + 0x80) = b₁ at *
      have hcont : isContinuation b₁ = true := by rw [isContinuation_iff]; omega
      simp only [List.cons_append, List.nil_append]
      rw [decode.eq_def]
      dsimp only
      rw [if_neg, if_pos]
      · simp only [hcont, if_true]
        have hcode : b₀.toNat % 32 * 64 + payload b₁ = n := by
          unfold payload
          omega
        rw [hcode, hchar]
      · simp only [Bool.and_eq_true, decide_eq_true_eq, UInt8.le_iff_toNat_le, UInt8.reduceToNat]
        omega
      · simp only [UInt8.lt_iff_toNat_lt, UInt8.reduceToNat]
        omega
    · split
      · next h =>
        have h₀ : (UInt8.ofNat (n / 4096 % 0x10 + 0xe0)).toNat = n / 4096 + 0xe0 := by
          simp; omega
        have h₁ : (UInt8.ofNat (n / 64 % 0x40 + 0x80)).toNat = n / 64 % 64 + 0x80 := by
          simp; omega
        have h₂ : (UInt8.ofNat (n % 0x40 + 0x80)).toNat = n % 64 + 0x80 := by
          simp; omega
        generalize UInt8.ofNat (n / 4096 % 0x10 + 0xe0) = b₀ at *
        generalize UInt8.ofNat (n / 64 % 0x40 + 0x80) = b₁ at *
        generalize UInt8.ofNat (n % 0x40 + 0x80) = b₂ at *
        -- The second byte is in range because the character is no surrogate.
        have hsecond : secondInRange b₀ b₁ = true := by rw [secondInRange_iff]; omega
        have hcont : isContinuation b₂ = true := by rw [isContinuation_iff]; omega
        simp only [List.cons_append, List.nil_append]
        rw [decode.eq_def]
        dsimp only
        rw [if_neg, if_neg, if_pos]
        · simp only [hsecond, hcont, Bool.not_true, Bool.false_eq_true, if_false, if_true]
          have hcode : (b₀.toNat % 16 * 64 + payload b₁) * 64 + payload b₂ = n := by
            unfold payload
            omega
          rw [hcode, hchar]
        · simp only [Bool.and_eq_true, decide_eq_true_eq, UInt8.le_iff_toNat_le, UInt8.reduceToNat]
          omega
        · simp only [Bool.and_eq_true, decide_eq_true_eq, UInt8.le_iff_toNat_le, UInt8.reduceToNat]
          omega
        · simp only [UInt8.lt_iff_toNat_lt, UInt8.reduceToNat]
          omega
      · next h =>
        have h₀ : (UInt8.ofNat (n / 262144 % 8 + 0xf0)).toNat = n / 262144 + 0xf0 := by
          simp; omega
        have h₁ : (UInt8.ofNat (n / 4096 % 0x40 + 0x80)).toNat = n / 4096 % 64 + 0x80 := by
          simp; omega
        have h₂ : (UInt8.ofNat (n / 64 % 0x40 + 0x80)).toNat = n / 64 % 64 + 0x80 := by
          simp; omega
        have h₃ : (UInt8.ofNat (n % 0x40 + 0x80)).toNat = n % 64 + 0x80 := by
          simp; omega
        generalize UInt8.ofNat (n / 262144 % 8 + 0xf0) = b₀ at *
        generalize UInt8.ofNat (n / 4096 % 0x40 + 0x80) = b₁ at *
        generalize UInt8.ofNat (n / 64 % 0x40 + 0x80) = b₂ at *
        generalize UInt8.ofNat (n % 0x40 + 0x80) = b₃ at *
        have hsecond : secondInRange b₀ b₁ = true := by rw [secondInRange_iff]; omega
        have hcont₂ : isContinuation b₂ = true := by rw [isContinuation_iff]; omega
        have hcont₃ : isContinuation b₃ = true := by rw [isContinuation_iff]; omega
        simp only [List.cons_append, List.nil_append]
        rw [decode.eq_def]
        dsimp only
        rw [if_neg, if_neg, if_neg, if_pos]
        · simp only [hsecond, hcont₂, hcont₃, Bool.not_true, Bool.false_eq_true, if_false, if_true]
          have hcode : ((b₀.toNat % 8 * 64 + payload b₁) * 64 + payload b₂) * 64 + payload b₃ = n := by
            unfold payload
            omega
          rw [hcode, hchar]
        · simp only [Bool.and_eq_true, decide_eq_true_eq, UInt8.le_iff_toNat_le, UInt8.reduceToNat]
          omega
        · simp only [Bool.and_eq_true, decide_eq_true_eq, UInt8.le_iff_toNat_le, UInt8.reduceToNat]
          omega
        · simp only [Bool.and_eq_true, decide_eq_true_eq, UInt8.le_iff_toNat_le, UInt8.reduceToNat]
          omega
        · simp only [UInt8.lt_iff_toNat_lt, UInt8.reduceToNat]
          omega

/-- Characters are read back from their bytes, with nothing invalid among them. -/
theorem decode_encode (chars : List Char) :
    decode (chars.flatMap String.utf8EncodeChar) = chars.map some := by
  induction chars with
  | nil => rfl
  | cons c cs ih => rw [List.flatMap_cons, decode_encodeChar, ih, List.map_cons]

/-- A text is read back from its bytes. -/
theorem decodeLossy_encode (text : String) :
    decodeLossy (text.toList.flatMap String.utf8EncodeChar) = text := by
  unfold decodeLossy
  rw [decode_encode, List.map_map]
  show String.ofList (text.toList.map id) = text
  simp

theorem mapM_map_some {chars : List Char} : (chars.map some).mapM (fun c => c) = some chars := by
  induction chars with
  | nil => rfl
  | cons c cs ih => simp only [List.map_cons, List.mapM_cons, ih]; rfl

/-- The strict decoder reads back every text too. -/
theorem decodeStrict_encode (text : String) :
    decodeStrict (text.toList.flatMap String.utf8EncodeChar) = some text := by
  unfold decodeStrict
  rw [decode_encode, mapM_map_some]
  simp

example : decodeStrict ("冻a".toList.flatMap String.utf8EncodeChar) = some "冻a" := by decide

end Utf8
