import Freezeit.Lib.Text

/-! # The size of a text in bytes

    What the text functions do to the number of bytes of the UTF-8 encoding. -/

namespace Text

/-- The bytes of the UTF-8 encoding. -/
def charsBytes (chars : List Char) : Nat := (chars.map Char.utf8Size).sum

/-- The bytes of two stretches add up. -/
theorem charsBytes_append (left right : List Char) :
    charsBytes (left ++ right) = charsBytes left + charsBytes right := by
  unfold charsBytes
  rw [List.map_append, List.sum_append]

theorem utf8ByteSize_ofList (chars : List Char) :
    (String.ofList chars).utf8ByteSize = charsBytes chars := by
  induction chars with
  | nil => rfl
  | cons c rest ih =>
    rw [String.ofList_cons, String.utf8ByteSize_append, String.utf8ByteSize_singleton, ih]
    rfl

/-- The size of a text is that of its characters. -/
theorem utf8ByteSize_eq (text : String) : text.utf8ByteSize = charsBytes text.toList := by
  have hsize := utf8ByteSize_ofList text.toList
  rwa [String.ofList_toList] at hsize

/-- Fewer characters take fewer bytes. -/
theorem charsBytes_sublist {few many : List Char} (h : few.Sublist many) :
    charsBytes few ≤ charsBytes many := by
  induction h with
  | slnil => exact Nat.le_refl _
  | cons c _ ih => exact ih.trans (Nat.le_add_left _ c.utf8Size)
  | cons_cons c _ ih => exact Nat.add_le_add_left ih c.utf8Size

/-- Characters that are replaced by others of the same size. -/
theorem charsBytes_map {f : Char → Char} (h : ∀ c, (f c).utf8Size = c.utf8Size)
    (chars : List Char) : charsBytes (chars.map f) = charsBytes chars := by
  unfold charsBytes
  rw [List.map_map]
  exact congrArg List.sum (List.map_congr_left fun c _ => h c)

/-- ASCII characters take one byte each. -/
theorem charsBytes_ascii {chars : List Char} (h : ∀ c ∈ chars, c.toNat < 128) :
    charsBytes chars = chars.length := by
  induction chars with
  | nil => rfl
  | cons c rest ih =>
    have hc : c.utf8Size = 1 := by
      have hlt := h c List.mem_cons_self
      unfold Char.utf8Size
      rw [if_pos]
      show c.toNat ≤ 127
      omega
    have hrest := ih fun other hother => h other (List.mem_cons_of_mem _ hother)
    show c.utf8Size + charsBytes rest = rest.length + 1
    rw [hc, hrest]
    omega

theorem charsBytes_toDigits (n : Nat) :
    charsBytes (Nat.toDigits 10 n) = (Nat.toDigits 10 n).length := by
  apply charsBytes_ascii
  intro c hc
  have hrange : 48 ≤ c.toNat ∧ c.toNat ≤ 57 := Char.isDigit_iff_toNat.mp (isDigit_of_mem_toDigits hc)
  omega

/-- A number below a power of ten has as many digits at most. -/
theorem utf8ByteSize_toString_nat {n digits : Nat} (hpos : 0 < digits) (h : n < 10 ^ digits) :
    (toString n).utf8ByteSize ≤ digits := by
  have htext : (toString n).toList = Nat.toDigits 10 n := by simp
  rw [utf8ByteSize_eq, htext, charsBytes_toDigits]
  exact (Nat.length_toDigits_le_iff (by decide) hpos).mpr h

/-- The sign takes one byte more. -/
theorem utf8ByteSize_toString_int {z : Int} {digits : Nat} (hpos : 0 < digits)
    (h : z.natAbs < 10 ^ digits) : (toString z).utf8ByteSize ≤ digits + 1 := by
  have hdigits : charsBytes (Nat.toDigits 10 z.natAbs) ≤ digits := by
    rw [charsBytes_toDigits]
    exact (Nat.length_toDigits_le_iff (by decide) hpos).mpr h
  rw [utf8ByteSize_eq, toList_toString_int]
  split
  · show ('-').utf8Size + charsBytes (Nat.toDigits 10 z.natAbs) ≤ digits + 1
    have hsign : ('-').utf8Size = 1 := rfl
    omega
  · omega

/-- Trimming makes no text longer. -/
theorem utf8ByteSize_trim (text : String) : (trim text).utf8ByteSize ≤ text.utf8ByteSize := by
  unfold trim
  rw [utf8ByteSize_ofList, utf8ByteSize_eq text]
  have hfront := List.dropWhile_sublist isWhitespace (l := text.toList)
  have hback := List.dropWhile_sublist isWhitespace (l := (text.toList.dropWhile isWhitespace).reverse)
  apply charsBytes_sublist
  exact (List.reverse_sublist.mpr hback).trans (by rwa [List.reverse_reverse])

/-- The texts one after the other. -/
theorem utf8ByteSize_join (texts : List String) :
    (String.join texts).utf8ByteSize = (texts.map String.utf8ByteSize).sum := by
  -- The join is a fold from the empty text, so the fold is measured from any text.
  have hfold : ∀ before : String, (texts.foldl (fun joined text => joined ++ text) before).utf8ByteSize
      = before.utf8ByteSize + (texts.map String.utf8ByteSize).sum := by
    induction texts with
    | nil => intro before; rfl
    | cons text rest ih =>
      intro before
      rw [List.foldl_cons, ih, String.utf8ByteSize_append, List.map_cons, List.sum_cons]
      omega
  have hjoin := hfold ""
  rw [String.utf8ByteSize_empty, Nat.zero_add] at hjoin
  exact hjoin

/-- Every text counts with a separator, and one separator is too many. -/
theorem utf8ByteSize_intercalate {texts : List String} (separator : String) (hne : texts ≠ []) :
    (separator.intercalate texts).utf8ByteSize + separator.utf8ByteSize
      = (texts.map fun text => text.utf8ByteSize + separator.utf8ByteSize).sum := by
  induction texts with
  | nil => exact absurd rfl hne
  | cons text rest ih =>
    rw [List.map_cons, List.sum_cons]
    by_cases hrest : rest = []
    · rw [hrest, String.intercalate_singleton]
      rfl
    · rw [String.intercalate_cons_of_ne_nil hrest, String.utf8ByteSize_append,
        String.utf8ByteSize_append, ← ih hrest]
      omega

end Text
