import Mathlib.Algebra.Group.Int.Defs
import Mathlib.Algebra.Group.Nat.Defs
import Mathlib.Data.List.Basic
import Mathlib.Tactic.IntervalCases

/-! # Text scanning

    String functions by structural recursion on characters, so that they
    reduce in the kernel on closed texts. -/

namespace Text

/-- Does `needle` occur in `text`? -/
def contains (text needle : String) : Bool :=
  text.toList.tails.any fun suffix => needle.toList.isPrefixOf suffix

/-- ASCII letters in lower case, everything else unchanged. -/
def asciiLower (text : String) : String := String.ofList (text.toList.map Char.toLower)

/-! ## Splitting -/

/-- The pieces between the characters that satisfy `sep`, empty ones included. -/
def splitChars (sep : Char → Bool) : List Char → List (List Char)
  | [] => [[]]
  | c :: cs =>
    if sep c then [] :: splitChars sep cs
    else
      match splitChars sep cs with
      | []            => [[c]]
      | piece :: rest => (c :: piece) :: rest

/-- What stands before the first `sep`, or everything. -/
def before (sep : Char) (text : String) : String :=
  String.ofList (text.toList.takeWhile (· ≠ sep))

/-- What stands after the last `sep`, if there is one. -/
def afterLast (sep : Char) (text : String) : Option String :=
  if sep ∈ text.toList then
    some (String.ofList (text.toList.reverse.takeWhile (· ≠ sep)).reverse)
  else none

/-- The two sides of the first `sep`, if there is one. -/
def splitOnce (sep : Char) (text : String) : Option (String × String) :=
  match text.toList.dropWhile (· ≠ sep) with
  | []        => none
  | _ :: rest => some (before sep text, String.ofList rest)

/-- The Unicode `White_Space` property. -/
def isWhitespace (c : Char) : Bool :=
  let n := c.toNat
  (9 ≤ n && n ≤ 13) || n = 32 || n = 133 || n = 160 || n = 5760 || (8192 ≤ n && n ≤ 8202)
    || n = 8232 || n = 8233 || n = 8239 || n = 8287 || n = 12288

/-- The nonempty pieces between white space. -/
def splitWhitespace (text : String) : List String :=
  ((splitChars isWhitespace text.toList).filter fun piece => piece ≠ []).map String.ofList

def stripCarriageReturn (line : List Char) : List Char :=
  if line.getLast? = some '\r' then line.dropLast else line

/-- The lines of a text: a final line break starts no further line, and a
    carriage return counts to the line break after it. -/
def lines (text : String) : List String :=
  let pieces := splitChars (· = '\n') text.toList
  let last := pieces.getLastD []
  let terminated := pieces.dropLast.map stripCarriageReturn
  (if last = [] then terminated else terminated ++ [last]).map String.ofList

/-- The pieces that end with a `sep`, and what is left after the last one. -/
def splitInclusiveChars (sep : Char) : List Char → List (List Char)
  | [] => []
  | c :: cs =>
    if c = sep then [c] :: splitInclusiveChars sep cs
    else
      match splitInclusiveChars sep cs with
      | []            => [[c]]
      | piece :: rest => (c :: piece) :: rest

/-- The pieces of a text that end with a `sep`. -/
def splitInclusive (sep : Char) (text : String) : List String :=
  (splitInclusiveChars sep text.toList).map String.ofList

/-- The two sides of the first place where `needle` occurs. -/
def splitOnceChars (needle : List Char) : List Char → Option (List Char × List Char)
  | [] => if needle.isEmpty then some ([], []) else none
  | c :: cs =>
    if needle.isPrefixOf (c :: cs) then some ([], (c :: cs).drop needle.length)
    else (splitOnceChars needle cs).map fun (left, right) => (c :: left, right)

/-- The two sides of the first place where one text occurs in the other. -/
def splitOnceText (needle text : String) : Option (String × String) :=
  (splitOnceChars needle.toList text.toList).map fun (left, right) =>
    (String.ofList left, String.ofList right)

/-- Without the white space at both ends. -/
def trim (text : String) : String :=
  String.ofList (((text.toList.dropWhile isWhitespace).reverse.dropWhile isWhitespace).reverse)

/-- What follows the prefix, if the text begins with it. -/
def stripPrefix (text pre : String) : Option String :=
  if pre.toList.isPrefixOf text.toList then some (String.ofList (text.toList.drop pre.length))
  else none

/-! ## Numbers -/

/-- Decimal digits, at least one. -/
def parseDigits : List Char → Option Nat
  | []     => none
  | digits =>
    if digits.all Char.isDigit then
      some (digits.foldl (fun n c => n * 10 + (c.toNat - '0'.toNat)) 0)
    else none

/-- An unsigned decimal number below `bound`, with an optional plus sign. -/
def parseUnsigned (bound : Nat) (text : String) : Option Nat :=
  let digits :=
    match text.toList with
    | '+' :: rest => rest
    | chars       => chars
  (parseDigits digits).filter (· < bound)

/-- A signed decimal number in the range of a `bits`-bit integer. -/
def parseSigned (bits : Nat) (text : String) : Option Int :=
  let value : Option Int :=
    match text.toList with
    | '-' :: rest => (parseDigits rest).map fun n => -(n : Int)
    | '+' :: rest => (parseDigits rest).map Int.ofNat
    | chars       => (parseDigits chars).map Int.ofNat
  value.filter fun n => -(2 ^ (bits - 1)) ≤ n && n < 2 ^ (bits - 1)

/-! ## Reading back what was written -/

section
variable {sep : Char → Bool}

/-- Without a separator there is one piece. -/
theorem splitChars_of_forall_not {piece : List Char} (h : ∀ c ∈ piece, sep c = false) :
    splitChars sep piece = [piece] := by
  induction piece with
  | nil => rfl
  | cons c cs ih =>
    have hrest := ih fun d hd => h d (List.mem_cons_of_mem _ hd)
    simp only [splitChars, h c List.mem_cons_self, hrest]
    rfl

/-- The first piece ends at the first separator. -/
theorem splitChars_append_cons {piece rest : List Char} {c : Char}
    (h : ∀ d ∈ piece, sep d = false) (hsep : sep c = true) :
    splitChars sep (piece ++ c :: rest) = piece :: splitChars sep rest := by
  induction piece with
  | nil => simp [splitChars, hsep]
  | cons d ds ih =>
    have hrest := ih fun e he => h e (List.mem_cons_of_mem _ he)
    rw [List.cons_append]
    simp only [splitChars, h d List.mem_cons_self, hrest]
    rfl

/-- Pieces without separators are found again between separators. -/
theorem splitChars_intercalate {pieces : List (List Char)} {c : Char} (hne : pieces ≠ [])
    (h : ∀ piece ∈ pieces, ∀ d ∈ piece, sep d = false) (hsep : sep c = true) :
    splitChars sep ([c].intercalate pieces) = pieces := by
  induction pieces with
  | nil => exact absurd rfl hne
  | cons piece rest ih =>
    have hpiece := h piece List.mem_cons_self
    cases rest with
    | nil => rw [List.intercalate_singleton, splitChars_of_forall_not hpiece]
    | cons next rest =>
      have hrest := ih (by simp) fun p hp => h p (List.mem_cons_of_mem _ hp)
      rw [List.intercalate_cons_cons, List.append_assoc, List.singleton_append,
        splitChars_append_cons hpiece hsep, hrest]

/-- The first occurrence is found when nothing before it begins like one. -/
theorem splitOnceChars_append {needle left right : List Char} (hne : needle ≠ [])
    (h : ∀ c ∈ left, needle.head? ≠ some c) :
    splitOnceChars needle (left ++ (needle ++ right)) = some (left, right) := by
  induction left with
  | nil =>
    rw [List.nil_append]
    cases hcs : needle ++ right with
    | nil =>
      obtain ⟨rfl, rfl⟩ := List.append_eq_nil_iff.mp hcs
      rfl
    | cons c cs =>
      have hprefix : needle.isPrefixOf (c :: cs) = true :=
        List.isPrefixOf_iff_prefix.mpr ⟨right, hcs⟩
      have hdrop : (c :: cs).drop needle.length = right := by rw [← hcs, List.drop_left]
      rw [splitOnceChars, if_pos hprefix, hdrop]
  | cons c cs ih =>
    have hrest := ih fun d hd => h d (List.mem_cons_of_mem _ hd)
    -- It cannot begin inside the left side, since its first character is not there.
    have hprefix : ¬ needle.isPrefixOf (c :: (cs ++ (needle ++ right))) = true := by
      intro hprefix
      cases needle with
      | nil => exact hne rfl
      | cons d ds =>
        obtain ⟨tail, htail⟩ := List.isPrefixOf_iff_prefix.mp hprefix
        have heq : d = c := (List.cons.inj htail).1
        exact h c List.mem_cons_self (by rw [heq]; rfl)
    rw [List.cons_append, splitOnceChars, if_neg hprefix, hrest]
    rfl

theorem digitValue_digitChar {d : Nat} (h : d < 10) :
    (Nat.digitChar d).toNat - '0'.toNat = d := by
  interval_cases d <;> rfl

/-- The value of the digits of a number is the number. -/
theorem foldl_toDigits (n : Nat) :
    (Nat.toDigits 10 n).foldl (fun value c => value * 10 + (c.toNat - '0'.toNat)) 0 = n := by
  induction n using Nat.strongRecOn with
  | ind n ih =>
    rw [Nat.toDigits_eq_if (by omega)]
    split
    · next h =>
      simp only [List.foldl_cons, List.foldl_nil, digitValue_digitChar h]
      omega
    · next h =>
      rw [List.foldl_append, ih (n / 10) (by omega)]
      have hlast := digitValue_digitChar (d := n % 10) (Nat.mod_lt n (by omega))
      simp only [List.foldl_cons, List.foldl_nil, hlast]
      omega

/-- The digits of a number are read back as the number. -/
theorem parseDigits_toDigits (n : Nat) : parseDigits (Nat.toDigits 10 n) = some n := by
  have hall : (Nat.toDigits 10 n).all Char.isDigit = true := by
    rw [List.all_eq_true]
    intro c hc
    exact Nat.isDigit_of_mem_toDigits (by omega) (by omega) hc
  unfold parseDigits
  split
  · next hnil => exact absurd hnil Nat.toDigits_ne_nil
  · rw [if_pos hall, foldl_toDigits]

theorem isDigit_of_mem_toDigits {n : Nat} {c : Char} (h : c ∈ Nat.toDigits 10 n) :
    c.isDigit = true := Nat.isDigit_of_mem_toDigits (by omega) (by omega) h

/-! ## Lines and tokens -/

/-- A last empty piece is a separator at the end. -/
theorem intercalate_concat_nil {pieces : List (List Char)} {c : Char} (hne : pieces ≠ []) :
    [c].intercalate (pieces ++ [[]]) = [c].intercalate pieces ++ [c] := by
  induction pieces with
  | nil => exact absurd rfl hne
  | cons piece rest ih =>
    cases rest with
    | nil =>
      show [c].intercalate [piece, []] = [c].intercalate [piece] ++ [c]
      rw [List.intercalate_cons_cons, List.intercalate_singleton, List.intercalate_singleton,
        List.append_nil]
    | cons next rest =>
      show [c].intercalate (piece :: next :: (rest ++ [[]])) = _
      have hrest : [c].intercalate (next :: (rest ++ [[]])) = [c].intercalate (next :: rest) ++ [c] :=
        ih (by simp)
      rw [List.intercalate_cons_cons, List.intercalate_cons_cons, hrest]
      simp only [List.append_assoc]

/-- A line without line breaks. -/
def IsLine (line : String) : Prop := ∀ c ∈ line.toList, c ≠ '\n' ∧ c ≠ '\r'

/-- Lines that are ended by line breaks are read back. -/
theorem lines_intercalate {ls : List String} (h : ∀ line ∈ ls, IsLine line) (hne : ls ≠ []) :
    lines ("\n".intercalate ls ++ "\n") = ls := by
  have htext : ("\n".intercalate ls ++ "\n").toList
      = ['\n'].intercalate (ls.map String.toList ++ [[]]) := by
    rw [intercalate_concat_nil (by simpa using hne), String.toList_append, String.toList_intercalate]
    rfl
  have hpieces : splitChars (· = '\n') ("\n".intercalate ls ++ "\n").toList
      = ls.map String.toList ++ [[]] := by
    rw [htext]
    apply splitChars_intercalate
    · simp
    · intro piece hpiece d hd
      rcases List.mem_append.mp hpiece with hpiece | hpiece
      · obtain ⟨line, hline, rfl⟩ := List.mem_map.mp hpiece
        simpa using (h line hline d hd).1
      · rw [List.mem_singleton.mp hpiece] at hd
        cases hd
    · simp
  unfold lines
  dsimp only
  rw [hpieces]
  have hlast : (ls.map String.toList ++ [[]]).getLastD [] = [] := by simp
  -- No line ends with a carriage return, so none is stripped of one.
  have hkept : ∀ line ∈ ls, String.ofList (stripCarriageReturn line.toList) = line := by
    intro line hline
    unfold stripCarriageReturn
    rw [if_neg, String.ofList_toList]
    intro hcr
    exact (h line hline '\r' (List.mem_of_getLast? hcr)).2 rfl
  rw [hlast, if_pos rfl, List.dropLast_concat, List.map_map, List.map_map]
  conv_rhs => rw [← List.map_id ls]
  exact List.map_congr_left fun line hline => hkept line hline

/-- A nonempty token without white space. -/
def IsToken (token : String) : Prop := token ≠ "" ∧ ∀ c ∈ token.toList, isWhitespace c = false

/-- Tokens with blanks between them are found again. -/
theorem splitWhitespace_intercalate {tokens : List String} (h : ∀ token ∈ tokens, IsToken token)
    (hne : tokens ≠ []) : splitWhitespace (" ".intercalate tokens) = tokens := by
  have hpieces : splitChars isWhitespace (" ".intercalate tokens).toList
      = tokens.map String.toList := by
    rw [String.toList_intercalate]
    apply splitChars_intercalate
    · simpa using hne
    · intro piece hpiece d hd
      obtain ⟨token, htoken, rfl⟩ := List.mem_map.mp hpiece
      exact (h token htoken).2 d hd
    · rfl
  have hkept : (tokens.map String.toList).filter (fun piece => piece ≠ []) = tokens.map String.toList := by
    rw [List.filter_eq_self]
    intro piece hpiece
    obtain ⟨token, htoken, rfl⟩ := List.mem_map.mp hpiece
    rw [decide_eq_true_eq]
    intro hnil
    apply (h token htoken).1
    rw [← String.ofList_toList (s := token), hnil]
  unfold splitWhitespace
  rw [hpieces, hkept, List.map_map]
  conv_rhs => rw [← List.map_id tokens]
  exact List.map_congr_left fun token _ => String.ofList_toList

theorem not_isWhitespace_of_isDigit {c : Char} (h : c.isDigit = true) : isWhitespace c = false := by
  have hrange : 48 ≤ c.toNat ∧ c.toNat ≤ 57 := Char.isDigit_iff_toNat.mp h
  obtain ⟨hlow, hhigh⟩ := hrange
  unfold isWhitespace
  generalize c.toNat = n at hlow hhigh
  interval_cases n <;> rfl

/-- A number is written as one token. -/
theorem isToken_toString_nat (n : Nat) : IsToken (toString n) := by
  have htext : (toString n).toList = Nat.toDigits 10 n := by simp
  refine ⟨?_, ?_⟩
  · intro hempty
    rw [hempty] at htext
    exact Nat.toDigits_ne_nil htext.symm
  · intro c hc
    rw [htext] at hc
    exact not_isWhitespace_of_isDigit (isDigit_of_mem_toDigits hc)

/-- A sign, if the number is negative, and the digits of its size. -/
theorem toList_toString_int (z : Int) :
    (toString z).toList = if z < 0 then '-' :: Nat.toDigits 10 z.natAbs else Nat.toDigits 10 z.natAbs := by
  cases z with
  | ofNat n =>
    rw [if_neg (show ¬ Int.ofNat n < 0 from Int.not_lt.mpr (Int.natCast_nonneg n))]
    have htext : (toString n).toList = Nat.toDigits 10 n := by simp
    exact htext
  | negSucc m =>
    rw [if_pos (Int.negSucc_lt_zero m)]
    have htext : (toString (m + 1)).toList = Nat.toDigits 10 (m + 1) := by simp
    show ("-" ++ toString (m + 1)).toList = _
    rw [String.toList_append, htext]
    rfl

theorem isToken_toString_int (z : Int) : IsToken (toString z) := by
  have htext := toList_toString_int z
  refine ⟨?_, ?_⟩
  · intro hempty
    rw [hempty] at htext
    split at htext
    · cases htext
    · exact Nat.toDigits_ne_nil htext.symm
  · intro c hc
    rw [htext] at hc
    split at hc
    · cases hc with
      | head => rfl
      | tail _ hc => exact not_isWhitespace_of_isDigit (isDigit_of_mem_toDigits hc)
    · exact not_isWhitespace_of_isDigit (isDigit_of_mem_toDigits hc)

/-- An unsigned number is read back when it is below the bound. -/
theorem parseUnsigned_toString_eq (bound n : Nat) :
    parseUnsigned bound (toString n) = if n < bound then some n else none := by
  unfold parseUnsigned
  have htext : (toString n).toList = Nat.toDigits 10 n := by simp
  rw [htext]
  split
  · next rest hplus =>
    have hdigit := isDigit_of_mem_toDigits (n := n) (c := '+') (by rw [hplus]; simp)
    cases hdigit
  · simp only [parseDigits_toDigits]
    by_cases h : n < bound
    · simp [Option.filter, h]
    · simp [Option.filter, h]

/-- A signed number is read back when it is in range. -/
theorem parseSigned_toString_eq (bits : Nat) (z : Int) :
    parseSigned bits (toString z)
      = if -(2 ^ (bits - 1)) ≤ z ∧ z < 2 ^ (bits - 1) then some z else none := by
  have hdigits : ∀ c rest, Nat.toDigits 10 z.natAbs = c :: rest → c.isDigit = true := by
    intro c rest hc
    exact isDigit_of_mem_toDigits (n := z.natAbs) (by rw [hc]; simp)
  unfold parseSigned
  rw [toList_toString_int]
  have hrange : (some z).filter (fun n : Int => -(2 ^ (bits - 1)) ≤ n && n < 2 ^ (bits - 1))
      = if -(2 ^ (bits - 1)) ≤ z ∧ z < 2 ^ (bits - 1) then some z else none := by
    by_cases h : -(2 ^ (bits - 1)) ≤ z ∧ z < 2 ^ (bits - 1)
    · simp [Option.filter, h]
    · rw [if_neg h]
      simp only [Option.filter]
      rw [if_neg]
      simpa using h
  rw [← hrange]
  -- The sign decides which branch of the parser is taken; a digit is neither sign.
  by_cases hneg : z < 0
  · have habs : -(z.natAbs : Int) = z := by
      rw [Int.ofNat_natAbs_of_nonpos (Int.le_of_lt hneg), Int.neg_neg]
    rw [if_pos hneg]
    simp only [parseDigits_toDigits]
    show (some (-(z.natAbs : Int))).filter _ = _
    rw [habs]
  · have habs : (z.natAbs : Int) = z := Int.natAbs_of_nonneg (Int.not_lt.mp hneg)
    rw [if_neg hneg]
    split
    · next rest hminus => cases hdigits _ _ hminus
    · next rest hplus => cases hdigits _ _ hplus
    · rw [parseDigits_toDigits]
      show (some (z.natAbs : Int)).filter _ = _
      rw [habs]

theorem parseUnsigned_toString {bound n : Nat} (h : n < bound) :
    parseUnsigned bound (toString n) = some n := by
  rw [parseUnsigned_toString_eq, if_pos h]

theorem parseSigned_natCast {bits n : Nat} (h : (n : Int) < 2 ^ (bits - 1)) :
    parseSigned bits (toString n) = some (n : Int) := by
  have hlow : -(2 ^ (bits - 1)) ≤ (n : Int) := by
    have hpow : (0 : Int) ≤ 2 ^ (bits - 1) := by positivity
    omega
  have heq := parseSigned_toString_eq bits (n : Int)
  rw [if_pos ⟨hlow, h⟩] at heq
  exact heq

end

end Text
