import Freezeit.Lib.Text

/-! # The lines of a text that is put together

    A text as its pieces, each but the last ended by the separator.  What is
    put together from pieces falls apart into them again. -/

namespace Text

/-! ## Pieces -/

/-- Pieces that end with the separator and have no other; the last may do without. -/
inductive Pieces (sep : Char) : List (List Char) → Prop where
  | nil : Pieces sep []
  | last {body} : body ≠ [] → sep ∉ body → Pieces sep [body]
  | cons {body rest} : sep ∉ body → Pieces sep rest → Pieces sep ((body ++ [sep]) :: rest)

section
variable {sep : Char}

/-- The first piece ends at the first separator. -/
theorem splitInclusiveChars_terminated {body : List Char} (h : sep ∉ body) (rest : List Char) :
    splitInclusiveChars sep (body ++ sep :: rest) = (body ++ [sep]) :: splitInclusiveChars sep rest := by
  induction body with
  | nil => rw [List.nil_append, splitInclusiveChars, if_pos rfl]; rfl
  | cons c body ih =>
    have hc : c ≠ sep := fun heq => h (heq ▸ List.mem_cons_self)
    rw [List.cons_append, splitInclusiveChars, if_neg hc, ih fun hmem => h (List.mem_cons_of_mem _ hmem)]
    rfl

/-- Without a separator the whole text is the last piece. -/
theorem splitInclusiveChars_last {body : List Char} (hne : body ≠ []) (h : sep ∉ body) :
    splitInclusiveChars sep body = [body] := by
  induction body with
  | nil => exact absurd rfl hne
  | cons c body ih =>
    have hc : c ≠ sep := fun heq => h (heq ▸ List.mem_cons_self)
    rw [splitInclusiveChars, if_neg hc]
    by_cases hbody : body = []
    · rw [hbody]
      rfl
    · rw [ih hbody fun hmem => h (List.mem_cons_of_mem _ hmem)]

/-- Pieces that are put together fall apart into the same pieces. -/
theorem splitInclusiveChars_flatten {ps : List (List Char)} (h : Pieces sep ps) :
    splitInclusiveChars sep ps.flatten = ps := by
  induction h with
  | nil => rfl
  | last hne hbody =>
    rw [List.flatten_cons, List.flatten_nil, List.append_nil]
    exact splitInclusiveChars_last hne hbody
  | cons hbody _ ih =>
    rw [List.flatten_cons, List.append_assoc, List.singleton_append,
      splitInclusiveChars_terminated hbody, ih]

/-- Every text is its pieces. -/
theorem pieces_splitInclusiveChars (cs : List Char) :
    Pieces sep (splitInclusiveChars sep cs) ∧ (splitInclusiveChars sep cs).flatten = cs := by
  induction cs with
  | nil => exact ⟨.nil, rfl⟩
  | cons c cs ih =>
    obtain ⟨hpieces, hflatten⟩ := ih
    rw [splitInclusiveChars]
    by_cases hc : c = sep
    · rw [if_pos hc, List.flatten_cons, hflatten, hc]
      exact ⟨.cons List.not_mem_nil hpieces, rfl⟩
    rw [if_neg hc]
    -- The character joins the piece after it, whether that is ended or the last one.
    have hsep : ∀ {body : List Char}, sep ∉ body → sep ∉ c :: body := by
      intro body hbody hmem
      rcases List.mem_cons.mp hmem with heq | hmem
      · exact hc heq.symm
      · exact hbody hmem
    generalize splitInclusiveChars sep cs = ps at hpieces hflatten
    cases hpieces with
    | nil => exact ⟨.last (List.cons_ne_nil _ _) (hsep List.not_mem_nil), by rw [← hflatten]; rfl⟩
    | last hne hbody =>
      exact ⟨.last (List.cons_ne_nil _ _) (hsep hbody), by rw [← hflatten]; rfl⟩
    | cons hbody hrest =>
      exact ⟨.cons (hsep hbody) hrest, by rw [← hflatten]; rfl⟩

/-- What may stand for a piece. -/
def SameEnd (sep : Char) (piece piece' : List Char) : Prop :=
  (∃ body body', sep ∉ body ∧ sep ∉ body' ∧ piece = body ++ [sep] ∧ piece' = body' ++ [sep])
    ∨ (sep ∉ piece ∧ sep ∉ piece' ∧ piece' ≠ [])

/-- A piece ends as itself. -/
theorem SameEnd.refl {ps : List (List Char)} (h : Pieces sep ps) : ∀ piece ∈ ps, SameEnd sep piece piece := by
  induction h with
  | nil => exact nofun
  | last hne hbody =>
    intro piece hmem
    obtain rfl := List.mem_singleton.mp hmem
    exact .inr ⟨hbody, hbody, hne⟩
  | cons hbody _ ih =>
    intro piece hmem
    rcases List.mem_cons.mp hmem with rfl | hmem
    · exact .inl ⟨_, _, hbody, hbody, rfl, rfl⟩
    · exact ih piece hmem

/-- Pieces stay pieces when each is replaced by one that ends the same way. -/
theorem Pieces.map {α : Type} {old new : α → List Char} {lines : List α}
    (h : Pieces sep (lines.map old)) (hsame : ∀ line ∈ lines, SameEnd sep (old line) (new line)) :
    Pieces sep (lines.map new) := by
  induction lines with
  | nil => exact .nil
  | cons line rest ih =>
    have hrest : ∀ other ∈ rest, SameEnd sep (old other) (new other) :=
      fun other hother => hsame other (List.mem_cons_of_mem _ hother)
    rw [List.map_cons] at h ⊢
    generalize hpiece : old line = piece at h
    generalize hmore : rest.map old = more at h
    cases h with
    | last hne hbody =>
      obtain rfl : rest = [] := List.map_eq_nil_iff.mp hmore
      -- The last piece may be replaced by one that is ended, or by one that is not.
      rcases hsame line List.mem_cons_self with ⟨body, body', hb, hb', heq, heq'⟩ | ⟨-, hnone, hne'⟩
      · rw [heq']
        exact .cons hb' .nil
      · exact .last hne' hnone
    | cons hbody hpieces =>
      rcases hsame line List.mem_cons_self with ⟨body, body', hb, hb', heq, heq'⟩ | ⟨hnone, -, -⟩
      · rw [heq']
        exact .cons hb' (ih (hmore ▸ hpieces) hrest)
      · rw [hpiece] at hnone
        exact absurd (List.mem_append_right _ List.mem_cons_self) hnone

/-- A text that is empty or ends with the separator is followed by other pieces. -/
theorem splitInclusiveChars_append {cs : List Char} (h : cs = [] ∨ cs.getLast? = some sep)
    (ds : List Char) :
    splitInclusiveChars sep (cs ++ ds) = splitInclusiveChars sep cs ++ splitInclusiveChars sep ds := by
  obtain ⟨hpieces, hflatten⟩ := @pieces_splitInclusiveChars sep cs
  generalize splitInclusiveChars sep cs = ps at hpieces hflatten
  subst hflatten
  induction hpieces with
  | nil => rfl
  | last hne hbody =>
    rw [List.flatten_cons, List.flatten_nil, List.append_nil] at h
    rcases h with hnil | hlast
    · exact absurd hnil hne
    · exact absurd (List.mem_of_getLast? hlast) hbody
  | @cons body rest hbody _ ih =>
    rw [List.flatten_cons, List.append_assoc, List.append_assoc, List.singleton_append,
      splitInclusiveChars_terminated hbody, List.cons_append]
    refine congrArg _ (ih ?_)
    rw [List.flatten_cons] at h
    rcases h with hnil | hlast
    · exact absurd hnil (by simp)
    · by_cases hrest : rest.flatten = []
      · exact .inl hrest
      · rw [List.getLast?_append_of_ne_nil _ hrest] at hlast
        exact .inr hlast

/-- Ending a text changes its last piece alone. -/
theorem splitInclusiveChars_end {cs : List Char} (hne : cs ≠ []) (h : cs.getLast? ≠ some sep) :
    ∃ ps body, splitInclusiveChars sep cs = ps ++ [body]
      ∧ splitInclusiveChars sep (cs ++ [sep]) = ps ++ [body ++ [sep]] := by
  obtain ⟨hpieces, hflatten⟩ := @pieces_splitInclusiveChars sep cs
  generalize splitInclusiveChars sep cs = ps at hpieces hflatten
  subst hflatten
  induction hpieces with
  | nil => exact absurd rfl hne
  | @last body _ hbody =>
    refine ⟨[], body, rfl, ?_⟩
    rw [List.flatten_cons, List.flatten_nil, List.append_nil]
    exact splitInclusiveChars_terminated hbody []
  | @cons body rest hbody _ ih =>
    have hrest : rest.flatten ≠ [] := by
      intro hnil
      rw [List.flatten_cons, hnil, List.append_nil, List.getLast?_concat] at h
      exact h rfl
    rw [List.flatten_cons, List.getLast?_append_of_ne_nil _ hrest] at h
    obtain ⟨ps, last, heq, heq'⟩ := ih hrest h
    refine ⟨(body ++ [sep]) :: ps, last, by rw [heq]; rfl, ?_⟩
    rw [List.flatten_cons, List.append_assoc, List.append_assoc, List.singleton_append,
      splitInclusiveChars_terminated hbody, heq', List.cons_append]

end

/-! ## Lines and pieces -/

theorem splitChars_ne_nil (sep : Char → Bool) (cs : List Char) : splitChars sep cs ≠ [] := by
  cases cs with
  | nil => exact List.cons_ne_nil _ _
  | cons c cs =>
    rw [splitChars]
    split
    · exact List.cons_ne_nil _ _
    · split
      · exact List.cons_ne_nil _ _
      · exact List.cons_ne_nil _ _

/-- The lines as lists of characters. -/
def linesOf (pieces : List (List Char)) : List (List Char) :=
  let last := pieces.getLastD []
  let terminated := pieces.dropLast.map stripCarriageReturn
  if last = [] then terminated else terminated ++ [last]

theorem lines_eq_linesOf (text : String) :
    lines text = (linesOf (splitChars (· = '\n') text.toList)).map String.ofList := rfl

theorem linesOf_cons (piece : List Char) {pieces : List (List Char)} (hne : pieces ≠ []) :
    linesOf (piece :: pieces) = stripCarriageReturn piece :: linesOf pieces := by
  obtain ⟨next, rest, rfl⟩ := List.exists_cons_of_ne_nil hne
  unfold linesOf
  rw [List.dropLast_cons_cons, List.map_cons]
  show (if (next :: rest).getLastD [] = [] then _ else _) = _
  dsimp only
  split
  · rfl
  · rfl

/-- A line is its piece without the line break. -/
def lineOf (piece : List Char) : List Char :=
  if piece.getLast? = some '\n' then stripCarriageReturn piece.dropLast else piece

theorem linesOf_splitChars {ps : List (List Char)} (h : Pieces '\n' ps) :
    linesOf (splitChars (· = '\n') ps.flatten) = ps.map lineOf := by
  have hnot : ∀ {body : List Char}, '\n' ∉ body → ∀ c ∈ body, decide (c = '\n') = false := by
    intro body hbody c hc
    rw [decide_eq_false_iff_not]
    rintro rfl
    exact hbody hc
  induction h with
  | nil => rfl
  | @last body hne hbody =>
    have hline : lineOf body = body := if_neg fun hlast => hbody (List.mem_of_getLast? hlast)
    rw [List.flatten_cons, List.flatten_nil, List.append_nil, splitChars_of_forall_not (hnot hbody),
      List.map_singleton, hline]
    exact if_neg hne
  | @cons body rest hbody _ ih =>
    have hline : lineOf (body ++ ['\n']) = stripCarriageReturn body := by
      unfold lineOf
      rw [if_pos List.getLast?_concat, List.dropLast_concat]
    rw [List.flatten_cons, List.append_assoc, List.singleton_append,
      splitChars_append_cons (hnot hbody) (by decide), linesOf_cons _ (splitChars_ne_nil _ _), ih,
      List.map_cons, hline]

/-- The lines of a text are its pieces without their line breaks. -/
theorem lines_eq_map (text : String) :
    lines text = (splitInclusive '\n' text).map fun piece => String.ofList (lineOf piece.toList) := by
  obtain ⟨hpieces, hflatten⟩ := @pieces_splitInclusiveChars '\n' text.toList
  have hlines := linesOf_splitChars hpieces
  rw [hflatten] at hlines
  rw [lines_eq_linesOf, hlines]
  unfold splitInclusive
  rw [List.map_map, List.map_map]
  refine List.map_congr_left fun piece _ => ?_
  show String.ofList (lineOf piece) = String.ofList (lineOf (String.ofList piece).toList)
  rw [String.toList_ofList]

/-! ## Trimming -/

theorem trim_append_blanks {cs ws : List Char} (h : ∀ c ∈ ws, isWhitespace c = true) :
    trim (String.ofList (cs ++ ws)) = trim (String.ofList cs) := by
  have hreverse : ∀ c ∈ ws.reverse, isWhitespace c = true := fun c hc => h c (List.mem_reverse.mp hc)
  unfold trim
  rw [String.toList_ofList, String.toList_ofList, List.dropWhile_append]
  by_cases hblank : cs.dropWhile isWhitespace = []
  · -- Nothing but white space.
    have hws : (ws ++ []).dropWhile isWhitespace = [] := List.dropWhile_append_of_pos h
    rw [List.append_nil] at hws
    rw [hblank, if_pos List.isEmpty_nil, hws]
  · rw [if_neg (by rwa [List.isEmpty_iff]), List.reverse_append, List.dropWhile_append_of_pos hreverse]

/-- A text that neither begins nor ends with white space stays as it is. -/
theorem trim_of_ends {text : String} (hhead : ∀ c ∈ text.toList.head?, isWhitespace c = false)
    (hlast : ∀ c ∈ text.toList.getLast?, isWhitespace c = false) : trim text = text := by
  have hdrop : ∀ {cs : List Char}, (∀ c ∈ cs.head?, isWhitespace c = false) →
      cs.dropWhile isWhitespace = cs := by
    intro cs hcs
    cases cs with
    | nil => rfl
    | cons c cs => rw [List.dropWhile_cons, if_neg (by rw [hcs c rfl]; exact Bool.false_ne_true)]
  unfold trim
  rw [hdrop hhead, hdrop (by rwa [List.head?_reverse]), List.reverse_reverse, String.ofList_toList]

/-- What is left after trimming does not begin with white space. -/
theorem head_trim (text : String) : ∀ c ∈ (trim text).toList.head?, isWhitespace c = false := by
  intro c hc
  unfold trim at hc
  rw [String.toList_ofList] at hc
  have hfirst := List.head?_dropWhile_not isWhitespace text.toList
  generalize text.toList.dropWhile isWhitespace = cs at hc hfirst
  have hbegins : (cs.reverse.dropWhile isWhitespace).reverse <+: cs := by
    have hsuffix := List.dropWhile_suffix isWhitespace (l := cs.reverse)
    rw [← List.reverse_prefix, List.reverse_reverse] at hsuffix
    exact hsuffix
  obtain ⟨rest, hrest⟩ := List.head?_eq_some_iff.mp hc
  rw [hrest] at hbegins
  obtain ⟨more, rfl⟩ := hbegins
  exact hfirst

/-! ## Tokens -/

theorem not_sep_of_mem_splitChars {sep : Char → Bool} {cs piece : List Char}
    (h : piece ∈ splitChars sep cs) : ∀ c ∈ piece, sep c = false := by
  induction cs generalizing piece with
  | nil =>
    obtain rfl := List.mem_singleton.mp h
    exact nofun
  | cons c cs ih =>
    rw [splitChars] at h
    by_cases hc : sep c = true
    · rw [if_pos hc] at h
      rcases List.mem_cons.mp h with rfl | h
      · exact nofun
      · exact ih h
    · rw [if_neg hc] at h
      obtain ⟨first, rest, hcons⟩ := List.exists_cons_of_ne_nil (splitChars_ne_nil sep cs)
      rw [hcons] at h ih
      rcases List.mem_cons.mp h with rfl | h
      · intro d hd
        rcases List.mem_cons.mp hd with rfl | hd
        · exact Bool.not_eq_true _ ▸ hc
        · exact ih List.mem_cons_self d hd
      · exact ih (List.mem_cons_of_mem _ h)

theorem isToken_of_mem_splitWhitespace {text token : String} (h : token ∈ splitWhitespace text) :
    IsToken token := by
  unfold splitWhitespace at h
  obtain ⟨piece, hpiece, rfl⟩ := List.mem_map.mp h
  obtain ⟨hmem, hne⟩ := List.mem_filter.mp hpiece
  constructor
  · intro hempty
    have hnil := congrArg String.toList hempty
    rw [String.toList_ofList] at hnil
    exact of_decide_eq_true hne hnil
  · rw [String.toList_ofList]
    exact not_sep_of_mem_splitChars hmem

/-- The first token of a text that does not begin with white space begins the text. -/
theorem head_splitWhitespace {text token : String} {tokens : List String}
    (htext : ∀ c ∈ text.toList.head?, isWhitespace c = false)
    (h : splitWhitespace text = token :: tokens) : token.toList.head? = text.toList.head? := by
  unfold splitWhitespace at h
  generalize text.toList = cs at h htext
  cases cs with
  | nil => cases h
  | cons c cs =>
    have hc : isWhitespace c = false := htext c rfl
    obtain ⟨first, rest, hcons⟩ := List.exists_cons_of_ne_nil (splitChars_ne_nil isWhitespace cs)
    rw [splitChars, if_neg (by rw [hc]; exact Bool.false_ne_true), hcons] at h
    dsimp only at h
    rw [List.filter_cons_of_pos (by simp), List.map_cons] at h
    obtain ⟨rfl, -⟩ := List.cons.inj h
    rw [String.toList_ofList]
    rfl

theorem range_of_parseSigned {bits : Nat} {text : String} {z : Int}
    (h : parseSigned bits text = some z) : -(2 ^ (bits - 1)) ≤ z ∧ z < 2 ^ (bits - 1) := by
  unfold parseSigned at h
  dsimp only at h
  obtain ⟨-, hrange⟩ := Option.filter_eq_some_iff.mp h
  simpa using hrange

end Text
