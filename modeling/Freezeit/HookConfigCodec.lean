import Freezeit.HookService
import Freezeit.ControlState

/-! # The configuration on its way into the hook

    What `encode_xposed_config_payload` writes and what `handleConfig` makes
    of it. -/

namespace Freezeit

/-! ## Folds that may fail -/

section
variable {α β γ ε : Type} {f : β → α → Except ε β}

/-- A fold whose steps succeed and act as `g` on a view. -/
theorem foldlM_eq_ok (f : β → α → Except ε β) (view : β → γ) (g : γ → α → γ) {l : List α} (s : β)
    (h : ∀ s, ∀ a ∈ l, ∃ s', f s a = .ok s' ∧ view s' = g (view s) a) :
    ∃ s', l.foldlM f s = .ok s' ∧ view s' = l.foldl g (view s) := by
  induction l generalizing s with
  | nil => exact ⟨s, rfl, rfl⟩
  | cons a l ih =>
    obtain ⟨s₁, hstep, hview⟩ := h s a List.mem_cons_self
    obtain ⟨s₂, hrest, hviewRest⟩ := ih s₁ fun s b hb => h s b (List.mem_cons_of_mem _ hb)
    refine ⟨s₂, ?_, ?_⟩
    · rw [List.foldlM_cons, hstep]
      exact hrest
    · rw [hviewRest, hview, List.foldl_cons]

/-- One element that always fails makes the fold fail. -/
theorem foldlM_eq_error {l : List α} {a : α} (ha : a ∈ l) (s : β)
    (h : ∀ s, ∃ e, f s a = .error e) : ∃ e, l.foldlM f s = .error e := by
  induction l generalizing s with
  | nil => cases ha
  | cons b l ih =>
    rw [List.foldlM_cons]
    cases List.mem_cons.mp ha with
    | inl heq =>
      subst heq
      obtain ⟨e, he⟩ := h s
      exact ⟨e, by rw [he]; rfl⟩
    | inr hrest =>
      cases hb : f s b with
      | error e => exact ⟨e, rfl⟩
      | ok s₁ =>
        obtain ⟨e, he⟩ := ih hrest s₁
        exact ⟨e, he⟩

end

/-! ## The lines that the daemon writes -/

/-- A piece of a line: not empty, and nothing in it that a blank line or the
    trimming could cut at. -/
def IsToken (piece : List Char) : Prop := piece ≠ [] ∧ ∀ c ∈ piece, 0x20 < c.toNat

/-- A token stays one with visible characters after it. -/
theorem IsToken.append {a b : List Char} (ha : IsToken a) (hb : ∀ c ∈ b, 0x20 < c.toNat) :
    IsToken (a ++ b) := by
  refine ⟨fun h => ha.1 (List.append_eq_nil_iff.mp h).1, ?_⟩
  intro c hc
  exact (List.mem_append.mp hc).elim (ha.2 c) (hb c)

/-- A digit is a visible character. -/
theorem toNat_of_isDigit {c : Char} (h : c.isDigit = true) : 0x20 < c.toNat := by
  simp only [Char.isDigit, Bool.and_eq_true, decide_eq_true_eq] at h
  have hlow : '0'.val.toNat ≤ c.val.toNat := UInt32.le_iff_toNat_le.mp h.1
  have hzero : '0'.val.toNat = 48 := rfl
  show 0x20 < c.val.toNat
  omega

/-- A number in decimal is a token. -/
theorem isToken_toDigits (n : Nat) : IsToken (Nat.toDigits 10 n) := by
  refine ⟨Nat.toDigits_ne_nil, ?_⟩
  intro c hc
  exact toNat_of_isDigit (Text.isDigit_of_mem_toDigits hc)

/-- The text of a number is its digits. -/
theorem toList_natToString (n : Nat) : (toString n).toList = Nat.toDigits 10 n := by simp

/-- So the text of a number is a token too. -/
theorem isToken_toString (n : Nat) : IsToken (toString n).toList := by
  rw [toList_natToString]
  exact isToken_toDigits n

/-- Nothing is cut off a text that begins and ends visibly. -/
theorem javaTrim_of_isToken_ends {text : List Char}
    (hhead : ∀ c ∈ text.head?, 0x20 < c.toNat) (hlast : ∀ c ∈ text.getLast?, 0x20 < c.toNat) :
    javaTrim text = text := by
  have hdrop : ∀ l : List Char, (∀ c ∈ l.head?, 0x20 < c.toNat) →
      (l.dropWhile fun c => decide (c.toNat ≤ 0x20)) = l := by
    intro l hl
    cases l with
    | nil => rfl
    | cons c cs =>
      have hc : 0x20 < c.toNat := hl c rfl
      have hnot : decide (c.toNat ≤ 0x20) = false := decide_eq_false (by omega)
      rw [List.dropWhile_cons, hnot]
      rfl
  unfold javaTrim
  rw [hdrop text hhead]
  have hrev : ∀ c ∈ text.reverse.head?, 0x20 < c.toNat := by
    rw [List.head?_reverse]
    exact hlast
  rw [hdrop _ hrev, List.reverse_reverse]

/-- The joined pieces begin and end with a character of a piece. -/
theorem ends_of_intercalate {pieces : List (List Char)} (h : ∀ piece ∈ pieces, IsToken piece) :
    (∀ c ∈ ([' '].intercalate pieces).head?, 0x20 < c.toNat)
      ∧ ∀ c ∈ ([' '].intercalate pieces).getLast?, 0x20 < c.toNat := by
  induction pieces with
  | nil =>
    constructor
    · intro c hc
      cases hc
    · intro c hc
      cases hc
  | cons piece rest ih =>
    have hpiece := h piece List.mem_cons_self
    have hrest := ih fun p hp => h p (List.mem_cons_of_mem _ hp)
    -- A single piece has both ends; otherwise the last one comes from the rest.
    cases rest with
    | nil =>
      rw [List.intercalate_singleton]
      exact ⟨fun c hc => hpiece.2 c (List.mem_of_mem_head? hc),
        fun c hc => hpiece.2 c (List.mem_of_mem_getLast? hc)⟩
    | cons next rest =>
      rw [List.intercalate_cons_cons, List.append_assoc]
      constructor
      · intro c hc
        rw [List.head?_append_of_ne_nil _ hpiece.1] at hc
        exact hpiece.2 c (List.mem_of_mem_head? hc)
      · intro c hc
        have hne : [' '].intercalate (next :: rest) ≠ [] := by
          intro hnil
          have hnext := h next (List.mem_cons_of_mem _ List.mem_cons_self)
          cases rest with
          | nil =>
            rw [List.intercalate_singleton] at hnil
            exact hnext.1 hnil
          | cons other rest =>
            rw [List.intercalate_cons_cons, List.append_assoc] at hnil
            exact hnext.1 (List.append_eq_nil_iff.mp hnil).1
        rw [List.getLast?_append_of_ne_nil _ (by simp), List.getLast?_append_of_ne_nil _ hne] at hc
        exact hrest.2 c hc

/-- Pieces joined by blanks are found again. -/
theorem splitConfigLine_intercalate {pieces : List (List Char)}
    (h : ∀ piece ∈ pieces, IsToken piece) :
    splitConfigLine ([' '].intercalate pieces) = pieces := by
  obtain ⟨hhead, hlast⟩ := ends_of_intercalate h
  unfold splitConfigLine
  rw [javaTrim_of_isToken_ends hhead hlast]
  cases hpieces : pieces with
  | nil => rfl
  | cons piece rest =>
    have hsep : ∀ piece ∈ pieces, ∀ c ∈ piece, decide (c = ' ') = false := by
      intro piece hpiece c hc
      apply decide_eq_false
      intro heq
      subst heq
      exact absurd ((h piece hpiece).2 ' ' hc) (by decide)
    rw [← hpieces, Text.splitChars_intercalate (by rw [hpieces]; simp) hsep (by decide)]
    apply List.filter_eq_self.mpr
    intro piece hpiece
    exact decide_eq_true (h piece hpiece).1

/-- A line of the payload is split into the tokens that were joined. -/
theorem splitConfigLine_payloadLine {tokens : List String}
    (h : ∀ token ∈ tokens, IsToken token.toList) :
    splitConfigLine (payloadLine tokens).toList = tokens.map String.toList := by
  unfold payloadLine
  split
  · next hempty =>
    rw [List.isEmpty_iff.mp hempty]
    rfl
  · rw [String.toList_intercalate]
    apply splitConfigLine_intercalate
    intro piece hpiece
    obtain ⟨token, htoken, rfl⟩ := List.mem_map.mp hpiece
    exact h token htoken

/-- No line of the payload has a line break in it. -/
theorem not_break_of_mem_payloadLine {tokens : List String} {c : Char}
    (h : ∀ token ∈ tokens, IsToken token.toList) (hc : c ∈ (payloadLine tokens).toList) :
    decide (c = '\n') = false := by
  -- Tokens and the blanks between them lie above the control characters.
  have hvisible : ∀ pieces : List (List Char), (∀ piece ∈ pieces, IsToken piece) →
      ∀ c ∈ [' '].intercalate pieces, 0x20 ≤ c.toNat := by
    intro pieces hpieces
    induction pieces with
    | nil =>
      intro c hc
      cases hc
    | cons piece rest ih =>
      intro c hc
      have hpiece := hpieces piece List.mem_cons_self
      cases rest with
      | nil =>
        rw [List.intercalate_singleton] at hc
        exact Nat.le_of_lt (hpiece.2 c hc)
      | cons next rest =>
        rw [List.intercalate_cons_cons, List.append_assoc, List.mem_append, List.mem_append] at hc
        rcases hc with hc | hc | hc
        · exact Nat.le_of_lt (hpiece.2 c hc)
        · rw [List.mem_singleton.mp hc]
          decide
        · exact ih (fun p hp => hpieces p (List.mem_cons_of_mem _ hp)) c hc
  have hlow : 0x20 ≤ c.toNat := by
    unfold payloadLine at hc
    split at hc
    · have hblank : c = ' ' := by simpa using hc
      subst hblank
      decide
    · rw [String.toList_intercalate] at hc
      apply hvisible _ _ c hc
      intro piece hpiece
      obtain ⟨token, htoken, rfl⟩ := List.mem_map.mp hpiece
      exact h token htoken
  apply decide_eq_false
  intro heq
  subst heq
  exact absurd hlow (by decide)

/-- The three lines arrive as they were written. -/
theorem configLines_utf8Bytes {first second third : String}
    (hfirst : ∀ c ∈ first.toList, decide (c = '\n') = false)
    (hsecond : ∀ c ∈ second.toList, decide (c = '\n') = false)
    (hthird : ∀ c ∈ third.toList, decide (c = '\n') = false) :
    configLines (utf8Bytes (first ++ "\n" ++ second ++ "\n" ++ third))
      = [first.toList, second.toList, third.toList] := by
  have htext : (first ++ "\n" ++ second ++ "\n" ++ third).toList
      = first.toList ++ '\n' :: (second.toList ++ '\n' :: third.toList) := by
    have hbreak : "\n".toList = ['\n'] := rfl
    simp only [String.toList_append, hbreak, List.append_assoc, List.singleton_append]
    rfl
  have hlines : Text.splitChars (fun c => decide (c = '\n'))
      (first ++ "\n" ++ second ++ "\n" ++ third).toList
        = [first.toList, second.toList, third.toList] := by
    rw [htext, Text.splitChars_append_cons hfirst (by decide),
      Text.splitChars_append_cons hsecond (by decide), Text.splitChars_of_forall_not hthird]
  unfold configLines utf8Bytes
  rw [Utf8.decodeLossy_encode, hlines]
  rfl

/-! ## The tokens for managed apps -/

/-- The text of a managed app. -/
def tokenText (uid : Nat) : String := padFive uid ++ "uid" ++ toString uid

/-- A token is written for uids of up to five digits. -/
theorem managedToken_eq_ok {record : ManagerAppConfigRecord} {token : String}
    (h : managedToken record = .ok token) :
    record.uid ≤ legacyXposedMaxUid ∧ token = tokenText record.uid := by
  unfold managedToken at h
  split at h
  · cases h
  · next hle =>
    exact ⟨Nat.le_of_not_lt hle, (Except.ok.inj h).symm⟩

/-- If all tokens are written, all uids have at most five digits. -/
theorem mapM_managedToken_eq_ok {records : List ManagerAppConfigRecord} {tokens : List String}
    (h : records.mapM managedToken = .ok tokens) :
    (∀ record ∈ records, record.uid ≤ legacyXposedMaxUid)
      ∧ tokens = records.map fun record => tokenText record.uid := by
  induction records generalizing tokens with
  | nil =>
    cases h
    exact ⟨fun record hrecord => (by cases hrecord), rfl⟩
  | cons record records ih =>
    rw [List.mapM_cons] at h
    cases htoken : managedToken record with
    | error e =>
      rw [htoken] at h
      cases h
    | ok token =>
      cases hrest : records.mapM managedToken with
      | error e =>
        rw [htoken, hrest] at h
        cases h
      | ok rest =>
        rw [htoken, hrest] at h
        cases h
        obtain ⟨hle, rfl⟩ := managedToken_eq_ok htoken
        obtain ⟨hall, rfl⟩ := ih hrest
        exact ⟨List.forall_mem_cons.mpr ⟨hle, hall⟩, rfl⟩

/-- The tokens of such uids are all written. -/
theorem mapM_managedToken_ok {records : List ManagerAppConfigRecord}
    (h : ∀ record ∈ records, record.uid ≤ legacyXposedMaxUid) :
    records.mapM managedToken = .ok (records.map fun record => tokenText record.uid) := by
  induction records with
  | nil => rfl
  | cons record records ih =>
    have htoken : managedToken record = .ok (tokenText record.uid) := by
      unfold managedToken
      rw [if_neg (Nat.not_lt.mpr (h record List.mem_cons_self))]
      rfl
    rw [List.mapM_cons, htoken, ih fun r hr => h r (List.mem_cons_of_mem _ hr)]
    rfl

/-- Padding puts zeros before the digits, up to five in all. -/
theorem padFive_toList (n : Nat) :
    (padFive n).toList = List.replicate (5 - (Nat.toDigits 10 n).length) '0' ++ Nat.toDigits 10 n := by
  unfold padFive
  rw [String.toList_append, String.toList_ofList, toList_natToString,
    ← String.length_toList, toList_natToString]

/-- Five digits need no padding. -/
theorem padFive_of_five_digits {n : Nat} (h : 10000 ≤ n) : (padFive n).toList = Nat.toDigits 10 n := by
  have hlength : ¬ (Nat.toDigits 10 n).length ≤ 4 := by
    rw [Nat.length_toDigits_le_iff (by omega) (by omega)]
    omega
  have hpad : 5 - (Nat.toDigits 10 n).length = 0 := by omega
  rw [padFive_toList, hpad]
  rfl

/-- A padded number consists of digits. -/
theorem isDigit_of_mem_padFive {n : Nat} {c : Char} (h : c ∈ (padFive n).toList) :
    c.isDigit = true := by
  rw [padFive_toList] at h
  cases List.mem_append.mp h with
  | inl hpad =>
    rw [List.eq_of_mem_replicate hpad]
    rfl
  | inr hdigit => exact Text.isDigit_of_mem_toDigits hdigit

/-- A token is the padded uid, the letters `uid`, and the uid as it is. -/
theorem tokenText_toList (n : Nat) :
    (tokenText n).toList = (padFive n).toList ++ ("uid".toList ++ Nat.toDigits 10 n) := by
  unfold tokenText
  rw [String.toList_append, String.toList_append, toList_natToString, List.append_assoc]

/-- A padded number is not empty. -/
theorem padFive_ne_nil (n : Nat) : (padFive n).toList ≠ [] := by
  rw [padFive_toList]
  intro h
  exact Nat.toDigits_ne_nil (List.append_eq_nil_iff.mp h).2

/-- A token of the payload is one for the hook. -/
theorem isToken_tokenText (n : Nat) : IsToken (tokenText n).toList := by
  rw [tokenText_toList]
  apply IsToken.append
  · exact ⟨padFive_ne_nil n, fun c hc => toNat_of_isDigit (isDigit_of_mem_padFive hc)⟩
  · intro c hc
    cases List.mem_append.mp hc with
    | inl huid =>
      have hchars : c = 'u' ∨ c = 'i' ∨ c = 'd' := by simpa using huid
      rcases hchars with rfl | rfl | rfl <;> decide
    | inr hdigit => exact toNat_of_isDigit (Text.isDigit_of_mem_toDigits hdigit)

/-- The hook takes the digits of a number for a decimal. -/
theorem isDecimal_toDigits (n : Nat) : isDecimal (Nat.toDigits 10 n) = true := by
  unfold isDecimal
  have hne : (Nat.toDigits 10 n).isEmpty = false := List.isEmpty_eq_false_iff.mpr Nat.toDigits_ne_nil
  have hall : (Nat.toDigits 10 n).all Char.isDigit = true :=
    List.all_eq_true.mpr fun c hc => Text.isDigit_of_mem_toDigits hc
  rw [hne, hall]
  rfl

/-- And it reads that number from them. -/
theorem parseInt_toDigits {n : Nat} (h : n ≤ legacyXposedMaxUid) :
    parseInt (Nat.toDigits 10 n) = .ok (n : Int) := by
  have hbound : (n : Int) < 2 ^ (32 - 1) := by
    have : legacyXposedMaxUid = 99999 := rfl
    omega
  have htext : String.ofList (Nat.toDigits 10 n) = toString n := by
    rw [← toList_natToString, String.ofList_toList]
  unfold parseInt
  rw [htext, Text.parseSigned_natCast hbound]

/-! ## What the hook makes of them -/

/-- The letters `uid` come once in a token, between the two uids. -/
theorem splitOnce_tokenText (n : Nat) :
    Text.splitOnceChars "uid".toList (tokenText n).toList
      = some ((padFive n).toList, Nat.toDigits 10 n) := by
  rw [tokenText_toList]
  apply Text.splitOnceChars_append (by decide)
  intro c hc hhead
  have hu : c = 'u' := by simpa [eq_comm] using hhead
  subst hu
  exact absurd (isDigit_of_mem_padFive hc) (by decide)

/-- A token of an app uid adds that uid to the managed apps, since five digits need no
    padding, so both uids of the token are equal. -/
theorem addManagedApp_ok {n : Nat} (managed : ManagedApps) (hlow : 10000 ≤ n)
    (hhigh : n ≤ legacyXposedMaxUid) :
    ∃ managed', addManagedApp managed (tokenText n).toList = .ok managed'
      ∧ managed'.apps = managed.apps.add n := by
  have hcontains : (managed.apps.add n).contains n = true :=
    BucketSet.contains_add.mpr (.inr ⟨rfl, by show (10000 : Int) ≤ n; omega⟩)
  have hne : (Nat.toDigits 10 n).isEmpty = false := List.isEmpty_eq_false_iff.mpr Nat.toDigits_ne_nil
  have hdecimal := isDecimal_toDigits n
  have hparse := parseInt_toDigits hhigh
  unfold addManagedApp
  rw [splitOnce_tokenText, padFive_of_five_digits hlow]
  simp only [hne, hdecimal, hparse]
  simp [hcontains, bind, Except.bind, pure, Except.pure]

/-- A uid of less than five digits is padded, and then either differs from
    what follows the separator or is no uid of an app. -/
theorem addManagedApp_error {n : Nat} (managed : ManagedApps) (h : n < 10000) :
    ∃ e, addManagedApp managed (tokenText n).toList = .error e := by
  unfold addManagedApp
  rw [splitOnce_tokenText]
  dsimp only
  split
  · exact ⟨_, rfl⟩
  · split
    · exact ⟨_, rfl⟩
    · next hcheck =>
      have hsame : (padFive n).toList = Nat.toDigits 10 n := by
        by_contra hdiffer
        exact hcheck (by simp [hdiffer])
      have hparse := parseInt_toDigits (n := n) (by show n ≤ 99999; omega)
      have hnot : (managed.apps.add n).contains n = false := by
        unfold BucketSet.contains
        have hlow : decide (uidMin ≤ (n : Int)) = false := by
          apply decide_eq_false
          show ¬ (10000 : Int) ≤ n
          omega
        rw [hlow]
        rfl
      rw [hsame, hparse]
      refine ⟨s!"managed UID rejected: {(n : Int)}", ?_⟩
      simp [hnot, bind, Except.bind, throw, throwThe, MonadExceptOf.throw]

/-- A managed uid is added to the permissive apps. -/
theorem addPermissiveApp_ok {n : Nat} {managed : BucketSet} (permissive : BucketSet)
    (hmanaged : managed.contains n = true) (hlow : 10000 ≤ n) (hhigh : n ≤ legacyXposedMaxUid) :
    addPermissiveApp managed permissive (Nat.toDigits 10 n) = .ok (permissive.add n) := by
  have hcontains : (permissive.add n).contains n = true :=
    BucketSet.contains_add.mpr (.inr ⟨rfl, by show (10000 : Int) ≤ n; omega⟩)
  have hdecimal := isDecimal_toDigits n
  have hparse := parseInt_toDigits hhigh
  unfold addPermissiveApp
  simp only [hdecimal, hparse]
  simp [hmanaged, hcontains, bind, Except.bind, pure, Except.pure]

/-- The records that the daemon sends. -/
def sentRecords (records : List ManagerAppConfigRecord) : List ManagerAppConfigRecord :=
  records.filter fun record => record.mode ≠ 40 && record.mode ≠ 50

/-- The settings as the hook keeps them. -/
def settingsAsInts (settings : Bytes) : List Int := settings.map fun value => (value.toNat : Int)

/-- The payload that the daemon writes, if it writes one: the settings, the managed apps
    and the permissive ones, a line each. -/
theorem encodeXposedConfigPayload_eq_ok {settings payload : Bytes}
    {records : List ManagerAppConfigRecord} (hrange : ∀ record ∈ records, record.InRange)
    (h : encodeXposedConfigPayload settings (encodeAppConfig records) = .ok payload) :
    (∀ record ∈ sentRecords records, record.uid ≤ legacyXposedMaxUid)
      ∧ payload = utf8Bytes (" ".intercalate (settings.map fun value => toString value.toNat)
          ++ "\n" ++ payloadLine ((sentRecords records).map fun record => tokenText record.uid)
          ++ "\n" ++ payloadLine (((sentRecords records).filter (·.permissive)).map
            fun record => toString record.uid)) := by
  unfold encodeXposedConfigPayload at h
  rw [decodeAppConfig_encodeAppConfig hrange] at h
  dsimp only [bind, Except.bind] at h
  split at h
  · cases h
  · next managed hmanaged =>
    obtain ⟨hall, rfl⟩ := mapM_managedToken_eq_ok hmanaged
    exact ⟨hall, (Except.ok.inj h).symm⟩

/-- Only a uid that is too long keeps a configuration from being written. -/
theorem encodeXposedConfigPayload_ok {records : List ManagerAppConfigRecord} (settings : Bytes)
    (hrange : ∀ record ∈ records, record.InRange)
    (h : ∀ record ∈ sentRecords records, record.uid ≤ legacyXposedMaxUid) :
    ∃ payload, encodeXposedConfigPayload settings (encodeAppConfig records) = .ok payload := by
  unfold encodeXposedConfigPayload
  rw [decodeAppConfig_encodeAppConfig hrange]
  have hmanaged := mapM_managedToken_ok h
  unfold sentRecords at hmanaged
  dsimp only [bind, Except.bind]
  rw [hmanaged]
  exact ⟨_, rfl⟩

/-- The hook reads the settings as they were written. -/
theorem parseSettings_ok {settings : Bytes} (current : HookSettings) (h : settings.length = 256) :
    ∃ parsed, parseSettings current (settings.map fun value => Nat.toDigits 10 value.toNat)
        = .ok parsed
      ∧ parsed.values = settingsAsInts settings := by
  have hparse : ∀ values : Bytes,
      (values.map fun value => Nat.toDigits 10 value.toNat).mapM parseInt
        = .ok (settingsAsInts values) := by
    intro values
    induction values with
    | nil => rfl
    | cons value values ih =>
      have hvalue := parseInt_toDigits (n := value.toNat) (by
        have hbyte := value.toNat_lt
        show value.toNat ≤ 99999
        omega)
      rw [List.map_cons, List.mapM_cons, hvalue, ih]
      rfl
  have hlength : (settingsAsInts settings).length = 256 := by
    unfold settingsAsInts
    rw [List.length_map, h]
  refine ⟨current.overwrite (settingsAsInts settings) (by omega), ?_, ?_⟩
  · unfold parseSettings
    rw [hparse settings]
    simp [h, hlength, bind, Except.bind, pure, Except.pure]
  · show settingsAsInts settings ++ current.values.drop (settingsAsInts settings).length = _
    rw [hlength, List.drop_eq_nil_of_le (by rw [current.length]), List.append_nil]

/-- The payload as the hook sees it: what is left to do is to take its tokens. -/
theorem parseConfig_payload {settings payload : Bytes} {records : List ManagerAppConfigRecord}
    (current : HookSettings) (hlength : settings.length = 256)
    (hrange : ∀ record ∈ records, record.InRange)
    (h : encodeXposedConfigPayload settings (encodeAppConfig records) = .ok payload) :
    ∃ parsed, parsed.values = settingsAsInts settings
      ∧ parseConfig current payload = (do
        let managed ← ((sentRecords records).map fun record => (tokenText record.uid).toList).foldlM
          addManagedApp ⟨.empty, ∅, ∅⟩
        let permissive ← (((sentRecords records).filter (·.permissive)).map
          fun record => Nat.toDigits 10 record.uid).foldlM (addPermissiveApp managed.apps) .empty
        return ⟨parsed, managed, permissive⟩) := by
  obtain ⟨hmax, rfl⟩ := encodeXposedConfigPayload_eq_ok hrange h
  obtain ⟨parsed, hparsed, hvalues⟩ := parseSettings_ok current hlength
  refine ⟨parsed, hvalues, ?_⟩
  have hsettingsLine : " ".intercalate (settings.map fun value => toString value.toNat)
      = payloadLine (settings.map fun value => toString value.toNat) := by
    have hne : (settings.map fun value => toString value.toNat).isEmpty = false := by
      cases hsettings : settings with
      | nil =>
        rw [hsettings] at hlength
        cases hlength
      | cons value values => rfl
    unfold payloadLine
    rw [hne]
    rfl
  have hdigits : ∀ token ∈ settings.map fun value => toString value.toNat, IsToken token.toList := by
    intro token htoken
    obtain ⟨value, -, rfl⟩ := List.mem_map.mp htoken
    exact isToken_toString value.toNat
  -- Every element of the three lines is a token, so the lines split as they were joined.
  have hmanaged : ∀ token ∈ (sentRecords records).map fun record => tokenText record.uid,
      IsToken token.toList := by
    intro token htoken
    obtain ⟨record, -, rfl⟩ := List.mem_map.mp htoken
    exact isToken_tokenText record.uid
  -- The third line is that of the permissive ones among the managed apps.
  have hpermissive : ∀ token ∈ ((sentRecords records).filter (·.permissive)).map
      fun record => toString record.uid, IsToken token.toList := by
    intro token htoken
    obtain ⟨record, -, rfl⟩ := List.mem_map.mp htoken
    exact isToken_toString record.uid
  rw [hsettingsLine]
  unfold parseConfig
  rw [configLines_utf8Bytes (fun c hc => not_break_of_mem_payloadLine hdigits hc)
    (fun c hc => not_break_of_mem_payloadLine hmanaged hc)
    (fun c hc => not_break_of_mem_payloadLine hpermissive hc)]
  dsimp only
  unfold parseConfigLines
  dsimp only
  rw [splitConfigLine_payloadLine hdigits, splitConfigLine_payloadLine hmanaged,
    splitConfigLine_payloadLine hpermissive]
  simp only [List.map_map, Function.comp_def, toList_natToString, hparsed]
  rfl

/-! ## The round trip -/

/-- What the hook should have of a configuration: every setting, the uids that a record
    controls, and among them those that a record calls permissive. -/
structure TakesConfig (settings : Bytes) (records : List ManagerAppConfigRecord) (reply : Int)
    (config : HookConfig) : Prop where
  accepted   : reply = replySuccess
  settings   : config.settings.values = settingsAsInts settings
  managed    : ∀ uid : Int, config.managedApp.contains uid = true
    ↔ ∃ record ∈ records, isControlPolicyMode record.mode = true ∧ (record.uid : Int) = uid
  permissive : ∀ uid : Int, config.permissive.contains uid = true
    ↔ ∃ record ∈ records, isControlPolicyMode record.mode = true ∧ record.permissive = true
      ∧ (record.uid : Int) = uid

/-- A list of records that the hook understands as the daemon means it. -/
def SuitsHook (records : List ManagerAppConfigRecord) : Prop :=
  ∀ record ∈ records, record.mode ≠ 40 → record.mode ≠ 50 →
    10000 ≤ record.uid
      ∧ (∃ other ∈ records, other.uid = record.uid ∧ isControlPolicyMode other.mode = true)
      ∧ (record.permissive = true → ∃ other ∈ records, other.uid = record.uid
        ∧ isControlPolicyMode other.mode = true ∧ other.permissive = true)

/-- A set that is built up contains what was added. -/
theorem contains_foldl_add {records : List ManagerAppConfigRecord} {set : BucketSet} {uid : Int}
    (h : ∀ record ∈ records, 10000 ≤ record.uid) :
    (records.foldl (fun set record => set.add record.uid) set).contains uid = true
      ↔ set.contains uid = true ∨ ∃ record ∈ records, (record.uid : Int) = uid := by
  induction records generalizing set with
  | nil => simp
  | cons record records ih =>
    have hrecord := h record List.mem_cons_self
    have hmin : uidMin ≤ (record.uid : Int) := by
      show (10000 : Int) ≤ record.uid
      omega
    rw [List.foldl_cons, ih fun r hr => h r (List.mem_cons_of_mem _ hr), BucketSet.contains_add,
      or_assoc]
    simp only [hmin, and_true, List.exists_mem_cons_iff, eq_comm]

/-- All tokens together give the managed apps of the records. -/
theorem addManagedApps_ok {records : List ManagerAppConfigRecord}
    (hlow : ∀ record ∈ records, 10000 ≤ record.uid)
    (hhigh : ∀ record ∈ records, record.uid ≤ legacyXposedMaxUid) :
    ∃ managed, (records.map fun record => (tokenText record.uid).toList).foldlM
        addManagedApp ⟨.empty, ∅, ∅⟩ = .ok managed
      ∧ ∀ uid : Int, managed.apps.contains uid = true
        ↔ ∃ record ∈ records, (record.uid : Int) = uid := by
  have hstep : ∀ managed, ∀ record ∈ records, ∃ managed',
      addManagedApp managed (tokenText record.uid).toList = .ok managed'
        ∧ managed'.apps = managed.apps.add record.uid := by
    intro managed record hrecord
    exact addManagedApp_ok managed (hlow record hrecord) (hhigh record hrecord)
  obtain ⟨managed, hfold, hview⟩ := foldlM_eq_ok
    (fun managed (record : ManagerAppConfigRecord) =>
      addManagedApp managed (tokenText record.uid).toList)
    ManagedApps.apps (fun set record => set.add record.uid) ⟨.empty, ∅, ∅⟩ hstep
  refine ⟨managed, ?_, ?_⟩
  · rw [List.foldlM_map]
    exact hfold
  · intro uid
    rw [hview, contains_foldl_add hlow, BucketSet.contains_empty]
    simp

/-- Likewise the numbers of the last line give the permissive ones. -/
theorem addPermissiveApps_ok {records : List ManagerAppConfigRecord} {managed : BucketSet}
    (hmanaged : ∀ record ∈ records, managed.contains record.uid = true)
    (hlow : ∀ record ∈ records, 10000 ≤ record.uid)
    (hhigh : ∀ record ∈ records, record.uid ≤ legacyXposedMaxUid) :
    ∃ permissive, (records.map fun record => Nat.toDigits 10 record.uid).foldlM
        (addPermissiveApp managed) .empty = .ok permissive
      ∧ ∀ uid : Int, permissive.contains uid = true
        ↔ ∃ record ∈ records, (record.uid : Int) = uid := by
  have hstep : ∀ permissive, ∀ record ∈ records, ∃ permissive',
      addPermissiveApp managed permissive (Nat.toDigits 10 record.uid) = .ok permissive'
        ∧ permissive' = permissive.add record.uid := by
    intro permissive record hrecord
    exact ⟨_, addPermissiveApp_ok permissive (hmanaged record hrecord) (hlow record hrecord)
      (hhigh record hrecord), rfl⟩
  obtain ⟨permissive, hfold, hview⟩ := foldlM_eq_ok
    (fun permissive (record : ManagerAppConfigRecord) =>
      addPermissiveApp managed permissive (Nat.toDigits 10 record.uid))
    id (fun set record => set.add record.uid) BucketSet.empty hstep
  refine ⟨permissive, ?_, ?_⟩
  · rw [List.foldlM_map]
    exact hfold
  · intro uid
    have hset : permissive = records.foldl (fun set record => set.add record.uid) .empty := hview
    rw [hset, contains_foldl_add hlow, BucketSet.contains_empty]
    simp

/-- The hook takes what it is sent as soon as every uid is one of an app. -/
theorem parseConfig_payload_ok {settings payload : Bytes} {records : List ManagerAppConfigRecord}
    (current : HookSettings) (hlength : settings.length = 256)
    (hrange : ∀ record ∈ records, record.InRange)
    (h : encodeXposedConfigPayload settings (encodeAppConfig records) = .ok payload)
    (hlow : ∀ record ∈ sentRecords records, 10000 ≤ record.uid) :
    ∃ parsed, parseConfig current payload = .ok parsed
      ∧ parsed.settings.values = settingsAsInts settings
      ∧ (∀ uid : Int, parsed.managed.apps.contains uid = true
        ↔ ∃ record ∈ sentRecords records, (record.uid : Int) = uid)
      ∧ ∀ uid : Int, parsed.permissive.contains uid = true
        ↔ ∃ record ∈ sentRecords records, record.permissive = true ∧ (record.uid : Int) = uid := by
  obtain ⟨newSettings, hsettings, hparse⟩ := parseConfig_payload current hlength hrange h
  have hhigh := (encodeXposedConfigPayload_eq_ok hrange h).1
  obtain ⟨managed, hmanaged, hmanagedIff⟩ := addManagedApps_ok hlow hhigh
  have hfilter : ∀ record ∈ (sentRecords records).filter (·.permissive),
      record ∈ sentRecords records := fun record hrecord => (List.mem_filter.mp hrecord).1
  obtain ⟨permissive, hpermissive, hpermissiveIff⟩ := addPermissiveApps_ok
    (fun record hrecord => (hmanagedIff record.uid).mpr ⟨record, hfilter record hrecord, rfl⟩)
    (fun record hrecord => hlow record (hfilter record hrecord))
    (fun record hrecord => hhigh record (hfilter record hrecord))
  refine ⟨⟨newSettings, managed, permissive⟩, ?_, hsettings, hmanagedIff, ?_⟩
  · rw [hparse, hmanaged]
    dsimp only [bind, Except.bind]
    rw [hpermissive]
    rfl
  · intro uid
    rw [hpermissiveIff uid]
    simp only [List.mem_filter, and_assoc]

/-- One uid that is not an app's, and the hook rejects all of it. -/
theorem parseConfig_payload_error {settings payload : Bytes}
    {records : List ManagerAppConfigRecord} {record : ManagerAppConfigRecord}
    (current : HookSettings) (hlength : settings.length = 256)
    (hrange : ∀ record ∈ records, record.InRange)
    (h : encodeXposedConfigPayload settings (encodeAppConfig records) = .ok payload)
    (hrecord : record ∈ sentRecords records) (hlow : record.uid < 10000) :
    ∃ e, parseConfig current payload = .error e := by
  obtain ⟨newSettings, -, hparse⟩ := parseConfig_payload current hlength hrange h
  obtain ⟨e, he⟩ := foldlM_eq_error
    (List.mem_map_of_mem (f := fun record => (tokenText record.uid).toList) hrecord)
    (⟨.empty, ∅, ∅⟩ : ManagedApps) fun managed => addManagedApp_error managed hlow
  exact ⟨e, by rw [hparse, he]; rfl⟩

/-- A record is sent unless its mode is 40 or 50. -/
theorem mem_sentRecords {records : List ManagerAppConfigRecord} {record : ManagerAppConfigRecord} :
    record ∈ sentRecords records ↔ record ∈ records ∧ record.mode ≠ 40 ∧ record.mode ≠ 50 := by
  unfold sentRecords
  rw [List.mem_filter]
  simp

/-- The modes that are controlled are sent. -/
theorem mem_sentRecords_of_control {records : List ManagerAppConfigRecord}
    {record : ManagerAppConfigRecord} (h : record ∈ records)
    (hmode : isControlPolicyMode record.mode = true) : record ∈ sentRecords records := by
  refine mem_sentRecords.mpr ⟨h, ?_, ?_⟩
  · intro heq
    rw [heq] at hmode
    cases hmode
  · intro heq
    rw [heq] at hmode
    cases hmode

section
variable {settings payload : Bytes} {records : List ManagerAppConfigRecord} {service : HookService}

/-- A configuration that is parsed is published, once the hook is initialised. -/
theorem handleConfig_of_parsed {parsed : ParsedConfig} (initSucceeds : Bool)
    (hinit : service.config.initField = true)
    (h : parseConfig service.config.settings payload = .ok parsed) :
    handleConfig initSucceeds service payload = (replySuccess, service.publish parsed) := by
  unfold handleConfig
  rw [h]
  dsimp only
  rw [if_pos hinit]

/-- The hook takes over what the daemon sends, settings and apps, exactly if no uid below
    10000 is sent and each uid sent has a record in a control mode, which is permissive if any
    record of the uid is. -/
theorem hook_takes_config_iff (initSucceeds : Bool) (hlength : settings.length = 256)
    (hrange : ∀ record ∈ records, record.InRange)
    (hencode : encodeXposedConfigPayload settings (encodeAppConfig records) = .ok payload)
    (hinit : service.config.initField = true) :
    TakesConfig settings records (handleConfig initSucceeds service payload).1
      (handleConfig initSucceeds service payload).2.config ↔ SuitsHook records := by
  constructor
  · intro htakes
    -- One uid below 10000 makes the hook refuse the whole configuration.
    have hlow : ∀ record ∈ sentRecords records, 10000 ≤ record.uid := by
      intro record hrecord
      by_contra hnot
      obtain ⟨e, he⟩ := parseConfig_payload_error service.config.settings hlength hrange hencode
        hrecord (by omega)
      have haccepted := htakes.accepted
      unfold handleConfig at haccepted
      rw [he] at haccepted
      cases haccepted
    obtain ⟨parsed, hparsed, -, hmanaged, hpermissive⟩ :=
      parseConfig_payload_ok service.config.settings hlength hrange hencode hlow
    rw [handleConfig_of_parsed initSucceeds hinit hparsed] at htakes
    intro record hrecord hforty hfifty
    have hsent := mem_sentRecords.mpr ⟨hrecord, hforty, hfifty⟩
    refine ⟨hlow record hsent, ?_, ?_⟩
    -- The uid was sent, so the hook manages it, and then a controlled record has it.
    · obtain ⟨other, hother, hmode, huid⟩ := (htakes.managed record.uid).mp
        ((hmanaged record.uid).mpr ⟨record, hsent, rfl⟩)
      exact ⟨other, hother, Int.ofNat_inj.mp huid, hmode⟩
    · intro hflag
      obtain ⟨other, hother, hmode, hotherFlag, huid⟩ := (htakes.permissive record.uid).mp
        ((hpermissive record.uid).mpr ⟨record, hsent, hflag, rfl⟩)
      exact ⟨other, hother, Int.ofNat_inj.mp huid, hmode, hotherFlag⟩
  · intro hsuits
    -- What is sent has one of the modes that the condition speaks of.
    have hof : ∀ record ∈ sentRecords records, 10000 ≤ record.uid
        ∧ (∃ other ∈ records, other.uid = record.uid ∧ isControlPolicyMode other.mode = true)
        ∧ (record.permissive = true → ∃ other ∈ records, other.uid = record.uid
          ∧ isControlPolicyMode other.mode = true ∧ other.permissive = true) := by
      intro record hrecord
      obtain ⟨hmem, hforty, hfifty⟩ := mem_sentRecords.mp hrecord
      exact hsuits record hmem hforty hfifty
    obtain ⟨parsed, hparsed, hsettings, hmanaged, hpermissive⟩ := parseConfig_payload_ok
      service.config.settings hlength hrange hencode fun record hrecord => (hof record hrecord).1
    rw [handleConfig_of_parsed initSucceeds hinit hparsed]
    refine ⟨rfl, hsettings, ?_, ?_⟩
    · intro uid
      refine (hmanaged uid).trans ⟨?_, ?_⟩
      · intro ⟨record, hrecord, huid⟩
        obtain ⟨other, hother, hsame, hmode⟩ := (hof record hrecord).2.1
        exact ⟨other, hother, hmode, by rw [hsame, huid]⟩
      · intro ⟨record, hrecord, hmode, huid⟩
        exact ⟨record, mem_sentRecords_of_control hrecord hmode, huid⟩
    · intro uid
      refine (hpermissive uid).trans ⟨?_, ?_⟩
      · intro ⟨record, hrecord, hflag, huid⟩
        obtain ⟨other, hother, hsame, hmode, hotherFlag⟩ := (hof record hrecord).2.2 hflag
        exact ⟨other, hother, hmode, hotherFlag, by rw [hsame, huid]⟩
      · intro ⟨record, hrecord, hmode, hflag, huid⟩
        exact ⟨record, mem_sentRecords_of_control hrecord hmode, hflag, huid⟩

end

/-- A service that is ready, for the examples below. -/
def readyHookService : HookService :=
  { HookService.initial with config := { HookConfig.initial with initField := true } }

/-- One permissive app and one that is not sent. -/
theorem hook_takes_config_iff_sample :
    ∃ payload, encodeXposedConfigPayload legacyDefaultSettings
        (encodeAppConfig [⟨10123, 30, true⟩, ⟨10200, 40, false⟩]) = .ok payload
      ∧ TakesConfig legacyDefaultSettings [⟨10123, 30, true⟩, ⟨10200, 40, false⟩]
        (handleConfig false readyHookService payload).1
        (handleConfig false readyHookService payload).2.config := by
  have hrange : ∀ record ∈ [(⟨10123, 30, true⟩ : ManagerAppConfigRecord), ⟨10200, 40, false⟩],
      record.InRange := by
    simp only [ManagerAppConfigRecord.inRange_iff]
    decide
  obtain ⟨payload, hpayload⟩ := encodeXposedConfigPayload_ok legacyDefaultSettings hrange (by decide)
  refine ⟨payload, hpayload, ?_⟩
  apply (hook_takes_config_iff false length_legacyDefaultSettings hrange hpayload rfl).mpr
  unfold SuitsHook
  decide

/-- A package that shares the uid 1000 is enough for the hook to refuse the
    configuration of every app. -/
theorem padded_uid_is_refused :
    ∃ payload, encodeXposedConfigPayload legacyDefaultSettings
        (encodeAppConfig [⟨10123, 30, false⟩, ⟨1000, 30, false⟩]) = .ok payload
      ∧ (handleConfig false readyHookService payload).1 = replyFailure
      ∧ ¬ TakesConfig legacyDefaultSettings [⟨10123, 30, false⟩, ⟨1000, 30, false⟩]
        (handleConfig false readyHookService payload).1
        (handleConfig false readyHookService payload).2.config := by
  have hrange : ∀ record ∈ [(⟨10123, 30, false⟩ : ManagerAppConfigRecord), ⟨1000, 30, false⟩],
      record.InRange := by
    simp only [ManagerAppConfigRecord.inRange_iff]
    decide
  obtain ⟨payload, hpayload⟩ := encodeXposedConfigPayload_ok legacyDefaultSettings hrange (by decide)
  have hrecord : (⟨1000, 30, false⟩ : ManagerAppConfigRecord)
      ∈ sentRecords [⟨10123, 30, false⟩, ⟨1000, 30, false⟩] := by decide
  obtain ⟨e, he⟩ := parseConfig_payload_error readyHookService.config.settings
    length_legacyDefaultSettings hrange hpayload hrecord (by decide)
  have hreply : (handleConfig false readyHookService payload).1 = replyFailure := by
    unfold handleConfig
    rw [he]
  refine ⟨payload, hpayload, hreply, ?_⟩
  intro htakes
  have haccepted := htakes.accepted
  rw [hreply] at haccepted
  exact absurd haccepted (by decide)

end Freezeit
