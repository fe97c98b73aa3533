import Freezeit.Lib.SortedMap
import Freezeit.Lib.Since
import Freezeit.ManagerRequests
import Mathlib.Algebra.BigOperators.Group.List.Basic

/-! # CPU times of the managed uids

    A reply lists the uids of a snapshot with their total and with the increase
    since the total that is remembered.  The increases of a uid add up to its
    total; they are differences of counters that may also have gone back. -/

namespace Freezeit

open Prog

/-! ## Readings -/

/-- The uids that a reply may name: those with a record in another mode than 40 and 50. -/
def managedUids (appConfig : List ManagerAppConfigRecord) : List Nat :=
  (appConfig.filter fun record =>
    record.uid ≠ u32Max && record.mode ≠ 40 && record.mode ≠ 50).map ManagerAppConfigRecord.uid

/-- What a snapshot says about the managed uids. -/
def uidTimeReadings (appConfig : List ManagerAppConfigRecord) (snapshot : String) :
    List (Nat × Int) :=
  ((Text.lines snapshot).filterMap parseUidCpuTimeLine).filter fun reading =>
    (managedUids appConfig).contains reading.1 && reading.2 > 0

/-- The total that is read last for a uid. -/
def lastReading (uid : Nat) : List (Nat × Int) → Option Int
  | [] => none
  | reading :: rest => (lastReading uid rest).or (if reading.1 = uid then some reading.2 else none)

section readings
variable {uid : Nat} {readings readings' : List (Nat × Int)} {totals : SortedMap Nat Int}
  {appConfig : List ManagerAppConfigRecord} {snapshot : String}

/-- The last reading of two lists is that of the second one, if it has any. -/
theorem lastReading_append : lastReading uid (readings ++ readings')
    = (lastReading uid readings').or (lastReading uid readings) := by
  induction readings with
  | nil => rw [List.nil_append, lastReading, Option.or_none]
  | cons reading rest ih =>
    rw [List.cons_append, lastReading, ih, lastReading, Option.or_assoc]

/-- A uid that is not read has no last reading. -/
theorem lastReading_eq_none (h : ∀ reading ∈ readings, reading.1 ≠ uid) :
    lastReading uid readings = none := by
  induction readings with
  | nil => rfl
  | cons reading rest ih =>
    rw [lastReading, ih fun r hr => h r (List.mem_cons_of_mem _ hr),
      if_neg (h reading List.mem_cons_self)]
    rfl

/-- Only managed uids are read, and only positive times. -/
theorem managed_of_mem_readings {reading : Nat × Int}
    (h : reading ∈ uidTimeReadings appConfig snapshot) :
    (managedUids appConfig).contains reading.1 = true ∧ 0 < reading.2 := by
  have hkept := (List.mem_filter.mp h).2
  rw [Bool.and_eq_true, decide_eq_true_eq] at hkept
  exact hkept

/-- A parsed number lies below its bound. -/
theorem lt_of_parseUnsigned {bound n : Nat} {text : String}
    (h : Text.parseUnsigned bound text = some n) : n < bound := by
  unfold Text.parseUnsigned at h
  exact of_decide_eq_true (Option.filter_eq_some_iff.mp h).2

/-- A uid fits its `u32`, and a total is clamped to an `i32` that is not negative. -/
theorem reading_lt {reading : Nat × Int} (h : reading ∈ uidTimeReadings appConfig snapshot) :
    reading.1 < 2 ^ 32 ∧ reading.2 < 2 ^ 31 := by
  obtain ⟨line, -, hline⟩ := List.mem_filterMap.mp (List.mem_filter.mp h).1
  unfold parseUidCpuTimeLine at hline
  obtain ⟨⟨uidText, timesText⟩, -, hrest⟩ := Option.bind_eq_some_iff.mp hline
  obtain ⟨uid, huid, hrest⟩ := Option.bind_eq_some_iff.mp hrest
  split at hrest
  · simp only [Option.bind_eq_bind, Option.bind_eq_some_iff, Option.pure_def,
      Option.some.injEq] at hrest
    obtain ⟨user, -, system, -, heq⟩ := hrest
    rw [← heq]
    refine ⟨lt_of_parseUnsigned huid, ?_⟩
    show max 0 (min ((saturate 64 (user + system)).tdiv 1000) (2 ^ 31 - 1)) < 2 ^ 31
    omega
  · cases hrest

/-! ## The rows of a reply -/

/-- The row of a reading: its increase over what was known before it. -/
def uidTimeRow (known : Option Int) (reading : Nat × Int) : Nat × Int × Int :=
  (reading.1, saturate 32 (reading.2 - known.getD 0), reading.2)

/-- After the rows each uid has the total of its last reading. -/
theorem get?_uidTimeRows : (uidTimeRows readings totals).2.get? uid
    = (lastReading uid readings).or (totals.get? uid) := by
  induction readings generalizing totals with
  | nil => rfl
  | cons reading rest ih =>
    show (uidTimeRows rest (totals.insert reading.1 reading.2)).2.get? uid = _
    rw [ih, SortedMap.get?_insert, lastReading, Option.or_assoc]
    by_cases huid : reading.1 = uid
    · rw [if_pos huid, if_pos huid]
      rfl
    · rw [if_neg huid, if_neg huid]
      rfl

/-- The rows, each with the readings before it. -/
theorem mem_uidTimeRows {row : Nat × Int × Int} : row ∈ (uidTimeRows readings totals).1 ↔
    ∃ before reading after, readings = before ++ reading :: after
      ∧ row = uidTimeRow ((lastReading reading.1 before).or (totals.get? reading.1)) reading := by
  induction readings generalizing totals with
  | nil => simp [uidTimeRows]
  | cons reading rest ih =>
    show row ∈ uidTimeRow (totals.get? reading.1) reading
      :: (uidTimeRows rest (totals.insert reading.1 reading.2)).1 ↔ _
    -- What is known of a uid after the first reading, for the rest of the list.
    have hknown : ∀ (before : List (Nat × Int)) (uid : Nat),
        (lastReading uid before).or ((totals.insert reading.1 reading.2).get? uid)
          = (lastReading uid (reading :: before)).or (totals.get? uid) := by
      intro before uid
      rw [SortedMap.get?_insert, lastReading, Option.or_assoc]
      by_cases huid : reading.1 = uid
      · rw [if_pos huid, if_pos huid]
        rfl
      · rw [if_neg huid, if_neg huid]
        rfl
    rw [List.mem_cons, ih]
    constructor
    · intro h
      cases h with
      | inl hrow => exact ⟨[], reading, rest, rfl, hrow⟩
      | inr hlater =>
        obtain ⟨before, later, after, rfl, hrow⟩ := hlater
        rw [hknown] at hrow
        exact ⟨reading :: before, later, after, rfl, hrow⟩
    · intro ⟨before, later, after, hsplit, hrow⟩
      -- The row is that of the first reading, or one of a later reading.
      match before with
      | [] =>
        obtain ⟨rfl, rfl⟩ := List.cons.inj hsplit
        exact .inl hrow
      | first :: before =>
        obtain ⟨rfl, rfl⟩ := List.cons.inj hsplit
        refine .inr ⟨before, later, after, rfl, ?_⟩
        rw [hknown]
        exact hrow

/-- The increases reported for a uid, added up. -/
def increase (uid : Nat) (rows : List (Nat × Int × Int)) : Int :=
  ((rows.filter fun row => row.1 = uid).map fun row => row.2.1).sum

/-- The increases of two lists of rows add up. -/
theorem increase_append (rows rows' : List (Nat × Int × Int)) :
    increase uid (rows ++ rows') = increase uid rows + increase uid rows' := by
  unfold increase
  rw [List.filter_append, List.map_append, List.sum_append]

/-- The order of the rows does not matter to the sum, so sorting them is harmless. -/
theorem increase_perm {rows rows' : List (Nat × Int × Int)} (h : rows.Perm rows') :
    increase uid rows = increase uid rows' :=
  ((h.filter _).map _).sum_eq

/-- Totals are an `i32` that is not negative. -/
def InRange (totals : SortedMap Nat Int) : Prop :=
  ∀ uid total, totals.get? uid = some total → 0 ≤ total ∧ total < 2 ^ 31

/-- The difference of two totals in range never saturates. -/
theorem saturate_sub {a b : Int} (ha : 0 ≤ a ∧ a < 2 ^ 31) (hb : 0 ≤ b ∧ b < 2 ^ 31) :
    saturate 32 (a - b) = a - b := by
  unfold saturate
  omega

/-- A total that is missing counts as zero, which is in range too. -/
theorem InRange.getD (h : InRange totals) (uid : Nat) :
    0 ≤ (totals.get? uid).getD 0 ∧ (totals.get? uid).getD 0 < 2 ^ 31 := by
  cases hget : totals.get? uid with
  | none =>
    show (0 : Int) ≤ 0 ∧ (0 : Int) < 2 ^ 31
    omega
  | some total => exact h uid total hget

/-- A reading in range keeps the totals in range. -/
theorem InRange.insert (h : InRange totals) {reading : Nat × Int}
    (hreading : 0 ≤ reading.2 ∧ reading.2 < 2 ^ 31) :
    InRange (totals.insert reading.1 reading.2) := by
  intro uid total hget
  rw [SortedMap.get?_insert] at hget
  split at hget
  · obtain rfl := Option.some.inj hget
    exact hreading
  · exact h uid total hget

/-- So do all readings of a snapshot. -/
theorem InRange.uidTimeRows (h : InRange totals)
    (hreadings : ∀ reading ∈ readings, 0 ≤ reading.2 ∧ reading.2 < 2 ^ 31) :
    InRange (uidTimeRows readings totals).2 := by
  induction readings generalizing totals with
  | nil => exact h
  | cons reading rest ih =>
    exact ih (h.insert (hreadings reading List.mem_cons_self))
      fun r hr => hreadings r (List.mem_cons_of_mem _ hr)

/-- The increases lead from the total known before to the total known after. -/
theorem increase_uidTimeRows (h : InRange totals)
    (hreadings : ∀ reading ∈ readings, 0 ≤ reading.2 ∧ reading.2 < 2 ^ 31) :
    increase uid (uidTimeRows readings totals).1
      = ((uidTimeRows readings totals).2.get? uid).getD 0 - (totals.get? uid).getD 0 := by
  induction readings generalizing totals with
  | nil =>
    show (0 : Int) = (totals.get? uid).getD 0 - (totals.get? uid).getD 0
    omega
  | cons reading rest ih =>
    have hreading := hreadings reading List.mem_cons_self
    have hrest := ih (h.insert hreading) fun r hr => hreadings r (List.mem_cons_of_mem _ hr)
    have hrow := saturate_sub hreading (h.getD reading.1)
    show increase uid (uidTimeRow (totals.get? reading.1) reading
      :: (uidTimeRows rest (totals.insert reading.1 reading.2)).1)
        = ((uidTimeRows rest (totals.insert reading.1 reading.2)).2.get? uid).getD 0
          - (totals.get? uid).getD 0
    rw [← List.singleton_append, increase_append, hrest, SortedMap.get?_insert]
    unfold increase uidTimeRow
    rw [hrow]
    by_cases huid : reading.1 = uid
    · subst huid
      simp
    · simp [huid]

/-- The numbers of a row fit their fields. -/
theorem uidTimeRow_fits {row : Nat × Int × Int}
    (h : row ∈ (uidTimeRows (uidTimeReadings appConfig snapshot) totals).1) :
    row.1 < 2 ^ 32 ∧ (-2 ^ 31 ≤ row.2.1 ∧ row.2.1 < 2 ^ 31)
      ∧ (-2 ^ 31 ≤ row.2.2 ∧ row.2.2 < 2 ^ 31) := by
  obtain ⟨before, reading, after, hsplit, rfl⟩ := mem_uidTimeRows.mp h
  have hmem : reading ∈ uidTimeReadings appConfig snapshot := by
    rw [hsplit]
    exact List.mem_append_right _ List.mem_cons_self
  obtain ⟨huid, htotal⟩ := reading_lt hmem
  have hpositive := (managed_of_mem_readings hmem).2
  refine ⟨huid, ?_, ?_⟩
  · show -2 ^ 31 ≤ saturate 32 _ ∧ saturate 32 _ < 2 ^ 31
    unfold saturate
    omega
  · show -2 ^ 31 ≤ reading.2 ∧ reading.2 < 2 ^ 31
    omega

end readings

/-! ## The reply as bytes -/

/-- The payload of a reply: three numbers of four bytes for each row. -/
def encodeUidTimeRows (rows : List (Nat × Int × Int)) : Bytes :=
  rows.flatMap fun row => u32LeBytes row.1 ++ i32LeBytes row.2.1 ++ i32LeBytes row.2.2

/-- What the manager reads from a reply. -/
def decodeUidTimeRows : Bytes → List (Nat × Int × Int)
  | u₀ :: u₁ :: u₂ :: u₃ :: d₀ :: d₁ :: d₂ :: d₃ :: t₀ :: t₁ :: t₂ :: t₃ :: rest =>
    (u32FromLeBytes u₀ u₁ u₂ u₃, i32FromLeBytes d₀ d₁ d₂ d₃, i32FromLeBytes t₀ t₁ t₂ t₃)
      :: decodeUidTimeRows rest
  | _ => []

/-- A number that fits 32 bits is read back from its two's complement. -/
theorem i32_back {n : Int} (h : -2 ^ 31 ≤ n ∧ n < 2 ^ 31) :
    (if (n % 2 ^ 32).toNat % 2 ^ 32 < 2 ^ 31 then (((n % 2 ^ 32).toNat % 2 ^ 32 : Nat) : Int)
      else (((n % 2 ^ 32).toNat % 2 ^ 32 : Nat) : Int) - 2 ^ 32) = n := by
  split
  · omega
  · omega

/-- Rows in range are read back from the payload. -/
theorem decodeUidTimeRows_encode {rows : List (Nat × Int × Int)}
    (h : ∀ row ∈ rows, row.1 < 2 ^ 32 ∧ (-2 ^ 31 ≤ row.2.1 ∧ row.2.1 < 2 ^ 31)
      ∧ (-2 ^ 31 ≤ row.2.2 ∧ row.2.2 < 2 ^ 31)) :
    decodeUidTimeRows (encodeUidTimeRows rows) = rows := by
  induction rows with
  | nil => rfl
  | cons row rows ih =>
    obtain ⟨huid, hdelta, htotal⟩ := h row List.mem_cons_self
    have hrest := ih fun r hr => h r (List.mem_cons_of_mem _ hr)
    have hrow : encodeUidTimeRows (row :: rows)
        = (u32LeBytes row.1 ++ i32LeBytes row.2.1 ++ i32LeBytes row.2.2)
          ++ encodeUidTimeRows rows := List.flatMap_cons
    rw [hrow]
    simp only [u32LeBytes, i32LeBytes, List.cons_append, List.nil_append, decodeUidTimeRows, hrest,
      i32FromLeBytes, u32FromLeBytes_ofNat, i32_back hdelta, i32_back htotal,
      Nat.mod_eq_of_lt huid]

/-! ## Requests -/

/-- A request, and what it got. -/
structure UidTimeReply where
  appConfig : List ManagerAppConfigRecord
  snapshot  : String
  payload   : Bytes

namespace UidTimeReply

/-- The readings that the reply was made from. -/
def readings (reply : UidTimeReply) : List (Nat × Int) :=
  uidTimeReadings reply.appConfig reply.snapshot

/-- The rows that the manager app reads from the payload. -/
def rows (reply : UidTimeReply) : List (Nat × Int × Int) := decodeUidTimeRows reply.payload

/-- The uid was managed when the reply was made. -/
def Manages (reply : UidTimeReply) (uid : Nat) : Prop :=
  (managedUids reply.appConfig).contains uid = true

instance (reply : UidTimeReply) (uid : Nat) : Decidable (reply.Manages uid) :=
  inferInstanceAs (Decidable ((managedUids reply.appConfig).contains uid = true))

/-- Every reading is in range, as it is clamped when it is parsed. -/
theorem readings_inRange (reply : UidTimeReply) :
    ∀ reading ∈ reply.readings, 0 ≤ reading.2 ∧ reading.2 < 2 ^ 31 := by
  intro reading hreading
  exact ⟨(managed_of_mem_readings hreading).2.le, (reading_lt hreading).2⟩

end UidTimeReply

variable {state state' : ReadOnlyState} {replies : List UidTimeReply} {reply : UidTimeReply}
  {uid : Nat}

/-- The reply lists the rows of its readings, and the uids that are not managed
    are forgotten. -/
structure UidTimeServed (state : ReadOnlyState) (reply : UidTimeReply) (state' : ReadOnlyState) :
    Prop where
  rows   : reply.rows.Perm (uidTimeRows reply.readings state.uidTimeTotals).1
  totals : ∀ uid, state'.uidTimeTotals.get? uid =
    if reply.Manages uid then (lastReading uid reply.readings).or (state.uidTimeTotals.get? uid)
    else none

/-- A filter that does not look at its value keeps all or nothing. -/
theorem filter_const {α : Type} (o : Option α) (b : Bool) :
    o.filter (fun _ => b) = if b = true then o else none := by
  cases o with
  | none => cases b <;> rfl
  | some a => cases b <;> rfl

/-- One request as a relation: the rows of the payload are those of the readings, and the
    totals afterwards are the last ones of the managed uids. -/
theorem encodeUidTime_served {answer : Except IoError String} {payload : Bytes}
    (h : Exec (encodeUidTime state) [⟨.readUidTime state.uidTimePath, answer⟩]
      (.ok payload, state')) :
    UidTimeServed state ⟨state.appConfig, answer.toOption.getD "", payload⟩ state' := by
  obtain ⟨answer', t, hcalls, h⟩ := exec_ask_bind.mp h
  obtain ⟨hcall, rfl⟩ := List.cons.inj hcalls
  cases hcall
  dsimp only at h
  split at h
  -- With no managed uid the snapshot is not looked at, and would give no row.
  · next hempty =>
    obtain ⟨-, heq⟩ := exec_pure.mp h
    obtain ⟨hpayload, rfl⟩ := Prod.mk.inj heq
    obtain rfl := Except.ok.inj hpayload
    have hnone : managedUids state.appConfig = [] := List.isEmpty_iff.mp hempty
    have hreadings : uidTimeReadings state.appConfig (answer.toOption.getD "") = [] := by
      refine List.filter_eq_nil_iff.mpr fun reading _ => ?_
      rw [hnone]
      exact Bool.false_ne_true
    constructor
    · show List.Perm [] (uidTimeRows (uidTimeReadings _ _) _).1
      rw [hreadings]
      exact .nil
    · intro uid
      rw [if_neg]
      · rfl
      · show ¬ (managedUids state.appConfig).contains uid = true
        rw [hnone]
        exact Bool.false_ne_true
  -- Otherwise the rows are sorted and written, which only changes their order.
  · obtain ⟨-, heq⟩ := exec_pure.mp h
    obtain ⟨hpayload, rfl⟩ := Prod.mk.inj heq
    obtain rfl := Except.ok.inj hpayload
    constructor
    · show (decodeUidTimeRows (encodeUidTimeRows ((uidTimeRows (uidTimeReadings state.appConfig
        (answer.toOption.getD "")) state.uidTimeTotals).1.insertionSort _))).Perm _
      have hsorted := List.perm_insertionSort
        (fun a b : Nat × Int × Int => a.2.2 > b.2.2 ∨ a.2.2 = b.2.2 ∧ a.1 ≤ b.1)
        (uidTimeRows (uidTimeReadings state.appConfig (answer.toOption.getD ""))
          state.uidTimeTotals).1
      rw [decodeUidTimeRows_encode]
      · exact hsorted
      · intro row hrow
        exact uidTimeRow_fits (hsorted.mem_iff.mp hrow)
    · intro uid
      show ((uidTimeRows (uidTimeReadings state.appConfig (answer.toOption.getD ""))
        state.uidTimeTotals).2.retain fun uid _ =>
          (managedUids state.appConfig).contains uid).get? uid
        = if (managedUids state.appConfig).contains uid = true then
            (lastReading uid (uidTimeReadings state.appConfig (answer.toOption.getD ""))).or
              (state.uidTimeTotals.get? uid)
          else none
      rw [SortedMap.get?_retain, get?_uidTimeRows, filter_const]

/-! ## Runs -/

/-- Requests for the CPU times, and whatever else keeps the remembered totals,
    such as a change of the configuration. -/
inductive UidTimeRun : List UidTimeReply → ReadOnlyState → Prop where
  | start : ∀ {state}, state.uidTimeTotals = ∅ → UidTimeRun [] state
  | served : ∀ {replies state answer payload state'}, UidTimeRun replies state →
      Exec (encodeUidTime state) [⟨.readUidTime state.uidTimePath, answer⟩] (.ok payload, state') →
      UidTimeRun (replies ++ [⟨state.appConfig, answer.toOption.getD "", payload⟩]) state'
  | changed : ∀ {replies state state'}, UidTimeRun replies state →
      state'.uidTimeTotals = state.uidTimeTotals → UidTimeRun replies state'

/-- The total reported last, if the uid has been managed at every request since. -/
def remembered (uid : Nat) (replies : List UidTimeReply) : Option Int :=
  replies.foldl (fun last reply =>
    if reply.Manages uid then (lastReading uid reply.readings).or last else none) none

/-- What is remembered of a uid after one more reply. -/
theorem remembered_concat : remembered uid (replies ++ [reply])
    = if reply.Manages uid then (lastReading uid reply.readings).or (remembered uid replies)
      else none := by
  unfold remembered
  rw [List.foldl_append]
  rfl

/-- The increases of a reply are those over the remembered totals, up to the order of the
    rows. -/
structure Reported (earlier : List UidTimeReply) (reply : UidTimeReply) : Prop where
  rows : ∃ totals, reply.rows.Perm (uidTimeRows reply.readings totals).1 ∧ InRange totals
    ∧ ∀ uid, totals.get? uid = remembered uid earlier

/-- The state remembers the totals of its run, and every reply was made from what was
    remembered before it. -/
structure UidTimeInv (replies : List UidTimeReply) (state : ReadOnlyState) : Prop where
  totals   : ∀ uid, state.uidTimeTotals.get? uid = remembered uid replies
  inRange  : InRange state.uidTimeTotals
  reported : Everywhere Reported replies

/-- A request keeps the invariant: the totals are those that the replies so far remember. -/
theorem UidTimeInv.served (hinv : UidTimeInv replies state)
    (h : UidTimeServed state reply state') : UidTimeInv (replies ++ [reply]) state' := by
  refine ⟨?_, ?_, hinv.reported.concat ⟨_, h.rows, hinv.inRange, hinv.totals⟩⟩
  · intro uid
    rw [h.totals, remembered_concat, hinv.totals]
  · intro uid total htotal
    rw [h.totals] at htotal
    split at htotal
    · rw [← get?_uidTimeRows] at htotal
      exact hinv.inRange.uidTimeRows reply.readings_inRange uid total htotal
    · cases htotal

/-- So it holds after every run of requests. -/
theorem UidTimeRun.inv (h : UidTimeRun replies state) : UidTimeInv replies state := by
  induction h with
  | start hempty =>
    refine ⟨?_, ?_, .nil⟩
    · intro uid
      rw [hempty]
      rfl
    · intro uid total htotal
      rw [hempty] at htotal
      cases htotal
  | served _ hexec ih => exact ih.served (encodeUidTime_served hexec)
  | changed _ hkept ih =>
    refine ⟨?_, ?_, ih.reported⟩
    · rw [hkept]
      exact ih.totals
    · rw [hkept]
      exact ih.inRange

/-! ## What the increases say -/

/-- No counter goes back while its uid stays managed: a reading is not below
    the one before it. -/
def NeverFalls (replies : List UidTimeReply) : Prop :=
  Everywhere (fun earlier reply => ∀ before reading after,
    reply.readings = before ++ reading :: after →
      ((lastReading reading.1 before).or (remembered reading.1 earlier)).getD 0 ≤ reading.2) replies

/-- The uid has been managed at every request since it was first reported. -/
def ManagedSinceReported (uid : Nat) (replies : List UidTimeReply) : Prop :=
  ∀ before reply after, replies = before ++ reply :: after →
    lastReading uid reply.readings ≠ none → ∀ later ∈ after, later.Manages uid

/-- The increases of a uid over all replies sum up to its last reading. -/
def AddsUp (uid : Nat) (replies : List UidTimeReply) : Prop :=
  increase uid (replies.flatMap UidTimeReply.rows)
    = (lastReading uid (replies.flatMap UidTimeReply.readings)).getD 0

/-- The increases of a reply are nonnegative exactly if no reading falls below what was
    known of its uid. -/
theorem Reported.nonneg_iff {earlier : List UidTimeReply} (h : Reported earlier reply) :
    (∀ row ∈ reply.rows, 0 ≤ row.2.1) ↔ ∀ before reading after,
      reply.readings = before ++ reading :: after →
        ((lastReading reading.1 before).or (remembered reading.1 earlier)).getD 0 ≤ reading.2 := by
  obtain ⟨totals, hperm, hinrange, htotals⟩ := h.rows
  have hrow : ∀ before reading after, reply.readings = before ++ reading :: after →
      (uidTimeRow ((lastReading reading.1 before).or (totals.get? reading.1)) reading).2.1
        = reading.2 - ((lastReading reading.1 before).or (remembered reading.1 earlier)).getD 0 := by
    intro before reading after hsplit
    have hall := reply.readings_inRange
    rw [hsplit] at hall
    have hreading := hall reading (List.mem_append_right _ List.mem_cons_self)
    have hbefore : InRange (uidTimeRows before totals).2 :=
      hinrange.uidTimeRows fun r hr => hall r (List.mem_append_left _ hr)
    have hknown := hbefore.getD reading.1
    rw [get?_uidTimeRows] at hknown
    rw [← htotals]
    exact saturate_sub hreading hknown
  constructor
  -- Each reading has its row, and each row its reading, so the signs can be compared.
  · intro hnonneg before reading after hsplit
    have hmem := hperm.mem_iff.mpr (mem_uidTimeRows.mpr ⟨before, reading, after, hsplit, rfl⟩)
    have hdelta := hnonneg _ hmem
    rw [hrow before reading after hsplit] at hdelta
    omega
  · intro hrising row hmem
    obtain ⟨before, reading, after, hsplit, rfl⟩ := mem_uidTimeRows.mp (hperm.mem_iff.mp hmem)
    rw [hrow before reading after hsplit]
    have hle := hrising before reading after hsplit
    omega

/-- A run without its last reply has the uid managed just as long. -/
theorem ManagedSinceReported.init (h : ManagedSinceReported uid (replies ++ [reply])) :
    ManagedSinceReported uid replies := by
  intro before earlier after hsplit hreported later hlater
  refine h before earlier (after ++ [reply]) ?_ hreported later (List.mem_append_left _ hlater)
  rw [hsplit, List.append_assoc, List.cons_append]

/-- A uid that is not managed has no readings. -/
theorem lastReading_of_not_manages (h : ¬ reply.Manages uid) :
    lastReading uid reply.readings = none := by
  apply lastReading_eq_none
  intro reading hreading heq
  exact h (heq ▸ (managed_of_mem_readings hreading).1)

/-- If its last request did not manage the uid, it was never reported. -/
theorem ManagedSinceReported.unreported (h : ManagedSinceReported uid (replies ++ [reply]))
    (hunmanaged : ¬ reply.Manages uid) :
    lastReading uid (replies.flatMap UidTimeReply.readings) = none := by
  apply lastReading_eq_none
  intro reading hreading heq
  obtain ⟨earlier, hearlier, hmem⟩ := List.mem_flatMap.mp hreading
  obtain ⟨before, after, rfl⟩ := List.append_of_mem hearlier
  refine hunmanaged (h before earlier (after ++ [reply]) (by simp) ?_ reply (by simp))
  obtain ⟨first, last, hsplit⟩ := List.append_of_mem hmem
  rw [hsplit, lastReading_append, lastReading, if_pos heq]
  cases lastReading uid last with
  | none       => exact Option.some_ne_none _
  | some total => exact Option.some_ne_none _

/-- The remembered total is the one reported last, and the sum of the increases. -/
theorem addsUp_of_reported (h : Everywhere Reported replies)
    (hmanaged : ManagedSinceReported uid replies) :
    remembered uid replies = lastReading uid (replies.flatMap UidTimeReply.readings)
      ∧ AddsUp uid replies := by
  -- The induction takes the last reply off, since a reply depends on those before it.
  induction replies using List.reverseRecOn with
  | nil => exact ⟨rfl, rfl⟩
  | append_singleton earlier reply ih =>
    obtain ⟨hlast, hsum⟩ := ih h.init hmanaged.init
    obtain ⟨totals, hperm, hinrange, htotals⟩ := (h earlier reply [] rfl).rows
    have hincrease : increase uid (uidTimeRows reply.readings totals).1
        = ((uidTimeRows reply.readings totals).2.get? uid).getD 0 - (totals.get? uid).getD 0 :=
      increase_uidTimeRows hinrange reply.readings_inRange
    rw [get?_uidTimeRows, htotals, hlast, ← increase_perm hperm] at hincrease
    have hreadings : (earlier ++ [reply]).flatMap UidTimeReply.readings
        = earlier.flatMap UidTimeReply.readings ++ reply.readings := by simp
    have hrows : (earlier ++ [reply]).flatMap UidTimeReply.rows
        = earlier.flatMap UidTimeReply.rows ++ reply.rows := by simp
    constructor
    · rw [remembered_concat, hreadings, lastReading_append, hlast]
      by_cases hmanages : reply.Manages uid
      -- A managed uid is remembered with its last reading in this reply or in an earlier
      -- one.
      · rw [if_pos hmanages]
      · rw [if_neg hmanages, lastReading_of_not_manages hmanages, hmanaged.unreported hmanages]
        rfl
    · unfold AddsUp at hsum ⊢
      rw [hrows, increase_append, hsum, hincrease, hreadings, lastReading_append]
      omega

/-- Every increase is at least 0 exactly when no counter goes back while its
    uid stays managed; and the increases of a uid that stays managed add up to
    its last total in any case. -/
theorem uid_time_increases_iff (h : UidTimeRun replies state) :
    ((∀ reply ∈ replies, ∀ row ∈ reply.rows, 0 ≤ row.2.1)
      ∧ ∀ uid, ManagedSinceReported uid replies → AddsUp uid replies) ↔ NeverFalls replies := by
  have hreported := h.inv.reported
  constructor
  · intro ⟨hnonneg, _⟩ earlier reply later hsplit
    apply (hreported earlier reply later hsplit).nonneg_iff.mp
    apply hnonneg
    rw [hsplit]
    exact List.mem_append_right _ List.mem_cons_self
  · intro hrising
    refine ⟨?_, fun uid hmanaged => (addsUp_of_reported hreported hmanaged).2⟩
    intro reply hreply
    obtain ⟨earlier, later, hsplit⟩ := List.append_of_mem hreply
    exact (hreported earlier reply later hsplit).nonneg_iff.mpr (hrising earlier reply later hsplit)

/-! ### A sample -/

/-- One managed app. -/
def sampleUidState : ReadOnlyState :=
  { ReadOnlyState.default with appConfig := [⟨10042, 30, false⟩] }

/-- The reply and the state after a snapshot, for a state that manages something. -/
def serveUidTimes (state : ReadOnlyState) (snapshot : String) : UidTimeReply × ReadOnlyState :=
  let (rows, totals) := uidTimeRows (uidTimeReadings state.appConfig snapshot) state.uidTimeTotals
  let sorted := rows.insertionSort fun a b => a.2.2 > b.2.2 ∨ a.2.2 = b.2.2 ∧ a.1 ≤ b.1
  (⟨state.appConfig, snapshot, encodeUidTimeRows sorted⟩,
    { state with
      uidTimeTotals := totals.retain fun uid _ => (managedUids state.appConfig).contains uid })

/-- A snapshot can be served after any run. -/
theorem UidTimeRun.serve (h : UidTimeRun replies state)
    (hmanaged : ¬ (managedUids state.appConfig).isEmpty = true) (snapshot : String) :
    UidTimeRun (replies ++ [(serveUidTimes state snapshot).1]) (serveUidTimes state snapshot).2 := by
  have hexec : Exec (encodeUidTime state) [⟨.readUidTime state.uidTimePath, .ok snapshot⟩]
      (.ok (serveUidTimes state snapshot).1.payload, (serveUidTimes state snapshot).2) := by
    refine exec_ask_bind.mpr ⟨.ok snapshot, [], rfl, ?_⟩
    unfold managedUids at hmanaged
    dsimp only
    rw [if_neg hmanaged]
    exact .done _
  exact .served h hexec

/-- The replies to given snapshots, one after the other. -/
def sampleUidReplies (snapshots : List String) : List UidTimeReply × ReadOnlyState :=
  snapshots.foldl (fun served snapshot =>
    (served.1 ++ [(serveUidTimes served.2 snapshot).1], (serveUidTimes served.2 snapshot).2))
    ([], sampleUidState)

/-- They are a run. -/
theorem sampleUidReplies_run (snapshots : List String) :
    UidTimeRun (sampleUidReplies snapshots).1 (sampleUidReplies snapshots).2
      ∧ (sampleUidReplies snapshots).2.appConfig = sampleUidState.appConfig := by
  induction snapshots using List.reverseRecOn with
  | nil => exact ⟨.start rfl, rfl⟩
  | append_singleton snapshots snapshot ih =>
    unfold sampleUidReplies at ih ⊢
    rw [List.foldl_append]
    refine ⟨ih.1.serve ?_ snapshot, ih.2⟩
    rw [ih.2]
    decide

/-- The uid is absent from the second snapshot. -/
theorem uid_time_increases_sample :
    NeverFalls (sampleUidReplies ["10042: 1000 2000\n", "", "10042: 4000 4000\n"]).1 := by
  have hrun := (sampleUidReplies_run ["10042: 1000 2000\n", "", "10042: 4000 4000\n"]).1
  refine (uid_time_increases_iff hrun).mp ⟨by decide +kernel, ?_⟩
  intro uid hmanaged
  exact (addsUp_of_reported hrun.inv.reported hmanaged).2

/-- A counter that was reset is reported with a negative increase. -/
theorem reset_counter_decreases :
    ¬ ∀ (replies : List UidTimeReply) (state : ReadOnlyState), UidTimeRun replies state →
      ∀ reply ∈ replies, ∀ row ∈ reply.rows, 0 ≤ row.2.1 := by
  intro hclaim
  have hrun := (sampleUidReplies_run ["10042: 4000 4000\n", "10042: 1000 2000\n"]).1
  have hreset : ∃ reply ∈ (sampleUidReplies ["10042: 4000 4000\n", "10042: 1000 2000\n"]).1,
      ∃ row ∈ reply.rows, row.2.1 < 0 := by decide +kernel
  obtain ⟨reply, hreply, row, hrow, hnegative⟩ := hreset
  have hnonneg := hclaim _ _ hrun reply hreply row hrow
  omega

end Freezeit
