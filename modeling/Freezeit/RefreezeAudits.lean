import Freezeit.ControlPass
import Freezeit.Lib.Since

/-! # When a refreeze audit is due

    The first audit waits a minute after the first pass, and each one sets the
    time of the next.  A pass that finds the periodic audit disabled forgets
    that time, and a later pass starts again from the first one. -/

namespace Freezeit

variable {s s' : RuntimeControlState} {settings : List UInt8} {timestampMs startedAtMs nextMs : Nat}
  {due : Bool}

/-- The time between two audits, if there are any. -/
def auditIntervalMs (settings : List UInt8) (elapsed : Nat) : Option Nat :=
  if elapsed < 15 * 60000 then some 60000
  else
    match settingAt settings 6 with
    | 1 => some (30 * 60000)
    | 2 => some (60 * 60000)
    | 3 => some (120 * 60000)
    | _ => none

/-- Audits are disabled only after the first quarter of an hour. -/
theorem elapsed_of_auditIntervalMs_eq_none {elapsed : Nat}
    (h : auditIntervalMs settings elapsed = none) : 15 * 60000 ≤ elapsed := by
  unfold auditIntervalMs at h
  by_cases hlt : elapsed < 15 * 60000
  · rw [if_pos hlt] at h
    cases h
  · omega

/-! ## One call -/

/-- A call depends on the settings through the interval only. -/
theorem refreezeAuditDue_interval :
    refreezeAuditDue s settings timestampMs =
      (let startedAt := s.auditStartedAtMs.getD timestampMs
       let s := { s with auditStartedAtMs := some startedAt }
       match auditIntervalMs settings (timestampMs - startedAt) with
       | none => (false, { s with nextRefreezeAuditAtMs := none })
       | some intervalMs =>
         let next := s.nextRefreezeAuditAtMs.getD (startedAt + 60000)
         if timestampMs < next then (false, { s with nextRefreezeAuditAtMs := some next })
         else (true, { s with nextRefreezeAuditAtMs := some (timestampMs + intervalMs) })) := rfl

/-- A call at which audits are disabled. -/
theorem refreezeAuditDue_disabled (hstarted : s.auditStartedAtMs = some startedAtMs)
    (hinterval : auditIntervalMs settings (timestampMs - startedAtMs) = none) :
    refreezeAuditDue s settings timestampMs =
      (false, { s with auditStartedAtMs := some startedAtMs, nextRefreezeAuditAtMs := none }) := by
  rw [refreezeAuditDue_interval, hstarted]
  dsimp only [Option.getD_some]
  rw [hinterval]

/-- A call at which they are enabled. -/
theorem refreezeAuditDue_enabled {intervalMs : Nat} (hstarted : s.auditStartedAtMs = some startedAtMs)
    (hinterval : auditIntervalMs settings (timestampMs - startedAtMs) = some intervalMs)
    (hnext : s.nextRefreezeAuditAtMs.getD (startedAtMs + 60000) = nextMs) :
    refreezeAuditDue s settings timestampMs =
      if timestampMs < nextMs then
        (false, { s with auditStartedAtMs := some startedAtMs, nextRefreezeAuditAtMs := some nextMs })
      else
        (true, { s with
          auditStartedAtMs := some startedAtMs
          nextRefreezeAuditAtMs := some (timestampMs + intervalMs) }) := by
  rw [refreezeAuditDue_interval, hstarted]
  dsimp only [Option.getD_some]
  rw [hinterval]
  dsimp only
  rw [hnext]

/-- The first call of all. -/
theorem refreezeAuditDue_first (hstarted : s.auditStartedAtMs = none)
    (hnext : s.nextRefreezeAuditAtMs = none) :
    refreezeAuditDue s settings timestampMs =
      (false, { s with
        auditStartedAtMs := some timestampMs
        nextRefreezeAuditAtMs := some (timestampMs + 60000) }) := by
  have hinterval : auditIntervalMs settings (timestampMs - timestampMs) = some 60000 := by
    unfold auditIntervalMs
    rw [if_pos (by omega)]
  rw [refreezeAuditDue_interval, hstarted]
  dsimp only [Option.getD_none]
  rw [hinterval, hnext]
  dsimp only [Option.getD_none]
  rw [if_pos (by omega)]

/-! ## Runs -/

/-- A call, and its answer. -/
structure AuditCall where
  settings    : List UInt8
  timestampMs : Nat
  due         : Bool

def AuditCall.intervalMs (startedAtMs : Nat) (c : AuditCall) : Option Nat :=
  auditIntervalMs c.settings (c.timestampMs - startedAtMs)

/-- Calls one after another from the first pass on, with timestamps that do not
    decrease.  The rest of the daemon leaves the times of the audit alone. -/
inductive AuditRun (startedAtMs : Nat) : List AuditCall → RuntimeControlState → Prop where
  | first : ∀ {s s' settings due}, s.auditStartedAtMs = none → s.nextRefreezeAuditAtMs = none →
      refreezeAuditDue s settings startedAtMs = (due, s') →
      AuditRun startedAtMs [⟨settings, startedAtMs, due⟩] s'
  | call : ∀ {past s s' settings timestampMs due}, AuditRun startedAtMs past s →
      (∀ c ∈ past, c.timestampMs ≤ timestampMs) →
      refreezeAuditDue s settings timestampMs = (due, s') →
      AuditRun startedAtMs (past ++ [⟨settings, timestampMs, due⟩]) s'
  | other : ∀ {past s s'}, AuditRun startedAtMs past s →
      s'.auditStartedAtMs = s.auditStartedAtMs →
      s'.nextRefreezeAuditAtMs = s.nextRefreezeAuditAtMs → AuditRun startedAtMs past s'

/-- The last call found audits disabled. -/
def LastDisabled (startedAtMs : Nat) (past : List AuditCall) : Prop :=
  ∃ c, past.getLast? = some c ∧ c.intervalMs startedAtMs = none

/-- The time of the next audit was set by the last call at which one was due. -/
def SetByAudit (startedAtMs nextMs : Nat) (past : List AuditCall) : Prop :=
  Since (fun a => a.due = true ∧ ∃ intervalMs, a.intervalMs startedAtMs = some intervalMs
    ∧ a.timestampMs + intervalMs = nextMs) (fun c => c.due = false) past

/-- The invariant of the audit timer. `next` says where a time that is set came from: from
    the start, as long as no audit was due, or from an audit since which nothing was disabled. -/
structure AuditInv (startedAtMs : Nat) (past : List AuditCall) (s : RuntimeControlState) : Prop where
  started  : s.auditStartedAtMs = some startedAtMs
  disabled : s.nextRefreezeAuditAtMs = none ↔ LastDisabled startedAtMs past
  next     : ∀ nextMs, s.nextRefreezeAuditAtMs = some nextMs →
    nextMs = startedAtMs + 60000 ∧ (∀ c ∈ past, c.due = false) ∨ SetByAudit startedAtMs nextMs past
  elapsed  : ∀ c ∈ past, startedAtMs ≤ c.timestampMs
  startup  : ∀ c ∈ past, c.due = true → startedAtMs + 60000 ≤ c.timestampMs

/-- What holds of a call after the calls `past`. The spacing of the audits is read off
    from these facts alone. -/
structure AuditFacts (startedAtMs : Nat) (past : List AuditCall) (c : AuditCall) : Prop where
  startup : c.due = true → startedAtMs + 60000 ≤ c.timestampMs
  spaced  : c.due = true → LastDisabled startedAtMs past ∨ (∀ a ∈ past, a.due = false)
    ∨ ∃ nextMs, SetByAudit startedAtMs nextMs past ∧ nextMs ≤ c.timestampMs
  resumed : LastDisabled startedAtMs past → c.intervalMs startedAtMs ≠ none → c.due = true
  idle    : c.intervalMs startedAtMs = none → c.due = false

theorem lastDisabled_concat {past : List AuditCall} {c : AuditCall} :
    LastDisabled startedAtMs (past ++ [c]) ↔ c.intervalMs startedAtMs = none := by
  unfold LastDisabled
  rw [List.getLast?_concat]
  constructor
  · intro h
    obtain ⟨c', heq, hinterval⟩ := h
    cases heq
    exact hinterval
  · intro h
    exact ⟨c, rfl, h⟩

/-- A call that finds audits disabled forgets the next one. -/
theorem AuditInv.call_disabled {past : List AuditCall} (h : AuditInv startedAtMs past s)
    (hle : startedAtMs ≤ timestampMs)
    (hinterval : auditIntervalMs settings (timestampMs - startedAtMs) = none)
    (hcall : refreezeAuditDue s settings timestampMs = (due, s')) :
    AuditFacts startedAtMs past ⟨settings, timestampMs, due⟩
      ∧ AuditInv startedAtMs (past ++ [⟨settings, timestampMs, due⟩]) s' := by
  rw [refreezeAuditDue_disabled h.started hinterval] at hcall
  cases hcall
  refine ⟨⟨Bool.noConfusion, Bool.noConfusion, fun _ henabled => absurd hinterval henabled,
    fun _ => rfl⟩, ?_⟩
  refine ⟨rfl, ?_, fun nextMs hnext => (by cases hnext), ?_, ?_⟩
  · rw [lastDisabled_concat]
    exact ⟨fun _ => hinterval, fun _ => rfl⟩
  · intro c hc
    cases List.mem_append.mp hc with
    | inl hold => exact h.elapsed c hold
    | inr hnew =>
      rw [List.mem_singleton.mp hnew]
      exact hle
  · intro c hc hdue
    cases List.mem_append.mp hc with
    | inl hold => exact h.startup c hold hdue
    | inr hnew =>
      rw [List.mem_singleton.mp hnew] at hdue
      cases hdue

/-- The time of the next audit, as a call finds it. -/
theorem AuditInv.next_cases {past : List AuditCall} (h : AuditInv startedAtMs past s) :
    LastDisabled startedAtMs past
        ∧ s.nextRefreezeAuditAtMs.getD (startedAtMs + 60000) = startedAtMs + 60000
      ∨ ¬ LastDisabled startedAtMs past
        ∧ (s.nextRefreezeAuditAtMs.getD (startedAtMs + 60000) = startedAtMs + 60000
            ∧ (∀ c ∈ past, c.due = false)
          ∨ SetByAudit startedAtMs (s.nextRefreezeAuditAtMs.getD (startedAtMs + 60000)) past) := by
  cases hnext : s.nextRefreezeAuditAtMs with
  | none => exact .inl ⟨h.disabled.mp hnext, rfl⟩
  | some nextMs =>
    refine .inr ⟨?_, h.next nextMs hnext⟩
    rw [← h.disabled, hnext]
    exact Option.some_ne_none nextMs

/-- An audit sets a time that lies after the startup. -/
theorem AuditInv.startup_le {past : List AuditCall} (h : AuditInv startedAtMs past s)
    (hset : SetByAudit startedAtMs nextMs past) : startedAtMs + 60000 ≤ nextMs := by
  obtain ⟨a, ha, hdue, intervalMs, -, rfl⟩ := hset.exists_mem
  have hle := h.startup a ha hdue
  omega

theorem AuditInv.call_enabled {past : List AuditCall} {intervalMs : Nat}
    (h : AuditInv startedAtMs past s) (hle : ∀ c ∈ past, c.timestampMs ≤ timestampMs)
    (hstart : startedAtMs ≤ timestampMs)
    (hinterval : auditIntervalMs settings (timestampMs - startedAtMs) = some intervalMs)
    (hcall : refreezeAuditDue s settings timestampMs = (due, s')) :
    AuditFacts startedAtMs past ⟨settings, timestampMs, due⟩
      ∧ AuditInv startedAtMs (past ++ [⟨settings, timestampMs, due⟩]) s' := by
  have henabled : ∀ due, ¬ LastDisabled startedAtMs (past ++ [⟨settings, timestampMs, due⟩]) := by
    intro due
    rw [lastDisabled_concat]
    show ¬ auditIntervalMs settings (timestampMs - startedAtMs) = none
    rw [hinterval]
    exact Option.some_ne_none intervalMs
  have helapsed : ∀ due, ∀ c ∈ past ++ [⟨settings, timestampMs, due⟩], startedAtMs ≤ c.timestampMs := by
    intro due c hc
    cases List.mem_append.mp hc with
    | inl hold => exact h.elapsed c hold
    | inr hnew =>
      rw [List.mem_singleton.mp hnew]
      exact hstart
  -- A disabled call lies a quarter of an hour after the first pass.
  have hlate : LastDisabled startedAtMs past → startedAtMs + 60000 ≤ timestampMs := by
    intro hdisabled
    obtain ⟨c, hlast, hnone⟩ := hdisabled
    have hmem := List.mem_of_getLast? hlast
    have hquarter := elapsed_of_auditIntervalMs_eq_none hnone
    have hbefore := hle c hmem
    omega
  rw [refreezeAuditDue_enabled h.started hinterval rfl] at hcall
  -- The call waits for the time that was set, or it is an audit.
  split at hcall
  · next hwait =>
    cases hcall
    rcases h.next_cases with ⟨hdisabled, heq⟩ | ⟨hwas, hnext⟩
    · have hpassed := hlate hdisabled
      omega
    refine ⟨⟨Bool.noConfusion, Bool.noConfusion, fun hdisabled => absurd hdisabled hwas,
      fun _ => rfl⟩, ?_⟩
    refine ⟨rfl, ?_, ?_, helapsed false, ?_⟩
    · exact ⟨fun hnone => (by cases hnone), fun hdisabled => absurd hdisabled (henabled false)⟩
    · intro nextMs heq
      cases heq
      rcases hnext with ⟨hstartup, hnone⟩ | hset
      · refine .inl ⟨hstartup, ?_⟩
        intro c hc
        cases List.mem_append.mp hc with
        | inl hold => exact hnone c hold
        | inr hnew => rw [List.mem_singleton.mp hnew]
      · exact .inr (Since.concat_iff.mpr (.inr ⟨hset, rfl⟩))
    · intro c hc hdue
      cases List.mem_append.mp hc with
      | inl hold => exact h.startup c hold hdue
      | inr hnew =>
        rw [List.mem_singleton.mp hnew] at hdue
        cases hdue
  · next hdue =>
    cases hcall
    -- Whichever way the time came about, it lies a minute after the start or later.
    have hpassed : startedAtMs + 60000 ≤ timestampMs := by
      rcases h.next_cases with ⟨hdisabled, -⟩ | ⟨-, ⟨heq, -⟩ | hset⟩
      · exact hlate hdisabled
      · omega
      · have hset_le := h.startup_le hset
        omega
    refine ⟨⟨fun _ => hpassed, fun _ => ?_, fun _ _ => rfl, fun hnone => ?_⟩, ?_⟩
    · rcases h.next_cases with ⟨hdisabled, -⟩ | ⟨-, ⟨-, hnone⟩ | hset⟩
      · exact .inl hdisabled
      · exact .inr (.inl hnone)
      · exact .inr (.inr ⟨_, hset, Nat.le_of_not_lt hdue⟩)
    · exact absurd (lastDisabled_concat.mpr hnone) (henabled true)
    refine ⟨rfl, ?_, ?_, helapsed true, ?_⟩
    · exact ⟨fun hnone => (by cases hnone), fun hdisabled => absurd hdisabled (henabled true)⟩
    · intro nextMs heq
      cases heq
      exact .inr (Since.concat_iff.mpr (.inl ⟨rfl, intervalMs, hinterval, rfl⟩))
    · intro c hc hdue'
      cases List.mem_append.mp hc with
      | inl hold => exact h.startup c hold hdue'
      | inr hnew =>
        rw [List.mem_singleton.mp hnew]
        exact hpassed

theorem AuditRun.inv {calls : List AuditCall} (h : AuditRun startedAtMs calls s) :
    calls ≠ [] ∧ AuditInv startedAtMs calls s ∧ Everywhere (AuditFacts startedAtMs) calls := by
  induction h with
  | @first s s' settings due hstarted hnext hcall =>
    rw [refreezeAuditDue_first hstarted hnext] at hcall
    cases hcall
    -- The first call comes at the start, where no setting can disable the audit.
    have hnot : ¬ LastDisabled startedAtMs ([] ++ [⟨settings, startedAtMs, false⟩]) := by
      rw [lastDisabled_concat]
      intro hnone
      have hquarter := elapsed_of_auditIntervalMs_eq_none hnone
      dsimp only at hquarter
      omega
    have hfacts : AuditFacts startedAtMs [] ⟨settings, startedAtMs, false⟩ := by
      refine ⟨Bool.noConfusion, Bool.noConfusion, ?_, fun _ => rfl⟩
      intro hdisabled
      obtain ⟨c, hlast, -⟩ := hdisabled
      cases hlast
    refine ⟨List.cons_ne_nil _ _, ⟨rfl, ?_, ?_, ?_, ?_⟩, ?_⟩
    · exact ⟨fun hnone => (by cases hnone), fun hdisabled => absurd hdisabled hnot⟩
    · intro nextMs heq
      cases heq
      exact .inl ⟨rfl, fun c hc => by rw [List.mem_singleton.mp hc]⟩
    · intro c hc
      rw [List.mem_singleton.mp hc]
    · intro c hc hdue
      rw [List.mem_singleton.mp hc] at hdue
      cases hdue
    · exact Everywhere.nil.concat hfacts
  | @call past s s' settings timestampMs due _ hle hcall ih =>
    obtain ⟨hne, hinv, hevery⟩ := ih
    -- Time does not run backwards, and some call was made before.
    have hstart : startedAtMs ≤ timestampMs := by
      obtain ⟨c, hc⟩ := List.exists_mem_of_ne_nil past hne
      exact Nat.le_trans (hinv.elapsed c hc) (hle c hc)
    have hstep : AuditFacts startedAtMs past ⟨settings, timestampMs, due⟩
        ∧ AuditInv startedAtMs (past ++ [⟨settings, timestampMs, due⟩]) s' := by
      cases hinterval : auditIntervalMs settings (timestampMs - startedAtMs) with
      | none => exact hinv.call_disabled hstart hinterval hcall
      | some intervalMs => exact hinv.call_enabled hle hstart hinterval hcall
    exact ⟨by simp, hstep.2, hevery.concat hstep.1⟩
  | other _ hstarted hnext ih =>
    obtain ⟨hne, hinv, hevery⟩ := ih
    refine ⟨hne, ⟨?_, ?_, ?_, hinv.elapsed, hinv.startup⟩, hevery⟩
    · rw [hstarted]
      exact hinv.started
    · rw [hnext]
      exact hinv.disabled
    · rw [hnext]
      exact hinv.next

/-! ## Spacing -/

/-- No audit is due within a minute of the first pass, an audit is followed by
    the next one after its interval at the earliest, and enabling audits again
    does not make one due. -/
structure AuditsSpaced (startedAtMs : Nat) (calls : List AuditCall) : Prop where
  startup : ∀ c ∈ calls, c.due = true → startedAtMs + 60000 ≤ c.timestampMs
  spaced  : ∀ before a between c after, calls = before ++ a :: between ++ c :: after →
    a.due = true → (∀ b ∈ between, b.due = false) → c.due = true →
    ∀ intervalMs, a.intervalMs startedAtMs = some intervalMs → a.timestampMs + intervalMs ≤ c.timestampMs
  resumed : ∀ before a c after, calls = before ++ a :: c :: after →
    a.intervalMs startedAtMs = none → c.intervalMs startedAtMs ≠ none → c.due = false

/-- Once audits were found disabled they stay so. -/
def NeverResumed (startedAtMs : Nat) (calls : List AuditCall) : Prop :=
  ∀ before a c after, calls = before ++ a :: c :: after →
    a.intervalMs startedAtMs = none → c.intervalMs startedAtMs = none

/-- The last audit of a history is the one that set the next time. -/
theorem SetByAudit.last {before between : List AuditCall} {a : AuditCall} {intervalMs : Nat}
    (h : SetByAudit startedAtMs nextMs (before ++ a :: between)) (hdue : a.due = true)
    (hbetween : ∀ b ∈ between, b.due = false)
    (hinterval : a.intervalMs startedAtMs = some intervalMs) : a.timestampMs + intervalMs = nextMs := by
  induction between using List.reverseRecOn with
  | nil =>
    cases Since.concat_iff.mp h with
    | inl hset =>
      obtain ⟨-, intervalMs', hinterval', rfl⟩ := hset
      rw [hinterval] at hinterval'
      cases hinterval'
      rfl
    | inr hold =>
      rw [hdue] at hold
      cases hold.2
  | append_singleton between b ih =>
    have hnot := hbetween b (List.mem_append_right _ List.mem_cons_self)
    have hsplit : SetByAudit startedAtMs nextMs ((before ++ a :: between) ++ [b]) := by
      rw [List.append_assoc, List.cons_append]
      exact h
    cases Since.concat_iff.mp hsplit with
    | inl hset =>
      rw [hnot] at hset
      cases hset.1
    | inr hold => exact ih hold.1 fun b hb => hbetween b (List.mem_append_left _ hb)

/-- The audits of a run are spaced exactly when they are never enabled again
    after they were disabled. -/
theorem audits_are_spaced_iff {calls : List AuditCall} (h : AuditRun startedAtMs calls s) :
    AuditsSpaced startedAtMs calls ↔ NeverResumed startedAtMs calls := by
  obtain ⟨-, hinv, hevery⟩ := h.inv
  constructor
  -- An audit right after a disabled call is due at once, whatever the distance.
  · intro hspaced before a c after hsplit hdisabled
    by_contra henabled
    have hfacts := hevery (before ++ [a]) c after (by rw [hsplit]; simp)
    have hdue := hfacts.resumed (lastDisabled_concat.mpr hdisabled) henabled
    rw [hspaced.resumed before a c after hsplit hdisabled henabled] at hdue
    cases hdue
  · intro hnever
    refine ⟨hinv.startup, ?_, ?_⟩
    · intro before a between c after hsplit hdue hbetween hcdue intervalMs hinterval
      have hfacts := hevery (before ++ a :: between) c after hsplit
      rcases hfacts.spaced hcdue with hdisabled | hnone | ⟨nextMs, hset, hle⟩
      · -- The call was disabled before, so it is disabled itself.
        obtain ⟨b, hlast, hb⟩ := hdisabled
        obtain ⟨past, hpast⟩ := List.getLast?_eq_some_iff.mp hlast
        have hc : c.intervalMs startedAtMs = none := by
          refine hnever past b c after ?_ hb
          rw [hsplit, hpast]
          simp
        rw [hfacts.idle hc] at hcdue
        cases hcdue
      · rw [hnone a (List.mem_append_right _ List.mem_cons_self)] at hdue
        cases hdue
      · rw [hset.last hdue hbetween hinterval]
        exact hle
    · intro before a c after hsplit hdisabled henabled
      exact absurd (hnever before a c after hsplit hdisabled) henabled

/-- Settings with a choice for the periodic audit. -/
def auditSettings (choice : UInt8) : List UInt8 := List.replicate 6 0 ++ [choice]

/-- The audit is due after a quarter of an hour, is disabled and enabled again. -/
def resumedCalls : List AuditCall :=
  [⟨auditSettings 1, 0, false⟩] ++ [⟨auditSettings 1, 900000, true⟩]
    ++ [⟨auditSettings 0, 900001, false⟩] ++ [⟨auditSettings 1, 900002, true⟩]

theorem resumedCalls_run : ∃ s, AuditRun 0 resumedCalls s := by
  have h₁ : AuditRun 0 [⟨auditSettings 1, 0, false⟩] _ :=
    .first (s := RuntimeControlState.default) rfl rfl rfl
  have h₂ : AuditRun 0 ([⟨auditSettings 1, 0, false⟩] ++ [⟨auditSettings 1, 900000, true⟩]) _ :=
    .call h₁ (by simp) rfl
  have h₃ : AuditRun 0 (_ ++ [⟨auditSettings 0, 900001, false⟩]) _ := .call h₂ (by simp) rfl
  exact ⟨_, .call h₃ (by simp) ((refreezeAuditDue_enabled rfl rfl rfl).trans (if_neg (by decide)))⟩

/-- Two audits with an interval of half an hour between them. -/
def spacedCalls : List AuditCall :=
  [⟨auditSettings 1, 0, false⟩] ++ [⟨auditSettings 1, 900000, true⟩]
    ++ [⟨auditSettings 1, 2700000, true⟩]

theorem spacedCalls_run : ∃ s, AuditRun 0 spacedCalls s := by
  have h₁ : AuditRun 0 [⟨auditSettings 1, 0, false⟩] _ :=
    .first (s := RuntimeControlState.default) rfl rfl rfl
  have h₂ : AuditRun 0 ([⟨auditSettings 1, 0, false⟩] ++ [⟨auditSettings 1, 900000, true⟩]) _ :=
    .call h₁ (by simp) rfl
  exact ⟨_, .call h₂ (by simp) rfl⟩

/-- The audits of one run are spaced, and those of another are not. -/
theorem audits_are_spaced_sample :
    (∃ s, AuditRun 0 resumedCalls s ∧ (AuditsSpaced 0 resumedCalls ↔ NeverResumed 0 resumedCalls))
      ∧ ∃ s, AuditRun 0 spacedCalls s ∧ AuditsSpaced 0 spacedCalls := by
  constructor
  · obtain ⟨s, h⟩ := resumedCalls_run
    exact ⟨s, h, audits_are_spaced_iff h⟩
  · obtain ⟨s, h⟩ := spacedCalls_run
    refine ⟨s, h, (audits_are_spaced_iff h).mpr fun before a c after hsplit hdisabled => ?_⟩
    -- The audits are enabled at each of the calls.
    have henabled : ∀ call ∈ spacedCalls, call.intervalMs 0 ≠ none := by decide +kernel
    have hmem : a ∈ spacedCalls := by simp [hsplit]
    exact absurd hdisabled (henabled a hmem)

/-- Two audits within three milliseconds, the first with an interval of half an
    hour. -/
theorem resumed_audit_is_due :
    (∃ s, AuditRun 0 resumedCalls s) ∧ ¬ AuditsSpaced 0 resumedCalls := by
  refine ⟨resumedCalls_run, ?_⟩
  intro h
  have hle := h.spaced [⟨auditSettings 1, 0, false⟩] ⟨auditSettings 1, 900000, true⟩
    [⟨auditSettings 0, 900001, false⟩] ⟨auditSettings 1, 900002, true⟩ [] rfl rfl (by simp) rfl
    (30 * 60000) rfl
  simp at hle

end Freezeit
