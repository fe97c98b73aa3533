import Freezeit.Runs

/-! # Whom a pass may touch

    Freezing or killing the wrong process bricks the phone.  Each freeze or
    terminate call is related to the processes that discovery last listed
    before it, and to the record and the decision they led to. -/

namespace Freezeit

open Prog

/-! ## The last listing before a call -/

/-- The uid that was last discovered, with its processes. -/
abbrev Listing : Type := Nat × List RuntimeProcess

/-- What was listed last, after the call. -/
def Call.listing (last : Option Listing) : Call → Option Listing
  | ⟨.discoverProcesses _ uid, .ok processes⟩ => some (uid, processes)
  | ⟨.discoverProcesses _ _, .error _⟩        => none
  | _                                         => last

/-- What was listed last in a trace. -/
def listingAfter (last : Option Listing) (t : Trace) : Option Listing := t.foldl Call.listing last

/-- The call is no discovery. -/
def Call.Steady (call : Call) : Prop := ∀ last, Call.listing last call = last

/-- Calls that list nothing leave the listing as it is. -/
theorem listingAfter_steady {t : Trace} (h : ∀ call ∈ t, Call.Steady call) (last : Option Listing) :
    listingAfter last t = last := by
  induction t with
  | nil => rfl
  | cons call t ih =>
    rw [listingAfter, List.foldl_cons, h call (by simp) last]
    exact ih fun c hc => h c (List.mem_cons_of_mem _ hc)

/-! ## Aims

    An aim says which processes may be frozen, and which killed, once a uid
    has been listed with some processes. -/

/-- Which processes may be frozen or stopped, and which killed, given the last listing.
    The calls are checked against it wherever they come from. -/
structure Aim where
  freeze : RuntimeProcess → Listing → Prop
  kill   : RuntimeProcess → Listing → Prop

/-- The call touches nothing that the aim does not allow after the last listing. -/
def Aim.Allows (aim : Aim) (last : Option Listing) (call : Call) : Prop :=
  (∀ p, call.query = .freezeProcess p → ∃ listing, last = some listing ∧ aim.freeze p listing)
    ∧ ∀ p, call.query = .terminateProcess p → ∃ listing, last = some listing ∧ aim.kill p listing

/-- Every freeze and every kill of the trace is allowed by what was listed last before it. -/
def Aimed (aim : Aim) : Option Listing → Trace → Prop
  | _, []        => True
  | last, c :: t => aim.Allows last c ∧ Aimed aim (Call.listing last c) t

variable {aim : Aim} {last : Option Listing} {t t₁ t₂ : Trace}

/-- Two parts of a trace are aimed one after the other. -/
theorem aimed_append :
    Aimed aim last (t₁ ++ t₂) ↔ Aimed aim last t₁ ∧ Aimed aim (listingAfter last t₁) t₂ := by
  induction t₁ generalizing last with
  | nil => simp [Aimed, listingAfter]
  | cons call t ih => simp [Aimed, listingAfter, ih, and_assoc]

/-- The reading of `Aimed` at one position of the trace. -/
theorem Aimed.at {pre post : Trace} {call : Call} (h : Aimed aim last t)
    (ht : t = pre ++ call :: post) : aim.Allows (listingAfter last pre) call := by
  subst ht
  exact (aimed_append.mp h).2.1

/-- The call freezes and kills nothing. -/
def Call.Harmless (call : Call) : Prop :=
  (∀ p, call.query ≠ .freezeProcess p) ∧ ∀ p, call.query ≠ .terminateProcess p

/-- A call that neither freezes nor kills is always allowed. -/
theorem Call.Harmless.allows {call : Call} (h : call.Harmless) : aim.Allows last call :=
  ⟨fun p hp => absurd hp (h.1 p), fun p hp => absurd hp (h.2 p)⟩

/-- So is a trace of such calls. -/
theorem Aimed.of_harmless (h : ∀ call ∈ t, Call.Harmless call) : Aimed aim last t := by
  induction t generalizing last with
  | nil => trivial
  | cons call t ih =>
    exact ⟨(h call (by simp)).allows, ih fun c hc => h c (List.mem_cons_of_mem _ hc)⟩

/-- If nothing is listed, each call counts on its own. -/
theorem Aimed.of_steady (hsteady : ∀ call ∈ t, Call.Steady call)
    (h : ∀ call ∈ t, aim.Allows last call) : Aimed aim last t := by
  induction t with
  | nil => trivial
  | cons call t ih =>
    refine ⟨h call (by simp), ?_⟩
    rw [hsteady call (by simp) last]
    exact ih (fun c hc => hsteady c (List.mem_cons_of_mem _ hc))
      fun c hc => h c (List.mem_cons_of_mem _ hc)

/-- A trace in pieces is aimed if each piece is. -/
theorem Aimed.flatMap {α : Type} {l : List α} {f : α → Trace}
    (h : ∀ a ∈ l, ∀ last, Aimed aim last (f a)) : Aimed aim last (l.flatMap f) := by
  induction l generalizing last with
  | nil => trivial
  | cons a l ih =>
    exact aimed_append.mpr ⟨h a (by simp) last, ih fun b hb => h b (List.mem_cons_of_mem _ hb)⟩

/-! ## Thaws are harmless -/

/-- A thaw neither freezes nor kills. -/
theorem unfreezeIdentityProcesses_harmless {package : String} {ps : List RuntimeProcess}
    {ownership : FrozenOwnership} {outcome : UnfreezeOutcome}
    (h : Exec (unfreezeIdentityProcesses package ps ownership) t outcome) :
    ∀ call ∈ t, Call.Harmless call := by
  intro call hc
  rcases unfreezeIdentityProcesses_spec h with ⟨-, rfl, -⟩ | ⟨-, hattempts⟩
  · simp at hc
  · obtain ⟨p, -, hq | hq⟩ := hattempts.calls hc
    · exact ⟨by simp [hq], by simp [hq]⟩
    · exact ⟨by simp [hq], by simp [hq]⟩

/-- A listing neither freezes nor kills. -/
theorem harmless_listed (uid : Nat) (answer : Except DaemonError (List RuntimeProcess)) :
    Call.Harmless (listed uid answer) := ⟨fun _ h => (by cases h), fun _ h => (by cases h)⟩

/-- A validation neither freezes nor kills. -/
theorem harmless_validation (process : RuntimeProcess) (answer : Except DaemonError Bool) :
    Call.Harmless ⟨.validateProcess process, answer⟩ :=
  ⟨fun _ h => (by cases h), fun _ h => (by cases h)⟩

/-- The question for the binder neither freezes nor kills. -/
theorem harmless_binder (binder : Bool) : Call.Harmless ⟨.binderAvailable, binder⟩ :=
  ⟨fun _ h => (by cases h), fun _ h => (by cases h)⟩

/-- A traffic sample neither freezes nor kills. -/
theorem harmless_sample (uid : Nat) (packageName : String)
    (answer : Except DaemonError (Option Nat)) :
    Call.Harmless ⟨.sampleRxBytes uid packageName, answer⟩ :=
  ⟨fun _ h => (by cases h), fun _ h => (by cases h)⟩

variable {s s' : RuntimeControlState}

/-- The thaw of an identity neither freezes nor kills. -/
theorem ThawStep.harmless {identity : RuntimeIdentity} (h : ThawStep identity s t s') :
    ∀ call ∈ t, Call.Harmless call := by
  intro call hc
  cases h with
  | undiscovered =>
    obtain rfl := List.mem_singleton.mp hc
    exact harmless_listed _ _
  | exited =>
    obtain rfl := List.mem_singleton.mp hc
    exact harmless_listed _ _
  | tried _ _ _ hthaw =>
    rcases List.mem_cons.mp hc with rfl | hc
    · exact harmless_listed _ _
    · exact unfreezeIdentityProcesses_harmless hthaw call hc

/-- Thaws neither freeze nor kill. -/
theorem ThawSteps.harmless {identities : List RuntimeIdentity} (h : ThawSteps identities s t s') :
    ∀ call ∈ t, Call.Harmless call := by
  induction h with
  | nil => simp
  | cons hstep _ ih =>
    intro call hc
    exact (List.mem_append.mp hc).elim (hstep.harmless call) (ih call)

/-- The ledger neither freezes nor kills. -/
theorem LedgerCall.harmless {call : Call} (h : LedgerCall call) : call.Harmless := by
  obtain ⟨pid, start, hq⟩ | ⟨pid, start, hq⟩ := h
  · exact ⟨by simp [hq], by simp [hq]⟩
  · exact ⟨by simp [hq], by simp [hq]⟩

/-! ## Transactions touch their own processes -/

/-- A call other than a listing lists nothing. -/
theorem steady_of_query {call : Call} (h : ∀ package uid, call.query ≠ .discoverProcesses package uid) :
    call.Steady := by
  intro last
  obtain ⟨query, answer⟩ := call
  cases query with
  | discoverProcesses package uid => exact absurd rfl (h package uid)
  | _ => rfl

/-- Calls that validate, freeze or unfreeze the processes of a list. -/
def FreezeCall (control : RuntimeProcess → RuntimeProcess) (ps : List RuntimeProcess)
    (call : Call) : Prop :=
  ∃ p ∈ ps, call.query = .validateProcess p ∨ call.query = .freezeProcess (control p)
    ∨ call.query = .unfreezeProcess (control p)

variable {control : RuntimeProcess → RuntimeProcess} {ps : List RuntimeProcess}

/-- A refused transaction asks for validations of its processes. -/
theorem PreflightRefusal.calls (h : PreflightRefusal ps t) {call : Call} (hc : call ∈ t) :
    ∃ p ∈ ps, call.query = .validateProcess p := by
  obtain ⟨done, p, rest, rfl, hcase⟩ := h
  have hdone : ∀ {q}, q ∈ validatedCalls done → ∃ p' ∈ done, q = validated p' := by
    intro q hq
    obtain ⟨p', hp', rfl⟩ := List.mem_map.mp hq
    exact ⟨p', hp', rfl⟩
  rcases hcase with ⟨rfl, -⟩ | ⟨answer, -, rfl⟩
  · obtain ⟨p', hp', rfl⟩ := hdone hc
    exact ⟨p', by simp [hp'], rfl⟩
  · rcases List.mem_append.mp hc with hc | hc
    · obtain ⟨p', hp', rfl⟩ := hdone hc
      exact ⟨p', by simp [hp'], rfl⟩
    · obtain rfl := List.mem_singleton.mp hc
      exact ⟨p, by simp, rfl⟩

/-- A freeze transaction validates, freezes and thaws its processes, in the form that
    `control` gives them. -/
theorem FreezeRun.calls {outcome : FreezeTransactionOutcome} (h : FreezeRun control ps t outcome)
    {call : Call} (hc : call ∈ t) : FreezeCall control ps call := by
  have hvalidated : ∀ {qs}, call ∈ validatedCalls qs → (∀ q ∈ qs, q ∈ ps) →
      FreezeCall control ps call := by
    intro qs hq hsub
    obtain ⟨p, hp, rfl⟩ := List.mem_map.mp hq
    exact ⟨p, hsub p hp, .inl rfl⟩
  have hfrozen : ∀ {qs}, call ∈ frozenCalls control qs → (∀ q ∈ qs, q ∈ ps) →
      FreezeCall control ps call := by
    intro qs hq hsub
    obtain ⟨p, hp, hcall⟩ := List.mem_flatMap.mp hq
    rcases List.mem_cons.mp hcall with rfl | hcall
    · exact ⟨p, hsub p hp, .inl rfl⟩
    · obtain rfl := List.mem_singleton.mp hcall
      exact ⟨p, hsub p hp, .inr (.inl rfl)⟩
  -- By how the transaction went.
  cases h with
  | refused failure hrefusal =>
    obtain ⟨p, hp, hq⟩ := hrefusal.calls hc
    exact ⟨p, hp, .inl hq⟩
  | frozen =>
    rcases List.mem_append.mp hc with hc | hc
    · exact hvalidated hc fun _ => id
    · exact hfrozen hc fun _ => id
  | @rolledBack done p rest t₁ t₂ _ _ failure _ hps hfailed hrollback =>
    have hdone : ∀ q ∈ done, q ∈ ps := fun q hq => by simp [hps, hq]
    rcases List.mem_append.mp hc with hc | hc
    · exact hvalidated hc fun _ => id
    · rcases List.mem_append.mp hc with hc | hc
      · exact hfrozen hc hdone
      · rcases List.mem_append.mp hc with hc | hc
        · have hp : p ∈ ps := by simp [hps]
          obtain ⟨answer, -, rfl⟩ | ⟨error, rfl⟩ := hfailed
          · obtain rfl := List.mem_singleton.mp hc
            exact ⟨p, hp, .inl rfl⟩
          · rcases List.mem_cons.mp hc with rfl | hc
            · exact ⟨p, hp, .inl rfl⟩
            · obtain rfl := List.mem_singleton.mp hc
              exact ⟨p, hp, .inr (.inl rfl)⟩
        · obtain ⟨q, hq, hcall | hcall⟩ := hrollback.calls hc
          · exact ⟨q, hdone q (List.mem_reverse.mp hq), .inl hcall⟩
          · exact ⟨q, hdone q (List.mem_reverse.mp hq), .inr (.inr hcall)⟩

/-- A transaction that froze anything had one package only. -/
theorem FreezeRun.uniform {outcome : FreezeTransactionOutcome} (h : FreezeRun control ps t outcome)
    {call : Call} (hc : call ∈ t) {p : RuntimeProcess} (hp : call.query = .freezeProcess p) :
    Uniform ps := by
  cases h with
  | refused failure hrefusal =>
    obtain ⟨q, -, hq⟩ := hrefusal.calls hc
    rw [hq] at hp
    cases hp
  | frozen hu => exact hu
  | rolledBack failure hu => exact hu

/-- A kill transaction validates its processes, and kills them only if they share one
    package name. -/
theorem TerminateRun.calls {outcome : TerminateTransactionOutcome} (h : TerminateRun ps t outcome)
    {call : Call} (hc : call ∈ t) :
    (∃ p ∈ ps, call.query = .validateProcess p)
      ∨ Uniform ps ∧ ∃ p ∈ ps, call.query = .terminateProcess p := by
  have hvalidated : call ∈ validatedCalls ps → ∃ p ∈ ps, call.query = .validateProcess p := by
    intro hq
    obtain ⟨p, hp, rfl⟩ := List.mem_map.mp hq
    exact ⟨p, hp, rfl⟩
  have hkilled : ∀ {qs}, Uniform ps → call ∈ killedCalls qs → (∀ q ∈ qs, q ∈ ps) →
      (∃ p ∈ ps, call.query = .validateProcess p)
        ∨ Uniform ps ∧ ∃ p ∈ ps, call.query = .terminateProcess p := by
    intro qs hu hq hsub
    obtain ⟨p, hp, hcall⟩ := List.mem_flatMap.mp hq
    rcases List.mem_cons.mp hcall with rfl | hcall
    · exact .inl ⟨p, hsub p hp, rfl⟩
    · obtain rfl := List.mem_singleton.mp hcall
      exact .inr ⟨hu, p, hsub p hp, rfl⟩
  -- By how the transaction went.
  cases h with
  | refused failure hrefusal => exact .inl (hrefusal.calls hc)
  | killed hu =>
    rcases List.mem_append.mp hc with hc | hc
    · exact .inl (hvalidated hc)
    · exact hkilled hu hc fun _ => id
  | @stopped done p rest t₁ failure hu hps hfail =>
    rcases List.mem_append.mp hc with hc | hc
    · exact .inl (hvalidated hc)
    · rcases List.mem_append.mp hc with hc | hc
      · exact hkilled hu hc fun q hq => by simp [hps, hq]
      · have hp : p ∈ ps := by simp [hps]
        obtain ⟨answer, -, rfl⟩ | ⟨error, rfl⟩ := hfail
        · obtain rfl := List.mem_singleton.mp hc
          exact .inl ⟨p, hp, rfl⟩
        · rcases List.mem_cons.mp hc with rfl | hc
          · exact .inl ⟨p, hp, rfl⟩
          · obtain rfl := List.mem_singleton.mp hc
            exact .inr ⟨hu, p, hp, rfl⟩

/-- A call of a freeze transaction lists nothing. -/
theorem FreezeCall.steady {call : Call} (h : FreezeCall control ps call) : call.Steady := by
  obtain ⟨p, -, hq | hq | hq⟩ := h
  · exact steady_of_query (by simp [hq])
  · exact steady_of_query (by simp [hq])
  · exact steady_of_query (by simp [hq])

/-- A call to the ledger lists nothing. -/
theorem LedgerCall.steady {call : Call} (h : LedgerCall call) : call.Steady := by
  obtain ⟨pid, start, hq⟩ | ⟨pid, start, hq⟩ := h
  · exact steady_of_query (by simp [hq])
  · exact steady_of_query (by simp [hq])

/-! ## The decision behind a freeze or a kill -/

/-- The kill is chosen for mode 10 and for no other. -/
theorem requestedControlBackend_terminate {record : ManagerAppConfigRecord}
    {settings : List UInt8} :
    requestedControlBackend record settings = .terminate ↔ record.mode = 10 := by
  unfold requestedControlBackend
  split
  · simp_all
  · split
    · simp_all
    · split
      · simp_all
      · simp_all

namespace RecordContext

variable {ctx : RecordContext} {binder : Bool}

/-- The decision on an allowed app is that of its backend, and only the freezer looks at
    the processes. -/
theorem decide_of_allowed (hallowed : ctx.allowed = true) :
    (ctx.decide binder).action =
      match requestedControlBackend ctx.record ctx.input.settings with
      | .terminate => .terminate
      | .signal    => .signal
      | .freezer   => (canFreeze (backendEnvironment ctx.pendingProcesses binder) ctx.app ctx.policy
          ctx.pendingProcesses).action := by
  unfold decide
  dsimp only
  rw [if_neg (by simpa using hallowed)]
  cases requestedControlBackend ctx.record ctx.input.settings with
  | terminate => rfl
  | signal => rfl
  | freezer => rfl

/-- The policy of a record of another mode than 10 is not to kill. -/
theorem policy_mode (hmode : ctx.record.mode ≠ 10) :
    ctx.policy.mode ≠ .terminate ∧ ctx.policy.mode ≠ .signalStop := by
  unfold policy policyFromRecord
  dsimp only
  rw [if_neg hmode]
  split
  · simp
  · split
    · simp
    · split
      · simp
      · simp

/-- Only mode 10 is killed. -/
theorem decide_terminate (hallowed : ctx.allowed = true) :
    (ctx.decide binder).action = .terminate ↔ ctx.record.mode = 10 := by
  rw [decide_of_allowed hallowed]
  cases hbackend : requestedControlBackend ctx.record ctx.input.settings with
  | terminate => simp [requestedControlBackend_terminate.mp hbackend]
  | signal =>
    have hmode : ctx.record.mode ≠ 10 := fun h => by
      rw [requestedControlBackend_terminate.mpr h] at hbackend
      cases hbackend
    simp [hmode]
  | freezer =>
    have hmode : ctx.record.mode ≠ 10 := fun h => by
      rw [requestedControlBackend_terminate.mpr h] at hbackend
      cases hbackend
    simp only [hmode, iff_false]
    exact canFreeze_ne_terminate (policy_mode hmode).1 rfl

/-- A decision for the generic freezer or its fallback waits for idle processes. -/
theorem idle_of_decide (hallowed : ctx.allowed = true)
    (hbackend : requestedControlBackend ctx.record ctx.input.settings = .freezer)
    (hd : (ctx.decide binder).action = .freeze ∨ (ctx.decide binder).action = .signal) :
    idleBlocker ctx.pendingProcesses = none := by
  rw [decide_of_allowed hallowed, hbackend] at hd
  dsimp only at hd
  have hdecided : ∀ action, action ≠ .freeze → action ≠ .signal →
      (canFreeze (backendEnvironment ctx.pendingProcesses binder) ctx.app ctx.policy
        ctx.pendingProcesses).action ≠ action := by
    intro action hfreeze hsignal heq
    rw [heq] at hd
    exact hd.elim hfreeze hsignal
  exact canFreeze_idle (hdecided _ nofun nofun) (hdecided _ nofun nofun)

end RecordContext

/-! ## Every step of a pass keeps to the aim -/

/-- The aim allows what the decision for a listed record leads to. -/
structure Aim.Covers (aim : Aim) (ctx : RecordContext) : Prop where
  freeze : ∀ binder, Uniform ctx.pendingProcesses →
    (ctx.decide binder).action = .freeze ∨ (ctx.decide binder).action = .signal →
    ∀ p ∈ ctx.pendingProcesses, aim.freeze p (ctx.record.uid, ctx.processes)
      ∧ aim.freeze (signalControlProcess p) (ctx.record.uid, ctx.processes)
  kill : ∀ binder, Uniform ctx.pendingProcesses → (ctx.decide binder).action = .terminate →
    ∀ p ∈ ctx.pendingProcesses, aim.kill p (ctx.record.uid, ctx.processes)

/-- A freeze transaction is aimed if its processes may be frozen. -/
theorem FreezeRun.aimed {outcome : FreezeTransactionOutcome} {listing : Listing}
    (h : FreezeRun control ps t outcome)
    (hps : Uniform ps → ∀ p ∈ ps, aim.freeze (control p) listing) : Aimed aim (some listing) t := by
  refine .of_steady (fun _ hc => (h.calls hc).steady) fun call hc => ⟨fun p hp => ?_, fun p hp => ?_⟩
  · obtain ⟨q, hq, hcall | hcall | hcall⟩ := h.calls hc
    · rw [hcall] at hp; cases hp
    · rw [hcall] at hp
      cases hp
      exact ⟨listing, rfl, hps (h.uniform hc hcall) q hq⟩
    · rw [hcall] at hp; cases hp
  · obtain ⟨q, hq, hcall | hcall | hcall⟩ := h.calls hc
    · rw [hcall] at hp; cases hp
    · rw [hcall] at hp; cases hp
    · rw [hcall] at hp; cases hp

/-- It lists nothing. -/
theorem FreezeRun.listingAfter {outcome : FreezeTransactionOutcome}
    (h : FreezeRun control ps t outcome) (last : Option Listing) :
    Freezeit.listingAfter last t = last :=
  listingAfter_steady (fun _ hc => (h.calls hc).steady) last

/-- A stop transaction is aimed if its processes may be stopped. -/
theorem StopRun.aimed {outcome : FreezeTransactionOutcome} {listing : Listing}
    (h : StopRun ps t outcome)
    (hps : Uniform ps → ∀ p ∈ ps, aim.freeze (signalControlProcess p) listing) :
    Aimed aim (some listing) t := by
  obtain ⟨stops, ledger, rfl, hstops, hledger⟩ := h.split
  refine aimed_append.mpr ⟨hstops.aimed hps, ?_⟩
  exact .of_harmless fun call hc => (hledger call hc).harmless

/-- A kill transaction is aimed if its processes may be killed. -/
theorem TerminateRun.aimed {outcome : TerminateTransactionOutcome} {listing : Listing}
    (h : TerminateRun ps t outcome) (hps : Uniform ps → ∀ p ∈ ps, aim.kill p listing) :
    Aimed aim (some listing) t := by
  refine .of_steady (fun call hc => ?_) fun call hc => ⟨fun p hp => ?_, fun p hp => ?_⟩
  · obtain ⟨q, -, hcall⟩ | ⟨-, q, -, hcall⟩ := h.calls hc
    · exact steady_of_query (by simp [hcall])
    · exact steady_of_query (by simp [hcall])
  · obtain ⟨q, -, hcall⟩ | ⟨-, q, -, hcall⟩ := h.calls hc
    · rw [hcall] at hp; cases hp
    · rw [hcall] at hp; cases hp
  · obtain ⟨q, -, hcall⟩ | ⟨hu, q, hq, hcall⟩ := h.calls hc
    · rw [hcall] at hp; cases hp
    · rw [hcall] at hp
      cases hp
      exact ⟨listing, rfl, hps hu _ hq⟩

variable {ctx : RecordContext} {r : Except DaemonError Unit}

/-- A decision is aimed if the aim covers the record: what it freezes are the processes of
    the record, whatever transaction it comes to. -/
theorem DecisionStep.aimed {binder : Bool} (h : DecisionStep ctx (ctx.decide binder) s t r s')
    (hcovers : aim.Covers ctx) : Aimed aim (some (ctx.record.uid, ctx.processes)) t := by
  -- Discoveries and thaws come after the freezes, and touch nobody.
  have hrescan : ∀ {t₁ t₂ : Trace} {outcome answer},
      (ctx.decide binder).action = .freeze → FreezeRun id ctx.pendingProcesses t₁ outcome →
      (∀ call ∈ t₂, Call.Harmless call) →
      Aimed aim (some (ctx.record.uid, ctx.processes))
        (t₁ ++ listed ctx.record.uid answer :: t₂) := by
    intro t₁ t₂ outcome answer hd hrun hafter
    refine aimed_append.mpr ⟨hrun.aimed fun hu p hp => (hcovers.freeze binder hu (.inl hd) p hp).1,
      .of_harmless fun call hc => ?_⟩
    rcases List.mem_cons.mp hc with rfl | hc
    · exact harmless_listed _ _
    · exact hafter call hc
  have hfallback : ∀ {t₁ t₂ : Trace} {outcome stopped},
      (ctx.decide binder).action = .freeze → FreezeRun id ctx.pendingProcesses t₁ outcome →
      StopRun ctx.pendingProcesses t₂ stopped →
      Aimed aim (some (ctx.record.uid, ctx.processes)) (t₁ ++ t₂) := by
    intro t₁ t₂ outcome stopped hd hrun hstop
    refine aimed_append.mpr
      ⟨hrun.aimed fun hu p hp => (hcovers.freeze binder hu (.inl hd) p hp).1, ?_⟩
    rw [hrun.listingAfter]
    exact hstop.aimed fun hu p hp => (hcovers.freeze binder hu (.inl hd) p hp).2
  have hstopped : ∀ {t₁ t₂ : Trace} {outcome},
      (ctx.decide binder).action = .signal → (∀ call ∈ t₁, LedgerCall call) →
      StopRun ctx.pendingProcesses t₂ outcome →
      Aimed aim (some (ctx.record.uid, ctx.processes)) (t₁ ++ t₂) := by
    intro t₁ t₂ outcome hd hledger hstop
    refine aimed_append.mpr ⟨.of_harmless fun call hc => (hledger call hc).harmless, ?_⟩
    rw [listingAfter_steady fun call hc => (hledger call hc).steady]
    exact hstop.aimed fun hu p hp => (hcovers.freeze binder hu (.inr hd) p hp).2
  -- Three shapes: freeze and look again, freeze and fall back to SIGSTOP, or stop at once.
  cases h with
  | idle => trivial
  | fallbackStopped _ hd hrun _ hstop => exact hfallback hd hrun hstop
  | fallbackFailed _ hd hrun _ hstop => exact hfallback hd hrun hstop
  | rescanFailed _ hd hrun => exact hrescan hd hrun (by simp)
  | frozen _ hd hrun => exact hrescan hd hrun (by simp)
  | rescanThawed _ hd hrun _ _ hthaw =>
    exact hrescan hd hrun (unfreezeIdentityProcesses_harmless hthaw)
  | stopped _ hd hledger hstop => exact hstopped hd hledger hstop
  | stopFailed _ hd hledger hstop => exact hstopped hd hledger hstop
  | terminated _ hd hrun => exact hrun.aimed fun hu => hcovers.kill binder hu hd
  | terminateFailed _ hd hrun => exact hrun.aimed fun hu => hcovers.kill binder hu hd

/-- A background step is aimed, as samples come before its decision. -/
theorem BackgroundStep.aimed {abnormalThaw : Bool} (h : BackgroundStep ctx abnormalThaw s t r s')
    (hcovers : aim.Covers ctx) : Aimed aim (some (ctx.record.uid, ctx.processes)) t := by
  cases h with
  | waiting => trivial
  | delayed => trivial
  | downloading =>
    refine .of_harmless fun call hc => ?_
    obtain rfl := List.mem_singleton.mp hc
    exact harmless_sample _ _ _
  | decided deferral binder hsample hdecision =>
    refine aimed_append.mpr ⟨.of_harmless fun call hc => ?_, ?_⟩
    · exact ⟨by simp [hsample call hc], by simp [hsample call hc]⟩
    · rw [listingAfter_steady fun call hc => steady_of_query (by simp [hsample call hc])]
      exact ⟨(harmless_binder binder).allows, hdecision.aimed hcovers⟩

/-- Only an allowed record in the background leads to a freeze or a kill. -/
theorem ListedStep.aimed {auditDue : Bool} (h : ListedStep ctx auditDue s t r s')
    (hcovers : ctx.allowed = true → ctx.record.uid ∉ ctx.input.foregroundUids → aim.Covers ctx) :
    Aimed aim (some (ctx.record.uid, ctx.processes)) t := by
  cases h with
  | released _ hexec =>
    obtain ⟨s₁, hsteps, -⟩ := releaseProtected_steps hexec
    exact .of_harmless hsteps.harmless
  | blocked => trivial
  | foreground => trivial
  | opened _ _ _ _ _ hthaw => exact .of_harmless (unfreezeIdentityProcesses_harmless hthaw)
  | wokenUp _ _ _ _ _ _ hthaw => exact .of_harmless (unfreezeIdentityProcesses_harmless hthaw)
  | kept => trivial
  | refrozen ha _ hfg _ _ _ _ hbackground => exact hbackground.aimed (hcovers ha hfg)
  | background ha _ hfg _ hbackground => exact hbackground.aimed (hcovers ha hfg)

/-- A record is aimed if the aim covers what is listed for it while it is allowed and in
    the background. -/
theorem RecordStep.aimed {input : PassInput} {auditDue : Bool} {record : ManagerAppConfigRecord}
    (h : RecordStep input auditDue record s t r s')
    (hcovers : ∀ first rest, listed record.uid (.ok (first :: rest)) ∈ t →
      isControlPolicyMode record.mode = true →
      (listedContext input record first rest).allowed = true →
      record.uid ∉ input.foregroundUids → aim.Covers (listedContext input record first rest)) :
    Aimed aim last t := by
  cases h with
  | uncontrolled => trivial
  | undiscovered => exact ⟨(harmless_listed _ _).allows, trivial⟩
  | exited => exact ⟨(harmless_listed _ _).allows, trivial⟩
  | occupied first rest hmode hlisted =>
    exact ⟨(harmless_listed _ _).allows,
      hlisted.aimed (hcovers first rest List.mem_cons_self hmode)⟩

/-- A pass keeps to an aim that covers every record that is listed in it. -/
theorem runControlPass_aimed {input : PassInput} (h : Exec (runControlPass input s) t (r, s'))
    (hcovers : ∀ record ∈ input.appConfig, ∀ first rest,
      listed record.uid (.ok (first :: rest)) ∈ t → isControlPolicyMode record.mode = true →
      (listedContext input record first rest).allowed = true →
      record.uid ∉ input.foregroundUids → aim.Covers (listedContext input record first rest)) :
    Aimed aim last t := by
  obtain ⟨ms, hms, rfl⟩ := exec_runControlPass_iff.mp h
  refine .flatMap fun m hm last => ?_
  have hcalls : ∀ call ∈ m.calls, call ∈ Moment.traceOf ms := fun call hc =>
    List.mem_flatMap.mpr ⟨m, hm, hc⟩
  obtain ⟨s₁, hrelease, -⟩ | ⟨auditDue, record, hrecord, r', -, hstep⟩ := hms.steps hm
  · obtain ⟨s₂, hsteps, -⟩ := releaseStale_steps hrelease
    exact .of_harmless hsteps.harmless
  · exact hstep.aimed fun first rest hlisted => hcovers record hrecord first rest (hcalls _ hlisted)

/-! ## Who may be touched -/

/-- Discovery lists processes of the uid it was asked for. -/
def ListsOwnUid (t : Trace) : Prop :=
  ∀ uid ps, listed uid (.ok ps) ∈ t → ∀ p ∈ ps, p.uid = uid

/-- `p` is listed for a background record in one of the modes, and neither its
    uid nor its package is protected. -/
structure MayTouch (input : PassInput) (modes : List Int) (p : RuntimeProcess) (listing : Listing) :
    Prop where
  listed     : ∃ q ∈ listing.2, p = q.pendingFreeze ∨ p = signalControlProcess q.pendingFreeze
  record     : ∃ record ∈ input.appConfig, record.uid = p.uid ∧ record.mode ∈ modes
  background : p.uid ∉ input.foregroundUids
  app_uid    : 10000 ≤ p.uid % 100000
  package    : protectedReasonFor p.packageName (p.uid % 100000 < 10000) = none

/-- The package name of a record is that of one of its processes. -/
theorem minPackageName_mem (first : RuntimeProcess) (rest : List RuntimeProcess) :
    ∃ p ∈ first :: rest, p.packageName = minPackageName first rest := by
  have hfold : ∀ (rest : List RuntimeProcess) (name : String),
      rest.foldl (fun name process => min name process.packageName) name = name
        ∨ ∃ p ∈ rest, p.packageName
          = rest.foldl (fun name process => min name process.packageName) name := by
    intro rest
    induction rest with
    | nil => exact fun _ => .inl rfl
    | cons p rest ih =>
      intro name
      rw [List.foldl_cons]
      rcases ih (min name p.packageName) with hmin | ⟨q, hq, hmin⟩
      · rcases min_choice name p.packageName with hname | hname
        · exact .inl (hmin.trans hname)
        · exact .inr ⟨p, List.mem_cons_self, (hmin.trans hname).symm⟩
      · exact .inr ⟨q, List.mem_cons_of_mem _ hq, hmin⟩
  rcases hfold rest first.packageName with hfirst | ⟨p, hp, hmin⟩
  · exact ⟨first, List.mem_cons_self, hfirst.symm⟩
  · exact ⟨p, List.mem_cons_of_mem _ hp, hmin⟩

/-- In a list of one package, every process has the package of the context. -/
theorem packageName_of_uniform {input : PassInput} {record : ManagerAppConfigRecord}
    {first : RuntimeProcess} {rest : List RuntimeProcess}
    (hu : Uniform (listedContext input record first rest).pendingProcesses) {q : RuntimeProcess}
    (hq : q ∈ first :: rest) : q.packageName = minPackageName first rest := by
  obtain ⟨p, hp, hmin⟩ := minPackageName_mem first rest
  have hmem : ∀ {q}, q ∈ first :: rest →
      q.pendingFreeze ∈ (listedContext input record first rest).pendingProcesses := fun hq =>
    List.mem_map_of_mem hq
  exact (hu.eq (hmem hq) (hmem hp)).trans hmin

/-- An allowed app has an app uid and no reason to be protected. -/
theorem RecordContext.allowed_spec {ctx : RecordContext} (h : ctx.allowed = true) :
    10000 ≤ ctx.record.uid % 100000
      ∧ protectedReasonFor ctx.packageName (ctx.record.uid % 100000 < 10000) = none := by
  have happ : ctx.app.isSystemApp = false ∧ ctx.app.isProtected = false := by
    unfold allowed FreezePolicy.isControlAllowedFor at h
    by_cases hc : (ctx.app.isSystemApp || ctx.app.isProtected) = true
    · simp [hc] at h
    · simpa using hc
  obtain ⟨hsystem, hprotected⟩ := happ
  have huid : ¬ ctx.record.uid % 100000 < 10000 := by
    simpa [app, managedAppFromRecord] using hsystem
  refine ⟨by omega, ?_⟩
  have hreason : ctx.app.protectedReason = none := by
    simpa [ManagedApp.isProtected] using hprotected
  exact (Option.or_eq_none_iff.mp hreason).1

/-- A control mode is 10 or one of those that freeze. -/
theorem mem_freeze_modes {mode : Int} (hmode : isControlPolicyMode mode = true) (h : mode ≠ 10) :
    mode ∈ [20, 21, 30, 31] := by
  simp only [isControlPolicyMode, Bool.or_eq_true, decide_eq_true_eq] at hmode
  simp only [List.mem_cons, List.not_mem_nil, or_false]
  tauto

/-- Every freeze and every kill of a pass is on a process that was listed for a
    record in a mode for it, in the background, of an unprotected app. -/
theorem pass_touches_only_allowed {input : PassInput}
    (h : Exec (runControlPass input s) t (r, s')) (hown : ListsOwnUid t) :
    ∀ pre call post, t = pre ++ call :: post →
      (∀ p, call.query = .freezeProcess p → ∃ listing, listingAfter none pre = some listing
        ∧ MayTouch input [20, 21, 30, 31] p listing)
      ∧ ∀ p, call.query = .terminateProcess p → ∃ listing, listingAfter none pre = some listing
        ∧ MayTouch input [10] p listing := by
  intro pre call post ht
  let aim : Aim := ⟨MayTouch input [20, 21, 30, 31], MayTouch input [10]⟩
  suffices haimed : Aimed aim none t from haimed.at ht
  refine runControlPass_aimed h fun record hrecord first rest hlisted hmode hallowed hfg => ?_
  obtain ⟨huid, hreason⟩ := RecordContext.allowed_spec hallowed
  -- All processes of a transaction share a package name, so the check on the record's name
  -- is one on theirs.
  have htouch : ∀ {modes q}, Uniform (listedContext input record first rest).pendingProcesses →
      record.mode ∈ modes → q ∈ first :: rest →
      MayTouch input modes q.pendingFreeze (record.uid, first :: rest)
        ∧ MayTouch input modes (signalControlProcess q.pendingFreeze) (record.uid, first :: rest) := by
    intro modes q hu hmodes hq
    have hquid : q.uid = record.uid := hown _ _ hlisted q hq
    have hpackage : q.packageName = minPackageName first rest := packageName_of_uniform hu hq
    have hunprotected : protectedReasonFor q.packageName (q.uid % 100000 < 10000) = none := by
      rw [hquid, hpackage]
      exact hreason
    exact ⟨⟨⟨q, hq, .inl rfl⟩, ⟨record, hrecord, hquid.symm, hmodes⟩, hquid ▸ hfg, hquid ▸ huid,
        hunprotected⟩,
      ⟨⟨q, hq, .inr rfl⟩, ⟨record, hrecord, hquid.symm, hmodes⟩, hquid ▸ hfg, hquid ▸ huid,
        hunprotected⟩⟩
  -- Freezes and stops first, then kills.
  constructor
  · intro binder hu hd p hp
    obtain ⟨q, hq, rfl⟩ := List.mem_map.mp hp
    have hmode10 : record.mode ≠ 10 := fun h10 => by
      have hkill : ((listedContext input record first rest).decide binder).action = .terminate :=
        (RecordContext.decide_terminate hallowed).mpr h10
      rw [hkill] at hd
      simp at hd
    exact htouch hu (mem_freeze_modes hmode hmode10) hq
  · intro binder hu hd p hp
    obtain ⟨q, hq, rfl⟩ := List.mem_map.mp hp
    have hmode10 : record.mode = 10 := (RecordContext.decide_terminate hallowed).mp hd
    exact (htouch hu (by simp [hmode10]) hq).1

/-- Discovery lists the processes of the uid that it is asked for. -/
theorem sample_listsOwnUid {α : Type} (past : Trace) (p : Control α) :
    ListsOwnUid (run sampleEnvironment.answer past p).1 := by
  intro uid ps hlisted p hp
  obtain ⟨past', hanswer⟩ := mem_run hlisted
  have hps : ps = if uid = 10123 then [sampleProcess] else [] := Except.ok.inj hanswer
  subst hps
  by_cases huid : uid = 10123
  · rw [if_pos huid] at hp
    obtain rfl := List.mem_singleton.mp hp
    exact huid.symm
  · simp [huid] at hp

/-- The pass freezes one process. -/
theorem pass_touches_only_allowed_sample :
    let t := (run sampleEnvironment.answer [] (runControlPass (samplePass 30) .default)).1
    ∃ listing, listingAfter none (t.take 4) = some listing
      ∧ MayTouch (samplePass 30) [20, 21, 30, 31] sampleProcess.pendingFreeze listing :=
  (pass_touches_only_allowed (exec_run sampleEnvironment.answer [] (runControlPass (samplePass 30) .default))
    (sample_listsOwnUid _ _) _ (frozen sampleProcess.pendingFreeze) _ rfl).1 _ rfl

end Freezeit
