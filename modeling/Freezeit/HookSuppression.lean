import Freezeit.HookRequests
import Mathlib.Data.List.Induction

/-! # Suppression needs fresh, paired evidence

    Background work is suppressed only for a managed uid that was seen neither
    in the foreground nor pending, by two sets that were published after the
    configuration, in this order, and not long ago. -/

namespace Freezeit

variable {published : List Publication} {runtime runtime' : HookRuntime} {nowMs uid : Int}

/-- A configuration was published. -/
def Publication.IsConfig : Publication → Prop
  | .config _ => True
  | _         => False

/-- The foreground was published. -/
def Publication.IsForeground : Publication → Prop
  | .foreground _ _ => True
  | _               => False

/-- The pending set was published. -/
def Publication.IsPending : Publication → Prop
  | .pending _ _ => True
  | _            => False

/-! ## What the snapshot is made of -/

/-- The last pending set of `later`, with what came after it. -/
def LatestPending (later : List Publication) (uids : VectorSet) (atMs : Int) : Prop :=
  ∃ before after, later = before ++ .pending uids atMs :: after
    ∧ ∀ publication ∈ after, ¬ publication.IsPending

/-- The last foreground set of `since` is the snapshot's, and so is the pending
    set published after it. -/
def LatestForeground (since : List Publication) (snapshot : RuntimeSnapshot) : Prop :=
  ∃ before later,
    since = before ++ .foreground snapshot.foregroundUids snapshot.foregroundAtMs :: later
      ∧ (∀ publication ∈ later, ¬ publication.IsForeground)
      ∧ (0 ≤ snapshot.pendingAtMs → LatestPending later snapshot.pendingUids snapshot.pendingAtMs)

/-- The snapshot is about the last configuration.  A set is in it with the time
    of its publication; a negative time says that there is none. -/
def SnapshotOf (published : List Publication) (snapshot : RuntimeSnapshot) : Prop :=
  ∃ before since, published = before ++ .config snapshot.managedApps :: since
    ∧ (∀ publication ∈ since, ¬ publication.IsConfig)
    ∧ (0 ≤ snapshot.foregroundAtMs → LatestForeground since snapshot)

/-- Until a configuration is accepted there is nothing to suppress by. After that the
    snapshot is made of publications that came in order. -/
structure SnapshotInv (published : List Publication) (runtime : HookRuntime) : Prop where
  unpaired : runtime.paired = false → runtime.service.runtimeSnapshot = .empty .empty
  paired   : runtime.paired = true → SnapshotOf published runtime.service.runtimeSnapshot
    ∧ runtime.service.config.managedApp = runtime.service.runtimeSnapshot.managedApps

/-- Nothing was published, and the snapshot says so. -/
theorem snapshotInv_initial : SnapshotInv [] .initial where
  unpaired _ := rfl
  paired hpaired := by cases hpaired

/-! ## Each publication -/

/-- After a configuration the snapshot holds no set. -/
theorem SnapshotOf.config (managedApps : BucketSet) :
    SnapshotOf (published ++ [.config managedApps]) (.empty managedApps) := by
  refine ⟨published, [], rfl, fun publication hmem => absurd hmem List.not_mem_nil, ?_⟩
  intro hforeground
  have hnegative : ¬ (0 : Int) ≤ -1 := by omega
  exact absurd hforeground hnegative

/-- A foreground set drops the pending set. -/
theorem SnapshotOf.foreground {snapshot : RuntimeSnapshot} (h : SnapshotOf published snapshot)
    (uids : VectorSet) (atMs : Int) :
    SnapshotOf (published ++ [.foreground uids atMs])
      ⟨snapshot.managedApps, uids, snapshot.pendingUids, atMs, -1⟩ := by
  obtain ⟨before, since, rfl, hsince, -⟩ := h
  refine ⟨before, since ++ [.foreground uids atMs], by simp, ?_, ?_⟩
  · intro publication hmem
    cases List.mem_append.mp hmem with
    | inl hmem => exact hsince publication hmem
    | inr hmem => exact List.mem_singleton.mp hmem ▸ id
  · intro _
    refine ⟨since, [], rfl, fun publication hmem => absurd hmem List.not_mem_nil, ?_⟩
    intro hpending
    have hnegative : ¬ (0 : Int) ≤ -1 := by omega
    exact absurd hpending hnegative

/-- A pending set is paired with the foreground set before it. -/
theorem SnapshotOf.pending {snapshot : RuntimeSnapshot} (h : SnapshotOf published snapshot)
    (uids : VectorSet) (atMs : Int) :
    SnapshotOf (published ++ [.pending uids atMs])
      ⟨snapshot.managedApps, snapshot.foregroundUids, uids, snapshot.foregroundAtMs, atMs⟩ := by
  obtain ⟨before, since, rfl, hsince, hforeground⟩ := h
  refine ⟨before, since ++ [.pending uids atMs], by simp, ?_, ?_⟩
  · intro publication hmem
    cases List.mem_append.mp hmem with
    | inl hmem => exact hsince publication hmem
    | inr hmem => exact List.mem_singleton.mp hmem ▸ id
  · intro hseen
    obtain ⟨between, later, rfl, hlater, -⟩ := hforeground hseen
    refine ⟨between, later ++ [.pending uids atMs], by simp, ?_, ?_⟩
    · intro publication hmem
      cases List.mem_append.mp hmem with
      | inl hmem => exact hlater publication hmem
      | inr hmem => exact List.mem_singleton.mp hmem ▸ id
    · intro _
      exact ⟨later, [], rfl, fun publication hmem => absurd hmem List.not_mem_nil⟩

/-! ## Each request -/

/-- What a request does to the published snapshot. -/
def Publishes (published : List Publication) (runtime : HookRuntime) (response : HookResponse) :
    Prop :=
  SnapshotInv published runtime →
    SnapshotInv (published ++ response.published.toList) response.runtime

/-- A response that publishes nothing and leaves the state keeps the invariant. -/
theorem publishes_nothing {reply : Option Bytes} :
    Publishes published runtime ⟨reply, none, runtime⟩ := by
  intro hinv
  rw [Option.toList_none, List.append_nil]
  exact hinv

/-- An accepted configuration puts the new managed apps in both places and empties the
    snapshot. -/
theorem handleConfig_accepted {initSucceeds : Bool} {service : HookService} {payload : Bytes}
    {parsed : ParsedConfig} (h : acceptedConfig initSucceeds service payload = some parsed) :
    (handleConfig initSucceeds service payload).2.runtimeSnapshot = .empty parsed.managed.apps
      ∧ (handleConfig initSucceeds service payload).2.config.managedApp = parsed.managed.apps := by
  unfold acceptedConfig at h
  unfold handleConfig
  cases hparse : parseConfig service.config.settings payload with
  | error error =>
    rw [hparse] at h
    cases h
  | ok parsed' =>
    rw [hparse] at h
    dsimp only at h ⊢
    split at h
    · next hready =>
      cases h
      cases hinit : service.config.initField with
      | true =>
        rw [if_pos rfl]
        exact ⟨rfl, rfl⟩
      | false =>
        rw [hinit, Bool.false_or] at hready
        rw [if_neg (by decide), if_pos hready]
        exact ⟨rfl, rfl⟩
    · cases h

/-- A refused configuration changes nothing. -/
theorem handleConfig_refused {initSucceeds : Bool} {service : HookService} {payload : Bytes}
    (h : acceptedConfig initSucceeds service payload = none) :
    (handleConfig initSucceeds service payload).2 = service := by
  unfold acceptedConfig at h
  unfold handleConfig
  cases hparse : parseConfig service.config.settings payload with
  | error error => rfl
  | ok parsed =>
    rw [hparse] at h
    dsimp only at h ⊢
    split at h
    · cases h
    · next hready =>
      rw [Bool.not_eq_true, Bool.or_eq_false_iff] at hready
      rw [hready.1, hready.2]
      rfl

/-- A configuration is published exactly if it is accepted. -/
theorem serveConfig_published (payload : Bytes) (initSucceeds : Bool) :
    (serveConfig runtime payload initSucceeds).published
      = (acceptedConfig initSucceeds runtime.service payload).map
        fun parsed => .config parsed.managed.apps := by
  unfold serveConfig
  cases acceptedConfig initSucceeds runtime.service payload with
  | none        => rfl
  | some parsed => rfl

/-- What is published of it is what the snapshot holds then. -/
theorem serveConfig_publishes (payload : Bytes) (initSucceeds : Bool) :
    Publishes published runtime (serveConfig runtime payload initSucceeds) := by
  unfold serveConfig
  cases haccepted : acceptedConfig initSucceeds runtime.service payload with
  | none =>
    have hsame := handleConfig_refused haccepted
    dsimp only
    rw [hsame]
    exact publishes_nothing
  | some parsed =>
    intro _
    obtain ⟨hsnapshot, hmanaged⟩ := handleConfig_accepted haccepted
    refine ⟨fun hunpaired => (by cases hunpaired), fun _ => ?_⟩
    let service := (handleConfig initSucceeds runtime.service payload).2
    show SnapshotOf (published ++ [.config parsed.managed.apps]) service.runtimeSnapshot
      ∧ service.config.managedApp = service.runtimeSnapshot.managedApps
    rw [hsnapshot, hmanaged]
    exact ⟨.config parsed.managed.apps, rfl⟩

/-- A configuration is published exactly when the reply says that it was accepted. -/
theorem serveConfig_published_iff (payload : Bytes) (initSucceeds : Bool) :
    (serveConfig runtime payload initSucceeds).published.isSome = true
      ↔ (serveConfig runtime payload initSucceeds).reply = some (i32LeBytes replySuccess) := by
  have hfailure : some (i32LeBytes replyFailure) ≠ some (i32LeBytes replySuccess) := by decide
  unfold serveConfig acceptedConfig handleConfig
  cases parseConfig runtime.service.config.settings payload with
  | error message => exact ⟨fun h => (by cases h), fun h => absurd h hfailure⟩
  | ok parsed =>
    cases hinit : runtime.service.config.initField with
    | true  => exact ⟨fun _ => rfl, fun _ => rfl⟩
    | false =>
      cases initSucceeds with
      | true  => exact ⟨fun _ => rfl, fun _ => rfl⟩
      | false => exact ⟨fun h => (by cases h), fun h => absurd h hfailure⟩

/-- A published foreground is in the snapshot, and the pending set has expired. -/
theorem publishForegroundSnapshot_inv {uids : VectorSet}
    (h : publishForegroundSnapshot runtime nowMs uids = some runtime')
    (hinv : SnapshotInv published runtime) :
    SnapshotInv (published ++ [.foreground uids nowMs]) runtime' := by
  unfold publishForegroundSnapshot at h
  split at h
  · cases h
  · next hpaired =>
    cases h
    rw [Bool.not_eq_true', Bool.not_eq_false] at hpaired
    obtain ⟨hof, hmanaged⟩ := hinv.paired hpaired
    refine ⟨fun hunpaired => ?_, fun _ => ⟨?_, rfl⟩⟩
    · exact absurd (hpaired.symm.trans hunpaired) (by decide)
    · dsimp only
      rw [hmanaged]
      exact hof.foreground uids nowMs

/-- A published pending set is in the snapshot. -/
theorem publishPendingSnapshot_inv {uids : VectorSet}
    (h : publishPendingSnapshot runtime nowMs uids = some runtime')
    (hinv : SnapshotInv published runtime) :
    SnapshotInv (published ++ [.pending uids nowMs]) runtime' := by
  unfold publishPendingSnapshot at h
  split at h
  · cases h
  · next hpaired =>
    cases h
    rw [Bool.not_eq_true', Bool.not_eq_false] at hpaired
    obtain ⟨hof, hmanaged⟩ := hinv.paired hpaired
    refine ⟨fun hunpaired => ?_, fun _ => ⟨?_, rfl⟩⟩
    · exact absurd (hpaired.symm.trans hunpaired) (by decide)
    · dsimp only
      rw [hmanaged]
      exact hof.pending uids nowMs

/-- A scan publishes what it puts in the snapshot. -/
theorem handleForeground_publishes (processes : LruProcesses) :
    Publishes published runtime (handleForeground runtime nowMs processes) := by
  unfold handleForeground
  split
  · exact publishes_nothing
  · split
    · exact publishes_nothing
    · split
      · exact publishes_nothing
      · split
        · exact publishes_nothing
        · split
          · exact publishes_nothing
          · next hpublish => exact publishForegroundSnapshot_inv hpublish

/-- Wake locks publish nothing. -/
theorem handleWakeupLock_publishes (payload : Bytes) (appOps : AppOps) :
    Publishes published runtime (handleWakeupLock runtime nowMs payload appOps) := by
  unfold handleWakeupLock
  split
  · exact publishes_nothing
  · split
    · exact publishes_nothing
    · split
      · split
        · split
          · exact publishes_nothing
          · next hpublish => exact publishForegroundSnapshot_inv hpublish
        · exact publishes_nothing
      · exact publishes_nothing

/-- A pending set publishes what it puts in the snapshot. -/
theorem handlePendingApp_publishes (payload : Bytes) :
    Publishes published runtime (handlePendingApp runtime nowMs payload) := by
  unfold handlePendingApp
  split
  · exact publishes_nothing
  · split
    · exact publishes_nothing
    · next hpublish => exact publishPendingSnapshot_inv hpublish

/-- The same for any request. -/
theorem handleRequest_publishes (request : HookRequest) :
    Publishes published runtime (handleRequest runtime nowMs request) := by
  cases request with
  | setConfig payload initSucceeds => exact serveConfig_publishes payload initSucceeds
  | getForeground processes        => exact handleForeground_publishes processes
  | updatePending payload          => exact handlePendingApp_publishes payload
  | setWakeupLock payload appOps   => exact handleWakeupLock_publishes payload appOps

/-! ## Histories -/

/-- One more request is served in the state that the others left. -/
theorem HookHistory.after_concat (requests : List (Int × HookRequest)) (request : Int × HookRequest) :
    HookHistory.after (requests ++ [request]) = (HookHistory.after requests).serve request := by
  unfold after
  rw [List.foldl_append]
  rfl

/-- The snapshot is always made of the last publications, by induction on the requests. -/
theorem snapshotInv_after (requests : List (Int × HookRequest)) :
    SnapshotInv (HookHistory.after requests).published (HookHistory.after requests).runtime := by
  induction requests using List.reverseRecOn with
  | nil => exact snapshotInv_initial
  | append_singleton requests request ih =>
    rw [HookHistory.after_concat]
    exact handleRequest_publishes request.2 ih

/-- Of the configurations, foreground sets and pending sets that were published,
    the last ones came in this order, are not older than 15 s, and speak for
    suppressing the uid. -/
def FreshEvidence (published : List Publication) (uid nowMs : Int) : Prop :=
  ∃ before managedApps between foreground foregroundAtMs later pending pendingAtMs rest,
    published = before ++ .config managedApps :: (between
      ++ .foreground foreground foregroundAtMs :: (later ++ .pending pending pendingAtMs :: rest))
    ∧ (∀ publication ∈ between ++ later ++ rest, ¬ publication.IsConfig)
    ∧ (∀ publication ∈ later ++ rest, ¬ publication.IsForeground)
    ∧ (∀ publication ∈ rest, ¬ publication.IsPending)
    ∧ managedApps.contains uid = true ∧ uid ∉ foreground.vector ∧ uid ∉ pending.vector
    ∧ foregroundAtMs ≤ nowMs ∧ nowMs - foregroundAtMs ≤ 15000
    ∧ pendingAtMs ≤ nowMs ∧ nowMs - pendingAtMs ≤ 15000

/-- What it means that a part is fresh. -/
theorem isFreshSnapshot_iff {atMs : Int} :
    isFreshSnapshot atMs nowMs = true ↔ 0 ≤ atMs ∧ atMs ≤ nowMs ∧ nowMs - atMs ≤ 15000 := by
  unfold isFreshSnapshot runtimeSnapshotMaxAgeMs
  rw [Bool.and_eq_true, Bool.and_eq_true, decide_eq_true_eq, decide_eq_true_eq, decide_eq_true_eq,
    and_assoc]

/-- An app uid that the set does not contain is not in it. -/
theorem VectorSet.not_mem_of_contains {set : VectorSet} {n : Int} (hmin : uidMin ≤ n)
    (h : set.contains n = false) : n ∉ set.vector := by
  intro hmem
  have hnot : ¬ n < 10000 := Int.not_lt.mpr hmin
  unfold contains at h
  rw [if_neg hnot, List.contains_iff_mem.mpr hmem] at h
  cases h

/-- When work is suppressed: all five conditions hold. -/
theorem shouldSuppress_spec {snapshot : RuntimeSnapshot}
    (h : shouldSuppressBackgroundWork snapshot uid nowMs = true) :
    snapshot.managedApps.contains uid = true
      ∧ uid ∉ snapshot.foregroundUids.vector ∧ uid ∉ snapshot.pendingUids.vector
      ∧ isFreshSnapshot snapshot.foregroundAtMs nowMs = true
      ∧ isFreshSnapshot snapshot.pendingAtMs nowMs = true := by
  unfold shouldSuppressBackgroundWork at h
  split at h
  · cases h
  · next hnot =>
    rw [Bool.or_eq_true, Bool.or_eq_true, not_or, not_or, Bool.not_eq_true', Bool.not_eq_false,
      Bool.not_eq_true, Bool.not_eq_true] at hnot
    obtain ⟨⟨hmanaged, hforeground⟩, hpending⟩ := hnot
    have hmin : uidMin ≤ uid := by
      unfold BucketSet.contains at hmanaged
      rw [Bool.and_eq_true, decide_eq_true_eq] at hmanaged
      exact hmanaged.1
    rw [Bool.and_eq_true] at h
    exact ⟨hmanaged, VectorSet.not_mem_of_contains hmin hforeground,
      VectorSet.not_mem_of_contains hmin hpending, h.1, h.2⟩

/-- Whatever was requested before: what is suppressed now is suppressed on fresh
    evidence. -/
theorem suppression_is_fresh (requests : List (Int × HookRequest)) (uid nowMs : Int)
    (h : shouldSuppressBackgroundWork
      (HookHistory.after requests).runtime.service.runtimeSnapshot uid nowMs = true) :
    FreshEvidence (HookHistory.after requests).published uid nowMs := by
  obtain ⟨hmanaged, hforeground, hpending, hfreshForeground, hfreshPending⟩ := shouldSuppress_spec h
  rw [isFreshSnapshot_iff] at hfreshForeground hfreshPending
  have hinv := snapshotInv_after requests
  -- Without a pair nothing is managed, so the hook would not have suppressed.
  cases hpaired : (HookHistory.after requests).runtime.paired with
  | false =>
    rw [hinv.unpaired hpaired] at hmanaged
    rw [show (RuntimeSnapshot.empty .empty).managedApps = BucketSet.empty from rfl,
      BucketSet.contains_empty] at hmanaged
    cases hmanaged
  | true =>
    obtain ⟨before, since, hpublished, hsince, hlatest⟩ := (hinv.paired hpaired).1
    -- Going back from the request: first the foreground, then what was pending, then the
    -- configuration that both were published under.
    obtain ⟨between, later, rfl, hlater, hpaired⟩ := hlatest hfreshForeground.1
    obtain ⟨early, rest, rfl, hrest⟩ := hpaired hfreshPending.1
    refine ⟨before, _, between, _, _, early, _, _, rest, hpublished, ?_, ?_, hrest, hmanaged,
      hforeground, hpending, hfreshForeground.2.1, hfreshForeground.2.2, hfreshPending.2.1,
      hfreshPending.2.2⟩
    · intro publication hmem
      apply hsince publication
      simp only [List.mem_append, List.mem_cons] at hmem ⊢
      tauto
    · intro publication hmem
      apply hlater publication
      simp only [List.mem_append, List.mem_cons] at hmem ⊢
      tauto

/-- Uid 10123 is managed, and no process of it is in the foreground or pending. -/
def backgroundRequests : List (Int × HookRequest) :=
  [(1000, .setConfig (utf8Bytes "8\n10123uid10123\n") true),
    (2000, .getForeground ⟨true, true, [some ⟨1000, some 0⟩, none, some ⟨10123, some 15⟩]⟩),
    (3000, .updatePending [])]

/-- In the sample history there is fresh evidence for the app. -/
theorem suppression_is_fresh_sample :
    FreshEvidence (HookHistory.after backgroundRequests).published 10123 4000 :=
  suppression_is_fresh backgroundRequests 10123 4000 (by decide +kernel)

end Freezeit
