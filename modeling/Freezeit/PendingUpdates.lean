import Freezeit.ControlLoop
import Freezeit.FreezeDelay
import Freezeit.HookConfigCodec
import Freezeit.HookSuppression

/-! # UpdatePending and the pending set

    The daemon sends every pending uid; the hook parses them into an array of
    fixed length and checks each against the configuration it has. -/

namespace Freezeit

open Prog

variable {s s' : RuntimeControlState} {t : Trace} {r : Except DaemonError Unit}
  {ms past : List Moment} {records config : List ManagerAppConfigRecord}

/-! ## What is pending is controlled -/

/-- Every pending app belongs to a record in a control mode. -/
def PendingWithin (config : List ManagerAppConfigRecord) (s : RuntimeControlState) : Prop :=
  ∀ i, s.pendingFreezes.get? i ≠ none → i.uid ∈ controlledUids config

/-- The policy that the step begins a pass with. -/
def Moment.policy? (m : Moment) : Option (List ManagerAppConfigRecord) :=
  match m.work with
  | .release input => some input.appConfig
  | _              => none

/-- The policy of the last pass. -/
def lastPolicy (ms : List Moment) : Option (List ManagerAppConfigRecord) :=
  (ms.filterMap Moment.policy?).getLast?

/-- Steps without a policy leave the last one in place. -/
theorem lastPolicy_append_other {ms' : List Moment} (h : ∀ m ∈ ms', m.policy? = none) :
    lastPolicy (ms ++ ms') = lastPolicy ms := by
  unfold lastPolicy
  rw [List.filterMap_append, List.filterMap_eq_nil_iff.mpr h, List.append_nil]

/-- The start of a pass sets the policy of the run. -/
theorem lastPolicy_append_release {m : Moment} {ms' : List Moment} (hm : m.policy? = some config)
    (h : ∀ m ∈ ms', m.policy? = none) : lastPolicy (ms ++ m :: ms') = some config := by
  unfold lastPolicy
  rw [List.filterMap_append, List.filterMap_cons_some hm, List.filterMap_eq_nil_iff.mpr h]
  exact List.getLast?_concat

/-- The records of a pass have no policy of their own. -/
theorem RecordMoments.policy {input : PassInput} {auditDue : Bool}
    (h : RecordMoments input auditDue records s ms r s') : ∀ m ∈ ms, m.policy? = none := by
  intro m hm
  obtain ⟨record, -, r', hwork, -⟩ := h.steps hm
  unfold Moment.policy?
  rw [hwork]

/-- They set timers for apps of the configuration only. -/
theorem RecordMoments.pendingWithin {input : PassInput} {auditDue : Bool}
    (h : RecordMoments input auditDue records s ms r s')
    (hsub : ∀ record ∈ records, record ∈ config) (hwithin : PendingWithin config s) :
    PendingWithin config s' := by
  have hstep : ∀ {record t r s s'}, record ∈ config →
      Exec (controlRecord input auditDue record s) t (r, s') → PendingWithin config s →
      PendingWithin config s' := by
    intro record t r s s' hrecord hexec hbefore i hi
    cases hmode : isControlPolicyMode record.mode with
    | true =>
      by_cases huid : i.uid = record.uid
      · rw [huid]
        exact mem_controlledUids hrecord hmode
      · apply hbefore i
        rw [← ((controlRecord_run hexec).sameWait huid).pending]
        exact hi
    | false =>
      unfold controlRecord at hexec
      rw [if_pos (by rw [hmode]; rfl)] at hexec
      obtain ⟨-, heq⟩ := exec_pure.mp hexec
      rw [(Prod.mk.inj heq).2] at hi
      exact hbefore i hi
  induction h with
  | nil => exact hwithin
  | failed hexec => exact hstep (hsub _ List.mem_cons_self) hexec hwithin
  | cons hexec _ ih =>
    apply ih
    · intro record hrecord
      exact hsub record (List.mem_cons_of_mem _ hrecord)
    · exact hstep (hsub _ List.mem_cons_self) hexec hwithin

/-- The release at the start of a pass removes the timers of all other apps. -/
theorem releaseStale_pendingWithin {input : PassInput} (h : Exec (releaseStale input s) t s') :
    PendingWithin input.appConfig s' := by
  obtain ⟨s₁, hsteps, rfl⟩ := releaseStale_steps h
  intro i hi
  rw [(SameWait.clearDetached s₁ _).pending, hsteps.sameWait.pending] at hi
  have hretained : (s.pendingFreezes.retain fun i _ =>
      (controlledUids input.appConfig).contains i.uid).get? i ≠ none := hi
  rw [SortedMap.get?_retain] at hretained
  obtain ⟨due, hdue⟩ := Option.ne_none_iff_exists'.mp hretained
  rw [Option.filter_eq_some_iff] at hdue
  exact SortedMap.contains_iff_mem.mp hdue.2

/-- After a pass, what is pending is controlled by the policy of the pass. -/
theorem Run.pendingWithin (h : Run ms s) (hpolicy : ∀ config, lastPolicy ms = some config →
    config = records) : PendingWithin records s := by
  induction h with
  | default =>
    intro i hi
    exact absurd rfl hi
  -- A pass makes it true anew, for its own configuration.
  | @pass past s₀ ms r s' input _ hms _ =>
    cases hms with
    | pass hrelease hrecords =>
      have hlast : input.appConfig = records :=
        hpolicy _ (lastPolicy_append_release rfl hrecords.policy)
      subst hlast
      apply hrecords.pendingWithin fun record hrecord => hrecord
      have hstart := releaseStale_pendingWithin hrelease
      intro i hi
      apply hstart i
      obtain ⟨startedAt, next, heq⟩ := refreezeAuditDue_eq _ input.settings input.timestampMs
      rw [heq] at hi
      exact hi
  -- No timers are left.
  | thawAll timestampMs _ hexec _ =>
    obtain ⟨s₁, -, rfl⟩ := thawAllFrozen_steps hexec
    intro i hi
    exact absurd rfl hi
  | freezeStatus appConfig processesByUid foregroundUids timestampMs _ ih =>
    apply ih
    intro config hconfig
    apply hpolicy
    rw [lastPolicy_append_other (by simp [Moment.policy?])]
    exact hconfig
  | takeNetworkRestrictions _ ih =>
    apply ih
    intro config hconfig
    apply hpolicy
    rw [lastPolicy_append_other (by simp [Moment.policy?])]
    exact hconfig
  | requeueNetworkRestriction uid _ ih =>
    apply ih
    intro config hconfig
    apply hpolicy
    rw [lastPolicy_append_other (by simp [Moment.policy?])]
    exact hconfig

/-! ## The configuration that the hook has -/

variable {requests earlier later : List (Int × HookRequest)} {payload settings : Bytes}
  {runtime : HookRuntime} {nowMs : Int}

/-- The request is a configuration, and the reply says that it was accepted. -/
def Accepts (runtime : HookRuntime) (request : HookRequest) : Prop :=
  ∃ payload initSucceeds, request = .setConfig payload initSucceeds
    ∧ (serveConfig runtime payload initSucceeds).reply = some (i32LeBytes replySuccess)

/-- The last configuration that was accepted came with this payload. -/
def LastAccepted (requests : List (Int × HookRequest)) (payload : Bytes) : Prop :=
  ∃ earlier atMs initSucceeds later,
    requests = earlier ++ (atMs, .setConfig payload initSucceeds) :: later
      ∧ Accepts (HookHistory.after earlier).runtime (.setConfig payload initSucceeds)
      ∧ ∀ between request rest, later = between ++ request :: rest →
        ¬ Accepts (HookHistory.after
          (earlier ++ (atMs, .setConfig payload initSucceeds) :: between)).runtime request.2

/-- The service has a configuration with these apps. -/
def HasApps (managedApps : BucketSet) (runtime : HookRuntime) : Prop :=
  runtime.paired = true ∧ runtime.service.config.managedApp = managedApps

/-- A foreground snapshot is published without a change of the managed apps. -/
theorem publishForegroundSnapshot_hasApps {managedApps : BucketSet} {uids : VectorSet}
    {runtime' : HookRuntime} (h : publishForegroundSnapshot runtime nowMs uids = some runtime')
    (hhas : HasApps managedApps runtime) : HasApps managedApps runtime' := by
  unfold publishForegroundSnapshot at h
  split at h
  · cases h
  · cases h
    exact hhas

/-- A pending snapshot is published without a change of the managed apps. -/
theorem publishPendingSnapshot_hasApps {managedApps : BucketSet} {uids : VectorSet}
    {runtime' : HookRuntime} (h : publishPendingSnapshot runtime nowMs uids = some runtime')
    (hhas : HasApps managedApps runtime) : HasApps managedApps runtime' := by
  unfold publishPendingSnapshot at h
  split at h
  · cases h
  · cases h
    exact hhas

/-- A request that is not an accepted configuration keeps the configuration. -/
theorem handleRequest_hasApps {managedApps : BucketSet} {request : HookRequest}
    (hnot : ¬ Accepts runtime request) (hhas : HasApps managedApps runtime) :
    HasApps managedApps (handleRequest runtime nowMs request).runtime := by
  -- Only an accepted configuration replaces the managed apps.
  cases request with
  | setConfig payload initSucceeds =>
    have hrefused : acceptedConfig initSucceeds runtime.service payload = none := by
      cases haccepted : acceptedConfig initSucceeds runtime.service payload with
      | none => rfl
      | some parsed =>
        refine absurd ⟨payload, initSucceeds, rfl, ?_⟩ hnot
        apply (serveConfig_published_iff payload initSucceeds).mp
        rw [serveConfig_published, haccepted]
        rfl
    show HasApps managedApps (serveConfig runtime payload initSucceeds).runtime
    unfold serveConfig
    rw [hrefused]
    dsimp only
    rw [handleConfig_refused hrefused]
    exact hhas
  | getForeground processes =>
    show HasApps managedApps (handleForeground runtime nowMs processes).runtime
    unfold handleForeground
    split
    · exact hhas
    · split
      · exact hhas
      · split
        · exact hhas
        · split
          · exact hhas
          · split
            · exact hhas
            · next hpublish => exact publishForegroundSnapshot_hasApps hpublish hhas
  | updatePending payload =>
    show HasApps managedApps (handlePendingApp runtime nowMs payload).runtime
    unfold handlePendingApp
    split
    · exact hhas
    · split
      · exact hhas
      · next hpublish => exact publishPendingSnapshot_hasApps hpublish hhas
  | setWakeupLock payload appOps =>
    show HasApps managedApps (handleWakeupLock runtime nowMs payload appOps).runtime
    unfold handleWakeupLock
    split
    · exact hhas
    · split
      · exact hhas
      · split
        · split
          · split
            · exact hhas
            · next hpublish => exact publishForegroundSnapshot_hasApps hpublish hhas
          · exact hhas
        · exact hhas

/-- The hook still has the managed apps of the configuration it accepted last. -/
theorem LastAccepted.hasApps (h : LastAccepted requests payload) :
    ∃ current parsed, parseConfig current payload = .ok parsed
      ∧ HasApps parsed.managed.apps (HookHistory.after requests).runtime := by
  obtain ⟨earlier, atMs, initSucceeds, later, rfl, haccepts, hlater⟩ := h
  obtain ⟨payload', initSucceeds', hsame, hreply⟩ := haccepts
  cases hsame
  have hpublished := (serveConfig_published_iff payload initSucceeds).mpr hreply
  rw [serveConfig_published, Option.isSome_map] at hpublished
  obtain ⟨parsed, hparsed⟩ := Option.isSome_iff_exists.mp hpublished
  refine ⟨(HookHistory.after earlier).runtime.service.config.settings, parsed, ?_, ?_⟩
  · unfold acceptedConfig at hparsed
    split at hparsed
    · cases hparsed
    · next parsed' hparse =>
      split at hparsed
      · cases hparsed
        exact hparse
      · cases hparsed
  -- Over the requests that came since, none of which was accepted.
  · induction later using List.reverseRecOn with
    | nil =>
      rw [HookHistory.after_concat]
      show HasApps _ (serveConfig (HookHistory.after earlier).runtime payload initSucceeds).runtime
      unfold serveConfig
      rw [hparsed]
      exact ⟨rfl, (handleConfig_accepted hparsed).2⟩
    | append_singleton later request ih =>
      rw [← List.cons_append, ← List.append_assoc, HookHistory.after_concat]
      apply handleRequest_hasApps
      · exact hlater later request [] rfl
      · apply ih
        intro between other rest hsplit
        exact hlater between other (rest ++ [request]) (by rw [hsplit, List.append_assoc]; rfl)

/-! ## What the update carries -/

/-- A number below 2^31 is the same for the daemon and for Java. -/
theorem i32FromLeBytes_u32LeBytes {n : Nat} (h : n < 2 ^ 31) :
    i32FromLeBytes (.ofNat n) (.ofNat (n / 2 ^ 8)) (.ofNat (n / 2 ^ 16)) (.ofNat (n / 2 ^ 24))
      = n := by
  have hmod : n % 2 ^ 32 = n := Nat.mod_eq_of_lt (by omega)
  unfold i32FromLeBytes
  rw [u32FromLeBytes_ofNat, hmod]
  exact if_pos h

/-- The uids of a payload arrive as they were sent. -/
theorem intsFromLeBytes_encodeUidPayload {uids : List Nat} (h : ∀ uid ∈ uids, uid < 2 ^ 31) :
    intsFromLeBytes (encodeUidPayload uids) = uids.map fun uid : Nat => (uid : Int) := by
  induction uids with
  | nil => rfl
  | cons uid uids ih =>
    show i32FromLeBytes _ _ _ _ :: intsFromLeBytes (encodeUidPayload uids) = _
    rw [i32FromLeBytes_u32LeBytes (h uid List.mem_cons_self),
      ih fun other hother => h other (List.mem_cons_of_mem _ hother)]
    rfl

/-- Each uid takes four bytes. -/
theorem length_encodeUidPayload (uids : List Nat) :
    (encodeUidPayload uids).length = 4 * uids.length := by
  unfold encodeUidPayload
  rw [List.length_flatMap]
  induction uids with
  | nil => rfl
  | cons uid uids ih =>
    rw [List.map_cons, List.sum_cons, ih, List.length_cons]
    show 4 + 4 * uids.length = _
    omega

/-- The set holds what was added. -/
theorem mem_foldl_add {uids : List Int} {set : VectorSet} {uid : Int} :
    uid ∈ (uids.foldl VectorSet.add set).vector ↔ uid ∈ set.vector ∨ uid ∈ uids := by
  induction uids generalizing set with
  | nil => simp
  | cons other uids ih => rw [List.foldl_cons, ih, VectorSet.mem_add, List.mem_cons, or_assoc]

/-- The update is accepted, and what it publishes is the set of these uids: none is
    missing and none comes in. -/
structure Carried (runtime : HookRuntime) (nowMs : Int) (uids : List Nat) : Prop where
  accepted  : (handlePendingApp runtime nowMs (encodeUidPayload uids)).reply
    = some (i32LeBytes replySuccess)
  published : ∃ set,
    (handlePendingApp runtime nowMs (encodeUidPayload uids)).published = some (.pending set nowMs)
      ∧ (handlePendingApp runtime nowMs
        (encodeUidPayload uids)).runtime.service.runtimeSnapshot.pendingUids = set
      ∧ ∀ uid : Int, uid ∈ set.vector ↔ ∃ n ∈ uids, (n : Int) = uid

/-- The update is rejected as a whole, nothing is published, and the service keeps what it
    has. -/
structure Rejected (runtime : HookRuntime) (nowMs : Int) (uids : List Nat) : Prop where
  refused   : (handlePendingApp runtime nowMs (encodeUidPayload uids)).reply
    = some (i32LeBytes replyFailure)
  published : (handlePendingApp runtime nowMs (encodeUidPayload uids)).published = none
  kept      : (handlePendingApp runtime nowMs (encodeUidPayload uids)).runtime = runtime

/-- A rejected request carries nothing. -/
theorem Rejected.not_carried {uids : List Nat} (h : Rejected runtime nowMs uids) :
    ¬ Carried runtime nowMs uids := by
  intro hcarried
  obtain ⟨set, hset, -⟩ := hcarried.published
  rw [h.published] at hset
  cases hset

/-- More uids than the array holds are rejected. -/
theorem rejected_of_many {uids : List Nat} (h : uidListLength < uids.length) :
    Rejected runtime nowMs uids := by
  have hnone : parsePending runtime.service.config.managedApp (encodeUidPayload uids) = none := by
    unfold parsePending
    rw [length_encodeUidPayload, if_neg (by omega), if_pos (by omega)]
  refine ⟨?_, ?_, ?_⟩
  · unfold handlePendingApp
    rw [hnone]
    rfl
  · unfold handlePendingApp
    rw [hnone]
    rfl
  · unfold handlePendingApp
    rw [hnone]
    rfl

/-- A set within the capacity, of managed apps only, is carried over as it is. -/
theorem carried_of_managed {uids : List Nat} {managedApps : BucketSet}
    (hhas : HasApps managedApps runtime) (hmany : uids.length ≤ uidListLength)
    (hmanaged : ∀ uid ∈ uids, managedApps.contains uid = true)
    (hrange : ∀ uid ∈ uids, uid < 2 ^ 31) : Carried runtime nowMs uids := by
  let set : VectorSet := (uids.map fun uid : Nat => (uid : Int)).foldl VectorSet.add (.new 64)
  -- No uid is refused, and none is dropped for want of room.
  have hparse : parsePending runtime.service.config.managedApp (encodeUidPayload uids)
      = some set := by
    unfold parsePending
    rw [length_encodeUidPayload, if_neg (by omega), if_neg (by omega),
      intsFromLeBytes_encodeUidPayload hrange, if_pos]
    rw [List.all_map, List.all_eq_true, hhas.2]
    exact hmanaged
  have hserved : handlePendingApp runtime nowMs (encodeUidPayload uids)
      = .code replySuccess (some (.pending set nowMs)) { runtime with service :=
        { config          := { runtime.service.config with pendingUid := set }
          runtimeSnapshot := ⟨runtime.service.config.managedApp,
            runtime.service.runtimeSnapshot.foregroundUids, set,
            runtime.service.runtimeSnapshot.foregroundAtMs, nowMs⟩ } } := by
    unfold handlePendingApp publishPendingSnapshot
    rw [hparse, hhas.1]
    rfl
  refine ⟨?_, set, ?_, ?_, ?_⟩
  · rw [hserved]
    rfl
  · rw [hserved]
    rfl
  · rw [hserved]
    rfl
  · intro uid
    rw [mem_foldl_add, List.mem_map]
    constructor
    · intro hmem
      cases hmem with
      | inl hnew => exact absurd hnew List.not_mem_nil
      | inr hmem => exact hmem
    · intro hmem
      exact .inr hmem

/-! ## The pending set of a run -/

/-- A uid is pending if some app of it has a timer. -/
theorem mem_pendingFreezeUids {uid : Nat} :
    uid ∈ s.pendingFreezeUids ↔ ∃ i, s.pendingFreezes.get? i ≠ none ∧ i.uid = uid := by
  have hmap : s.pendingFreezes.keys.foldl (fun uids i => uids.insert i.uid ()) ∅
      = (s.pendingFreezes.keys.map RuntimeIdentity.uid).foldl
        (fun uids uid => uids.insert uid ()) (∅ : SortedSet Nat) := by rw [List.foldl_map]
  unfold RuntimeControlState.pendingFreezeUids
  rw [SortedMap.mem_keys, hmap, SortedMap.mem_foldl_insert, List.mem_map]
  constructor
  · intro hmem
    cases hmem with
    | inl hmem =>
      obtain ⟨i, hi, huid⟩ := hmem
      exact ⟨i, Option.ne_none_iff_exists'.mpr
        (SortedMap.mem_iff_get?.mp (SortedMap.mem_keys.mp hi)), huid⟩
    | inr hmem => exact absurd hmem (SortedMap.not_mem_empty _)
  · intro hmem
    obtain ⟨i, hi, huid⟩ := hmem
    exact .inl ⟨i, SortedMap.mem_keys.mpr (SortedMap.mem_iff_get?.mpr
      (Option.ne_none_iff_exists'.mp hi)), huid⟩

/-- A uid is controlled if it has a record in a control mode. -/
theorem mem_controlledUids_iff {uid : Nat} : uid ∈ controlledUids config ↔
    ∃ record ∈ config, isControlPolicyMode record.mode = true ∧ record.uid = uid := by
  unfold controlledUids
  rw [SortedMap.mem_foldl_insert, List.mem_map]
  constructor
  · intro hmem
    cases hmem with
    | inl hmem =>
      obtain ⟨record, hrecord, huid⟩ := hmem
      obtain ⟨hmem, hmode⟩ := List.mem_filter.mp hrecord
      exact ⟨record, hmem, hmode, huid⟩
    | inr hmem => exact absurd hmem (SortedMap.not_mem_empty _)
  · intro hmem
    obtain ⟨record, hmem, hmode, huid⟩ := hmem
    exact .inl ⟨record, List.mem_filter.mpr ⟨hmem, hmode⟩, huid⟩

/-- The pending set arrives as a whole, as long as it fits the array of the hook; a set
    that does not fit is rejected as a whole. -/
theorem pending_set_is_carried (hrun : Run ms s)
    (hpolicy : ∀ config, lastPolicy ms = some config → config = records)
    (hlength : settings.length = 256) (hrange : ∀ record ∈ records, record.InRange)
    (hencode : encodeXposedConfigPayload settings (encodeAppConfig records) = .ok payload)
    (haccepted : LastAccepted requests payload) (nowMs : Int) :
    (s.pendingFreezeUids.length ≤ 128 →
      Carried (HookHistory.after requests).runtime nowMs s.pendingFreezeUids)
    ∧ (128 < s.pendingFreezeUids.length →
      Rejected (HookHistory.after requests).runtime nowMs s.pendingFreezeUids) := by
  refine ⟨?_, rejected_of_many⟩
  intro hmany
  obtain ⟨current, parsed, hparse, hhas⟩ := haccepted.hasApps
  have hhigh := (encodeXposedConfigPayload_eq_ok hrange hencode).1
  -- The hook refuses a configuration with a uid below 10000, so there is none in it.
  have hlow : ∀ record ∈ sentRecords records, 10000 ≤ record.uid := by
    intro record hrecord
    by_contra hnot
    obtain ⟨error, herror⟩ := parseConfig_payload_error current hlength hrange hencode hrecord
      (by omega)
    rw [hparse] at herror
    cases herror
  obtain ⟨parsed', hparse', -, hmanaged, -⟩ :=
    parseConfig_payload_ok current hlength hrange hencode hlow
  have hsame : parsed' = parsed := Except.ok.inj (hparse'.symm.trans hparse)
  subst hsame
  -- A pending app has a record in a control mode, and all of those were sent.
  have hsent : ∀ uid ∈ s.pendingFreezeUids, ∃ record ∈ sentRecords records, record.uid = uid := by
    intro uid huid
    obtain ⟨i, hpending, rfl⟩ := mem_pendingFreezeUids.mp huid
    obtain ⟨record, hrecord, hmode, hsame⟩ :=
      mem_controlledUids_iff.mp (hrun.pendingWithin hpolicy i hpending)
    exact ⟨record, mem_sentRecords_of_control hrecord hmode, hsame⟩
  apply carried_of_managed hhas hmany
  · intro uid huid
    obtain ⟨record, hrecord, hsame⟩ := hsent uid huid
    exact (hmanaged uid).mpr ⟨record, hrecord, congrArg Nat.cast hsame⟩
  · intro uid huid
    obtain ⟨record, hrecord, rfl⟩ := hsent uid huid
    have hmax : legacyXposedMaxUid < 2 ^ 31 := by decide
    exact Nat.lt_of_le_of_lt (hhigh record hrecord) hmax

/-! ### Samples

    The first takes one uid over; the other has one uid too many. -/

/-- A pass that starts the delay of as many apps as there are records. -/
def waitingEnvironment : StaticEnvironment where
  discover uid := .ok [backgroundProcess "app" uid uid]

/-- Any number of apps of mode 30. -/
def waitingRecords (count : Nat) : List ManagerAppConfigRecord :=
  (List.range count).map fun n => ⟨10200 - n, 30, false⟩

/-- A pass in which all of them begin to wait. -/
def waitingPass (count : Nat) : PassInput :=
  ⟨waitingRecords count, legacyDefaultSettings, [], 1000⟩

/-- It is a run. -/
theorem waiting_run (count : Nat) :
    Run (waitingEnvironment.passMoments (waitingPass count) .default).1
      (waitingEnvironment.passMoments (waitingPass count) .default).2.2 :=
  .pass (waitingPass count) .default (waitingEnvironment.passMoments_spec _ _)

/-- Its policy is that list of apps. -/
theorem waiting_policy (count : Nat) (config : List ManagerAppConfigRecord)
    (h : lastPolicy (waitingEnvironment.passMoments (waitingPass count) .default).1 = some config) :
    config = waitingRecords count := by
  have hspec := waitingEnvironment.recordMoments_spec (waitingPass count)
    (refreezeAuditDue (run waitingEnvironment.answer [] (releaseStale (waitingPass count)
      .default)).2 legacyDefaultSettings 1000).1 (waitingRecords count)
    (refreezeAuditDue (run waitingEnvironment.answer [] (releaseStale (waitingPass count)
      .default)).2 legacyDefaultSettings 1000).2
  have hlast : lastPolicy ([] ++ (waitingEnvironment.passMoments (waitingPass count) .default).1)
      = some (waitingRecords count) := lastPolicy_append_release rfl hspec.policy
  exact Option.some.inj (h.symm.trans hlast)

/-- The service accepts the policy of such a pass. -/
theorem waiting_accepted {count : Nat} (hcount : count ≤ 200) :
    (∀ record ∈ waitingRecords count, record.InRange)
      ∧ ∃ payload, encodeXposedConfigPayload legacyDefaultSettings
        (encodeAppConfig (waitingRecords count)) = .ok payload
      ∧ LastAccepted [(0, .setConfig payload true)] payload := by
  -- All uids lie in the range that the hook accepts.
  have huids : ∀ record ∈ waitingRecords count,
      10000 ≤ record.uid ∧ record.uid ≤ 10200 ∧ record.mode = 30 := by
    intro record hrecord
    obtain ⟨n, hn, rfl⟩ := List.mem_map.mp hrecord
    rw [List.mem_range] at hn
    dsimp only
    omega
  have hrange : ∀ record ∈ waitingRecords count, record.InRange := by
    intro record hrecord
    have hrecord := huids record hrecord
    exact ⟨by omega, by omega⟩
  have hsent : ∀ record ∈ sentRecords (waitingRecords count),
      10000 ≤ record.uid ∧ record.uid ≤ legacyXposedMaxUid := by
    intro record hrecord
    have hrecord := huids record (List.mem_of_mem_filter hrecord)
    have hmax : 10200 ≤ legacyXposedMaxUid := by decide
    omega
  obtain ⟨payload, hpayload⟩ := encodeXposedConfigPayload_ok legacyDefaultSettings hrange
    fun record hrecord => (hsent record hrecord).2
  obtain ⟨parsed, hparsed, -⟩ := parseConfig_payload_ok HookService.initial.config.settings
    length_legacyDefaultSettings hrange hpayload fun record hrecord => (hsent record hrecord).1
  refine ⟨hrange, payload, hpayload, [], 0, true, [], rfl, ⟨payload, true, rfl, ?_⟩, ?_⟩
  · apply (serveConfig_published_iff payload true).mp
    have haccepted : acceptedConfig true HookRuntime.initial.service payload = some parsed := by
      unfold acceptedConfig
      rw [show parseConfig HookRuntime.initial.service.config.settings payload = .ok parsed from
        hparsed]
      rfl
    rw [serveConfig_published]
    show ((acceptedConfig true HookRuntime.initial.service payload).map _).isSome = true
    rw [haccepted]
    rfl
  · intro between request rest hsplit
    exact absurd hsplit.symm (List.append_ne_nil_of_right_ne_nil _ (List.cons_ne_nil _ _))

/-- One waiting app is carried over. -/
theorem pending_set_is_carried_sample :
    ∃ requests, Carried (HookHistory.after requests).runtime 2000
      (waitingEnvironment.passMoments (waitingPass 1) .default).2.2.pendingFreezeUids := by
  obtain ⟨hrange, payload, hpayload, haccepted⟩ := @waiting_accepted 1 (by decide)
  exact ⟨_, (pending_set_is_carried (waiting_run 1) (waiting_policy 1) length_legacyDefaultSettings
    hrange hpayload haccepted 2000).1 (by decide +kernel)⟩

/-- 129 apps wait for their freeze, the service has accepted their policy, and
    the update is rejected. -/
theorem many_pending_uids_are_rejected :
    ∃ ms s payload requests, Run ms s
      ∧ (∀ config, lastPolicy ms = some config → config = waitingRecords 129)
      ∧ encodeXposedConfigPayload legacyDefaultSettings (encodeAppConfig (waitingRecords 129))
        = .ok payload
      ∧ LastAccepted requests payload
      ∧ ¬ Carried (HookHistory.after requests).runtime 2000 s.pendingFreezeUids := by
  obtain ⟨-, payload, hpayload, haccepted⟩ := @waiting_accepted 129 (by decide)
  refine ⟨_, _, payload, _, waiting_run 129, waiting_policy 129, hpayload, haccepted, ?_⟩
  apply (rejected_of_many ?_).not_carried
  decide +kernel

end Freezeit
