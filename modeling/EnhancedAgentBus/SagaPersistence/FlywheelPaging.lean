import EnhancedAgentBus.Lib.Paging
import EnhancedAgentBus.SagaPersistence.Codecs
import EnhancedAgentBus.SagaPersistence.Redis

/-!
# Paging through flywheel runs

`list_flywheel_runs_by_tenant` and `list_flywheel_runs_by_state` over the Redis backend, for a store
that stays as it is during the call.  The outer pager reads pages of at least a hundred sagas, keeps
the flywheel runs and counts an offset; the inner one cuts its pages out of the identifiers of an
index in descending order, leaves out those whose hash is gone, and sorts each page by date.

So the runs come in the order of the dates only as long as the pages do, and the outer pager takes a
page whose hashes are all gone for the end of the list (`pagingExact_iff`).

A hash that has a name has all that `save` writes (`Named`): every write keeps it so.
-/

namespace EnhancedAgentBus.SagaPersistence

open Async Async.Prog Paging

/-! ## The outer pager -/

section Scan

variable [IsoText] [PrintTable]

/-- The loop over one page: what has been collected, and how many runs have been skipped. -/
def collect (limit offset : ℤ) : List PersistedSagaState → List FlywheelRunRecord → ℤ →
    RedisCode (List FlywheelRunRecord × ℤ)
  | [], results, seen => pure (results, seen)
  | saga :: batch, results, seen =>
    if saga.sagaName ≠ flywheelRunSagaName then collect limit offset batch results seen
    else if seen < offset then collect limit offset batch results (seen + 1)
    else
      match FlywheelRunRecord.fromSagaState saga with
      | none => .raise .valueError
      | some run =>
        if limit ≤ (results ++ [run]).length then pure (results ++ [run], seen)
        else collect limit offset batch (results ++ [run]) seen

/-- Paginate generic saga queries until enough flywheel runs have been collected; `none` if that
takes more pages than the bound. -/
def scanFlywheelRuns (fetchPage : ℤ → ℤ → RedisCode (List PersistedSagaState))
    (limit offset : ℤ) :
    ℕ → ℤ → List FlywheelRunRecord → ℤ → RedisCode (Option (List FlywheelRunRecord))
  | 0, _, _, _ => pure none
  | bound + 1, batchOffset, results, seen =>
    if limit ≤ results.length then pure (some results)
    else do
      let batchLimit := max limit 100
      let batch ← fetchPage batchLimit batchOffset
      if batch.isEmpty then pure (some results)
      else do
        let (results, seen) ← collect limit offset batch results seen
        scanFlywheelRuns fetchPage limit offset bound (batchOffset + batchLimit) results seen

inductive RunQuery where
  | byTenant (tenantId : String) (state : Option SagaState)
  | byState (state : SagaState)

def RunQuery.list : RunQuery → ℤ → ℤ → RedisCode (List PersistedSagaState)
  | byTenant tenantId state, limit, offset => Redis.listByTenant tenantId state limit offset
  | byState state, limit, offset => Redis.listByState state limit offset

/-- `list_flywheel_runs_by_tenant`, `list_flywheel_runs_by_state` -/
def RunQuery.listFlywheelRuns (q : RunQuery) (limit offset : ℤ) (bound : ℕ) :
    RedisCode (Option (List FlywheelRunRecord)) :=
  scanFlywheelRuns q.list limit offset bound 0 [] 0

end Scan

/-! ## What is stored -/

/-- A hash that has a name was written by a `save`: it has its identifiers and its date. -/
structure SagaHash.Full (hash : SagaHash) (sagaId : String) : Prop where
  sagaId : hash.sagaId = some sagaId
  correlationId : hash.correlationId.isSome
  createdAt : hash.createdAt.isSome

def RedisStore.Named (s : RedisStore) : Prop :=
  ∀ sagaId hash, s.hashes sagaId = some hash → hash.sagaName.isSome → hash.Full sagaId

theorem RedisStore.Named.empty : RedisStore.Named {} := fun _ _ h => nomatch h

variable {sagaId : String} {s : RedisStore}

theorem SagaHash.Full.hset {mapping hash : SagaHash} (hname : mapping.sagaName = none)
    (hid : mapping.sagaId = none) (h : hash.sagaName.isSome → hash.Full sagaId) :
    (mapping.hset hash).sagaName.isSome → (mapping.hset hash).Full sagaId := by
  intro hsome
  rw [SagaHash.hset, hname, Option.none_or] at hsome
  obtain ⟨hsagaId, hcorrelation, hcreated⟩ := h hsome
  refine ⟨?_, ?_, ?_⟩
  · rw [SagaHash.hset, hid, Option.none_or, hsagaId]
  · rw [SagaHash.hset, Option.isSome_or, hcorrelation, Bool.or_true]
  · rw [SagaHash.hset, Option.isSome_or, hcreated, Bool.or_true]

theorem RedisStore.Named.step {s' : RedisStore} {o : RedisOp} {r : o.Resp} {mayDelete : Bool}
    (h : s.Named) (hasks : o.FollowsRead mayDelete) (hstep : RedisStep s o r s') : s'.Named := by
  obtain ⟨w, rfl, rfl⟩ | ⟨-, rfl⟩ := hstep.cases
  swap
  · exact h
  intro sagaId hash hhash hname
  by_cases hid : sagaId = w.sagaId
  swap
  · rw [RedisStore.hashes_write_of_ne s hid] at hhash
    exact h sagaId hash hhash hname
  subst hid
  rw [RedisStore.hashes_write_self] at hhash
  have hbefore : ((s.hashes w.sagaId).getD {}).sagaName.isSome →
      ((s.hashes w.sagaId).getD {}).Full w.sagaId := by
    rcases hstored : s.hashes w.sagaId with _ | hash
    · nofun
    · exact h w.sagaId hash hstored
  cases w with
  | save saga basis =>
    obtain rfl := Option.some_inj.mp hhash
    exact ⟨rfl, rfl, rfl⟩
  | updateState sagaId updates currentState newState basis =>
    obtain ⟨_, _, _, _, -, -, -, rfl⟩ := hasks
    obtain rfl := Option.some_inj.mp hhash
    exact SagaHash.Full.hset (Redis.stateUpdates_fields ..).1 (Redis.stateUpdates_fields ..).2.1
      hbefore hname
  | updateStepState | updateCurrentStep =>
    obtain rfl := Option.some_inj.mp hhash
    exact SagaHash.Full.hset rfl rfl hbefore hname
  | delete => cases hhash
  | saveCheckpoint | appendCompensationEntry => exact h _ hash hhash hname

def flywheelSaga (s : RedisStore) (sagaId : String) : Option PersistedSagaState :=
  match s.hashes sagaId with
  | some hash =>
    if hash.sagaName = some flywheelRunSagaName then
      some (PersistedSagaState.fromRedisHash ⟨0, "", ""⟩ hash)
    else none
  | none => none

def RunQuery.selects : RunQuery → PersistedSagaState → Bool
  | byTenant tenantId none, saga => saga.tenantId = tenantId
  | byTenant tenantId (some state), saga => saga.tenantId = tenantId ∧ saga.state = state
  | byState state, saga => saga.state = state

def RunQuery.sagaIds : RunQuery → RedisStore → Finset String
  | byTenant tenantId none, s => s.tenantIndex tenantId
  | byTenant tenantId (some state), s => s.tenantIndex tenantId ∩ s.stateIndex state
  | byState state, s => s.stateIndex state

theorem fromRedisHash_of_named {hash : SagaHash} (h : hash.Full sagaId) (fresh fresh' : Fresh) :
    PersistedSagaState.fromRedisHash fresh hash = PersistedSagaState.fromRedisHash fresh' hash := by
  obtain ⟨correlationId, hcorrelation⟩ := Option.isSome_iff_exists.mp h.correlationId
  obtain ⟨createdAt, hcreated⟩ := Option.isSome_iff_exists.mp h.createdAt
  simp only [PersistedSagaState.fromRedisHash, h.sagaId, hcorrelation, hcreated, Option.getD_some]

theorem flywheelSaga_of_hash {hash : SagaHash} (hs : s.Named) (hhash : s.hashes sagaId = some hash)
    (hname : hash.sagaName = some flywheelRunSagaName) (fresh : Fresh) :
    flywheelSaga s sagaId = some (PersistedSagaState.fromRedisHash fresh hash) := by
  have hfull := hs sagaId hash hhash (hname ▸ rfl)
  rw [flywheelSaga, hhash]
  exact (if_pos hname).trans (congrArg some (fromRedisHash_of_named hfull _ _))

theorem flywheelSaga_of_ne {hash : SagaHash} (hhash : s.hashes sagaId = some hash)
    (hname : hash.sagaName ≠ some flywheelRunSagaName) : flywheelSaga s sagaId = none := by
  rw [flywheelSaga, hhash]
  exact if_neg hname

theorem flywheelSaga_sagaId {saga : PersistedSagaState} (hs : s.Named)
    (h : flywheelSaga s sagaId = some saga) : saga.sagaId = sagaId := by
  unfold flywheelSaga at h
  split at h
  · rename_i hash hhash
    split at h
    · rename_i hname
      obtain rfl := Option.some_inj.mp h
      have hfull := hs sagaId hash hhash (hname ▸ rfl)
      rw [PersistedSagaState.fromRedisHash, hfull.sagaId, Option.getD_some]
    · cases h
  · cases h

/-! ## The inner pager -/

/-- `saga.saga_name == FLYWHEEL_RUN_SAGA_NAME` -/
def isFlywheelRun (saga : PersistedSagaState) : Bool := saga.sagaName = flywheelRunSagaName

def runsOf (s : RedisStore) (page : List String) : List PersistedSagaState :=
  Redis.newestFirst (page.filterMap (flywheelSaga s))

def live (s : RedisStore) (page : List String) : Bool := page.any fun id => (s.hashes id).isSome

/-- What a call over a store answers in every run, the store being left as it is. -/
abbrev Reads {α : Type} (p : RedisCode α) (s : RedisStore) (Q : α → Prop)
    (E : SagaError → Prop := fun _ => False) : Prop :=
  Safe RedisStep (fun _ _ => True) p s (fun a t => t = s ∧ Q a) fun e t => t = s ∧ E e

/-- Some sagas are those of a page, in some order. -/
structure Fetched (s : RedisStore) (page : List String) (sagas : List PersistedSagaState) :
    Prop where
  runs : sagas.filter isFlywheelRun = page.filterMap (flywheelSaga s)
  empty : sagas = [] ↔ live s page = false

theorem isFlywheelRun_fromRedisHash (fresh : Fresh) (hash : SagaHash) :
    isFlywheelRun (PersistedSagaState.fromRedisHash fresh hash) = true ↔
      hash.sagaName = some flywheelRunSagaName := by
  rw [isFlywheelRun, decide_eq_true_iff, PersistedSagaState.fromRedisHash]
  have hne : "" ≠ flywheelRunSagaName := by decide +kernel
  rcases hash.sagaName with _ | name
  · exact ⟨fun h => absurd h hne, nofun⟩
  · exact Option.some_inj.symm

theorem newer_trans (a b c : PersistedSagaState) :
    decide (b.createdAt ≤ a.createdAt) = true → decide (c.createdAt ≤ b.createdAt) = true →
      decide (c.createdAt ≤ a.createdAt) = true := by
  simp only [decide_eq_true_eq]
  exact fun hab hbc => hbc.trans hab

theorem newer_total (a b : PersistedSagaState) :
    (decide (b.createdAt ≤ a.createdAt) || decide (a.createdAt ≤ b.createdAt)) = true := by
  simp only [Bool.or_eq_true, decide_eq_true_eq]
  exact le_total _ _

theorem redisStep_hgetall {s' : RedisStore} {r : Option SagaHash}
    (h : RedisStep s (.hgetall sagaId) r s') : r = s.hashes sagaId ∧ s' = s := by
  obtain ⟨choice, h⟩ := h
  obtain ⟨rfl, rfl⟩ := Prod.mk.inj (Option.some_inj.mp h)
  exact ⟨rfl, rfl⟩

theorem reads_get (hs : s.Named) (sagaId : String) :
    Reads (Redis.get sagaId) s fun saga => Fetched s [sagaId] saga.toList := by
  refine ⟨trivial, fun r s' hstep => ?_⟩
  obtain ⟨rfl, rfl⟩ := redisStep_hgetall hstep
  rcases hhash : s'.hashes sagaId with _ | hash
  · refine ⟨rfl, ?_, ?_⟩
    · simp [flywheelSaga, hhash]
    · simp [live, hhash]
  · refine ⟨trivial, fun fresh s'' hdraw => ?_⟩
    obtain ⟨choice, hdraw⟩ := hdraw
    obtain ⟨rfl, rfl⟩ := Prod.mk.inj (Option.some_inj.mp hdraw)
    refine ⟨rfl, ?_, ?_⟩
    · by_cases hname : hash.sagaName = some flywheelRunSagaName
      · rw [List.filterMap_cons, flywheelSaga_of_hash hs hhash hname choice.fresh,
          List.filterMap_nil]
        exact List.filter_cons_of_pos ((isFlywheelRun_fromRedisHash _ _).mpr hname)
      · rw [List.filterMap_cons, flywheelSaga_of_ne hhash hname, List.filterMap_nil]
        exact List.filter_cons_of_neg (mt (isFlywheelRun_fromRedisHash _ _).mp hname)
    · simp [live, hhash]

theorem Fetched.append {page page' : List String} {sagas sagas' : List PersistedSagaState}
    (h : Fetched s page sagas) (h' : Fetched s page' sagas') :
    Fetched s (page ++ page') (sagas ++ sagas') where
  runs := by rw [List.filter_append, h.runs, h'.runs, List.filterMap_append]
  empty := by
    rw [List.append_eq_nil_iff, h.empty, h'.empty, live, live, live, List.any_append,
      Bool.or_eq_false_iff]

theorem reads_fetch (hs : s.Named) (page : List String) :
    Reads (Redis.fetch page) s (Fetched s page) := by
  induction page with
  | nil => exact ⟨rfl, rfl, by simp [live]⟩
  | cons sagaId page ih =>
    refine (safe_bind ..).mpr ((reads_get hs sagaId).mono ?_ fun _ _ => id)
    rintro saga _ ⟨rfl, hsaga⟩
    refine (safe_bind ..).mpr (ih.mono ?_ fun _ _ => id)
    rintro sagas _ ⟨rfl, hsagas⟩
    exact ⟨rfl, hsaga.append hsagas⟩

/-- A page of the inner pager: its runs are those of a page of the identifiers. -/
structure Listed (s : RedisStore) (page : List String) (sagas : List PersistedSagaState) :
    Prop where
  runs : sagas.filter isFlywheelRun = runsOf s page
  empty : sagas = [] ↔ live s page = false

theorem listed_nil (s : RedisStore) : Listed s [] [] :=
  ⟨by simp [runsOf, Redis.newestFirst], by simp [live]⟩

theorem Fetched.newestFirst {page : List String} {sagas : List PersistedSagaState}
    (h : Fetched s page sagas) :
    Listed s page (Redis.newestFirst sagas) where
  runs := by
    rw [Redis.newestFirst, filter_mergeSort newer_trans newer_total, h.runs]
    rfl
  empty := by
    rw [← h.empty, ← List.length_eq_zero_iff, Redis.newestFirst, List.length_mergeSort,
      List.length_eq_zero_iff]

theorem pySlice_eq_slice {α : Type} (xs : List α) (limit offset : ℕ) :
    Redis.pySlice xs offset (offset + limit) = slice xs limit offset := by
  have hindex : ∀ n : ℕ, (if (n : ℤ) < 0 then (n : ℤ) + xs.length else n).toNat = n := fun n => by
    rw [if_neg (Int.natCast_nonneg n).not_gt, Int.toNat_natCast]
  rw [Redis.pySlice, ← Int.natCast_add]
  simp only [hindex]
  rw [List.drop_take, Nat.add_sub_cancel_left]

theorem reads_fetchPage (hs : s.Named) (sagaIds : Finset String) (limit offset : ℕ) :
    Reads (Redis.fetchPage sagaIds limit offset) s
      (Listed s (slice (sagaIds.sort (· ≥ ·)) limit offset)) := by
  refine (safe_bind ..).mpr ?_
  rw [pySlice_eq_slice]
  refine (reads_fetch hs _).mono ?_ fun _ _ => id
  rintro sagas _ ⟨rfl, hsagas⟩
  exact ⟨rfl, hsagas.newestFirst⟩

/-- The identifiers of a query, in the order in which they are read. -/
def RunQuery.sorted (q : RunQuery) (s : RedisStore) : List String := (q.sagaIds s).sort (· ≥ ·)

theorem redisStep_smembersTenant {s' : RedisStore} {tenantId : String} {r : List String}
    (h : RedisStep s (.smembersTenant tenantId) r s') :
    r.toFinset = s.tenantIndex tenantId ∧ s' = s := by
  obtain ⟨choice, h⟩ := h
  obtain ⟨ids, hids, heq⟩ := Option.map_eq_some_iff.mp h
  obtain ⟨rfl, rfl⟩ := Prod.mk.inj heq
  rw [RedisStore.ordered, Option.ite_none_right_eq_some] at hids
  exact ⟨Option.some_inj.mp hids.2 ▸ hids.1.2, rfl⟩

theorem redisStep_smembersState {s' : RedisStore} {state : SagaState} {r : List String}
    (h : RedisStep s (.smembersState state) r s') : r.toFinset = s.stateIndex state ∧ s' = s := by
  obtain ⟨choice, h⟩ := h
  obtain ⟨ids, hids, heq⟩ := Option.map_eq_some_iff.mp h
  obtain ⟨rfl, rfl⟩ := Prod.mk.inj heq
  rw [RedisStore.ordered, Option.ite_none_right_eq_some] at hids
  exact ⟨Option.some_inj.mp hids.2 ▸ hids.1.2, rfl⟩

theorem reads_list (hs : s.Named) (q : RunQuery) (limit offset : ℕ) :
    Reads (q.list limit offset) s (Listed s (slice (q.sorted s) limit offset)) := by
  cases q with
  | byTenant tenantId state =>
    refine ⟨trivial, fun r s' hstep => ?_⟩
    obtain ⟨hr, rfl⟩ := redisStep_smembersTenant hstep
    show Reads (if r.isEmpty then _ else _) s' _
    split
    · rename_i hempty
      have hnil : (RunQuery.byTenant tenantId state).sorted s' = [] := by
        rw [List.isEmpty_iff.mp hempty, List.toFinset_nil] at hr
        cases state <;> simp [RunQuery.sorted, RunQuery.sagaIds, ← hr]
      rw [hnil, slice, List.drop_nil, List.take_nil]
      exact ⟨rfl, listed_nil s'⟩
    · rcases state with _ | state
      · rw [hr]
        exact reads_fetchPage hs _ limit offset
      · refine ⟨trivial, fun r' s'' hstep' => ?_⟩
        obtain ⟨hr', rfl⟩ := redisStep_smembersState hstep'
        show Reads (Redis.fetchPage _ _ _) s'' _
        rw [hr, hr']
        exact reads_fetchPage hs _ limit offset
  | byState state =>
    refine ⟨trivial, fun r s' hstep => ?_⟩
    obtain ⟨hr, rfl⟩ := redisStep_smembersState hstep
    show Reads (if r.isEmpty then _ else _) s' _
    split
    · rename_i hempty
      have hnil : (RunQuery.byState state).sorted s' = [] := by
        rw [List.isEmpty_iff.mp hempty, List.toFinset_nil] at hr
        simp [RunQuery.sorted, RunQuery.sagaIds, ← hr]
      rw [hnil, slice, List.drop_nil, List.take_nil]
      exact ⟨rfl, listed_nil s'⟩
    · rw [hr]
      exact reads_fetchPage hs _ limit offset

/-! ## What the outer pager answers -/

section Answer

variable [IsoText] [PrintTable] {limit offset : ℕ}

/-- What the pager answers when these are the flywheel sagas that it finds; `none` is the
`ValueError`. -/
def answer (limit offset : ℕ) (sagas : List PersistedSagaState) :
    Option (List FlywheelRunRecord) :=
  (slice sagas limit offset).mapM FlywheelRunRecord.fromSagaState

variable {sagas : List PersistedSagaState} {results : List FlywheelRunRecord}
  {run : FlywheelRunRecord} {s : RedisStore}

theorem length_of_answer (h : answer limit offset sagas = some results) :
    results.length = (slice sagas limit offset).length := by
  have hlength := congrArg List.length (mapM_eq_some_iff.mp h)
  rwa [List.length_map, List.length_map, eq_comm] at hlength

theorem answer_append_of_full (h : answer limit offset sagas = some results)
    (hfull : limit ≤ results.length) (others : List PersistedSagaState) :
    answer limit offset (sagas ++ others) = some results := by
  rw [length_of_answer h] at hfull
  rw [answer, slice_append_of_full hfull]
  exact h

theorem answer_skip (h : answer limit offset sagas = some results) (hskip : sagas.length < offset)
    (saga : PersistedSagaState) : answer limit offset (sagas ++ [saga]) = some results := by
  have hnil : slice [saga] (limit - (sagas.length - offset)) (offset - sagas.length) = [] := by
    rw [slice, List.drop_eq_nil_of_le (by simp; omega), List.take_nil]
  rw [answer, slice_append, hnil, List.append_nil]
  exact h

theorem slice_take (h : answer limit offset sagas = some results) (hroom : results.length < limit)
    (hoffset : offset ≤ sagas.length) (saga : PersistedSagaState) :
    slice (sagas ++ [saga]) limit offset = slice sagas limit offset ++ [saga] := by
  rw [length_of_answer h, List.length_take, List.length_drop] at hroom
  rw [slice_append, Nat.sub_eq_zero_of_le hoffset]
  refine congrArg _ (List.take_of_length_le ?_)
  rw [List.drop_zero, List.length_singleton]
  omega

theorem answer_take (h : answer limit offset sagas = some results) (hroom : results.length < limit)
    (hoffset : offset ≤ sagas.length) {saga : PersistedSagaState}
    (hrun : FlywheelRunRecord.fromSagaState saga = some run) :
    answer limit offset (sagas ++ [saga]) = some (results ++ [run]) := by
  rw [answer, slice_take h hroom hoffset, mapM_eq_some_iff, List.map_append, List.map_append,
    mapM_eq_some_iff.mp h, List.map_singleton, hrun, List.map_singleton]

theorem answer_unreadable (h : answer limit offset sagas = some results)
    (hroom : results.length < limit) (hoffset : offset ≤ sagas.length) {saga : PersistedSagaState}
    (hsaga : FlywheelRunRecord.fromSagaState saga = none) (others : List PersistedSagaState) :
    answer limit offset (sagas ++ [saga] ++ others) = none := by
  rw [answer, slice_append, slice_take h hroom hoffset, List.mapM_append, List.mapM_append]
  simp [hsaga]

structure Collected (limit offset : ℕ) (sagas : List PersistedSagaState)
    (out : List FlywheelRunRecord × ℤ) : Prop where
  results : answer limit offset sagas = some out.1
  seen : out.1.length < limit → out.2 = min sagas.length offset

theorem reads_collect (batch : List PersistedSagaState) {seen : ℤ}
    (h : Collected limit offset sagas (results, seen)) (hroom : results.length < limit) :
    Reads (collect limit offset batch results seen) s
      (Collected limit offset (sagas ++ batch.filter isFlywheelRun))
      fun e => e = .valueError ∧
        answer limit offset (sagas ++ batch.filter isFlywheelRun) = none := by
  induction batch generalizing sagas results seen with
  | nil =>
    rw [List.filter_nil, List.append_nil]
    exact ⟨rfl, h⟩
  | cons saga batch ih =>
    rw [collect]
    split
    · rename_i hname
      rw [List.filter_cons_of_neg (by simpa [isFlywheelRun] using hname)]
      exact ih h hroom
    next hname =>
    rw [List.filter_cons_of_pos (by simpa [isFlywheelRun] using hname),
      List.append_cons]
    have hseen := h.seen hroom
    split
    · rename_i hskip
      refine ih ⟨answer_skip h.results (by omega) saga, fun _ => ?_⟩ hroom
      rw [List.length_append, List.length_singleton]
      dsimp only at hseen
      omega
    next hskip =>
    have hoffset : offset ≤ sagas.length := by dsimp only at hseen; omega
    split
    · next hsaga => exact ⟨rfl, rfl, answer_unreadable h.results hroom hoffset hsaga _⟩
    next run hrun =>
    have htake := answer_take h.results hroom hoffset hrun
    split
    · rename_i hfull
      have hle : limit ≤ (results ++ [run]).length := by exact_mod_cast hfull
      exact ⟨rfl, answer_append_of_full htake hle _, fun hlt => absurd hle hlt.not_ge⟩
    · rename_i hfull
      have hlt : (results ++ [run]).length < limit := by
        rw [not_le] at hfull
        exact_mod_cast hfull
      refine ih ⟨htake, fun _ => ?_⟩ hlt
      rw [List.length_append, List.length_singleton]
      dsimp only at hseen ⊢
      omega

abbrev batchLimit (limit : ℕ) : ℕ := max limit 100

omit [IsoText] [PrintTable] in
theorem batchLimit_pos (limit : ℕ) : 0 < batchLimit limit :=
  Nat.lt_of_lt_of_le (by omega) (Nat.le_max_right limit 100)

theorem reads_round (hs : s.Named) (q : RunQuery) (k bound : ℕ) {seen : ℤ}
    (h : Collected limit offset sagas (results, seen)) {Q : Option (List FlywheelRunRecord) → Prop}
    {E : SagaError → Prop} (hfull : limit ≤ results.length → Q (some results))
    (hend : live s (page (q.sorted s) (batchLimit limit) k) = false → Q (some results))
    (hraise : live s (page (q.sorted s) (batchLimit limit) k) = true → answer limit offset (sagas ++ runsOf s (page (q.sorted s) (batchLimit limit) k)) = none → E .valueError)
    (hnext : live s (page (q.sorted s) (batchLimit limit) k) = true → ∀ out, Collected limit offset (sagas ++ runsOf s (page (q.sorted s) (batchLimit limit) k)) out → Reads (scanFlywheelRuns q.list limit offset bound (((k + 1) * batchLimit limit : ℕ) : ℤ) out.1 out.2) s Q E)
    :
    Reads (scanFlywheelRuns q.list limit offset (bound + 1)
      ((k * batchLimit limit : ℕ) : ℤ) results seen) s Q E := by
  have hlimit : max (limit : ℤ) 100 = (batchLimit limit : ℕ) := by
    unfold batchLimit
    omega
  have hoffset : ((k * batchLimit limit : ℕ) : ℤ) + (batchLimit limit : ℕ) =
      (((k + 1) * batchLimit limit : ℕ) : ℤ) := by
    rw [Nat.succ_mul, Int.natCast_add]
  rw [scanFlywheelRuns]
  dsimp only
  rw [hlimit, hoffset]
  split
  · next hle => exact ⟨rfl, hfull (by exact_mod_cast hle)⟩
  next hlt =>
  refine (safe_bind ..).mpr ((reads_list hs q (batchLimit limit) _).mono ?_ fun _ _ h => h.2.elim)
  rintro batch s ⟨rfl, hbatch⟩
  split
  · next hempty => exact ⟨rfl, hend (hbatch.empty.mp (List.isEmpty_iff.mp hempty))⟩
  next hempty =>
  have hlive : live s (page (q.sorted s) (batchLimit limit) k) = true := by
    rw [← Bool.not_eq_false]
    exact fun hdead => hempty (List.isEmpty_iff.mpr (hbatch.empty.mpr hdead))
  have hcollect := reads_collect (s := s) batch h (by exact_mod_cast not_le.mp hlt)
  rw [hbatch.runs] at hcollect
  refine (safe_bind ..).mpr (hcollect.mono ?_ ?_)
  · rintro out s ⟨rfl, hout⟩
    exact hnext hlive out hout
  · rintro e _ ⟨rfl, rfl, hnone⟩
    exact ⟨rfl, hraise hlive hnone⟩

/-- The runs of the pages from the `k`-th on. -/
abbrev runsFrom (s : RedisStore) (xs : List String) (size n k : ℕ) : List PersistedSagaState :=
  (reachedFrom (live s) xs size n k).flatMap (runsOf s)

theorem answer_append_none (h : answer limit offset sagas = none)
    (others : List PersistedSagaState) : answer limit offset (sagas ++ others) = none := by
  rw [answer, slice_append, List.mapM_append, show (slice sagas limit offset).mapM
    FlywheelRunRecord.fromSagaState = none from h]
  rfl

theorem reads_scan (hs : s.Named) (q : RunQuery) {n k bound : ℕ} (hn : (q.sorted s).length ≤ n + k)
    (hbound : n < bound) {seen : ℤ} (h : Collected limit offset sagas (results, seen)) :
    Reads (scanFlywheelRuns q.list limit offset bound ((k * batchLimit limit : ℕ) : ℤ) results seen)
      s
      (fun out => ∃ runs, out = some runs ∧
        answer limit offset (sagas ++ runsFrom s (q.sorted s) (batchLimit limit) n k) = some runs)
      fun e => e = .valueError ∧
        answer limit offset (sagas ++ runsFrom s (q.sorted s) (batchLimit limit) n k) = none := by
  induction n generalizing k bound sagas results seen with
  | zero =>
    obtain ⟨bound, rfl⟩ := Nat.exists_eq_add_one_of_ne_zero hbound.ne'
    have hdead : live s (page (q.sorted s) (batchLimit limit) k) = false := by
      rw [page_eq_nil (batchLimit_pos limit) (by omega)]
      rfl
    have hsome : answer limit offset (sagas ++ []) = some results :=
      (List.append_nil sagas).symm ▸ h.results
    refine reads_round hs q k bound h (fun _ => ⟨results, rfl, hsome⟩)
      (fun _ => ⟨results, rfl, hsome⟩) ?_ ?_ <;>
    · rw [hdead]
      nofun
  | succ n ih =>
    obtain ⟨bound, rfl⟩ := Nat.exists_eq_add_one_of_ne_zero (Nat.ne_zero_of_lt hbound)
    refine reads_round hs q k bound h
      (fun hfull => ⟨results, rfl, answer_append_of_full h.results hfull _⟩) ?_ ?_ ?_
    · intro hdead
      refine ⟨results, rfl, ?_⟩
      rw [runsFrom, reachedFrom, hdead]
      exact (List.append_nil sagas).symm ▸ h.results
    · intro hlive hnone
      refine ⟨rfl, ?_⟩
      rw [runsFrom, reachedFrom, if_pos hlive, List.flatMap_cons, ← List.append_assoc]
      exact answer_append_none hnone _
    · intro hlive out hout
      rw [runsFrom, reachedFrom, if_pos hlive, List.flatMap_cons, ← List.append_assoc]
      exact ih (by omega) (by omega) hout

/-! ## The listings -/

/-- The pages of identifiers up to the first on which no hash is there. -/
def reachedPages (s : RedisStore) (q : RunQuery) (limit : ℕ) : List (List String) :=
  reached (live s) (q.sorted s) (batchLimit limit)

/-- The flywheel sagas that the outer pager can find. -/
def foundRuns (s : RedisStore) (q : RunQuery) (limit : ℕ) : List PersistedSagaState :=
  (reachedPages s q limit).flatMap (runsOf s)

theorem reads_listFlywheelRuns (hs : s.Named) (q : RunQuery) (limit offset : ℕ) {bound : ℕ}
    (hbound : (q.sorted s).length < bound) :
    Reads (q.listFlywheelRuns limit offset bound) s
      (fun out => ∃ runs, out = some runs ∧ answer limit offset (foundRuns s q limit) = some runs)
      fun e => e = .valueError ∧ answer limit offset (foundRuns s q limit) = none := by
  have hstart : Collected limit offset [] ([], 0) := by
    refine ⟨?_, fun _ => ?_⟩
    · rw [answer, slice, List.drop_nil, List.take_nil]
      rfl
    · rw [List.length_nil, Nat.zero_min]
      rfl
  have h := reads_scan hs q (k := 0) (Nat.le_refl _) hbound hstart
  rw [Nat.zero_mul, List.nil_append] at h
  exact h

omit [IsoText] [PrintTable] in
theorem redisStep_total (s : RedisStore) (o : RedisOp) : ∃ r s', RedisStep s o r s' := by
  have hordered : ∀ ids : Finset String, RedisStore.ordered ids ids.toList = some ids.toList :=
    fun ids => if_pos ⟨ids.nodup_toList, ids.toList_toFinset⟩
  cases o with
  | smembersState state =>
    exact ⟨_, s, ⟨⟨0, "", ""⟩, (s.stateIndex state).toList⟩,
      congrArg (Option.map fun ids => (ids, s)) (hordered _)⟩
  | smembersTenant tenantId =>
    exact ⟨_, s, ⟨⟨0, "", ""⟩, (s.tenantIndex tenantId).toList⟩,
      congrArg (Option.map fun ids => (ids, s)) (hordered _)⟩
  | iterate ids =>
    exact ⟨_, s, ⟨⟨0, "", ""⟩, ids.toList⟩,
      congrArg (Option.map fun ids => (ids, s)) (hordered _)⟩
  | hgetall | hashExists | write | scard | zrangeAll | zrevrange | getCheckpoint | lrange | draw =>
    exact ⟨_, _, {}, rfl⟩

/-- With a bound that is large enough, the call ends, and it answers with some runs in every run. -/
def Lists (s : RedisStore) (q : RunQuery) (limit offset : ℕ) (runs : List FlywheelRunRecord) :
    Prop :=
  ∃ enough, ∀ bound, enough ≤ bound →
    (∃ out s', Exec RedisStep (q.listFlywheelRuns limit offset bound) s out s' ∧
      out.ended = true) ∧
    ∀ out s', Exec RedisStep (q.listFlywheelRuns limit offset bound) s out s' →
      out.ended = true → out = .returned (some runs) ∧ s' = s

theorem lists_iff (hs : s.Named) (q : RunQuery) (runs : List FlywheelRunRecord) :
    Lists s q limit offset runs ↔ answer limit offset (foundRuns s q limit) = some runs := by
  constructor
  · rintro ⟨enough, h⟩
    have hle : enough ≤ max enough ((q.sorted s).length + 1) := Nat.le_max_left _ _
    have hlt : (q.sorted s).length < max enough ((q.sorted s).length + 1) :=
      Nat.lt_of_lt_of_le (Nat.lt_succ_self _) (Nat.le_max_right _ _)
    obtain ⟨⟨out, s', hrun, hended⟩, hall⟩ := h _ hle
    obtain ⟨rfl, rfl⟩ := hall out s' hrun hended
    obtain ⟨-, runs', heq, hanswer⟩ :=
      Exec.returned hrun (reads_listFlywheelRuns hs q limit offset hlt)
    rwa [Option.some_inj.mp heq]
  · intro hanswer
    refine ⟨(q.sorted s).length + 1, fun bound hbound => ⟨?_, fun out s' hrun hended => ?_⟩⟩
    · exact Exec.exists_ended redisStep_total _ s
    · have hreads := reads_listFlywheelRuns hs q limit offset hbound
      cases out with
      | stopped => cases hended
      | returned out =>
        obtain ⟨hs', runs', rfl, hruns'⟩ := Exec.returned hrun hreads
        rw [hanswer] at hruns'
        exact ⟨congrArg Outcome.returned hruns'.symm, hs'⟩
      | raised e =>
        obtain ⟨-, -, hnone⟩ := Exec.raised hrun hreads
        rw [hanswer] at hnone
        cases hnone

/-- The flywheel run that is stored under an identifier, if the query asks for it. -/
def storedRun (s : RedisStore) (q : RunQuery) (sagaId : String) : Option FlywheelRunRecord :=
  (flywheelSaga s sagaId).bind fun saga =>
    if q.selects saga then FlywheelRunRecord.fromSagaState saga else none

/-- The listings for a limit are the slices of one list: the runs that are stored, each once, the
newest first. -/
structure Paged (s : RedisStore) (q : RunQuery) (limit : ℕ) (runs : List FlywheelRunRecord) :
    Prop where
  newestFirst : runs.Pairwise fun a b => b.createdAt ≤ a.createdAt
  stored : ∃ ids : List String, ids.Nodup ∧ (∀ id, id ∈ ids ↔ (storedRun s q id).isSome) ∧
    runs = ids.filterMap (storedRun s q)
  distinct : (runs.map (·.runId)).Nodup
  page : ∀ offset, Lists s q limit offset (slice runs limit offset)
  consecutive : ∀ pages : List (List FlywheelRunRecord),
    (∀ i (h : i < pages.length), Lists s q limit (i * limit) pages[i]) →
      pages.flatten = runs.take (pages.length * limit)

/-- Every saga that is reached is a run that can be read, the runs reached are those that are stored
and asked for, and no page has a run that is older than one of a later page. -/
structure PagesInOrder (s : RedisStore) (q : RunQuery) (limit : ℕ) : Prop where
  readable : ∀ page ∈ reachedPages s q limit, ∀ id ∈ page, ∀ saga ∈ flywheelSaga s id,
    (FlywheelRunRecord.fromSagaState saga).isSome
  complete : ∀ id, (storedRun s q id).isSome ↔
    (flywheelSaga s id).isSome ∧ ∃ page ∈ reachedPages s q limit, id ∈ page
  inOrder : (reachedPages s q limit).Pairwise fun earlier later =>
    ∀ a ∈ runsOf s earlier, ∀ b ∈ runsOf s later, b.createdAt ≤ a.createdAt

/-! ### What is found -/

omit [IsoText] [PrintTable] in
theorem mem_runsOf {s : RedisStore} {page : List String} {saga : PersistedSagaState} :
    saga ∈ runsOf s page ↔ ∃ id ∈ page, flywheelSaga s id = some saga := by
  rw [runsOf, Redis.newestFirst, List.mem_mergeSort, List.mem_filterMap]

omit [IsoText] [PrintTable] in
theorem mem_foundRuns {s : RedisStore} {q : RunQuery} {saga : PersistedSagaState} :
    saga ∈ foundRuns s q limit ↔
      ∃ page ∈ reachedPages s q limit, ∃ id ∈ page, flywheelSaga s id = some saga := by
  simp only [foundRuns, List.mem_flatMap, mem_runsOf]

omit [IsoText] [PrintTable] in
theorem sagaIds_filterMap {s : RedisStore} (hs : s.Named) (ids : List String) :
    (ids.filterMap (flywheelSaga s)).map (·.sagaId) =
      ids.filter fun id => (flywheelSaga s id).isSome := by
  induction ids with
  | nil => rfl
  | cons id ids ih =>
    rcases hsaga : flywheelSaga s id with _ | saga
    · simp [hsaga, ih]
    · simp [hsaga, ih, flywheelSaga_sagaId hs hsaga]

omit [IsoText] [PrintTable] in
theorem nodup_foundRuns {s : RedisStore} (hs : s.Named) (q : RunQuery) :
    ((foundRuns s q limit).map (·.sagaId)).Nodup := by
  have hperm : (foundRuns s q limit).Perm
      ((reachedPages s q limit).flatten.filterMap (flywheelSaga s)) := by
    rw [List.filterMap_flatten]
    exact List.Perm.flatMap_left _ fun page _ => List.mergeSort_perm _ _
  rw [(hperm.map _).nodup_iff, sagaIds_filterMap hs]
  have hsorted : (q.sorted s).Nodup := Finset.sort_nodup _ _
  exact (hsorted.sublist (flatten_reached _ _ _)).filter _

omit [IsoText] [PrintTable] in
theorem pairwise_foundRuns {s : RedisStore} {q : RunQuery} :
    ((foundRuns s q limit).Pairwise fun a b => b.createdAt ≤ a.createdAt) ↔
      (reachedPages s q limit).Pairwise fun earlier later =>
        ∀ a ∈ runsOf s earlier, ∀ b ∈ runsOf s later, b.createdAt ≤ a.createdAt := by
  rw [foundRuns, List.pairwise_flatMap]
  refine and_iff_right fun page _ => ?_
  exact (List.pairwise_mergeSort newer_trans newer_total _).imp of_decide_eq_true

theorem fromSagaState_same {saga : PersistedSagaState}
    (h : FlywheelRunRecord.fromSagaState saga = some run) :
    saga.sagaId = run.runId ∧ saga.createdAt = run.createdAt := by
  rw [FlywheelRunRecord.fromSagaState] at h
  split at h
  · cases h
  dsimp only at h
  -- the date of the update is read, or it is that of the creation
  obtain ⟨updatedAt, h⟩ : ∃ updatedAt, _ = some run := by
    split at h
    · split at h
      · obtain ⟨updatedAt, -, h⟩ := Option.bind_eq_some_iff.mp h
        exact ⟨updatedAt, h⟩
      · exact ⟨saga.createdAt, h⟩
    · exact ⟨saga.createdAt, h⟩
  obtain ⟨stage, -, h⟩ := Option.bind_eq_some_iff.mp h
  obtain ⟨evaluationMode, -, h⟩ := Option.bind_eq_some_iff.mp h
  obtain rfl := Option.some_inj.mp h
  exact ⟨rfl, rfl⟩

theorem storedRun_eq_some_iff {q : RunQuery} {id : String} :
    storedRun s q id = some run ↔ ∃ saga, flywheelSaga s id = some saga ∧
      q.selects saga = true ∧ FlywheelRunRecord.fromSagaState saga = some run := by
  simp only [storedRun, Option.bind_eq_some_iff, Option.ite_none_right_eq_some]

theorem runId_of_storedRun (hs : s.Named) {q : RunQuery} {id : String}
    (h : storedRun s q id = some run) : run.runId = id := by
  obtain ⟨saga, hsaga, -, hrun⟩ := storedRun_eq_some_iff.mp h
  rw [← (fromSagaState_same hrun).1, flywheelSaga_sagaId hs hsaga]

/-! ### The condition -/

theorem PagesInOrder.paged (hs : s.Named) {q : RunQuery} (h : PagesInOrder s q limit) :
    ∃ runs, Paged s q limit runs := by
  obtain ⟨runs, hread⟩ : ∃ runs : List FlywheelRunRecord,
      (foundRuns s q limit).map FlywheelRunRecord.fromSagaState = runs.map some := by
    refine exists_map_eq_of_isSome fun saga hsaga => ?_
    obtain ⟨page, hpage, id, hid, hstored⟩ := mem_foundRuns.mp hsaga
    exact h.readable page hpage id hid saga hstored
  have hids : (foundRuns s q limit).map (·.sagaId) = runs.map (·.runId) :=
    map_eq_of_read (fun _ _ hrun => (fromSagaState_same hrun).1) hread
  have hdates : (foundRuns s q limit).map (·.createdAt) = runs.map (·.createdAt) :=
    map_eq_of_read (fun _ _ hrun => (fromSagaState_same hrun).2) hread
  have hpage : ∀ offset, Lists s q limit offset (slice runs limit offset) := by
    intro offset
    rw [lists_iff hs, answer, mapM_eq_some_iff, List.map_take, List.map_drop, hread,
      ← List.map_drop, ← List.map_take]
  refine ⟨runs, ?_, ?_, hids ▸ nodup_foundRuns hs q, hpage, ?_⟩
  · have hfound := pairwise_foundRuns.mpr h.inOrder
    have hsorted : ((foundRuns s q limit).map (·.createdAt)).Pairwise fun a b => b ≤ a :=
      List.pairwise_map.mpr hfound
    rw [hdates] at hsorted
    exact List.pairwise_map.mp hsorted
  · refine ⟨(foundRuns s q limit).map (·.sagaId), nodup_foundRuns hs q, fun id => ?_, ?_⟩
    · rw [h.complete, List.mem_map]
      constructor
      · rintro ⟨saga, hsaga, rfl⟩
        obtain ⟨page, hpage, id, hid, hstored⟩ := mem_foundRuns.mp hsaga
        rw [flywheelSaga_sagaId hs hstored]
        exact ⟨hstored ▸ rfl, page, hpage, hid⟩
      · rintro ⟨hstored, page, hpage, hid⟩
        obtain ⟨saga, hsaga⟩ := Option.isSome_iff_exists.mp hstored
        exact ⟨saga, mem_foundRuns.mpr ⟨page, hpage, id, hid, hsaga⟩,
          flywheelSaga_sagaId hs hsaga⟩
    · -- what is found under an identifier is what is stored there and asked for
      have hstored : ∀ saga ∈ foundRuns s q limit,
          storedRun s q saga.sagaId = FlywheelRunRecord.fromSagaState saga := by
        intro saga hsaga
        obtain ⟨page, hpage, id, hid, hid'⟩ := mem_foundRuns.mp hsaga
        obtain ⟨run, hrun⟩ := Option.isSome_iff_exists.mp
          ((h.complete id).mpr ⟨hid' ▸ rfl, page, hpage, hid⟩)
        obtain ⟨saga', hsaga', -, hread'⟩ := storedRun_eq_some_iff.mp hrun
        obtain rfl := Option.some_inj.mp (hid'.symm.trans hsaga')
        rw [flywheelSaga_sagaId hs hid', hrun, hread']
      rw [List.filterMap_map]
      exact ((List.filterMap_congr hstored).trans (filterMap_of_read hread)).symm
  · intro pages hpages
    have heq : pages = (List.range pages.length).map fun i => slice runs limit (i * limit) := by
      refine List.ext_getElem (by simp) fun i hi _ => ?_
      rw [List.getElem_map, List.getElem_range]
      have h₁ := (lists_iff hs q _).mp (hpages i hi)
      have h₂ := (lists_iff hs q _).mp (hpage (i * limit))
      exact Option.some_inj.mp (h₁.symm.trans h₂)
    rw [heq, flatten_slices, List.length_map, List.length_range]

theorem Paged.inOrder (hs : s.Named) {q : RunQuery} (hlimit : 0 < limit)
    {runs : List FlywheelRunRecord} (h : Paged s q limit runs) : PagesInOrder s q limit := by
  have hread : (foundRuns s q limit).map FlywheelRunRecord.fromSagaState = runs.map some := by
    refine eq_of_slices hlimit fun offset => ?_
    have hanswer := mapM_eq_some_iff.mp ((lists_iff hs q _).mp (h.page offset))
    rwa [List.map_take, List.map_drop, List.map_take, List.map_drop] at hanswer
  -- what is found is read, and is one of the runs
  have hfound : ∀ page ∈ reachedPages s q limit, ∀ id ∈ page, ∀ saga,
      flywheelSaga s id = some saga →
        ∃ run ∈ runs, FlywheelRunRecord.fromSagaState saga = some run := by
    intro page hpage id hid saga hsaga
    have hmem := List.mem_map_of_mem (f := FlywheelRunRecord.fromSagaState)
      (mem_foundRuns.mpr ⟨page, hpage, id, hid, hsaga⟩)
    rw [hread] at hmem
    obtain ⟨run, hrun, heq⟩ := List.mem_map.mp hmem
    exact ⟨run, hrun, heq.symm⟩
  obtain ⟨ids, -, hids, hruns⟩ := h.stored
  refine ⟨fun page hpage id hid saga hsaga => ?_, fun id => ⟨fun hstored => ?_, ?_⟩, ?_⟩
  · obtain ⟨run, -, hrun⟩ := hfound page hpage id hid saga hsaga
    exact hrun ▸ rfl
  · obtain ⟨run, hrun⟩ := Option.isSome_iff_exists.mp hstored
    have hmem : some run ∈ runs.map some := by
      refine List.mem_map_of_mem ?_
      rw [hruns]
      exact List.mem_filterMap.mpr ⟨id, (hids id).mpr hstored, hrun⟩
    rw [← hread] at hmem
    obtain ⟨saga, hsaga, hread'⟩ := List.mem_map.mp hmem
    obtain ⟨page, hpage, id', hid', hstored'⟩ := mem_foundRuns.mp hsaga
    have hsame : id' = id := by
      rw [← flywheelSaga_sagaId hs hstored', (fromSagaState_same hread').1,
        runId_of_storedRun hs hrun]
    subst hsame
    exact ⟨hstored' ▸ rfl, page, hpage, hid'⟩
  · rintro ⟨hstored, page, hpage, hid⟩
    obtain ⟨saga, hsaga⟩ := Option.isSome_iff_exists.mp hstored
    obtain ⟨run, hrun, hread'⟩ := hfound page hpage id hid saga hsaga
    rw [hruns] at hrun
    obtain ⟨id', -, hid'⟩ := List.mem_filterMap.mp hrun
    have hsame : id' = id := by
      rw [← runId_of_storedRun hs hid', ← (fromSagaState_same hread').1,
        flywheelSaga_sagaId hs hsaga]
    exact hsame ▸ hid' ▸ rfl
  · refine pairwise_foundRuns.mp (List.pairwise_map.mp (?_ : ((foundRuns s q limit).map
      (·.createdAt)).Pairwise fun a b => b ≤ a))
    rw [map_eq_of_read (g := fun run => run.createdAt)
      (fun _ _ hrun => (fromSagaState_same hrun).2) hread]
    exact List.pairwise_map.mpr h.newestFirst

/-- The listings page through the stored runs exactly when the pages of identifiers are in order. -/
theorem pagingExact_iff {s : RedisStore} (hs : s.Named) (q : RunQuery) (hlimit : 0 < limit) :
    (∃ runs, Paged s q limit runs) ↔ PagesInOrder s q limit :=
  ⟨fun ⟨_, h⟩ => h.inOrder hs hlimit, fun h => h.paged hs⟩

end Answer

/-! ### A page that has expired -/

/-- A store with one run, listed beside other identifiers whose hashes are gone. -/
def runStore (others : Finset String) : RedisStore where
  hashes sagaId :=
    if sagaId = "run" then some (@FlywheelRunRecord.toSagaState epochOnly (reviewRun [])).toRedisHash
    else none
  stateIndex state := if state = .running then insert "run" others else ∅

theorem runStore_named (others : Finset String) : (runStore others).Named := by
  intro sagaId hash hhash _
  obtain ⟨rfl, heq⟩ := Option.ite_none_right_eq_some.mp hhash
  obtain rfl := Option.some_inj.mp heq
  exact ⟨rfl, rfl, rfl⟩

theorem flywheelSaga_runStore (others : Finset String) (sagaId : String) :
    flywheelSaga (runStore others) sagaId =
      if sagaId = "run" then some (@FlywheelRunRecord.toSagaState epochOnly (reviewRun []))
      else none := by
  by_cases hid : sagaId = "run"
  · subst hid
    rfl
  · simp [flywheelSaga, runStore, hid]

theorem live_runStore (others : Finset String) (page : List String) :
    live (runStore others) page = true ↔ "run" ∈ page := by
  simp only [live, List.any_eq_true, runStore, Option.isSome_ite, exists_eq_right]

theorem fromSagaState_reviewRun :
    @FlywheelRunRecord.fromSagaState epochOnly asciiPrintable
      (@FlywheelRunRecord.toSagaState epochOnly (reviewRun [])) = some (reviewRun []) :=
  @FlywheelRunRecord.fromSagaState_toSagaState epochOnly asciiPrintable _ epoch_readsDate

theorem storedRun_runStore (others : Finset String) (sagaId : String) :
    (@storedRun epochOnly asciiPrintable (runStore others) (.byState .running) sagaId).isSome =
      true ↔ sagaId = "run" := by
  unfold storedRun
  rw [flywheelSaga_runStore]
  by_cases hid : sagaId = "run"
  · have hselects : (RunQuery.byState .running).selects
        (@FlywheelRunRecord.toSagaState epochOnly (reviewRun [])) = true := rfl
    rw [if_pos hid, Option.bind_some, if_pos hselects, fromSagaState_reviewRun]
    exact iff_of_true rfl hid
  · rw [if_neg hid, Option.bind_none]
    exact iff_of_false Bool.false_ne_true hid

theorem reachedPages_runStore :
    reachedPages (runStore ∅) (.byState .running) 1 = [["run"]] := by
  have hsorted : (RunQuery.byState .running).sorted (runStore ∅) = ["run"] := by
    show (insert "run" (∅ : Finset String)).sort (· ≥ ·) = ["run"]
    rw [insert_empty_eq, Finset.sort_singleton]
  rw [reachedPages, hsorted]
  rfl

theorem runStore_pagesInOrder :
    @PagesInOrder epochOnly asciiPrintable (runStore ∅) (.byState .running) 1 := by
  refine @PagesInOrder.mk epochOnly asciiPrintable _ _ _ ?_ (fun id => ?_) ?_
  · intro page hpage id hid saga hsaga
    rw [flywheelSaga_runStore] at hsaga
    obtain ⟨-, heq⟩ := Option.ite_none_right_eq_some.mp hsaga
    obtain rfl := Option.some_inj.mp heq
    rw [fromSagaState_reviewRun]
    rfl
  · rw [storedRun_runStore, reachedPages_runStore, flywheelSaga_runStore]
    constructor
    · rintro rfl
      exact ⟨rfl, _, List.mem_singleton_self _, List.mem_singleton_self _⟩
    · rintro ⟨-, page, hpage, hid⟩
      obtain rfl := List.mem_singleton.mp hpage
      exact List.mem_singleton.mp hid
  · rw [reachedPages_runStore]
    exact List.pairwise_singleton _ _

/-- An identifier that comes before the one of the run. -/
def expiredId (i : ℕ) : String := String.ofList ("run".toList ++ List.replicate (i + 1) '0')

def expiredIds : Finset String := (Finset.range 100).image expiredId

theorem toList_expiredId (i : ℕ) :
    (expiredId i).toList = "run".toList ++ List.replicate (i + 1) '0' :=
  String.toList_ofList

theorem expiredId_injective : Function.Injective expiredId := by
  intro i j h
  have hlength := congrArg (fun text : String => text.toList.length) h
  simp only [toList_expiredId, List.length_append, List.length_replicate] at hlength
  omega

theorem lt_expiredId (i : ℕ) : "run" < expiredId i := by
  rw [String.lt_iff_toList_lt, toList_expiredId, List.replicate_succ]
  simp [List.nil_lt_cons]

theorem lt_of_mem_expiredIds {id : String} (h : id ∈ expiredIds) : "run" < id := by
  obtain ⟨i, -, rfl⟩ := Finset.mem_image.mp h
  exact lt_expiredId i

theorem length_sorted_expired :
    ((RunQuery.byState .running).sorted (runStore expiredIds)).length = 101 := by
  have hnot : "run" ∉ expiredIds := fun h => lt_irrefl _ (lt_of_mem_expiredIds h)
  show ((insert "run" expiredIds).sort (· ≥ ·)).length = 101
  rw [Finset.length_sort, Finset.card_insert_of_notMem hnot, expiredIds,
    Finset.card_image_of_injective _ expiredId_injective, Finset.card_range]

theorem run_notMem_take :
    "run" ∉ ((RunQuery.byState .running).sorted (runStore expiredIds)).take 100 := by
  intro hrun
  have hsorted : ((RunQuery.byState .running).sorted (runStore expiredIds)).Pairwise (· ≥ ·) :=
    Finset.pairwise_sort _ _
  have hnodup : ((RunQuery.byState .running).sorted (runStore expiredIds)).Nodup :=
    Finset.sort_nodup _ _
  have hmem : ∀ id ∈ (RunQuery.byState .running).sorted (runStore expiredIds),
      id = "run" ∨ id ∈ expiredIds := fun id hid =>
    Finset.mem_insert.mp ((Finset.mem_sort _).mp hid)
  have hlength := length_sorted_expired
  generalize (RunQuery.byState .running).sorted (runStore expiredIds) = ids at *
  obtain ⟨last, hlast⟩ : ∃ last, last ∈ ids.drop 100 :=
    List.exists_mem_of_length_pos (by rw [List.length_drop, hlength]; decide)
  rw [← List.take_append_drop 100 ids, List.pairwise_append] at hsorted
  rw [← List.take_append_drop 100 ids, List.nodup_append] at hnodup
  have hge : "run" ≥ last := hsorted.2.2 "run" hrun last hlast
  rcases hmem last (List.mem_of_mem_drop hlast) with rfl | hexpired
  · exact hnodup.2.2 "run" hrun "run" hlast rfl
  · exact absurd (lt_of_mem_expiredIds hexpired) hge.not_gt

/-- A hundred identifiers whose hashes are gone hide the run that comes after them. -/
theorem expiredPage_not_paged :
    (runStore expiredIds).Named ∧
      ¬∃ runs, @Paged epochOnly asciiPrintable (runStore expiredIds) (.byState .running) 1 runs := by
  refine ⟨runStore_named _, ?_⟩
  rintro ⟨runs, hpaged⟩
  have horder := @Paged.inOrder epochOnly asciiPrintable _ _ (runStore_named _) _
    (Nat.one_pos) _ hpaged
  obtain ⟨-, page, hpage, -⟩ := (@PagesInOrder.complete epochOnly asciiPrintable _ _ _ horder
    "run").mp ((storedRun_runStore _ _).mpr rfl)
  have hfirst (ids : List String) : Paging.page ids (batchLimit 1) 0 = ids.take 100 := rfl
  rw [reachedPages, reached, length_sorted_expired, reachedFrom, if_neg] at hpage
  · cases hpage
  · rw [live_runStore, hfirst]
    exact run_notMem_take

theorem runStore_paged :
    ∃ runs, @Paged epochOnly asciiPrintable (runStore ∅) (.byState .running) 1 runs :=
  (@pagingExact_iff epochOnly asciiPrintable _ _ (runStore_named _) _ Nat.one_pos).mpr
    runStore_pagesInOrder

end EnhancedAgentBus.SagaPersistence
