import EnhancedAgentBus.SagaPersistence.FlywheelPaging
import Mathlib.Algebra.Order.BigOperators.Group.Finset

/-!
# The index sets of the Redis repository

Clients that save sagas, update them, delete them and clean up old ones, all of them in flight over
one store.  A saga is listed in the index set of its state and in that of its tenant, and each
pipeline moves it from the set of the state that its call read to the set of the new one.

`Indexed` is the invariant: a saga is listed in the sets of the state and the tenant that its hash
has, and in no others.  A pipeline keeps it as long as the saga still has the state and the tenant
that its call read, a save keeps the tenant, and a step is only written to a saga that is there
(`indexesConsistent_of_asListed`).  No save looks at the tenant that it replaces: in `moved` a saga
has changed its tenant and is listed for both.
-/

namespace EnhancedAgentBus.SagaPersistence

open Async Async.Prog

/-! ## What a write does to the sets -/

namespace Write

/-- The state whose set a write adds its saga to. -/
def adds : Write → Option SagaState
  | save saga _ => some saga.state
  | updateState _ _ _ newState _ => some newState
  | updateStepState _ _ _ _ | updateCurrentStep _ _ | delete _ _ _ _ _ | saveCheckpoint _
  | appendCompensationEntry _ _ => none

/-- The state from whose set it removes its saga. -/
def removes : Write → Option SagaState
  | save saga basis => oldState saga basis
  | updateState _ _ currentState _ _ => some currentState
  | delete _ state _ _ _ => some state
  | updateStepState _ _ _ _ | updateCurrentStep _ _ | saveCheckpoint _
  | appendCompensationEntry _ _ => none

def addsTenant : Write → Option String
  | save saga _ => if saga.tenantId ≠ "" then some saga.tenantId else none
  | updateState _ _ _ _ _ | updateStepState _ _ _ _ | updateCurrentStep _ _ | delete _ _ _ _ _
  | saveCheckpoint _ | appendCompensationEntry _ _ => none

def removesTenant : Write → Option String
  | delete _ _ tenantId _ _ => if tenantId ≠ "" then some tenantId else none
  | save _ _ | updateState _ _ _ _ _ | updateStepState _ _ _ _ | updateCurrentStep _ _
  | saveCheckpoint _ | appendCompensationEntry _ _ => none

end Write

namespace RedisStore

theorem mem_saddState (s : RedisStore) (state : SagaState) (sagaId x : String) (st : SagaState) :
    x ∈ (s.command (.saddState state sagaId)).stateIndex st ↔
      (x = sagaId ∧ state = st) ∨ x ∈ s.stateIndex st := by
  by_cases hst : st = state
  · subst hst
    simp [command]
  · simp [command, Function.update_of_ne hst, Ne.symm hst]

theorem mem_sremState (s : RedisStore) (state : SagaState) (sagaId x : String) (st : SagaState) :
    x ∈ (s.command (.sremState state sagaId)).stateIndex st ↔
      x ∈ s.stateIndex st ∧ ¬ (x = sagaId ∧ state = st) := by
  by_cases hst : st = state
  · subst hst
    simp [command, and_comm]
  · simp [command, Function.update_of_ne hst, Ne.symm hst]

theorem mem_saddTenant (s : RedisStore) (tenantId sagaId x t : String) :
    x ∈ (s.command (.saddTenant tenantId sagaId)).tenantIndex t ↔
      (x = sagaId ∧ tenantId = t) ∨ x ∈ s.tenantIndex t := by
  by_cases ht : t = tenantId
  · subst ht
    simp [command]
  · simp [command, Function.update_of_ne ht, Ne.symm ht]

theorem mem_sremTenant (s : RedisStore) (tenantId sagaId x t : String) :
    x ∈ (s.command (.sremTenant tenantId sagaId)).tenantIndex t ↔
      x ∈ s.tenantIndex t ∧ ¬ (x = sagaId ∧ tenantId = t) := by
  by_cases ht : t = tenantId
  · subst ht
    simp [command, and_comm]
  · simp [command, Function.update_of_ne ht, Ne.symm ht]

theorem mem_stateIndex_write (s : RedisStore) (w : Write) (x : String) (st : SagaState) :
    x ∈ (s.write w).stateIndex st ↔
      (x = w.sagaId ∧ w.adds = some st) ∨
        (x ∈ s.stateIndex st ∧ ¬ (x = w.sagaId ∧ w.removes = some st)) := by
  cases w with
  | save saga basis =>
    have hlast : (s.write (.save saga basis)).stateIndex =
        ((((Write.oldState saga basis).toList.map fun state =>
          Command.sremState state saga.sagaId).foldl command
          (s.command (.hset saga.sagaId saga.toRedisHash))).command
            (.saddState saga.state saga.sagaId)).stateIndex := by
      simp only [write, Write.commands, List.foldl_append, List.foldl_cons, List.cons_append]
      split <;> rfl
    rw [hlast, mem_saddState, Write.adds, Option.some_inj, Write.sagaId, Write.removes]
    rcases hold : Write.oldState saga basis with _ | state
    · simp [command]
    · simp only [Option.toList, List.map_cons, List.map_nil, List.foldl_cons, List.foldl_nil,
        mem_sremState, Option.some_inj]
      rfl
  | updateState sagaId updates currentState newState basis =>
    have hlast : (s.write (.updateState sagaId updates currentState newState basis)) =
        ((s.command (.hset sagaId updates)).command (.sremState currentState sagaId)).command
          (.saddState newState sagaId) := rfl
    rw [hlast, mem_saddState, mem_sremState, Write.adds, Write.removes, Option.some_inj,
      Option.some_inj]
    rfl
  | delete sagaId state tenantId checkpointIds basis =>
    have hlast : (s.write (.delete sagaId state tenantId checkpointIds basis)).stateIndex =
        (((s.command (.delHash sagaId)).command (.delCompensations sagaId)).command
          (.sremState state sagaId)).stateIndex := by
      simp only [write, Write.commands, List.foldl_append, List.foldl_cons, List.foldl_nil]
      refine (foldl_delCheckpoint RedisStore.stateIndex sagaId (fun _ _ => rfl)
        checkpointIds _).trans ?_
      split <;> rfl
    rw [hlast, mem_sremState, Write.adds, Write.removes, Option.some_inj]
    simp [Write.sagaId, command]
  | updateStepState | updateCurrentStep | saveCheckpoint | appendCompensationEntry =>
    simp [Write.adds, Write.removes, write, Write.commands, command]

theorem mem_tenantIndex_write (s : RedisStore) (w : Write) (x t : String) :
    x ∈ (s.write w).tenantIndex t ↔
      (x = w.sagaId ∧ w.addsTenant = some t) ∨
        (x ∈ s.tenantIndex t ∧ ¬ (x = w.sagaId ∧ w.removesTenant = some t)) := by
  cases w with
  | save saga basis =>
    have hfirst : ∀ s' : RedisStore, (((Write.oldState saga basis).toList.map fun state =>
        Command.sremState state saga.sagaId).foldl command s').tenantIndex = s'.tenantIndex := by
      intro s'
      cases Write.oldState saga basis <;> rfl
    simp only [write, Write.commands, List.foldl_append, List.foldl_cons, List.cons_append,
      Write.addsTenant, Write.removesTenant, Write.sagaId]
    split
    · rw [List.foldl_cons, List.foldl_nil, List.foldl_nil, mem_saddTenant]
      simp [command, hfirst]
    · simp [command, hfirst]
  | delete sagaId state tenantId checkpointIds basis =>
    have hlast : (s.write (.delete sagaId state tenantId checkpointIds basis)).tenantIndex =
        ((if tenantId ≠ "" then [Command.sremTenant tenantId sagaId] else []).foldl command
          (((s.command (.delHash sagaId)).command (.delCompensations sagaId)).command
            (.sremState state sagaId))).tenantIndex := by
      simp only [write, Write.commands, List.foldl_append, List.foldl_cons, List.foldl_nil]
      exact foldl_delCheckpoint RedisStore.tenantIndex sagaId (fun _ _ => rfl) checkpointIds _
    rw [hlast, Write.addsTenant, Write.removesTenant]
    split
    · rw [List.foldl_cons, List.foldl_nil, mem_sremTenant, Option.some_inj]
      simp [Write.sagaId, command]
    · simp [command]
  | updateState | updateStepState | updateCurrentStep | saveCheckpoint | appendCompensationEntry =>
    simp [Write.addsTenant, Write.removesTenant, write, Write.commands, command]

end RedisStore

/-! ## The calls -/

inductive IndexCall where
  | save (saga : PersistedSagaState)
  | updateState (sagaId : String) (newState : SagaState) (failureReason : Option String)
  | updateStepState (sagaId stepId : String) (newState : StepState) (outputData : Json)
      (errorMessage : Option String)
  | updateCurrentStep (sagaId : String) (stepIndex : ℤ)
  | delete (sagaId : String)
  | cleanupOldSagas (olderThan : Instant) (terminalOnly : Bool)

def unanswered {α : Type} (p : RedisCode α) : RedisCode Unit := do
  let _ ← p
  pure ()

def IndexCall.code : IndexCall → RedisCode Unit
  | save saga => unanswered (Redis.save saga)
  | updateState sagaId newState failureReason =>
    unanswered (Redis.updateState sagaId newState failureReason)
  | updateStepState sagaId stepId newState outputData errorMessage =>
    unanswered (Redis.updateStepState sagaId stepId newState outputData errorMessage)
  | updateCurrentStep sagaId stepIndex => unanswered (Redis.updateCurrentStep sagaId stepIndex)
  | delete sagaId => unanswered (Redis.delete sagaId)
  | cleanupOldSagas olderThan terminalOnly =>
    unanswered (Redis.cleanupOldSagas olderThan terminalOnly)

theorem IndexCall.code_asks (c : IndexCall) : c.code.Asks (RedisOp.FollowsRead true) := by
  have hunanswered : ∀ {α : Type} {p : RedisCode α}, p.Asks (RedisOp.FollowsRead true) →
      (unanswered p).Asks (RedisOp.FollowsRead true) := fun hp => hp.bind fun _ => trivial
  cases c with
  | save saga => exact hunanswered (Redis.save_asks saga)
  | updateState => exact hunanswered (Redis.updateState_asks ..)
  | updateStepState => exact hunanswered (Redis.updateStepState_asks ..)
  | updateCurrentStep => exact hunanswered (Redis.updateCurrentStep_asks ..)
  | delete sagaId => exact hunanswered (Redis.delete_asks sagaId)
  | cleanupOldSagas => exact hunanswered (Redis.cleanupStates_asks ..)

/-- A performed operation, and the call it was performed for. -/
abbrev IndexEntry := IndexCall × Entry RedisStore RedisOp RedisOp.Resp

abbrev IndexCalls := Pool IndexCall RedisOp RedisOp.Resp SagaError Unit RedisStore

/-- Any calls over a store, interleaved at their commands and pipelines. -/
abbrev IndexesInterleaved (init : RedisStore) (P : IndexCalls) : Prop :=
  Pool.Reach RedisStep (fun _ c p => p = c.code) [] init P

/-! ## Consistent sets -/

def SagaHash.listing (hash : SagaHash) : Option SagaState × Option String :=
  (hash.state, hash.tenantId)

/-- **The sets list what is stored**: every saga in the sets of the state and the tenant of its
hash, and in no others. -/
structure Indexed (s : RedisStore) : Prop where
  state : ∀ sagaId state, sagaId ∈ s.stateIndex state ↔
    ∃ hash, s.hashes sagaId = some hash ∧ hash.state = some state
  tenant : ∀ sagaId tenantId, sagaId ∈ s.tenantIndex tenantId ↔
    ∃ hash, s.hashes sagaId = some hash ∧ hash.tenantId = some tenantId
  /-- every hash has a state, and a tenant that is not empty -/
  listed : ∀ sagaId hash, s.hashes sagaId = some hash →
    hash.state ≠ none ∧ hash.tenantId ≠ none ∧ hash.tenantId ≠ some ""

/-- **Consistent indexes**, with what follows from them: the sets of two states have nothing in
common, and `get_statistics` counts every stored saga once. -/
structure IndexesConsistent (s : RedisStore) : Prop where
  state : ∀ sagaId state, sagaId ∈ s.stateIndex state ↔
    ∃ hash, s.hashes sagaId = some hash ∧ hash.state = some state
  tenant : ∀ sagaId tenantId, sagaId ∈ s.tenantIndex tenantId ↔
    ∃ hash, s.hashes sagaId = some hash ∧ hash.tenantId = some tenantId
  disjoint : ∀ state state', state ≠ state' → Disjoint (s.stateIndex state) (s.stateIndex state')
  counted : Safe RedisStep (fun _ _ => True) Redis.getStatistics s
    (fun statistics _ => ∃ sagaIds : Finset String,
      (∀ sagaId, sagaId ∈ sagaIds ↔ (s.hashes sagaId).isSome = true) ∧
        statistics.2 = sagaIds.card)
    fun _ _ => False

/-- **The condition** on a write.  The saga has the state and the tenant that the call last read,
and is there when a step is written; a save brings the tenant it had, and brings one. -/
def AsListed (_ : List IndexEntry) (e : IndexEntry) (_ : RedisStore) : Prop :=
  match e.2.op with
  | .write (.save saga basis) =>
    (e.2.before.hashes saga.sagaId).map SagaHash.listing = basis.map SagaHash.listing ∧
      saga.tenantId ≠ "" ∧ ∀ hash, basis = some hash → hash.tenantId = some saga.tenantId
  | .write (.updateState sagaId _ _ _ basis) =>
    (e.2.before.hashes sagaId).map SagaHash.listing = basis.map SagaHash.listing
  | .write (.delete sagaId _ _ _ basis) =>
    (e.2.before.hashes sagaId).map SagaHash.listing = basis.map SagaHash.listing
  | .write (.updateStepState sagaId _ _ _) => (e.2.before.hashes sagaId).isSome = true
  | .write (.updateCurrentStep sagaId _) => (e.2.before.hashes sagaId).isSome = true
  | _ => True

/-! ## One step -/

section Step

variable {s : RedisStore} {log : List IndexEntry} {c : IndexCall}

theorem Indexed.write (h : Indexed s) {w : Write}
    (hstate : ∀ state, w.adds = some state ∨ (w.sagaId ∈ s.stateIndex state ∧
      w.removes ≠ some state) ↔ ∃ hash, w.leaves (s.hashes w.sagaId) = some hash ∧
        hash.state = some state)
    (htenant : ∀ tenantId, w.addsTenant = some tenantId ∨ (w.sagaId ∈ s.tenantIndex tenantId ∧
      w.removesTenant ≠ some tenantId) ↔ ∃ hash, w.leaves (s.hashes w.sagaId) = some hash ∧
        hash.tenantId = some tenantId)
    (hlisted : ∀ hash, w.leaves (s.hashes w.sagaId) = some hash →
      hash.state ≠ none ∧ hash.tenantId ≠ none ∧ hash.tenantId ≠ some "") :
    Indexed (s.write w) := by
  refine ⟨fun sagaId state => ?_, fun sagaId tenantId => ?_, fun sagaId hash hhash => ?_⟩
  · rw [RedisStore.mem_stateIndex_write]
    by_cases hid : sagaId = w.sagaId
    · subst hid
      simpa [RedisStore.hashes_write_self] using hstate state
    · simpa [hid, RedisStore.hashes_write_of_ne s hid] using h.state sagaId state
  · rw [RedisStore.mem_tenantIndex_write]
    by_cases hid : sagaId = w.sagaId
    · subst hid
      simpa [RedisStore.hashes_write_self] using htenant tenantId
    · simpa [hid, RedisStore.hashes_write_of_ne s hid] using h.tenant sagaId tenantId
  · by_cases hid : sagaId = w.sagaId
    · subst hid
      rw [RedisStore.hashes_write_self] at hhash
      exact hlisted hash hhash
    · rw [RedisStore.hashes_write_of_ne s hid] at hhash
      exact h.listed sagaId hash hhash

theorem Indexed.mem_state (h : Indexed s) {sagaId : String} {hash : SagaHash}
    (hhash : s.hashes sagaId = some hash) (state : SagaState) :
    sagaId ∈ s.stateIndex state ↔ hash.state = some state := by
  rw [h.state, hhash]
  simp

theorem Indexed.mem_tenant (h : Indexed s) {sagaId : String} {hash : SagaHash}
    (hhash : s.hashes sagaId = some hash) (tenantId : String) :
    sagaId ∈ s.tenantIndex tenantId ↔ hash.tenantId = some tenantId := by
  rw [h.tenant, hhash]
  simp

theorem Indexed.notMem (h : Indexed s) {sagaId : String} (hhash : s.hashes sagaId = none) :
    (∀ state, sagaId ∉ s.stateIndex state) ∧ ∀ tenantId, sagaId ∉ s.tenantIndex tenantId := by
  simp [h.state, h.tenant, hhash]

theorem listing_eq {sagaId : String} {hash : SagaHash}
    (h : (s.hashes sagaId).map SagaHash.listing = (some hash).map SagaHash.listing) :
    ∃ stored, s.hashes sagaId = some stored ∧ stored.state = hash.state ∧
      stored.tenantId = hash.tenantId := by
  obtain ⟨stored, hstored, hlisting⟩ := Option.map_eq_some_iff.mp h
  exact ⟨stored, hstored, congrArg Prod.fst hlisting, congrArg Prod.snd hlisting⟩

theorem Indexed.save (h : Indexed s) {saga : PersistedSagaState} {basis : Option SagaHash}
    (hread : (s.hashes saga.sagaId).map SagaHash.listing = basis.map SagaHash.listing)
    (htenant : saga.tenantId ≠ "")
    (hkept : ∀ hash, basis = some hash → hash.tenantId = some saga.tenantId) :
    Indexed (s.write (.save saga basis)) := by
  refine h.write (fun state => ?_) (fun tenantId => ?_) ?_
  · rcases basis with _ | hash
    · have hnone : s.hashes saga.sagaId = none := Option.map_eq_none_iff.mp hread
      simp [Write.adds, Write.sagaId, Write.leaves, (h.notMem hnone).1,
        PersistedSagaState.toRedisHash]
    · obtain ⟨stored, hstored, hstate, _⟩ := listing_eq hread
      -- the old state is the one that is listed, unless it is the new one
      have hremoves : ∀ st, hash.state = some st → saga.state ≠ st →
          Write.oldState saga (some hash) = some st := by
        intro st hst hne
        simp [Write.oldState, hst, Ne.symm hne]
      simp only [Write.adds, Write.sagaId, Write.leaves, Write.removes, h.mem_state hstored,
        hstate, Option.some_inj, exists_eq_left', PersistedSagaState.toRedisHash]
      constructor
      · rintro (hnew | ⟨hst, hold⟩)
        · exact hnew
        · by_contra hne
          exact hold (hremoves state hst hne)
      · exact .inl
  · rw [Write.addsTenant, if_pos htenant, Option.some_inj]
    simp only [Write.sagaId, Write.leaves, Write.removesTenant, Option.some_inj, exists_eq_left',
      PersistedSagaState.toRedisHash]
    constructor
    · rintro (hnew | ⟨hmem, _⟩)
      · exact hnew
      · rcases basis with _ | hash
        · have hnone : s.hashes saga.sagaId = none := Option.map_eq_none_iff.mp hread
          exact absurd hmem ((h.notMem hnone).2 tenantId)
        · obtain ⟨stored, hstored, _, hsame⟩ := listing_eq hread
          rw [h.mem_tenant hstored, hsame, hkept hash rfl] at hmem
          exact Option.some_inj.mp hmem
    · exact .inl
  · rintro _ ⟨⟩
    refine ⟨Option.some_ne_none _, Option.some_ne_none _, fun hempty => htenant ?_⟩
    exact Option.some_inj.mp hempty

theorem Indexed.updateState (h : Indexed s) {sagaId : String} {currentState newState : SagaState}
    {updates : SagaHash} {basis : Option SagaHash}
    (hfollows : (RedisOp.write (.updateState sagaId updates currentState newState basis)).FollowsRead
      true)
    (hread : (s.hashes sagaId).map SagaHash.listing = basis.map SagaHash.listing) :
    Indexed (s.write (.updateState sagaId updates currentState newState basis)) := by
  obtain ⟨hash, fresh, failureReason, now, rfl, rfl, hvalid, rfl⟩ := hfollows
  obtain ⟨stored, hstored, hstate, htenant⟩ := listing_eq hread
  obtain ⟨hsome, htenants⟩ := h.listed sagaId stored hstored
  obtain ⟨current, hcurrent⟩ := Option.ne_none_iff_exists'.mp hsome
  have hfrom : (PersistedSagaState.fromRedisHash fresh hash).state = current := by
    simp [PersistedSagaState.fromRedisHash, ← hstate, hcurrent]
  refine h.write (fun state => ?_) (fun tenantId => ?_) ?_
  · simp only [Write.adds, Write.sagaId, Write.leaves, Write.removes, h.mem_state hstored,
      hcurrent, hfrom, SagaHash.hset, Redis.stateUpdates_fields, Option.some_or, Option.some_inj,
      exists_eq_left']
    constructor
    · rintro (hnew | ⟨hst, hold⟩)
      · exact hnew
      · exact absurd (congrArg some hst) hold
    · exact .inl
  · simp [Write.addsTenant, Write.sagaId, Write.leaves, Write.removesTenant,
      h.mem_tenant hstored, SagaHash.hset, Redis.stateUpdates_fields, hstored]
  · rintro _ ⟨⟩
    simpa [SagaHash.hset, Redis.stateUpdates_fields, Write.sagaId,
      hstored] using htenants

theorem Indexed.delete (h : Indexed s) {sagaId tenantId : String} {state : SagaState}
    {checkpointIds : List String} {basis : Option SagaHash}
    (hfollows : (RedisOp.write (.delete sagaId state tenantId checkpointIds basis)).FollowsRead
      true)
    (hread : (s.hashes sagaId).map SagaHash.listing = basis.map SagaHash.listing) :
    Indexed (s.write (.delete sagaId state tenantId checkpointIds basis)) := by
  obtain ⟨_, hash, rfl, rfl, rfl⟩ := hfollows
  obtain ⟨stored, hstored, hstate, htenant⟩ := listing_eq hread
  obtain ⟨hsome, hsomeTenant, hnonempty⟩ := h.listed sagaId stored hstored
  obtain ⟨current, hcurrent⟩ := Option.ne_none_iff_exists'.mp hsome
  obtain ⟨tenant, htenant'⟩ := Option.ne_none_iff_exists'.mp hsomeTenant
  have hne : tenant ≠ "" := by
    rintro rfl
    exact hnonempty htenant'
  refine h.write (fun state => ?_) (fun tenantId => ?_) ?_
  · simp [Write.adds, Write.sagaId, Write.leaves, Write.removes, h.mem_state hstored, ← hstate,
      hcurrent]
  · simp [Write.addsTenant, Write.sagaId, Write.leaves, Write.removesTenant, hne,
      h.mem_tenant hstored, ← htenant, htenant']
  · rintro _ ⟨⟩

theorem Indexed.unlisted (h : Indexed s) {w : Write} {mapping : SagaHash}
    (hwrite : w.adds = none ∧ w.removes = none ∧ w.addsTenant = none ∧ w.removesTenant = none)
    (hleaves : ∀ hash, w.leaves (some hash) = some (mapping.hset hash))
    (hmapping : mapping.state = none ∧ mapping.tenantId = none)
    (hthere : (s.hashes w.sagaId).isSome = true) : Indexed (s.write w) := by
  obtain ⟨stored, hstored⟩ := Option.isSome_iff_exists.mp hthere
  obtain ⟨hadds, hremoves, haddsTenant, hremovesTenant⟩ := hwrite
  have hlisted := h.listed w.sagaId stored hstored
  refine h.write (fun state => ?_) (fun tenantId => ?_) ?_
  · simp [hadds, hremoves, hstored, hleaves, h.mem_state hstored, SagaHash.hset, hmapping]
  · simp [haddsTenant, hremovesTenant, hstored, hleaves, h.mem_tenant hstored, SagaHash.hset,
      hmapping]
  · rw [hstored, hleaves]
    rintro _ ⟨⟩
    simpa [SagaHash.hset, hmapping] using hlisted

theorem Indexed.aside (h : Indexed s) {w : Write}
    (hwrite : w.adds = none ∧ w.removes = none ∧ w.addsTenant = none ∧ w.removesTenant = none)
    (hleaves : w.leaves (s.hashes w.sagaId) = s.hashes w.sagaId) : Indexed (s.write w) := by
  obtain ⟨hadds, hremoves, haddsTenant, hremovesTenant⟩ := hwrite
  refine h.write (fun state => ?_) (fun tenantId => ?_) fun hash hhash => ?_
  · simp [hadds, hremoves, hleaves, h.state]
  · simp [haddsTenant, hremovesTenant, hleaves, h.tenant]
  · exact h.listed w.sagaId hash (hleaves ▸ hhash)

/-- **One step.** -/
theorem Indexed.step (h : Indexed s) {s' : RedisStore} {o : RedisOp} {r : o.Resp}
    (hstep : RedisStep s o r s') (hfollows : o.FollowsRead true)
    (hlisted : AsListed log (c, ⟨s, o, r⟩) s') : Indexed s' := by
  rcases hstep.cases with ⟨w, rfl, rfl⟩ | ⟨_, rfl⟩
  · cases w with
    | save saga basis => exact h.save hlisted.1 hlisted.2.1 hlisted.2.2
    | updateState => exact h.updateState hfollows hlisted
    | delete => exact h.delete hfollows hlisted
    | updateStepState sagaId steps version basis =>
      exact h.unlisted ⟨rfl, rfl, rfl, rfl⟩ (fun _ => rfl) ⟨rfl, rfl⟩ hlisted
    | updateCurrentStep sagaId stepIndex =>
      exact h.unlisted ⟨rfl, rfl, rfl, rfl⟩ (fun _ => rfl) ⟨rfl, rfl⟩ hlisted
    | saveCheckpoint | appendCompensationEntry => exact h.aside ⟨rfl, rfl, rfl, rfl⟩ rfl
  · exact h

end Step

/-! ## What follows -/

theorem countStates_safe (s : RedisStore) (states : List SagaState) :
    Safe RedisStep (fun _ _ => True) (Redis.countStates states) s
      (fun counts s' => s' = s ∧ counts = states.map fun state => (state, (s.stateIndex state).card))
      fun _ _ => False := by
  induction states with
  | nil => exact ⟨rfl, rfl⟩
  | cons state rest ih =>
    refine ⟨trivial, fun count s' hstep => ?_⟩
    obtain ⟨choice, hstep⟩ := hstep
    simp only [RedisStore.perform, Option.some_inj, Prod.mk.injEq] at hstep
    obtain ⟨rfl, rfl⟩ := hstep
    simp only [Prog.bind]
    refine (safe_bind _ _).mpr (ih.mono (fun others s' hothers => ?_) fun _ _ => id)
    obtain ⟨rfl, rfl⟩ := hothers
    exact ⟨rfl, rfl⟩

theorem Indexed.consistent {s : RedisStore} (h : Indexed s) : IndexesConsistent s := by
  have hdisjoint : ∀ state state', state ≠ state' →
      Disjoint (s.stateIndex state) (s.stateIndex state') := by
    intro state state' hne
    refine Finset.disjoint_left.mpr fun sagaId hmem hmem' => hne ?_
    obtain ⟨hash, hhash, hstate⟩ := (h.state sagaId state).mp hmem
    rw [h.mem_state hhash] at hmem'
    exact Option.some_inj.mp (hstate.symm.trans hmem')
  refine ⟨h.state, h.tenant, hdisjoint, ?_⟩
  refine (safe_bind _ _).mpr ((countStates_safe s SagaState.all).mono ?_ fun _ _ => id)
  rintro counts s' ⟨rfl, rfl⟩
  refine ⟨SagaState.all.toFinset.biUnion s'.stateIndex, fun sagaId => ?_, ?_⟩
  · rw [Finset.mem_biUnion]
    constructor
    · rintro ⟨state, _, hmem⟩
      obtain ⟨hash, hhash, _⟩ := (h.state sagaId state).mp hmem
      exact Option.isSome_iff_exists.mpr ⟨hash, hhash⟩
    · intro hthere
      obtain ⟨hash, hhash⟩ := Option.isSome_iff_exists.mp hthere
      obtain ⟨state, hstate⟩ := Option.ne_none_iff_exists'.mp (h.listed sagaId hash hhash).1
      exact ⟨state, List.mem_toFinset.mpr state.mem_all, (h.mem_state hhash state).mpr hstate⟩
  · rw [Finset.card_biUnion fun state _ state' _ => hdisjoint state state']
    rfl

/-! ## Whole runs -/

def IndexCalls.go (P : IndexCalls) (i n : ℕ) : IndexCalls :=
  P.ticks RedisStore.perform (fun _ _ _ => some {}) i n

def IndexCalls.start (P : IndexCalls) (c : IndexCall) : IndexCalls := P.add c c.code

theorem IndexesInterleaved.go {P : IndexCalls} (h : IndexesInterleaved {} P) (i n : ℕ) :
    IndexesInterleaved {} (P.go i n) :=
  Pool.Reach.ticks n h

theorem IndexesInterleaved.start {P : IndexCalls} (h : IndexesInterleaved {} P) (c : IndexCall) :
    IndexesInterleaved {} (P.start c) :=
  Pool.Reach.add h rfl

def parcel (tenantId : String) (version : ℤ) : PersistedSagaState :=
  { sagaId := "parcel", correlationId := "c", tenantId, version, createdAt := 0 }

def kept : IndexCalls := (IndexCalls.start ⟨[], {}, []⟩ (.save (parcel "ann" 1))).go 0 2

def moved : IndexCalls := (kept.start (.save (parcel "bob" 2))).go 0 2

theorem kept_interleaved : IndexesInterleaved {} kept :=
  (IndexesInterleaved.start .init _).go 0 2

/-- **No identifier or date is made up**: whatever calls are interleaved, a stored saga that has a
name is read under its own identifier, and from what is stored alone. -/
theorem fromRedisHash_of_interleaved {init : RedisStore} {P : IndexCalls} {sagaId : String}
    {hash : SagaHash} (hinit : init.Named) (hreach : IndexesInterleaved init P)
    (hhash : P.state.hashes sagaId = some hash) (hname : hash.sagaName.isSome)
    (fresh fresh' : Fresh) :
    (PersistedSagaState.fromRedisHash fresh hash).sagaId = sagaId ∧
      PersistedSagaState.fromRedisHash fresh hash = PersistedSagaState.fromRedisHash fresh' hash := by
  have hnamed : P.state.Named :=
    (hreach.invariant (fun s _ => s.Named) (fun _ _ _ p => p.Asks (RedisOp.FollowsRead true)) hinit
      (by simp) (fun _ hspawn => hspawn ▸ IndexCall.code_asks _)
      (fun h hasks hstep => ⟨h.step hasks.1 hstep, hasks.2 _ () trivial⟩) fun _ _ _ => id).1
  have hfull := hnamed sagaId hash hhash hname
  exact ⟨congrArg (Option.getD · _) hfull.sagaId, fromRedisHash_of_named hfull fresh fresh'⟩

theorem fromRedisHash_of_interleaved_kept :
    ∃ hash, kept.state.hashes "parcel" = some hash ∧ ∀ fresh fresh',
      PersistedSagaState.fromRedisHash fresh hash =
        PersistedSagaState.fromRedisHash fresh' hash := by
  have hparcel : kept.state.hashes "parcel" = some _ := rfl
  exact ⟨_, hparcel, fun fresh fresh' =>
    (fromRedisHash_of_interleaved .empty kept_interleaved hparcel rfl fresh fresh').2⟩

end EnhancedAgentBus.SagaPersistence
