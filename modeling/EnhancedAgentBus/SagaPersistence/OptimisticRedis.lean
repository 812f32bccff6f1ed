import EnhancedAgentBus.SagaPersistence.OptimisticLocking

/-!
# Optimistic locking in Redis

The Redis repository is a lawful backend: an edit saves what it made of the hash that its first
`HGETALL` found, and every write of a saga that is there sets the version after the one that was
read.
-/

namespace EnhancedAgentBus.SagaPersistence

open Async Async.Prog

/-- `RedisSagaStateRepository` -/
@[reducible] def redis : Backend where
  Op := RedisOp
  Resp := RedisOp.Resp
  Store := RedisStore
  Record := SagaHash
  step := RedisStep
  get := Redis.get
  save := Redis.save
  updateState := Redis.updateState
  updateStepState := Redis.updateStepState
  key := some
  stored s key := s.hashes key
  version hash := hash.version.getD 0
  view hash saga := ∃ fresh, saga = PersistedSagaState.fromRedisHash fresh hash
  holds hash saga := hash = saga.toRedisHash
  keeps _ _ := True
  reads
    | .hgetall sagaId, some hash => some (sagaId, hash)
    | _, _ => none
  saves
    | .write (.save saga _) => some saga
    | _ => none
  writes
    | .write w, _ => some w.sagaId
    | _, _ => none
  found
    | .write (.save _ basis) => some (basis.map fun hash => hash.version.getD 0)
    | .write (.updateState _ _ _ _ basis) => some (basis.map fun hash => hash.version.getD 1)
    | .write (.updateStepState _ _ _ basis) => some (basis.map fun hash => hash.version.getD 1)
    | _ => none
  refuses _ := False

/-- The writes are those of the calls, and follow from what was read. -/
def RedisOp.Edits : RedisOp → Prop
  | .write (.save saga basis) => (RedisOp.write (.save saga basis)).FollowsRead false
  | .write (.updateState sagaId updates currentState newState basis) =>
    (RedisOp.write (.updateState sagaId updates currentState newState basis)).FollowsRead false
  | .write (.updateStepState sagaId steps version basis) =>
    (RedisOp.write (.updateStepState sagaId steps version basis)).FollowsRead false
  | .write _ => False
  | _ => True

/-- Every hash is under its own key, and has a version. -/
def RedisStore.WellFormed (s : RedisStore) : Prop :=
  ∀ sagaId hash, s.hashes sagaId = some hash → hash.sagaId = some sagaId ∧ hash.version ≠ none

theorem redis_save_safe {c : EditCall} {own : List redis.Entry} {saga : PersistedSagaState}
    (h : redis.HasRead c own saga) :
    Safe (Pool.OwnStep RedisStep) (redis.May RedisOp.Edits c) (Redis.save saga) own
      (redis.Returns c) (redis.Raises c) := by
  refine ⟨.reading trivial rfl fun _ => rfl, fun data own' hstep => ?_⟩
  obtain ⟨s, s', _, rfl⟩ := hstep
  have hread := h.cons (e := ⟨s, .hgetall saga.sagaId, data⟩) rfl
  rcases data with _ | hash
  · refine ⟨hread.may (by simp [RedisOp.Edits, RedisOp.FollowsRead]) rfl, fun _ own' hstep => ?_⟩
    obtain ⟨s, s', _, rfl⟩ := hstep
    exact fun _ _ _ _ => ⟨_, List.mem_cons_self .., rfl, rfl⟩
  · simp only [Prog.bind]
    split
    · exact fun _ _ _ => ⟨.inl ⟨_, _, _, rfl⟩, hread.unwritten⟩
    · rename_i hversion
      have hfollows : RedisOp.Edits (.write (.save saga (some hash))) := by
        rintro _ ⟨⟩
        rwa [not_and_or, not_not, not_not] at hversion
      refine ⟨hread.may hfollows rfl, fun _ own' hstep => ?_⟩
      obtain ⟨s, s', _, rfl⟩ := hstep
      exact fun _ _ _ _ => ⟨_, List.mem_cons_self .., rfl, rfl⟩

theorem hgetall_eq {s s' : RedisStore} {sagaId : String} {r : Option SagaHash}
    (h : RedisStep s (.hgetall sagaId) r s') : s.hashes sagaId = r := by
  obtain ⟨choice, h⟩ := h
  simp only [RedisStore.perform, Option.some_inj, Prod.mk.injEq] at h
  exact h.1

theorem redis_edit_safe (sagaId : String) (modify : PersistedSagaState → PersistedSagaState) :
    Safe (Pool.OwnStep RedisStep) (redis.May RedisOp.Edits (.edit sagaId modify))
      (redis.edit sagaId modify) [] (redis.Returns (.edit sagaId modify))
      (redis.Raises (.edit sagaId modify)) := by
  refine ⟨.reading trivial rfl fun _ => rfl, fun data own hstep => ?_⟩
  obtain ⟨s, s', hstep, rfl⟩ := hstep
  rcases data with _ | hash
  · exact fun _ _ _ h => by cases h
  · refine ⟨.reading trivial rfl fun _ => rfl, fun fresh own' hstep' => ?_⟩
    obtain ⟨s₁, s₁', _, rfl⟩ := hstep'
    refine redis_save_safe ⟨?_, ?_⟩
    · exact ⟨sagaId, modify, [_], _, sagaId, hash, _, rfl, rfl, rfl, rfl, hgetall_eq hstep,
        ⟨fresh, rfl⟩, rfl⟩
    · intro e he
      rcases List.mem_cons.mp he with rfl | he
      · rfl
      · obtain rfl := List.mem_singleton.mp he
        rfl

theorem redis_updateState_safe (sagaId : String) (newState : SagaState)
    (failureReason : Option String) {c : EditCall} (hc : ∀ sagaId modify, c ≠ .edit sagaId modify) :
    Safe (Pool.OwnStep RedisStep) (redis.May RedisOp.Edits c)
      (Redis.updateState sagaId newState failureReason) [] (redis.Returns c) (redis.Raises c) := by
  have hreturns : ∀ answer own, redis.Returns c answer own := fun _ _ _ _ h => absurd h (hc _ _)
  have hraises : ∀ error own, redis.Raises c error own := fun _ _ _ _ h => absurd h (hc _ _)
  refine ⟨.reading trivial rfl fun _ => rfl, fun data own hstep => ?_⟩
  obtain ⟨s, s', hstep, rfl⟩ := hstep
  rcases data with _ | hash
  · exact hreturns _ _
  · refine ⟨.reading trivial rfl fun _ => rfl, fun fresh own' hstep' => ?_⟩
    obtain ⟨s₁, s₁', _, rfl⟩ := hstep'
    simp only [Prog.bind, pure_eq]
    split
    · exact hraises _ _
    · rename_i hvalid
      refine ⟨.reading trivial rfl fun _ => rfl, fun fresh' own' hstep' => ?_⟩
      obtain ⟨s₂, s₂', _, rfl⟩ := hstep'
      have hfollows : RedisOp.Edits (.write (.updateState sagaId
          (Redis.stateUpdates (.fromRedisHash fresh hash) newState failureReason fresh'.now)
          (PersistedSagaState.fromRedisHash fresh hash).state newState (some hash))) :=
        ⟨hash, fresh, failureReason, fresh'.now, rfl, rfl, not_not.mp hvalid, rfl⟩
      refine ⟨.updating hfollows rfl ⟨s, .hgetall sagaId, some hash⟩ (by simp) ?_,
        fun _ _ _ => hreturns _ _⟩
      rintro r key ⟨⟩ hnone
      exact Option.some_ne_none hash ((hgetall_eq hstep).symm.trans hnone)

theorem redis_updateStepState_safe (sagaId stepId : String) (newState : StepState)
    (outputData : Json) (errorMessage : Option String) {c : EditCall}
    (hc : ∀ sagaId modify, c ≠ .edit sagaId modify) :
    Safe (Pool.OwnStep RedisStep) (redis.May RedisOp.Edits c)
      (Redis.updateStepState sagaId stepId newState outputData errorMessage) [] (redis.Returns c)
      (redis.Raises c) := by
  have hreturns : ∀ answer own, redis.Returns c answer own := fun _ _ _ _ h => absurd h (hc _ _)
  refine ⟨.reading trivial rfl fun _ => rfl, fun data own hstep => ?_⟩
  obtain ⟨s, s', hstep, rfl⟩ := hstep
  rcases data with _ | hash
  · exact hreturns _ _
  · refine ⟨.reading trivial rfl fun _ => rfl, fun fresh own' hstep' => ?_⟩
    obtain ⟨s₁, s₁', _, rfl⟩ := hstep'
    refine ⟨.reading trivial rfl fun _ => rfl, fun fresh' own' hstep' => ?_⟩
    obtain ⟨s₂, s₂', _, rfl⟩ := hstep'
    simp only [Prog.bind]
    split
    · exact hreturns _ _
    · rename_i steps _
      have hfollows : RedisOp.Edits (.write (.updateStepState sagaId steps
          ((PersistedSagaState.fromRedisHash fresh hash).version + 1) (some hash))) :=
        ⟨hash, rfl, rfl⟩
      refine ⟨.updating hfollows rfl ⟨s, .hgetall sagaId, some hash⟩ (by simp) ?_,
        fun _ _ _ => hreturns _ _⟩
      rintro r key ⟨⟩ hnone
      exact Option.some_ne_none hash ((hgetall_eq hstep).symm.trans hnone)

theorem redis_saves {o : RedisOp} {saga : PersistedSagaState} (h : redis.saves o = some saga) :
    ∃ basis, o = .write (.save saga basis) := by
  cases o with
  | write w =>
    cases w with
    | save saga' basis => exact ⟨basis, by rw [Option.some_inj.mp h]⟩
    | updateState | updateStepState | updateCurrentStep | delete | saveCheckpoint
    | appendCompensationEntry => cases h
  | hgetall | hashExists | smembersState | smembersTenant | scard | zrangeAll | zrevrange
  | getCheckpoint | lrange | draw | iterate => cases h

theorem redis_writes {o : RedisOp} {r : o.Resp} {key : String} (h : redis.writes o r = some key) :
    ∃ w, o = .write w ∧ w.sagaId = key := by
  cases o with
  | write w => exact ⟨w, rfl, Option.some_inj.mp h⟩
  | hgetall | hashExists | smembersState | smembersTenant | scard | zrangeAll | zrevrange
  | getCheckpoint | lrange | draw | iterate => cases h

theorem wellFormed_hset {sagaId : String} {mapping hash : SagaHash}
    (h : hash.sagaId = some sagaId ∧ hash.version ≠ none) (hid : mapping.sagaId = none) :
    (mapping.hset hash).sagaId = some sagaId ∧ (mapping.hset hash).version ≠ none := by
  obtain ⟨hsagaId, hversion⟩ := h
  refine ⟨by simp [SagaHash.hset, hid, hsagaId], fun hnone => hversion ?_⟩
  exact (Option.or_eq_none_iff.mp hnone).2

theorem RedisStore.WellFormed.write {s : RedisStore} (hs : s.WellFormed) {w : Write}
    (hedits : RedisOp.Edits (.write w)) (hthere : s.hashes w.sagaId ≠ none) :
    (s.write w).WellFormed := by
  intro sagaId hash hhash
  by_cases hid : sagaId = w.sagaId
  · subst hid
    obtain ⟨old, hold⟩ := Option.ne_none_iff_exists'.mp hthere
    have hwell := hs w.sagaId old hold
    rw [hashes_write_self, hold] at hhash
    cases w with
    | save saga basis =>
      obtain rfl := Option.some_inj.mp hhash
      exact ⟨rfl, Option.some_ne_none _⟩
    | updateState sagaId updates currentState newState basis =>
      obtain ⟨_, fresh, failureReason, now, _, _, _, rfl⟩ := hedits
      obtain rfl := Option.some_inj.mp hhash
      exact wellFormed_hset hwell (Redis.stateUpdates_fields ..).2.1
    | updateStepState sagaId steps version basis =>
      obtain rfl := Option.some_inj.mp hhash
      exact wellFormed_hset hwell rfl
    | updateCurrentStep | delete | saveCheckpoint | appendCompensationEntry => exact hedits.elim
  · rw [hashes_write_of_ne s hid] at hhash
    exact hs sagaId hash hhash

theorem redis_updated {s : RedisStore} {w : Write} (hedits : RedisOp.Edits (.write w))
    (hsaves : redis.saves (.write w) = none) {hash : SagaHash} (hhash : s.hashes w.sagaId = some hash)
    (hfound : ∀ version, redis.found (.write w) = some version →
      version = some (hash.version.getD 0)) :
    ∃ hash', (s.write w).hashes w.sagaId = some hash' ∧
      hash'.version.getD 0 = hash.version.getD 0 + 1 := by
  rw [RedisStore.hashes_write_self, hhash]
  cases w with
  | save => cases hsaves
  | updateState sagaId updates currentState newState basis =>
    obtain ⟨read, fresh, failureReason, now, rfl, _, _, rfl⟩ := hedits
    have hread : read.version.getD 1 = hash.version.getD 0 := Option.some_inj.mp (hfound _ rfl)
    refine ⟨_, rfl, ?_⟩
    simp [SagaHash.hset, Redis.stateUpdates_fields, PersistedSagaState.fromRedisHash, hread]
  | updateStepState sagaId steps version basis =>
    obtain ⟨read, rfl, rfl⟩ := hedits
    have hread : read.version.getD 1 = hash.version.getD 0 := Option.some_inj.mp (hfound _ rfl)
    refine ⟨_, rfl, ?_⟩
    simp [SagaHash.hset, hread]
  | updateCurrentStep | delete | saveCheckpoint | appendCompensationEntry => exact hedits.elim

theorem redis_lawful : redis.Lawful RedisOp.Edits RedisStore.WellFormed where
  protocol c := by
    cases c with
    | edit sagaId modify => exact redis_edit_safe sagaId modify
    | updateState => exact redis_updateState_safe _ _ _ nofun
    | updateStepState => exact redis_updateStepState_safe _ _ _ _ _ nofun
  read_key := by
    rintro s key hash _ hs hhash ⟨fresh, rfl⟩
    obtain ⟨hid, hversion⟩ := hs key hash hhash
    obtain ⟨version, hversion⟩ := Option.ne_none_iff_exists'.mp hversion
    simp [PersistedSagaState.fromRedisHash, hid, hversion]
  saved_key := by
    intro o r saga key _ hsaves hwrites
    obtain ⟨basis, rfl⟩ := redis_saves hsaves
    exact hwrites
  frame := by
    intro s o r s' key hstep _ hwrites
    rcases hstep.cases with ⟨w, rfl, rfl⟩ | ⟨_, rfl⟩
    · exact RedisStore.hashes_write_of_ne s fun heq => hwrites (congrArg some heq.symm)
    · rfl
  wellFormed := by
    intro s o r s' hs hstep hedits hthere
    rcases hstep.cases with ⟨w, rfl, rfl⟩ | ⟨_, rfl⟩
    · exact hs.write hedits (hthere w.sagaId rfl)
    · exact hs
  checked := by
    intro o saga _ hsaves
    obtain ⟨basis, rfl⟩ := redis_saves hsaves
    exact Option.some_ne_none _
  saved := by
    intro s o r s' saga key hash _ hstep hedits hsaves hwrites hhash hfound hne _
    obtain ⟨basis, rfl⟩ := redis_saves hsaves
    obtain ⟨read, rfl, hread⟩ := Option.map_eq_some_iff.mp (Option.some_inj.mp hfound)
    obtain rfl : saga.sagaId = key := Option.some_inj.mp hwrites
    rcases hstep.cases with ⟨w, hw, rfl⟩ | ⟨hnot, _⟩
    · obtain rfl := RedisOp.write.inj hw
      refine ⟨?_, _, RedisStore.hashes_write_self .., rfl, rfl⟩
      rcases hedits read rfl with hprevious | hsame
      · exact hread ▸ hprevious
      · exact absurd (hread.symm.trans hsame) hne
    · exact absurd rfl (hnot _)
  updated := by
    intro s o r s' key hash _ hstep hedits hsaves hwrites hhash hfound
    obtain ⟨w, rfl, rfl⟩ := redis_writes hwrites
    rcases hstep.cases with ⟨w', hw, rfl⟩ | ⟨hnot, _⟩
    · obtain rfl := RedisOp.write.inj hw
      exact redis_updated hedits hsaves hhash hfound
    · exact absurd rfl (hnot _)

end EnhancedAgentBus.SagaPersistence
