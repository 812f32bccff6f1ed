import EnhancedAgentBus.SagaPersistence.OptimisticPostgres
import EnhancedAgentBus.SagaPersistence.OptimisticRedis

/-!
# Updates that are lost

Both repositories are lawful backends, so no update is lost in a run all of whose writes are checked
(`noLostUpdate_of_checked`).  On both a save accepts the version that another client has just given
the saga: in `overwritten` two clients read the same saga, and the one that saves last wins.
-/

namespace EnhancedAgentBus.SagaPersistence

open Async Async.Prog

/-- The implementations of `SagaStateRepository`. -/
inductive Repository where
  | redis
  | postgres

section Repository

variable [Columns]

@[reducible] def Repository.backend : Repository → Backend
  | redis => SagaPersistence.redis
  | postgres => SagaPersistence.postgres

/-- Redis hashes are under their own keys and have a version; of the tables nothing is asked. -/
def Repository.WellFormed : (repository : Repository) → repository.backend.Store → Prop
  | redis, s => RedisStore.WellFormed s
  | postgres, _ => True

/-- **No update is lost**, in either repository, by any number of clients in any interleaving all of
whose writes find the version that their calls have checked, where no save has checked the version
that it writes itself, and none changes a column that `UPDATE` leaves out. -/
theorem noLostUpdate_of_checked (repository : Repository) {clients : List EditCall}
    {init : repository.backend.Store} {P : repository.backend.Calls}
    (hinit : repository.WellFormed init)
    (hreach : repository.backend.Interleaved clients init P)
    (hcond : Pool.Along repository.backend.Checked P.state P.log) :
    repository.backend.NoLostUpdate P := by
  cases repository with
  | redis => exact redis_lawful.noLostUpdate hinit hreach hcond
  | postgres => exact postgres_lawful.noLostUpdate trivial hreach hcond

end Repository

/-! ## Two clients, one of whom is overwritten -/

def ledger : PersistedSagaState := { sagaId := "ledger", correlationId := "c", createdAt := 0 }

def ledgerStore : RedisStore :=
  { hashes := fun sagaId => if sagaId = "ledger" then some ledger.toRedisHash else none }

def editors : List EditCall :=
  [.edit "ledger" fun saga => { saga with currentStepIndex := 1 },
    .edit "ledger" fun saga => { saga with tenantId := "ann" }]

def editorsGo (P : redis.Calls) (i n : ℕ) : redis.Calls :=
  P.ticks RedisStore.perform (fun _ _ _ => some {}) i n

theorem editorsGo_interleaved {P : redis.Calls} (h : redis.Interleaved editors ledgerStore P)
    (i n : ℕ) : redis.Interleaved editors ledgerStore (editorsGo P i n) :=
  Pool.Reach.ticks n h

/-- The first client edits the saga while the second waits. -/
def editedOnce : redis.Calls := editorsGo ⟨redis.threads editors, ledgerStore, []⟩ 0 4

def overwritten : redis.Calls :=
  editorsGo (editorsGo (editorsGo (editorsGo ⟨redis.threads editors, ledgerStore, []⟩ 0 2) 1 2) 0 2)
    1 2

theorem editedOnce_interleaved : redis.Interleaved editors ledgerStore editedOnce :=
  editorsGo_interleaved .init 0 4

theorem overwritten_interleaved : redis.Interleaved editors ledgerStore overwritten :=
  editorsGo_interleaved (editorsGo_interleaved (editorsGo_interleaved
    (editorsGo_interleaved .init 0 2) 1 2) 0 2) 1 2

theorem overwritten_loses : redis.Interleaved editors ledgerStore overwritten ∧
    overwritten.returned 0 = some true ∧ overwritten.returned 1 = some true ∧
      ¬ redis.NoLostUpdate overwritten := by
  refine ⟨overwritten_interleaved, by decide +kernel, by decide +kernel, fun h => ?_⟩
  obtain ⟨record, record', hrecord, hrecord', hversion⟩ := h.raised.1 "ledger" rfl
  have hbefore : some (redis.version record) = some 2 := by
    rw [← Option.map_some (f := redis.version), ← hrecord]
    decide +kernel
  have hafter : some (redis.version record') = some 2 := by
    rw [← Option.map_some (f := redis.version), ← hrecord']
    decide +kernel
  rw [Option.some_inj.mp hbefore, Option.some_inj.mp hafter] at hversion
  exact absurd hversion (by decide)

theorem ledgerStore_wellFormed : ledgerStore.WellFormed := by
  intro sagaId hash hhash
  simp only [ledgerStore, Option.ite_none_right_eq_some, Option.some_inj] at hhash
  obtain ⟨rfl, rfl⟩ := hhash
  exact ⟨rfl, Option.some_ne_none _⟩

theorem checked_of_unwritten {b : Backend} {log : List (Backend.Client × b.Entry)}
    {e : Backend.Client × b.Entry} {s' : b.Store} (h : b.writes e.2.op e.2.resp = none) :
    b.Checked log e s' where
  found key version hwrites := absurd (h.symm.trans hwrites) (by simp)
  next saga key _ hwrites := absurd (h.symm.trans hwrites) (by simp)

theorem checked_ledger {log : List (Backend.Client × redis.Entry)} {client : Backend.Client}
    {saga : PersistedSagaState} {s' : RedisStore} (hid : saga.sagaId = "ledger")
    (hversion : saga.version = 2) :
    redis.Checked log (client, ⟨ledgerStore, .write (.save saga (some ledger.toRedisHash)), ()⟩) s' where
  found key version hwrites hfound := by
    obtain rfl : saga.sagaId = key := Option.some_inj.mp hwrites
    obtain rfl := Option.some_inj.mp hfound
    simp only [hid]
    rfl
  next := by
    rintro _ key ⟨⟩ _
    refine ⟨fun h => ?_, fun _ _ => trivial⟩
    obtain h : (1 : ℤ) = saga.version := Option.some_inj.mp (Option.some_inj.mp h)
    omega

theorem editedOnce_checked : Pool.Along redis.Checked editedOnce.state editedOnce.log :=
  And.intro (checked_ledger rfl rfl) (And.intro (checked_of_unwritten rfl)
    (And.intro (checked_of_unwritten rfl) (And.intro (checked_of_unwritten rfl) trivial)))

@[reducible] def wideColumns : Columns := ⟨fun _ => true, fun _ => true⟩

theorem editedOnce_noLostUpdate : redis.NoLostUpdate editedOnce :=
  @noLostUpdate_of_checked wideColumns .redis _ _ _ ledgerStore_wellFormed editedOnce_interleaved
    editedOnce_checked

end EnhancedAgentBus.SagaPersistence
