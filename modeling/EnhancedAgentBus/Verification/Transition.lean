import EnhancedAgentBus.Json
import EnhancedAgentBus.Lib.Dict
import EnhancedAgentBus.Lib.Uuid

/-!
# Constitutional transitions

A `StateTransitionManager`, the transitions that it has created and the proofs of their moves.  A
transition is an object that the manager and its callers share: the manager has the objects
(`transitions`), and a call names the place of the one that it is given.  Instants are the texts of
`isoformat()`, and the data of a transition are their text `str(state_data)`.

The digest is a parameter.  Left out are the fields that nothing here reads: a proof's identifier,
type, signature, witnesses and metadata, and a transition's type, context, initiator, metadata and
time of creation.
-/

namespace EnhancedAgentBus.Verification

def constitutionalHash : String := "608508a9bd224290"

/-! ## States -/

inductive TransitionState where
  | initial
  | pendingValidation
  | validated
  | pendingApproval
  | approved
  | executing
  | executed
  | pendingVerification
  | verified
  | completed
  | rejected
  | rolledBack
  | failed
  deriving DecidableEq

def TransitionState.value : TransitionState → String
  | initial => "initial"
  | pendingValidation => "pending_validation"
  | validated => "validated"
  | pendingApproval => "pending_approval"
  | approved => "approved"
  | executing => "executing"
  | executed => "executed"
  | pendingVerification => "pending_verification"
  | verified => "verified"
  | completed => "completed"
  | rejected => "rejected"
  | rolledBack => "rolled_back"
  | failed => "failed"

def validTransitions : TransitionState → List TransitionState
  | .initial => [.pendingValidation, .rejected]
  | .pendingValidation => [.validated, .rejected]
  | .validated => [.pendingApproval, .rejected]
  | .pendingApproval => [.approved, .rejected]
  | .approved => [.executing, .rejected]
  | .executing => [.executed, .failed]
  | .executed => [.pendingVerification, .rolledBack]
  | .pendingVerification => [.verified, .rolledBack]
  | .verified => [.completed, .rolledBack]
  | .completed => [.rolledBack]
  | .rejected => []
  | .rolledBack => []
  | .failed => [.rolledBack]

/-! ## Proofs -/

structure TransitionProof where
  transitionId : String
  fromState : TransitionState
  toState : TransitionState
  stateHashBefore : String
  stateHashAfter : String
  proofHash : String := ""
  chainPosition : ℤ
  previousProofHash : String
  signerId : Option String
  constitutionalHash : String := Verification.constitutionalHash
  createdAt : String

namespace TransitionProof

def content (p : TransitionProof) : String :=
  ":".intercalate [p.transitionId, p.fromState.value, p.toState.value, p.stateHashBefore,
    p.stateHashAfter, p.chainPosition.repr, p.previousProofHash, p.constitutionalHash, p.createdAt]

def generateProofHash (digest : String → String) (p : TransitionProof) : String := digest p.content

def postInit (digest : String → String) (p : TransitionProof) : TransitionProof :=
  if p.proofHash = "" then { p with proofHash := p.generateProofHash digest } else p

def verify (digest : String → String) (p : TransitionProof) : Bool :=
  p.proofHash = p.generateProofHash digest

end TransitionProof

/-! ## Transitions -/

structure Checkpoint where
  checkpointId : String
  name : String
  transitionId : String
  state : TransitionState
  stateHash : String
  stateDataSnapshot : String
  proofCount : ℕ
  createdAt : String
  constitutionalHash : String

structure RollbackData where
  rollbackFrom : TransitionState
  rollbackToCheckpoint : String
  reason : String
  rolledBackBy : String
  rolledBackAt : String

structure ConstitutionalTransition where
  transitionId : String
  currentState : TransitionState := .initial
  stateData : String
  proofs : List TransitionProof := []
  checkpoints : List Checkpoint := []
  approvedBy : List String := []
  rejectedBy : Option String := none
  rejectionReason : Option String := none
  executionResult : Option Json := none
  rollbackData : Option RollbackData := none
  constitutionalHash : String := Verification.constitutionalHash
  updatedAt : String
  completedAt : Option String := none

/-- What a move reads from the clock, and the identifier that `uuid4` draws. -/
structure Draws where
  updatedAt : String
  completedAt : String
  checkpointId : String
  checkpointAt : String
  proofAt : String

namespace ConstitutionalTransition

def computeStateHash (digest : String → String) (t : ConstitutionalTransition) : String :=
  String.ofList ((digest (":".intercalate [t.transitionId, t.currentState.value, t.stateData,
    t.constitutionalHash])).toList.take 32)

def isTerminal (t : ConstitutionalTransition) : Bool :=
  t.currentState ∈ [TransitionState.completed, .rejected, .rolledBack]

/-- A move, with what is kept of it for some states. -/
def enter (t : ConstitutionalTransition) (toState : TransitionState) (actorId : String)
    (reason : Option String) (executionResult : Option Json) (draws : Draws) :
    ConstitutionalTransition :=
  let t := { t with currentState := toState, updatedAt := draws.updatedAt }
  match toState with
  | .approved => { t with approvedBy := t.approvedBy ++ [actorId] }
  | .rejected => { t with rejectedBy := some actorId, rejectionReason := reason }
  | .executed => { t with executionResult := executionResult }
  | .completed => { t with completedAt := some draws.completedAt }
  | .rolledBack => { t with completedAt := some draws.completedAt }
  | _ => t

def createCheckpoint (digest : String → String) (t : ConstitutionalTransition) (name : String)
    (draws : Draws) : ConstitutionalTransition :=
  { t with
    checkpoints := t.checkpoints ++ [{
      checkpointId := draws.checkpointId
      name := name
      transitionId := t.transitionId
      state := t.currentState
      stateHash := t.computeStateHash digest
      stateDataSnapshot := t.stateData
      proofCount := t.proofs.length
      createdAt := draws.checkpointAt
      constitutionalHash := Verification.constitutionalHash }] }

/-- The states that are entered with a checkpoint. -/
def critical (toState : TransitionState) : Bool :=
  toState ∈ [TransitionState.approved, .executed, .completed]

/-- The transition after a move, before its proof. -/
def moved (digest : String → String) (t : ConstitutionalTransition) (toState : TransitionState)
    (actorId : String) (reason : Option String) (executionResult : Option Json) (draws : Draws) :
    ConstitutionalTransition :=
  let t := t.enter toState actorId reason executionResult draws
  if critical toState then t.createCheckpoint digest ("pre_" ++ toState.value) draws else t

section

variable (digest : String → String) (t : ConstitutionalTransition) (toState : TransitionState)
  (actorId : String) (reason : Option String) (executionResult : Option Json) (draws : Draws)

theorem moved_frame :
    (t.moved digest toState actorId reason executionResult draws).transitionId = t.transitionId ∧
    (t.moved digest toState actorId reason executionResult draws).proofs = t.proofs ∧
    (t.moved digest toState actorId reason executionResult draws).rollbackData = t.rollbackData := by
  cases toState <;> exact ⟨rfl, rfl, rfl⟩

@[simp] theorem moved_transitionId :
    (t.moved digest toState actorId reason executionResult draws).transitionId = t.transitionId :=
  (moved_frame ..).1

@[simp] theorem moved_proofs :
    (t.moved digest toState actorId reason executionResult draws).proofs = t.proofs :=
  (moved_frame ..).2.1

@[simp] theorem moved_currentState :
    (t.moved digest toState actorId reason executionResult draws).currentState = toState := by
  cases toState <;> rfl

end

end ConstitutionalTransition

/-! ## The manager -/

structure StateTransitionManager where
  transitions : List ConstitutionalTransition := []
  activeTransitions : Dict String ℕ := .empty
  completedTransitions : Dict String ℕ := .empty
  proofChain : List TransitionProof := []
  chainPosition : ℤ := 0

/-- What a call answers: the pair that it returns, or an exception that leaves it. -/
inductive Answer where
  | returned (success : Bool) (proof : Option TransitionProof)
  | raised

/-- How a callback ends: it returns, or it raises an exception of the types in
`TRANSITION_ROLLBACK_ERRORS`, another `Exception`, or one that is no `Exception`. -/
inductive Ending where
  | returned (result : Json)
  | rollbackError (message : String)
  | otherError (message : String)
  | baseException

/-- What a callback does: the state data that it leaves, and how it ends. -/
structure Effect where
  stateData : String
  ending : Ending

namespace StateTransitionManager

variable (digest : String → String)

def put (M : StateTransitionManager) (i : ℕ) (t : ConstitutionalTransition) :
    StateTransitionManager :=
  { M with transitions := M.transitions.set i t }

/-- `_create_transition_proof`, for the object at place `i`. -/
def createTransitionProof (M : StateTransitionManager) (i : ℕ) (t : ConstitutionalTransition)
    (fromState toState : TransitionState) (stateHashBefore stateHashAfter : String)
    (signerId : Option String) (now : String) : TransitionProof × StateTransitionManager :=
  let proof : TransitionProof := TransitionProof.postInit digest {
    transitionId := t.transitionId
    fromState := fromState
    toState := toState
    stateHashBefore :=
      if stateHashBefore = "" then t.computeStateHash digest else stateHashBefore
    stateHashAfter := if stateHashAfter = "" then t.computeStateHash digest else stateHashAfter
    chainPosition := M.chainPosition + 1
    previousProofHash := (M.proofChain.getLast?.map TransitionProof.proofHash).getD ""
    signerId := signerId
    createdAt := now }
  (proof, { M.put i { t with proofs := t.proofs ++ [proof] } with
    proofChain := M.proofChain ++ [proof]
    chainPosition := M.chainPosition + 1 })

/-- `create_transition`, with the identifier that `uuid4` draws. -/
def createTransition (M : StateTransitionManager) (uuid stateData : String) (draws : Draws) :
    StateTransitionManager :=
  let t : ConstitutionalTransition :=
    { transitionId := uuid, stateData := stateData, updatedAt := draws.updatedAt }
  let i := M.transitions.length
  (createTransitionProof digest
    { M with
      transitions := M.transitions ++ [t]
      activeTransitions := M.activeTransitions.set uuid i }
    i t .initial .initial "" "" none draws.proofAt).2

/-- A terminal transition is moved to the completed ones. -/
def settle (M : StateTransitionManager) (i : ℕ) (t : ConstitutionalTransition) :
    StateTransitionManager :=
  if t.isTerminal then
    { M with
      completedTransitions := M.completedTransitions.set t.transitionId i
      activeTransitions := M.activeTransitions.erase t.transitionId }
  else M

@[simp] theorem settle_transitions (M : StateTransitionManager) (i : ℕ)
    (t : ConstitutionalTransition) : (M.settle i t).transitions = M.transitions := by
  unfold settle
  split <;> rfl

@[simp] theorem settle_proofChain (M : StateTransitionManager) (i : ℕ)
    (t : ConstitutionalTransition) : (M.settle i t).proofChain = M.proofChain := by
  unfold settle
  split <;> rfl

@[simp] theorem settle_chainPosition (M : StateTransitionManager) (i : ℕ)
    (t : ConstitutionalTransition) : (M.settle i t).chainPosition = M.chainPosition := by
  unfold settle
  split <;> rfl

def transitionTo (M : StateTransitionManager) (i : ℕ) (toState : TransitionState)
    (actorId : String) (reason : Option String) (executionResult : Option Json) (draws : Draws) :
    (Bool × Option TransitionProof) × StateTransitionManager :=
  match M.transitions[i]? with
  | none => ((false, none), M)
  | some t =>
    if toState ∈ validTransitions t.currentState then
      let moved := t.moved digest toState actorId reason executionResult draws
      let made := M.createTransitionProof digest i moved t.currentState toState
        (t.computeStateHash digest) (moved.computeStateHash digest) (some actorId) draws.proofAt
      ((true, some made.1), made.2.settle i moved)
    else ((false, none), M)

theorem transitionTo_cases (M : StateTransitionManager) (i : ℕ) (toState : TransitionState)
    (actorId : String) (reason : Option String) (executionResult : Option Json) (draws : Draws) :
    (M.transitionTo digest i toState actorId reason executionResult draws = ((false, none), M) ∧
      ∀ t, M.transitions[i]? = some t → toState ∉ validTransitions t.currentState) ∨
    ∃ t proof made, M.transitions[i]? = some t ∧ toState ∈ validTransitions t.currentState ∧
      M.createTransitionProof digest i (t.moved digest toState actorId reason executionResult draws)
        t.currentState toState (t.computeStateHash digest)
        ((t.moved digest toState actorId reason executionResult draws).computeStateHash digest)
        (some actorId) draws.proofAt = (proof, made) ∧
      M.transitionTo digest i toState actorId reason executionResult draws =
        ((true, some proof),
          made.settle i (t.moved digest toState actorId reason executionResult draws)) := by
  simp only [transitionTo]
  split
  · rename_i hnone
    exact .inl ⟨rfl, fun t ht => by rw [hnone] at ht; cases ht⟩
  · rename_i t ht
    split
    · next hvalid => exact .inr ⟨t, _, _, ht, hvalid, rfl, rfl⟩
    · rename_i hvalid
      refine .inl ⟨rfl, fun t' ht' => ?_⟩
      rw [ht] at ht'
      cases ht'
      exact hvalid

def setStateData (M : StateTransitionManager) (i : ℕ) (stateData : String) :
    StateTransitionManager :=
  match M.transitions[i]? with
  | none => M
  | some t => M.put i { t with stateData := stateData }

def stateAt (M : StateTransitionManager) (i : ℕ) : Option TransitionState :=
  M.transitions[i]?.map ConstitutionalTransition.currentState

/-! ## The operations -/

/-- What an operation does: its answer, whether its callback was called, and the manager that it
leaves. -/
structure Done where
  answer : Answer
  calledBack : Bool := false
  manager : StateTransitionManager

def Done.ofMove (move : (Bool × Option TransitionProof) × StateTransitionManager)
    (calledBack : Bool := false) : Done :=
  ⟨.returned move.1.1 move.1.2, calledBack, move.2⟩

def validateTransition (M : StateTransitionManager) (i : ℕ) (validatorId : String)
    (draws : ℕ → Draws) : Done :=
  let first := M.transitionTo digest i .pendingValidation validatorId none none (draws 0)
  if first.1.1 then
    .ofMove (first.2.transitionTo digest i .validated validatorId none none (draws 1))
  else .ofMove first

def approveTransition (M : StateTransitionManager) (i : ℕ) (approverId : String)
    (reason : Option String) (draws : ℕ → Draws) : Done :=
  let M :=
    if M.stateAt i ≠ some .validated then
      if M.stateAt i = some .validated then
        (M.transitionTo digest i .pendingApproval approverId none none (draws 0)).2
      else M
    else M
  .ofMove (M.transitionTo digest i .approved approverId reason none (draws 1))

theorem approveTransition_eq (M : StateTransitionManager) (i : ℕ) (approverId : String)
    (reason : Option String) (draws : ℕ → Draws) :
    M.approveTransition digest i approverId reason draws =
      .ofMove (M.transitionTo digest i .approved approverId reason none (draws 1)) := by
  unfold approveTransition
  by_cases hstate : M.stateAt i = some .validated
  · rw [if_neg (not_not.mpr hstate)]
  · rw [if_pos hstate, if_neg hstate]

/-- The `except` branch of `execute_transition`. -/
def failTransition (M : StateTransitionManager) (i : ℕ) (executorId message : String)
    (draws : Draws) : Done where
  answer := .returned false none
  calledBack := true
  manager := (M.transitionTo digest i .failed executorId (some message) none draws).2

/-- `execute_transition`, with what `execute_func` does to the state data, if it is given. -/
def executeTransition (M : StateTransitionManager) (i : ℕ) (executorId : String)
    (executeFunc : Option (String → Effect)) (draws : ℕ → Draws) : Done :=
  if M.stateAt i ≠ some .approved then ⟨.returned false none, false, M⟩
  else
    let first := M.transitionTo digest i .executing executorId none none (draws 0)
    let M := first.2
    if first.1.1 = false then ⟨.returned false none, false, M⟩
    else match executeFunc, M.transitions[i]? with
      | some run, some t =>
        let effect := run t.stateData
        let M := M.setStateData i effect.stateData
        match effect.ending with
        | .returned result =>
          .ofMove (M.transitionTo digest i .executed executorId none (some result) (draws 1))
            true
        | .rollbackError message => M.failTransition digest i executorId message (draws 1)
        | .otherError message => M.failTransition digest i executorId message (draws 1)
        | .baseException => ⟨.raised, true, M⟩
      | _, _ =>
        .ofMove (M.transitionTo digest i .executed executorId none (some (.obj [])) (draws 1))

def rejectTransition (M : StateTransitionManager) (i : ℕ) (rejectorId reason : String)
    (draws : ℕ → Draws) : Done :=
  .ofMove (M.transitionTo digest i .rejected rejectorId (some reason) none (draws 0))

/-- `rollback_transition`, with what `rollback_func` does, given the snapshot of the last
checkpoint: its values are shared with the state data. -/
def rollbackTransition (M : StateTransitionManager) (i : ℕ) (actorId reason : String)
    (rollbackFunc : Option (String → Effect)) (now : String) (draws : ℕ → Draws) : Done :=
  match M.transitions[i]? with
  | none => ⟨.returned false none, false, M⟩
  | some t =>
    match t.checkpoints.getLast? with
    | none => ⟨.returned false none, false, M⟩
    | some lastCheckpoint =>
      let M := M.put i { t with
        rollbackData := some {
          rollbackFrom := t.currentState
          rollbackToCheckpoint := lastCheckpoint.checkpointId
          reason := reason
          rolledBackBy := actorId
          rolledBackAt := now } }
      let move (M : StateTransitionManager) :=
        M.transitionTo digest i .rolledBack actorId (some reason) none (draws 0)
      match rollbackFunc with
      | none => .ofMove (move M)
      | some run =>
        let effect := run lastCheckpoint.stateDataSnapshot
        let M := M.setStateData i effect.stateData
        match effect.ending with
        | .returned _ => .ofMove (move M) true
        | .rollbackError _ => .ofMove (move M) true
        | .otherError _ => ⟨.raised, true, M⟩
        | .baseException => ⟨.raised, true, M⟩

def completeTransition (M : StateTransitionManager) (i : ℕ) (actorId : String)
    (draws : ℕ → Draws) : Done :=
  if M.stateAt i = some .verified then
    .ofMove (M.transitionTo digest i .completed actorId none none (draws 0))
  else if M.stateAt i = some .executed then
    let first := M.transitionTo digest i .pendingVerification actorId none none (draws 0)
    if first.1.1 then
      let second := first.2.transitionTo digest i .verified actorId none none (draws 1)
      if second.1.1 then
        .ofMove (second.2.transitionTo digest i .completed actorId none none (draws 2))
      else ⟨.returned false none, false, second.2⟩
    else ⟨.returned false none, false, first.2⟩
  else ⟨.returned false none, false, M⟩

/-! ## Verification -/

/-- What is wrong with one proof, given the one before it. -/
def proofErrors (i : ℕ) (previous : Option TransitionProof) (proof : TransitionProof) :
    List String :=
  (if proof.verify digest then [] else ["Proof " ++ i.repr ++ " hash verification failed"]) ++
  (if previous.any fun p => proof.previousProofHash ≠ p.proofHash then
    ["Proof " ++ i.repr ++ " chain continuity broken"] else []) ++
  (if proof.constitutionalHash ≠ Verification.constitutionalHash then
    ["Proof " ++ i.repr ++ " constitutional hash mismatch"] else [])

/-- What is wrong with the proofs from the `i`th on. -/
def chainErrors (i : ℕ) (previous : Option TransitionProof) : List TransitionProof → List String
  | [] => []
  | proof :: rest => proofErrors digest i previous proof ++ chainErrors (i + 1) (some proof) rest

def verifyProofChain (proofs : List TransitionProof) : Bool × List String :=
  let errors := chainErrors digest 0 none proofs
  (errors.isEmpty, errors)

end StateTransitionManager

end EnhancedAgentBus.Verification
