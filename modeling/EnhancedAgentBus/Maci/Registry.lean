import EnhancedAgentBus.Lib.Dict

/-!
# The role registry

Agents, their roles and their outputs, globally or in a session.  Who produced an output is kept
twice: in the record of the agent, and in a map from outputs to agents.  What each operation does to
the two, seen through `getAgent` and `getOutputProducer`, is said by one lemma each; the maps of
maps are not looked into after that.

The lock is never held across a suspension, so every operation is one step.  Metadata and instants
are left out: nothing is decided by them.
-/

namespace EnhancedAgentBus.Maci

/-! ## Roles and actions -/

inductive MACIRole where
  | executive
  | legislative
  | judicial
  | monitor
  | auditor
  | controller
  | implementer
  deriving DecidableEq

inductive MACIAction where
  | propose
  | validate
  | extractRules
  | synthesize
  | audit
  | query
  | managePolicy
  | emergencyCooldown
  | monitorActivity
  | enforceControl
  deriving DecidableEq

def MACIRole.value : MACIRole → String
  | .executive => "EXECUTIVE"
  | .legislative => "LEGISLATIVE"
  | .judicial => "JUDICIAL"
  | .monitor => "MONITOR"
  | .auditor => "AUDITOR"
  | .controller => "CONTROLLER"
  | .implementer => "IMPLEMENTER"

def MACIAction.value : MACIAction → String
  | .propose => "propose"
  | .validate => "validate"
  | .extractRules => "extract_rules"
  | .synthesize => "synthesize"
  | .audit => "audit"
  | .query => "query"
  | .managePolicy => "manage_policy"
  | .emergencyCooldown => "emergency_cooldown"
  | .monitorActivity => "monitor_activity"
  | .enforceControl => "enforce_control"

def rolePermissions : MACIRole → List MACIAction
  | .executive => [.propose, .synthesize, .query]
  | .legislative => [.extractRules, .synthesize, .query]
  | .judicial => [.validate, .audit, .query, .emergencyCooldown]
  | .monitor => [.monitorActivity, .query]
  | .auditor => [.audit, .query]
  | .controller => [.enforceControl, .query]
  | .implementer => [.synthesize, .query]

/-- The roles of `ROLE_PERMISSIONS`, in its order. -/
def roles : List MACIRole :=
  [.executive, .legislative, .judicial, .monitor, .auditor, .controller, .implementer]

def validationConstraints : MACIRole → List MACIRole
  | .judicial => [.executive, .legislative, .implementer]
  | .auditor => [.monitor, .controller, .implementer]
  | _ => []

/-! ## Records -/

structure MACIAgentRecord where
  agentId : String
  role : MACIRole
  outputs : List String := []
  sessionId : Option String := none
  deriving DecidableEq

namespace MACIAgentRecord

variable (record : MACIAgentRecord)

def canPerform (action : MACIAction) : Bool := action ∈ rolePermissions record.role

def canValidateRole (targetRole : MACIRole) : Bool := targetRole ∈ validationConstraints record.role

def addOutput (outputId : String) : MACIAgentRecord :=
  if outputId ∈ record.outputs then record
  else { record with outputs := record.outputs ++ [outputId] }

@[simp] theorem addOutput_role (outputId : String) :
    (record.addOutput outputId).role = record.role := by
  unfold addOutput
  split
  · rfl
  · rfl

theorem mem_addOutput {outputId o : String} :
    o ∈ (record.addOutput outputId).outputs ↔ o = outputId ∨ o ∈ record.outputs := by
  unfold addOutput
  split
  · rename_i hmem
    exact ⟨.inr, fun h => h.elim (fun h => h ▸ hmem) id⟩
  · rw [List.mem_append, List.mem_singleton]
    exact or_comm

end MACIAgentRecord

/-! ## The registry -/

structure MACIRoleRegistry where
  agents : Dict String MACIAgentRecord := Dict.empty
  outToAg : Dict String String := Dict.empty
  sessionOutToAg : Dict String (Dict String String) := Dict.empty
  sessionAgents : Dict String (Dict String MACIAgentRecord) := Dict.empty

namespace MACIRoleRegistry

variable (reg : MACIRoleRegistry)

/-- `self._session_agents.get(session_id, {})` -/
def agentsOf (sessionId : String) : Dict String MACIAgentRecord :=
  reg.sessionAgents.nested sessionId

/-- `self._session_out_to_ag.get(session_id, {})` -/
def outputsOf (sessionId : String) : Dict String String :=
  reg.sessionOutToAg.nested sessionId

/-- `_get_agent_locked` -/
def getAgent (agentId : String) : Option String → Option MACIAgentRecord
  | some sessionId => (reg.agentsOf sessionId).get agentId
  | none => reg.agents.get agentId

def getOutputProducer (outputId : String) : Option String → Option String
  | some sessionId => (reg.outputsOf sessionId).get outputId
  | none => reg.outToAg.get outputId

def registerAgent (agentId : String) (role : MACIRole) (sessionId : Option String) :
    MACIAgentRecord × MACIRoleRegistry :=
  let record := { agentId := agentId, role := role, sessionId := sessionId }
  match sessionId with
  | none | some "" => (record, { reg with agents := reg.agents.set agentId record })
  | some session =>
    (record, { reg with
      sessionAgents := reg.sessionAgents.set session ((reg.agentsOf session).set agentId record)
      sessionOutToAg := reg.sessionOutToAg.set session (reg.outputsOf session) })

def unregisterAgent (agentId : String) :
    Option String → Option MACIAgentRecord × MACIRoleRegistry
  | some session =>
    match (reg.agentsOf session).get agentId with
    | none => (none, reg)
    | some record =>
      let sessionAgents := (reg.agentsOf session).erase agentId
      let sessionOutputs := (reg.outputsOf session).filterValues (· ≠ agentId)
      (some record, { reg with
        sessionAgents := reg.sessionAgents.setOrErase session sessionAgents
        sessionOutToAg := reg.sessionOutToAg.setOrErase session sessionOutputs })
  | none =>
    match reg.agents.get agentId with
    | none => (none, reg)
    | some record => (some record, { reg with
        agents := reg.agents.erase agentId
        outToAg := reg.outToAg.filterValues (· ≠ agentId) })

def clearSession (sessionId : String) : ℕ × MACIRoleRegistry :=
  match reg.sessionAgents.get sessionId with
  | none => (0, reg)
  | some sessionAgents => (sessionAgents.entries.length, { reg with
      sessionAgents := reg.sessionAgents.erase sessionId
      sessionOutToAg := reg.sessionOutToAg.erase sessionId })

/-- The record and the map after one of an agent's outputs. -/
def addOutput (record : MACIAgentRecord) (agentId outputId : String) :
    Option String → MACIRoleRegistry
  | some session => { reg with
      sessionAgents := reg.sessionAgents.set session
        ((reg.agentsOf session).set agentId (record.addOutput outputId))
      sessionOutToAg := reg.sessionOutToAg.set session
        ((reg.outputsOf session).set outputId agentId) }
  | none => { reg with
      agents := reg.agents.set agentId (record.addOutput outputId)
      outToAg := reg.outToAg.set outputId agentId }

def recordOutput (agentId outputId : String) (sessionId : Option String) : MACIRoleRegistry :=
  match reg.getAgent agentId sessionId with
  | none => reg
  | some record => reg.addOutput record agentId outputId sessionId

def batchRecordOutputs (agentId : String) (outputIds : List String) (sessionId : Option String) :
    MACIRoleRegistry :=
  match reg.getAgent agentId sessionId with
  | none => reg
  | some _ =>
    outputIds.foldl (fun reg outputId => reg.recordOutput agentId outputId sessionId)
      (match sessionId with
      | some session =>
        { reg with sessionOutToAg := reg.sessionOutToAg.set session (reg.outputsOf session) }
      | none => reg)

/-! ## What is seen of the registry -/

/-- Where an agent is registered: the empty session is the global scope. -/
def registrationScope (sessionId : Option String) : Option String :=
  if sessionId = some "" then none else sessionId

theorem getAgent_empty (a : String) : ∀ scope, getAgent {} a scope = none
  | some _ => rfl
  | none => rfl

theorem getOutputProducer_empty (o : String) : ∀ scope, getOutputProducer {} o scope = none
  | some _ => rfl
  | none => rfl

variable {reg}

theorem getAgent_registerAgent (agentId : String) (role : MACIRole) (sessionId : Option String)
    (a : String) (scope : Option String) :
    (reg.registerAgent agentId role sessionId).2.getAgent a scope =
      if scope = registrationScope sessionId ∧ a = agentId then
        some { agentId := agentId, role := role, sessionId := sessionId }
      else reg.getAgent a scope := by
  unfold registerAgent registrationScope
  split
  · cases scope <;> simp [getAgent, agentsOf]
  · cases scope <;> simp [getAgent, agentsOf]
  · rename_i session hne
    have hsession : session ≠ "" := fun h => hne (by rw [h])
    rcases scope with _ | session'
    · simp [getAgent, hsession]
    · by_cases heq : session' = session
      · simp [getAgent, agentsOf, hsession, heq]
      · simp [getAgent, agentsOf, hsession, heq]

theorem getOutputProducer_registerAgent (agentId : String) (role : MACIRole)
    (sessionId : Option String) (o : String) (scope : Option String) :
    (reg.registerAgent agentId role sessionId).2.getOutputProducer o scope =
      reg.getOutputProducer o scope := by
  unfold registerAgent
  split
  · cases scope <;> rfl
  · cases scope <;> rfl
  · rename_i session _
    rcases scope with _ | session'
    · rfl
    · by_cases heq : session' = session
      · simp [getOutputProducer, outputsOf, heq]
      · simp [getOutputProducer, outputsOf, heq]

theorem unregisterAgent_of_none {agentId : String} {sessionId : Option String}
    (h : reg.getAgent agentId sessionId = none) :
    reg.unregisterAgent agentId sessionId = (none, reg) := by
  rcases sessionId with _ | session
  · have hagent : reg.agents.get agentId = none := h
    simp only [unregisterAgent, hagent]
  · have hagent : (reg.agentsOf session).get agentId = none := h
    simp only [unregisterAgent, hagent]

theorem getAgent_unregisterAgent (agentId : String) (sessionId : Option String) (a : String)
    (scope : Option String) :
    (reg.unregisterAgent agentId sessionId).2.getAgent a scope =
      if scope = sessionId ∧ a = agentId then none else reg.getAgent a scope := by
  rcases hagent : reg.getAgent agentId sessionId with _ | record
  · rw [unregisterAgent_of_none hagent]
    split
    · rename_i hself
      rw [hself.1, hself.2, hagent]
    · rfl
  · rcases sessionId with _ | session
    · have hagent : reg.agents.get agentId = some record := hagent
      cases scope <;> simp [unregisterAgent, hagent, getAgent, agentsOf]
    · have hagent : (reg.agentsOf session).get agentId = some record := hagent
      simp only [unregisterAgent, hagent]
      rcases scope with _ | session'
      · simp [getAgent]
      · simp only [getAgent, agentsOf, Dict.nested_setOrErase]
        by_cases heq : session' = session
        · simp [heq]
        · simp [heq]

theorem getOutputProducer_unregisterAgent (agentId : String) (sessionId : Option String)
    (o : String) (scope : Option String) :
    (reg.unregisterAgent agentId sessionId).2.getOutputProducer o scope =
      if scope = sessionId ∧ (reg.getAgent agentId sessionId).isSome then
        (reg.getOutputProducer o scope).filter (· ≠ agentId)
      else reg.getOutputProducer o scope := by
  rcases hagent : reg.getAgent agentId sessionId with _ | record
  · rw [unregisterAgent_of_none hagent]
    simp
  · rcases sessionId with _ | session
    · have hagent : reg.agents.get agentId = some record := hagent
      cases scope <;> simp [unregisterAgent, hagent, getOutputProducer, outputsOf]
    · have hagent : (reg.agentsOf session).get agentId = some record := hagent
      simp only [unregisterAgent, hagent]
      rcases scope with _ | session'
      · simp [getOutputProducer]
      · simp only [getOutputProducer, outputsOf, Dict.nested_setOrErase]
        by_cases heq : session' = session
        · simp [heq]
        · simp [heq]

theorem getAgent_clearSession (sessionId : String) (a : String) (scope : Option String) :
    (reg.clearSession sessionId).2.getAgent a scope =
      if scope = some sessionId then none else reg.getAgent a scope := by
  unfold clearSession
  rcases hsession : reg.sessionAgents.get sessionId with _ | agents
  · rcases scope with _ | session'
    · simp [getAgent]
    · by_cases heq : session' = sessionId
      · simp [getAgent, agentsOf, heq, Dict.nested_of_get_eq_none hsession]
      · simp [heq]
  · rcases scope with _ | session'
    · simp [getAgent]
    · by_cases heq : session' = sessionId
      · simp [getAgent, agentsOf, heq]
      · simp [getAgent, agentsOf, heq]

theorem getOutputProducer_clearSession (sessionId : String) (o : String) (scope : Option String) :
    (reg.clearSession sessionId).2.getOutputProducer o scope =
      if scope = some sessionId ∧ (reg.sessionAgents.get sessionId).isSome then none
      else reg.getOutputProducer o scope := by
  unfold clearSession
  rcases hsession : reg.sessionAgents.get sessionId with _ | agents
  · simp
  · rcases scope with _ | session'
    · simp [getOutputProducer]
    · by_cases heq : session' = sessionId
      · simp [getOutputProducer, outputsOf, heq]
      · simp [getOutputProducer, outputsOf, heq]

theorem getAgent_addOutput (record : MACIAgentRecord) (agentId outputId : String)
    (sessionId : Option String) (a : String) (scope : Option String) :
    (reg.addOutput record agentId outputId sessionId).getAgent a scope =
      if scope = sessionId ∧ a = agentId then some (record.addOutput outputId)
      else reg.getAgent a scope := by
  rcases sessionId with _ | session
  · cases scope <;> simp [addOutput, getAgent, agentsOf]
  · rcases scope with _ | session'
    · simp [addOutput, getAgent]
    · by_cases heq : session' = session
      · simp [addOutput, getAgent, agentsOf, heq]
      · simp [addOutput, getAgent, agentsOf, heq]

theorem getOutputProducer_addOutput (record : MACIAgentRecord) (agentId outputId : String)
    (sessionId : Option String) (o : String) (scope : Option String) :
    (reg.addOutput record agentId outputId sessionId).getOutputProducer o scope =
      if scope = sessionId ∧ o = outputId then some agentId
      else reg.getOutputProducer o scope := by
  rcases sessionId with _ | session
  · cases scope <;> simp [addOutput, getOutputProducer, outputsOf]
  · rcases scope with _ | session'
    · simp [addOutput, getOutputProducer]
    · by_cases heq : session' = session
      · simp [addOutput, getOutputProducer, outputsOf, heq]
      · simp [addOutput, getOutputProducer, outputsOf, heq]

def roleOf (reg : MACIRoleRegistry) (a : String) (scope : Option String) : Option MACIRole :=
  (reg.getAgent a scope).map MACIAgentRecord.role

def Owns (reg : MACIRoleRegistry) (a o : String) (scope : Option String) : Prop :=
  ∃ record, reg.getAgent a scope = some record ∧ o ∈ record.outputs

theorem getAgent_recordOutput (agentId outputId : String) (sessionId : Option String) (a : String)
    (scope : Option String) :
    (reg.recordOutput agentId outputId sessionId).getAgent a scope =
      if scope = sessionId ∧ a = agentId then
        (reg.getAgent agentId sessionId).map (MACIAgentRecord.addOutput · outputId)
      else reg.getAgent a scope := by
  rcases hagent : reg.getAgent agentId sessionId with _ | record
  · simp only [recordOutput, hagent]
    split
    · rename_i hself
      rw [hself.1, hself.2, hagent]
      rfl
    · rfl
  · simp only [recordOutput, hagent]
    exact getAgent_addOutput record agentId outputId sessionId a scope

theorem getOutputProducer_recordOutput (agentId outputId : String) (sessionId : Option String)
    (o : String) (scope : Option String) :
    (reg.recordOutput agentId outputId sessionId).getOutputProducer o scope =
      if scope = sessionId ∧ o = outputId ∧ (reg.getAgent agentId sessionId).isSome then
        some agentId
      else reg.getOutputProducer o scope := by
  rcases hagent : reg.getAgent agentId sessionId with _ | record
  · simp [recordOutput, hagent]
  · simp only [recordOutput, hagent]
    rw [getOutputProducer_addOutput]
    simp

theorem roleOf_recordOutput (agentId outputId : String) (sessionId : Option String) (a : String)
    (scope : Option String) :
    (reg.recordOutput agentId outputId sessionId).roleOf a scope = reg.roleOf a scope := by
  rw [roleOf, roleOf, getAgent_recordOutput]
  split
  · rename_i hself
    rw [hself.1, hself.2, Option.map_map]
    exact congrArg (Option.map · _) (funext fun record => record.addOutput_role outputId)
  · rfl

theorem owns_recordOutput (agentId outputId : String) (sessionId : Option String) (a o : String)
    (scope : Option String) :
    (reg.recordOutput agentId outputId sessionId).Owns a o scope ↔
      (scope = sessionId ∧ a = agentId ∧ o = outputId ∧ (reg.getAgent agentId sessionId).isSome) ∨
        reg.Owns a o scope := by
  rw [Owns, Owns, getAgent_recordOutput]
  by_cases hself : scope = sessionId ∧ a = agentId
  · obtain ⟨rfl, rfl⟩ := hself
    rcases hagent : reg.getAgent a scope with _ | record
    · simp
    · simp [MACIAgentRecord.mem_addOutput]
  · rw [if_neg hself]
    exact (or_iff_right fun h => hself ⟨h.1, h.2.1⟩).symm

theorem foldl_recordOutput (agentId : String) (outputIds : List String) (sessionId : Option String)
    (reg : MACIRoleRegistry) (h : (reg.getAgent agentId sessionId).isSome) (a o : String)
    (scope : Option String) (batch : MACIRoleRegistry)
    (hbatch : batch = outputIds.foldl
      (fun reg outputId => reg.recordOutput agentId outputId sessionId) reg) :
    batch.roleOf a scope = reg.roleOf a scope ∧
      (batch.Owns a o scope ↔
        (scope = sessionId ∧ a = agentId ∧ o ∈ outputIds) ∨ reg.Owns a o scope) ∧
      batch.getOutputProducer o scope =
        if scope = sessionId ∧ o ∈ outputIds then some agentId
        else reg.getOutputProducer o scope := by
  induction outputIds generalizing reg with
  | nil => simp [hbatch]
  | cons outputId rest ih =>
    have hregistered : ((reg.recordOutput agentId outputId sessionId).getAgent agentId
        sessionId).isSome := by
      rw [getAgent_recordOutput, if_pos ⟨rfl, rfl⟩, Option.isSome_map]
      exact h
    obtain ⟨hrole, howns, hproducer⟩ := ih _ hregistered hbatch
    refine ⟨hrole.trans (roleOf_recordOutput ..), ?_, ?_⟩
    · rw [howns, owns_recordOutput]
      simp only [h, and_true, List.mem_cons]
      tauto
    · rw [hproducer, getOutputProducer_recordOutput]
      simp only [h, and_true, List.mem_cons]
      by_cases hscope : scope = sessionId
      · by_cases hrest : o ∈ rest
        · simp [hscope, hrest]
        · simp [hscope, hrest]
      · simp [hscope]

theorem batchRecordOutputs_spec (agentId : String) (outputIds : List String)
    (sessionId : Option String) (reg : MACIRoleRegistry)
    (h : (reg.getAgent agentId sessionId).isSome) (a o : String) (scope : Option String) :
    (reg.batchRecordOutputs agentId outputIds sessionId).roleOf a scope = reg.roleOf a scope ∧
      ((reg.batchRecordOutputs agentId outputIds sessionId).Owns a o scope ↔
        (scope = sessionId ∧ a = agentId ∧ o ∈ outputIds) ∨ reg.Owns a o scope) ∧
      (reg.batchRecordOutputs agentId outputIds sessionId).getOutputProducer o scope =
        if scope = sessionId ∧ o ∈ outputIds then some agentId
        else reg.getOutputProducer o scope := by
  obtain ⟨record, hagent⟩ := Option.isSome_iff_exists.mp h
  rcases sessionId with _ | session
  · refine foldl_recordOutput agentId outputIds none reg h a o scope _ ?_
    simp only [batchRecordOutputs, hagent]
  · -- the empty map of a session that has none yet is not seen
    let opened : MACIRoleRegistry :=
      { reg with sessionOutToAg := reg.sessionOutToAg.set session (reg.outputsOf session) }
    have hsame : opened.getOutputProducer o scope = reg.getOutputProducer o scope := by
      rcases scope with _ | session'
      · rfl
      · by_cases heq : session' = session
        · simp [opened, getOutputProducer, outputsOf, heq]
        · simp [opened, getOutputProducer, outputsOf, heq]
    obtain ⟨hrole, howns, hproducer⟩ := foldl_recordOutput agentId outputIds (some session) opened
      h a o scope (reg.batchRecordOutputs agentId outputIds (some session)) (by
        simp only [batchRecordOutputs, hagent, opened])
    have hagents : ∀ a scope, opened.getAgent a scope = reg.getAgent a scope := by
      intro a scope
      cases scope <;> rfl
    refine ⟨hrole.trans ?_, howns.trans ?_, hproducer.trans (by rw [hsame])⟩
    · rw [roleOf, roleOf, hagents]
    · rw [Owns, Owns, hagents]

theorem batchRecordOutputs_of_none {agentId : String} {sessionId : Option String}
    (h : reg.getAgent agentId sessionId = none) (outputIds : List String) :
    reg.batchRecordOutputs agentId outputIds sessionId = reg := by
  simp only [batchRecordOutputs, h]

theorem roleOf_batchRecordOutputs (agentId : String) (outputIds : List String)
    (sessionId : Option String) (a : String) (scope : Option String) :
    (reg.batchRecordOutputs agentId outputIds sessionId).roleOf a scope = reg.roleOf a scope := by
  rcases hagent : reg.getAgent agentId sessionId with _ | record
  · rw [batchRecordOutputs_of_none hagent]
  · have hsome : (reg.getAgent agentId sessionId).isSome := by rw [hagent, Option.isSome_some]
    exact (batchRecordOutputs_spec agentId outputIds sessionId reg hsome a "" scope).1

theorem owns_batchRecordOutputs (agentId : String) (outputIds : List String)
    (sessionId : Option String) (a o : String) (scope : Option String) :
    (reg.batchRecordOutputs agentId outputIds sessionId).Owns a o scope ↔
      (scope = sessionId ∧ a = agentId ∧ o ∈ outputIds ∧
        (reg.getAgent agentId sessionId).isSome) ∨ reg.Owns a o scope := by
  rcases hagent : reg.getAgent agentId sessionId with _ | record
  · rw [batchRecordOutputs_of_none hagent]
    simp
  · have hsome : (reg.getAgent agentId sessionId).isSome := by rw [hagent, Option.isSome_some]
    rw [(batchRecordOutputs_spec agentId outputIds sessionId reg hsome a o scope).2.1]
    simp

theorem getOutputProducer_batchRecordOutputs (agentId : String) (outputIds : List String)
    (sessionId : Option String) (o : String) (scope : Option String) :
    (reg.batchRecordOutputs agentId outputIds sessionId).getOutputProducer o scope =
      if scope = sessionId ∧ o ∈ outputIds ∧ (reg.getAgent agentId sessionId).isSome then
        some agentId
      else reg.getOutputProducer o scope := by
  rcases hagent : reg.getAgent agentId sessionId with _ | record
  · rw [batchRecordOutputs_of_none hagent]
    simp
  · have hsome : (reg.getAgent agentId sessionId).isSome := by rw [hagent, Option.isSome_some]
    rw [(batchRecordOutputs_spec agentId outputIds sessionId reg hsome "" o scope).2.2]
    simp

end MACIRoleRegistry

end EnhancedAgentBus.Maci
