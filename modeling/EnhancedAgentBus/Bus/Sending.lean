import EnhancedAgentBus.Bus.Models

/-!
# Sending one message

`_send_message_once`: the checks that a message goes through, in their order, the decision of the
message processor, and the delivery.  A check stops the call with the result so far, with an
exception, or hands the message on, which it may have changed.

What the services behind the bus do with a message is given (`Services`).  The router and the
handler are given the same Kafka bus.  Feedback to the adaptive governance comes after the delivery,
and is left out, as are the limits and the windows of the rate limiter.
-/

namespace EnhancedAgentBus.Bus

open Components Security

/-! ## The bus and its services -/

/-- What a service does with one call: the exceptions that its caller handles are told apart from
the others. -/
inductive Answer (α : Type) where
  | returned (value : α)
  | handled (text : String)
  | unhandled

structure RateResult where
  allowed : Bool
  retryAfter : String := "0"

structure Services where
  /-- The instant of the call. -/
  now : ℕ := 0
  /-- `self._rate_limiter.is_allowed`, under a key. -/
  isAllowed : Option (String → Option RateResult) := none
  /-- `self._dynamic_context_engine.build_context`: the input for OPA and its hash. -/
  buildContext : Option (AgentMessage → Option (Json × Json)) := none
  /-- `self._adaptive_governance.evaluate_governance_decision` -/
  evaluateDecision : Option (AgentMessage → Answer (Bool × String)) := none
  /-- `self._processor.process`, or the text of its exception. -/
  process : AgentMessage → Except String ValidationResult
  /-- Whether the backend registry fails, when it is asked for an agent. -/
  registryFails : Bool := false
  /-- `self._kafka_bus.send_message` -/
  kafkaSend : Option (AgentMessage → Answer Bool) := none

structure Metrics where
  sent : ℕ := 0
  failed : ℕ := 0
  messagesSent : ℕ := 0
  messagesFailed : ℕ := 0

/-- The bus itself, `EnhancedAgentBus`.  `kafka` is what Kafka has taken. -/
structure AgentBus where
  running : Bool := true
  allowUnstarted : Bool := false
  constitutionalHash : String := Bus.constitutionalHash
  registryManager : RegistryManager
  metrics : Metrics := {}
  messageQueue : List AgentMessage := []
  kafka : List AgentMessage := []

namespace AgentBus

variable (bus : AgentBus)

/-- `self._metrics["sent"] += 1` -/
def countSent : AgentBus :=
  { bus with metrics := { bus.metrics with sent := bus.metrics.sent + 1 } }

def recordMetricsFailure : AgentBus :=
  { bus with metrics := { bus.metrics with
      failed := bus.metrics.failed + 1, messagesFailed := bus.metrics.messagesFailed + 1 } }

def recordMetricsSuccess : AgentBus :=
  { bus with metrics := { bus.metrics with
      sent := bus.metrics.sent + 1, messagesSent := bus.metrics.messagesSent + 1 } }

def tenantOf (agent : String) : Option (Option String) :=
  (bus.registryManager.agents.get agent).map fun info => some info.tenantId

end AgentBus

/-! ## The checks -/

section Checks

variable (services : Services) (bus : AgentBus) (msg : AgentMessage)

/-- A check: the bus and the result, or an exception, with which it stops, or the bus and the
message that it hands on. -/
abbrev Check := Except (AgentBus × Option ValidationResult) (AgentBus × AgentMessage)

/-- `needle in text` -/
def isPartOf (needle : String) (text : List Char) : Bool := decide (needle.toList <:+: text)

def isTestModeMessage [PrintTable] [LowerTable] : Bool :=
  isPartOf "fail" (LowerTable.lower (String.ofList msg.content.pyStr)).toList ||
    isPartOf "invalid" (LowerTable.lower msg.constitutionalHash).toList ||
    isPartOf "test-agent" msg.fromAgent.toList

/-- `if not self._running` -/
def checkRunning [PrintTable] [LowerTable] : Check :=
  if bus.running then .ok (bus, msg)
  else if bus.allowUnstarted || isTestModeMessage msg then .ok (bus.countSent, msg)
  else
    .error (bus.recordMetricsFailure,
      some (({} : ValidationResult).addErrors ["Agent bus is not started"]))

/-- The errors of `validate_message_shape`. -/
def shapeErrors : List String :=
  (if msg.fromAgent = "" then ["Message from_agent is required"] else []) ++
  (if msg.toAgent = "" then ["Message to_agent is required"] else []) ++
  (match msg.content with
    | .obj (_ :: _) => []
    | _ => ["Message content must be a non-empty dictionary"]) ++
  (match msg.expiresAt with
    | none => []
    | some expiresAt => if expiresAt ≤ services.now then ["Message has expired"] else [])

def validateMessageShape : Check :=
  match shapeErrors services msg with
  | [] => .ok (bus, msg)
  | error :: errors =>
    .error (bus.recordMetricsFailure,
      some (({} : ValidationResult).addErrors (error :: errors)))

/-- `text[:8]` -/
def firstEight (text : String) : String := String.ofList (text.toList.take 8)

/-- `validate_constitutional_hash_for_message` -/
def validateConstitutionalHash : Check :=
  if msg.constitutionalHash ≠ bus.constitutionalHash then
    .error (bus.recordMetricsFailure.countSent, some (({} : ValidationResult).addErrors
      ["Constitutional hash mismatch: expected '" ++ firstEight bus.constitutionalHash ++
        "...', got '" ++ firstEight msg.constitutionalHash ++ "...'"]))
  else .ok (bus, msg)

def normalizedTenant [LowerTable] : AgentMessage :=
  { msg with tenantId := some (normalizeOrDefault msg.tenantId) }

def validateAndNormalizeTenant [LowerTable] : Check :=
  let tenant := normalizeOrDefault msg.tenantId
  if validate (some tenant) = false then
    .error (bus.recordMetricsFailure.countSent,
      some (({} : ValidationResult).addErrors ["Invalid tenant_id format: " ++ tenant]))
  else
    match validateTenantConsistency bus.tenantOf msg.fromAgent msg.toAgent (some tenant) with
    | [] => .ok (bus, normalizedTenant msg)
    | error :: errors =>
      .error (bus.recordMetricsFailure,
        some (({} : ValidationResult).addErrors (error :: errors)))

/-- The key of `_apply_rate_limit`. -/
def limitKey : String :=
  match msg.tenantId with
  | none => "bus:global"
  | some tenant => if tenant = "" then "bus:global" else "bus:tenant:" ++ tenant

def applyRateLimit : Check :=
  match services.isAllowed with
  | none => .ok (bus, msg)
  | some isAllowed =>
    match isAllowed (limitKey msg) with
    | none => .error (bus, none)
    | some rateResult =>
      if rateResult.allowed then .ok (bus, msg)
      else .error (bus, some (({} : ValidationResult).addErrors
        ["Rate limit exceeded for " ++ limitKey msg ++ ". Retry after " ++
          rateResult.retryAfter ++ "s"]))

def withContext : AgentMessage :=
  match services.buildContext with
  | none => msg
  | some buildContext =>
    match buildContext msg with
    | none => msg
    | some (context, hash) =>
      match setItem msg.metadata "dynamic_context" context with
      | none => msg
      | some metadata =>
        { msg with metadata := (setItem metadata "dynamic_context_hash" hash).getD metadata }

/-- `evaluate_adaptive_governance`; nothing, where an exception is not handled. -/
def evaluateAdaptiveGovernance : Option (Bool × String) :=
  match services.evaluateDecision with
  | none => some (true, "Adaptive governance not available")
  | some evaluateDecision =>
    match evaluateDecision msg with
    | .returned decision => some decision
    | .handled text => some (false, "Governance evaluation failed: " ++ text)
    | .unhandled => none

def checkGovernance : Check :=
  match evaluateAdaptiveGovernance services msg with
  | none => .error (bus, none)
  | some (allowed, reasoning) =>
    if allowed then .ok (bus, msg)
    else .error (bus.recordMetricsFailure, some
      { isValid := false
        errors := ["Governance policy violation: " ++ reasoning]
        metadata := .obj [("governance_mode", .str "ADAPTIVE"),
          ("blocked_reason", .str reasoning)] })

def checks [PrintTable] [LowerTable] : Check := do
  let (bus, msg) ← checkRunning bus msg
  let (bus, msg) ← validateMessageShape services bus msg
  let (bus, msg) ← validateConstitutionalHash bus msg
  let (bus, msg) ← validateAndNormalizeTenant bus msg
  let (bus, msg) ← applyRateLimit services bus msg
  checkGovernance services bus (withContext services msg)

end Checks

/-! ## The decision and the delivery -/

section Delivery

variable (services : Services) (bus : AgentBus) (msg : AgentMessage)

def hasExplicitPrevalidation : Bool :=
  (getItem msg.metadata "prevalidated").truthy ||
    (getItem msg.metadata "prevalidated_result").truthy ||
    (getItem msg.metadata "validated_by_agent").truthy ||
    (getItem msg.metadata "independent_validator_id").truthy

def decideMessageGovernance : ValidationResult :=
  match services.process msg with
  | .ok result => result
  | .error text =>
    let metadata := Json.obj
      [("governance_mode", .str "DEGRADED"), ("fallback_reason", .str text)]
    if hasExplicitPrevalidation msg then
      { isValid := true, metadata := metadata, decision := "ALLOW", status := .validated }
    else
      { isValid := false
        errors := ["Processor fallback denied: message lacks explicit prevalidation"]
        metadata := metadata, decision := "DENY", status := .failed }

/-- The tenant of an agent, as `DirectMessageRouter.route` reads it. -/
def agentTenant (info : BackendInfo) : Option String :=
  match info.tenantId.filter (· ≠ "") with
  | some tenant => some tenant
  | none => info.metadataTenantId.filter (· ≠ "")

def route (registry : Dict String BackendInfo) (msg : AgentMessage) : Option String :=
  if msg.toAgent = "" then none
  else
    match registry.get msg.toAgent with
    | none => none
    | some info =>
      if msg.tenantId.filter (· ≠ "") ≠ agentTenant info then none else some msg.toAgent

/-- `MessageRouter._deliver`, and the exceptions that it is guarded against. -/
def deliver : Option (AgentBus × Bool) :=
  match services.kafkaSend with
  | none => some (bus, true)
  | some send =>
    match send msg with
    | .returned true => some ({ bus with kafka := bus.kafka ++ [msg] }, true)
    | .returned false => some (bus, false)
    | .handled _ => some (bus, false)
    | .unhandled => none

/-- `MessageRouter.route_and_deliver`; nothing, where an exception is not handled. -/
def MessageRouter.routeAndDeliver : Option (AgentBus × Bool) :=
  if msg.toAgent ≠ "" ∧ services.registryFails = true then none
  else
    -- What the router answers is not looked at.
    match route bus.registryManager.registry msg with
    | none => deliver services bus msg
    | some _ => deliver services bus msg

def routeAndDeliver : Option (AgentBus × Bool) :=
  match MessageRouter.routeAndDeliver services bus msg with
  | none => none
  | some (bus, success) =>
    if success && services.kafkaSend.isNone then
      some ({ bus with messageQueue := bus.messageQueue ++ [msg] }, success)
    else some (bus, success)

/-- `finalize_message_delivery`; nothing, where an exception is not handled. -/
def finalizeMessageDelivery (result : ValidationResult) : AgentBus × Option Bool :=
  if result.isValid then
    match routeAndDeliver services bus msg with
    | none => (bus, none)
    | some (bus, true) => (bus.recordMetricsSuccess, some true)
    | some (bus, false) => (bus.recordMetricsFailure, some false)
  else (bus.recordMetricsFailure, some false)

/-- `_send_message_once`: the bus after it, and the result, or an exception. -/
def sendMessageOnce [PrintTable] [LowerTable] : AgentBus × Option ValidationResult :=
  match checks services bus msg with
  | .error stopped => stopped
  | .ok (bus, msg) =>
    let result := decideMessageGovernance services msg
    match finalizeMessageDelivery services bus msg result with
    | (bus, none) => (bus, none)
    | (bus, some _) => (bus, some result)

end Delivery

/-! ## What the checks ask -/

section Passing

variable [PrintTable] [LowerTable] {services : Services} {bus b : AgentBus} {msg m : AgentMessage}

def CanStart (bus : AgentBus) (msg : AgentMessage) : Prop :=
  bus.running = true ∨ bus.allowUnstarted = true ∨ isTestModeMessage msg = true

def enriched (services : Services) (msg : AgentMessage) : AgentMessage :=
  withContext services (normalizedTenant msg)

def RateAllows (services : Services) (msg : AgentMessage) : Prop :=
  ∀ isAllowed, services.isAllowed = some isAllowed →
    ∃ rateResult, isAllowed (limitKey msg) = some rateResult ∧ rateResult.allowed = true

def GovernanceAllows (services : Services) (msg : AgentMessage) : Prop :=
  ∃ reasoning, evaluateAdaptiveGovernance services msg = some (true, reasoning)

structure TenantAllows (bus : AgentBus) (msg : AgentMessage) : Prop where
  wellFormed : validate (some (normalizeOrDefault msg.tenantId)) = true
  consistent : validateTenantConsistency bus.tenantOf msg.fromAgent msg.toAgent
    (some (normalizeOrDefault msg.tenantId)) = []

structure Checked (services : Services) (bus : AgentBus) (msg : AgentMessage) : Prop where
  shape : shapeErrors services msg = []
  hash : msg.constitutionalHash = bus.constitutionalHash
  tenant : TenantAllows bus msg
  rate : RateAllows services (normalizedTenant msg)
  governance : GovernanceAllows services (enriched services msg)

structure Deliverable (services : Services) (msg : AgentMessage) : Prop where
  registry : msg.toAgent ≠ "" → services.registryFails = false
  kafka : ∀ send, services.kafkaSend = some send → ∃ accepted, send msg = .returned accepted ∧
    accepted = true

/-- The message is accepted for delivery: it is put on the queue or handed to Kafka, and counted as
sent. -/
structure Accepted (services : Services) (bus : AgentBus) (msg : AgentMessage) : Prop where
  counted : (sendMessageOnce services bus msg).1.metrics.messagesSent = bus.metrics.messagesSent + 1
  handed : ∃ sent, (sendMessageOnce services bus msg).1.messageQueue = bus.messageQueue ++ [sent] ∨
    (sendMessageOnce services bus msg).1.kafka = bus.kafka ++ [sent]

/-! ## Each check -/

def Counted (bus b : AgentBus) : Prop :=
  ∃ metrics, metrics.messagesSent = bus.metrics.messagesSent ∧ b = { bus with metrics := metrics }

omit [PrintTable] [LowerTable] in
theorem Counted.refl (bus : AgentBus) : Counted bus bus := ⟨bus.metrics, rfl, rfl⟩

omit [PrintTable] [LowerTable] in
theorem Counted.trans {b' : AgentBus} (h : Counted bus b) (h' : Counted b b') : Counted bus b' := by
  obtain ⟨metrics, hsent, rfl⟩ := h
  obtain ⟨metrics', hsent', rfl⟩ := h'
  exact ⟨metrics', hsent'.trans hsent, rfl⟩

omit [PrintTable] [LowerTable] in
theorem Counted.countSent (h : Counted bus b) : Counted bus b.countSent :=
  h.trans ⟨b.countSent.metrics, rfl, rfl⟩

omit [PrintTable] [LowerTable] in
theorem Counted.recordMetricsFailure (h : Counted bus b) : Counted bus b.recordMetricsFailure :=
  h.trans ⟨b.recordMetricsFailure.metrics, rfl, rfl⟩

structure Settles (check : Check) (bus : AgentBus) (msg : AgentMessage) (passes : Prop) : Prop where
  pass : passes → ∃ b, Counted bus b ∧ check = .ok (b, msg)
  stop : ¬passes → ∃ b result, Counted bus b ∧ check = .error (b, result)

omit [PrintTable] [LowerTable] in
theorem Settles.bind {check : Check} {next : AgentBus × AgentMessage → Check} {m' : AgentMessage}
    {P Q : Prop} (h : Settles check bus m P)
    (hnext : ∀ b, Counted bus b → Settles (next (b, m)) b m' Q) :
    Settles (check >>= next) bus m' (P ∧ Q) := by
  constructor
  · rintro ⟨hP, hQ⟩
    obtain ⟨b, hb, hcheck⟩ := h.pass hP
    obtain ⟨b', hb', hcheck'⟩ := (hnext b hb).pass hQ
    refine ⟨b', hb.trans hb', ?_⟩
    rw [hcheck]
    exact hcheck'
  · intro hnot
    by_cases hP : P
    · obtain ⟨b, hb, hcheck⟩ := h.pass hP
      obtain ⟨b', result, hb', hcheck'⟩ := (hnext b hb).stop fun hQ => hnot ⟨hP, hQ⟩
      refine ⟨b', result, hb.trans hb', ?_⟩
      rw [hcheck]
      exact hcheck'
    · obtain ⟨b, result, hb, hcheck⟩ := h.stop hP
      refine ⟨b, result, hb, ?_⟩
      rw [hcheck]
      rfl

theorem checkRunning_settles : Settles (checkRunning bus msg) bus msg (CanStart bus msg) := by
  unfold checkRunning CanStart
  by_cases hrunning : bus.running = true
  · rw [if_pos hrunning]
    exact ⟨fun _ => ⟨bus, .refl bus, rfl⟩, fun h => absurd (.inl hrunning) h⟩
  · rw [if_neg hrunning]
    by_cases hstart : (bus.allowUnstarted || isTestModeMessage msg) = true
    · rw [if_pos hstart]
      refine ⟨fun _ => ⟨_, (Counted.refl bus).countSent, rfl⟩, fun h => ?_⟩
      exact absurd (.inr (by simpa only [Bool.or_eq_true] using hstart)) h
    · rw [if_neg hstart]
      refine ⟨fun h => ?_, fun _ => ⟨_, _, (Counted.refl bus).recordMetricsFailure, rfl⟩⟩
      rw [Bool.or_eq_true] at hstart
      exact absurd (h.resolve_left hrunning) hstart

omit [PrintTable] [LowerTable] in
theorem validateMessageShape_settles :
    Settles (validateMessageShape services bus msg) bus msg (shapeErrors services msg = []) := by
  unfold validateMessageShape
  rcases shapeErrors services msg with _ | ⟨error, errors⟩
  · exact ⟨fun _ => ⟨bus, .refl bus, rfl⟩, fun h => absurd rfl h⟩
  · exact ⟨nofun, fun _ => ⟨_, _, (Counted.refl bus).recordMetricsFailure, rfl⟩⟩

omit [PrintTable] [LowerTable] in
theorem validateConstitutionalHash_settles :
    Settles (validateConstitutionalHash bus msg) bus msg
      (msg.constitutionalHash = bus.constitutionalHash) := by
  unfold validateConstitutionalHash
  by_cases h : msg.constitutionalHash = bus.constitutionalHash
  · rw [if_neg (not_not.mpr h)]
    exact ⟨fun _ => ⟨bus, .refl bus, rfl⟩, fun hne => absurd h hne⟩
  · rw [if_pos h]
    refine ⟨fun heq => absurd heq h, fun _ => ⟨_, _, ?_, rfl⟩⟩
    exact (Counted.refl bus).recordMetricsFailure.countSent

omit [PrintTable] in
theorem validateAndNormalizeTenant_settles :
    Settles (validateAndNormalizeTenant bus msg) bus (normalizedTenant msg)
      (TenantAllows bus msg) := by
  unfold validateAndNormalizeTenant
  dsimp only
  rcases hvalid : validate (some (normalizeOrDefault msg.tenantId)) with _ | _
  · rw [if_pos rfl]
    refine ⟨fun h => ?_, fun _ => ⟨_, _, (Counted.refl bus).recordMetricsFailure.countSent, rfl⟩⟩
    exact absurd (hvalid.symm.trans h.wellFormed) Bool.false_ne_true
  · rw [if_neg (Bool.false_ne_true ∘ Eq.symm)]
    cases herrors : validateTenantConsistency bus.tenantOf msg.fromAgent msg.toAgent
        (some (normalizeOrDefault msg.tenantId)) with
    | nil => exact ⟨fun _ => ⟨bus, .refl bus, rfl⟩, fun h => absurd ⟨hvalid, herrors⟩ h⟩
    | cons error errors =>
      refine ⟨fun h => ?_, fun _ => ⟨_, _, (Counted.refl bus).recordMetricsFailure, rfl⟩⟩
      exact absurd (herrors.symm.trans h.consistent) (List.cons_ne_nil error errors)

omit [PrintTable] [LowerTable] in
theorem applyRateLimit_settles :
    Settles (applyRateLimit services bus msg) bus msg (RateAllows services msg) := by
  unfold applyRateLimit RateAllows
  rcases services.isAllowed with _ | isAllowed
  · exact ⟨fun _ => ⟨bus, .refl bus, rfl⟩, fun h => absurd nofun h⟩
  · simp only [Option.some_inj, forall_eq']
    rcases isAllowed (limitKey msg) with _ | rateResult
    · exact ⟨nofun, fun _ => ⟨bus, none, .refl bus, rfl⟩⟩
    · simp only [Option.some_inj, exists_eq_left']
      by_cases h : rateResult.allowed = true
      · rw [if_pos h]
        exact ⟨fun _ => ⟨bus, .refl bus, rfl⟩, fun hne => absurd h hne⟩
      · rw [if_neg h]
        exact ⟨fun heq => absurd heq h, fun _ => ⟨bus, _, .refl bus, rfl⟩⟩

omit [PrintTable] [LowerTable] in
theorem checkGovernance_settles :
    Settles (checkGovernance services bus msg) bus msg (GovernanceAllows services msg) := by
  unfold checkGovernance GovernanceAllows
  rcases evaluateAdaptiveGovernance services msg with _ | decision
  · exact ⟨nofun, fun _ => ⟨bus, none, .refl bus, rfl⟩⟩
  · obtain ⟨allowed, reasoning⟩ := decision
    cases allowed with
    | true => exact ⟨fun _ => ⟨bus, .refl bus, rfl⟩, fun h => absurd ⟨reasoning, rfl⟩ h⟩
    | false =>
      refine ⟨?_, fun _ => ⟨_, _, (Counted.refl bus).recordMetricsFailure, rfl⟩⟩
      rintro ⟨_, h⟩
      cases h

theorem checks_settles (services : Services) (bus : AgentBus) (msg : AgentMessage) :
    Settles (checks services bus msg) bus (enriched services msg)
    (CanStart bus msg ∧ shapeErrors services msg = [] ∧
      msg.constitutionalHash = bus.constitutionalHash ∧ TenantAllows bus msg ∧
      RateAllows services (normalizedTenant msg) ∧
      GovernanceAllows services (enriched services msg)) := by
  refine checkRunning_settles.bind fun b hb => ?_
  refine validateMessageShape_settles.bind fun b₂ hb₂ => ?_
  have hkeeps : ∀ b', Counted bus b' → b'.constitutionalHash = bus.constitutionalHash ∧
      b'.registryManager = bus.registryManager := by
    rintro b' ⟨metrics, -, rfl⟩
    exact ⟨rfl, rfl⟩
  have hb₂' := hb.trans hb₂
  rw [← (hkeeps b₂ hb₂').1]
  refine validateConstitutionalHash_settles.bind fun b₃ hb₃ => ?_
  have hb₃' := hb₂'.trans hb₃
  have htenant : TenantAllows bus msg = TenantAllows b₃ msg := by
    have heq : bus.tenantOf = b₃.tenantOf := by
      unfold AgentBus.tenantOf
      rw [(hkeeps b₃ hb₃').2]
    apply propext
    constructor
    · rintro ⟨hvalid, hconsistent⟩
      exact ⟨hvalid, heq ▸ hconsistent⟩
    · rintro ⟨hvalid, hconsistent⟩
      exact ⟨hvalid, heq ▸ hconsistent⟩
  rw [htenant]
  refine validateAndNormalizeTenant_settles.bind fun b₄ _ => ?_
  refine applyRateLimit_settles.bind fun b₅ _ => ?_
  exact checkGovernance_settles

/-! ## What is accepted -/

omit [PrintTable] [LowerTable] in
theorem messageRouter_eq (h : msg.toAgent ≠ "" → services.registryFails = false) :
    MessageRouter.routeAndDeliver services bus msg = deliver services bus msg := by
  have hcalls : ¬(msg.toAgent ≠ "" ∧ services.registryFails = true) := by
    rintro ⟨hto, hfails⟩
    rw [h hto] at hfails
    cases hfails
  unfold MessageRouter.routeAndDeliver
  rw [if_neg hcalls]
  rcases route bus.registryManager.registry msg with _ | target
  · rfl
  · rfl

omit [PrintTable] [LowerTable] in
theorem routeAndDeliver_of_deliverable (bus : AgentBus) (h : Deliverable services msg) :
    ∃ b, routeAndDeliver services bus msg = some (b, true) ∧ b.metrics = bus.metrics ∧
      (b.messageQueue = bus.messageQueue ++ [msg] ∨ b.kafka = bus.kafka ++ [msg]) := by
  unfold routeAndDeliver
  rw [messageRouter_eq h.registry]
  unfold deliver
  rcases hkafka : services.kafkaSend with _ | send
  · exact ⟨_, rfl, rfl, .inl rfl⟩
  · obtain ⟨accepted, hsend, rfl⟩ := h.kafka send hkafka
    dsimp only
    rw [hsend]
    exact ⟨_, rfl, rfl, .inr rfl⟩

omit [PrintTable] [LowerTable] in
theorem routeAndDeliver_of_not_deliverable (bus : AgentBus) (h : ¬Deliverable services msg) :
    routeAndDeliver services bus msg = none ∨
      ∃ b, routeAndDeliver services bus msg = some (b, false) ∧ b.metrics = bus.metrics := by
  by_cases hregistry : msg.toAgent ≠ "" → services.registryFails = false
  · unfold routeAndDeliver
    rw [messageRouter_eq hregistry]
    unfold deliver
    rcases hkafka : services.kafkaSend with _ | send
    · refine absurd ⟨hregistry, fun send hsend => ?_⟩ h
      rw [hkafka] at hsend
      cases hsend
    · dsimp only
      cases hsend : send msg with
      | unhandled => exact .inl rfl
      | handled text => exact .inr ⟨bus, rfl, rfl⟩
      | returned accepted =>
        rcases accepted with _ | _
        · exact .inr ⟨bus, rfl, rfl⟩
        · refine absurd ⟨hregistry, fun send' hsend' => ?_⟩ h
          rw [hkafka, Option.some_inj] at hsend'
          exact ⟨true, hsend' ▸ hsend, rfl⟩
  · rw [Classical.not_imp, Bool.not_eq_false] at hregistry
    left
    unfold routeAndDeliver MessageRouter.routeAndDeliver
    rw [if_pos hregistry]

omit [PrintTable] in
theorem checked_iff : Checked services bus msg ↔
    shapeErrors services msg = [] ∧ msg.constitutionalHash = bus.constitutionalHash ∧
      TenantAllows bus msg ∧ RateAllows services (normalizedTenant msg) ∧
        GovernanceAllows services (enriched services msg) := by
  constructor
  · intro h
    exact ⟨h.shape, h.hash, h.tenant, h.rate, h.governance⟩
  · rintro ⟨hshape, hhash, htenant, hrate, hgovernance⟩
    exact ⟨hshape, hhash, htenant, hrate, hgovernance⟩

theorem sendMessageOnce_of_checks (h : checks services bus msg = .ok (b, m)) :
    sendMessageOnce services bus msg =
      ((finalizeMessageDelivery services b m (decideMessageGovernance services m)).1,
        (finalizeMessageDelivery services b m (decideMessageGovernance services m)).2.map
          fun _ => decideMessageGovernance services m) := by
  unfold sendMessageOnce
  rw [h]
  dsimp only
  cases finalizeMessageDelivery services b m (decideMessageGovernance services m) with
  | mk b' delivered =>
    rcases delivered with _ | success
    · rfl
    · rfl

/-- **What is accepted.**  A message that the bus takes and that passes the checks, where the
decision is for it, and the delivery works. -/
theorem accepted_iff : Accepted services bus msg ↔
    CanStart bus msg ∧ Checked services bus msg ∧
      (decideMessageGovernance services (enriched services msg)).isValid = true ∧
        Deliverable services (enriched services msg) := by
  have hchecks := checks_settles services bus msg
  rw [← checked_iff] at hchecks
  have hnot (h : (sendMessageOnce services bus msg).1.metrics.messagesSent =
      bus.metrics.messagesSent) : ¬Accepted services bus msg := by
    intro haccepted
    have hcounted := haccepted.counted
    rw [h] at hcounted
    omega
  by_cases hpass : CanStart bus msg ∧ Checked services bus msg
  · obtain ⟨b, ⟨metrics, hsent, rfl⟩, hok⟩ := hchecks.pass hpass
    have hsend := sendMessageOnce_of_checks hok
    rcases hvalid : (decideMessageGovernance services (enriched services msg)).isValid with _ | _
    · refine iff_of_false (hnot ?_) fun h => absurd h.2.2.1 Bool.false_ne_true
      rw [hsend]
      unfold finalizeMessageDelivery
      rw [hvalid]
      exact hsent
    · by_cases hdeliver : Deliverable services (enriched services msg)
      · refine iff_of_true ?_ ⟨hpass.1, hpass.2, rfl, hdeliver⟩
        obtain ⟨b', hroute, hmetrics, hhanded⟩ :=
          routeAndDeliver_of_deliverable { bus with metrics := metrics } hdeliver
        have hfinal : sendMessageOnce services bus msg = (b'.recordMetricsSuccess,
            some (decideMessageGovernance services (enriched services msg))) := by
          rw [hsend]
          unfold finalizeMessageDelivery
          rw [hvalid, if_pos rfl, hroute]
          rfl
        constructor
        · rw [hfinal]
          unfold AgentBus.recordMetricsSuccess
          dsimp only
          rw [hmetrics, hsent]
        · rw [hfinal]
          exact ⟨_, hhanded⟩
      · refine iff_of_false (hnot ?_) fun h => absurd h.2.2.2 hdeliver
        rw [hsend]
        unfold finalizeMessageDelivery
        rw [hvalid, if_pos rfl]
        rcases routeAndDeliver_of_not_deliverable { bus with metrics := metrics }
          hdeliver with hroute | ⟨b', hroute, hmetrics⟩
        · rw [hroute]
          exact hsent
        · rw [hroute]
          unfold AgentBus.recordMetricsFailure
          dsimp only
          rw [hmetrics, hsent]
  · refine iff_of_false (hnot ?_) fun h => hpass ⟨h.1, h.2.1⟩
    obtain ⟨b, result, ⟨metrics, hsent, rfl⟩, hstop⟩ := hchecks.stop hpass
    unfold sendMessageOnce
    rw [hstop]
    exact hsent

end Passing

end EnhancedAgentBus.Bus
