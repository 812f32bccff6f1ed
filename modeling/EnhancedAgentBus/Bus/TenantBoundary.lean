import EnhancedAgentBus.Bus.Sending

/-!
# The tenant boundary

Whether a message stays within its tenant is asked twice: of the local table, which only speaks of
the agents that it knows, and of the backend registry, by a router whose answer is not looked at.  A
message that passes the other checks crosses the boundary just if the backend registry does not know
its recipient, or if the two registries do not say the same of the two agents
(`staysWithin_iff`).
-/

namespace EnhancedAgentBus.Bus

open Components Security

section Boundary

variable [PrintTable] [LowerTable] {services : Services} {bus : AgentBus} {msg : AgentMessage}

/-! ## What is asked of a message -/

def messageTenant (msg : AgentMessage) : String := normalizeOrDefault msg.tenantId

/-- The agent is known to the backend registry, with the tenant of the message. -/
def RegisteredWithin (bus : AgentBus) (msg : AgentMessage) (agent : String) : Prop :=
  ∃ info, bus.registryManager.registry.get agent = some info ∧
    normalize (agentTenant info) = some (messageTenant msg)

/-- A message that is accepted has a recipient of its own tenant, and a sender, if the backend
registry knows it; and the router has not refused it. -/
def StaysWithin (services : Services) (bus : AgentBus) (msg : AgentMessage) : Prop :=
  Accepted services bus msg →
    RegisteredWithin bus msg msg.toAgent ∧
    ((bus.registryManager.registry.get msg.fromAgent).isSome = true →
      RegisteredWithin bus msg msg.fromAgent) ∧
    route bus.registryManager.registry (enriched services msg) ≠ none

/-! ## When it is met -/

/-- The tenant that the local table has for an agent; the one of the message, if it does not know the
agent. -/
def localTenant (bus : AgentBus) (msg : AgentMessage) (agent : String) : Option String :=
  match bus.tenantOf agent with
  | none => some (messageTenant msg)
  | some tenant => normalize tenant

/-- The backend registry has the recipient, with the tenant that the local table has for it, and the
sender with its own, if it knows the sender. -/
structure RegistriesAgree (bus : AgentBus) (msg : AgentMessage) : Prop where
  recipient : ∃ info, bus.registryManager.registry.get msg.toAgent = some info ∧
    agentTenant info = localTenant bus msg msg.toAgent
  sender : ∀ info, bus.registryManager.registry.get msg.fromAgent = some info →
    normalize (agentTenant info) = localTenant bus msg msg.fromAgent

/-- The processor finds the message valid, or it raises, and the message says that it was validated
before. -/
def Admitted (services : Services) (msg : AgentMessage) : Prop :=
  match services.process msg with
  | .ok result => result.isValid = true
  | .error _ => hasExplicitPrevalidation msg = true

omit [PrintTable] [LowerTable] in
theorem decideMessageGovernance_isValid :
    (decideMessageGovernance services msg).isValid = true ↔ Admitted services msg := by
  unfold decideMessageGovernance Admitted
  cases services.process msg with
  | ok result => exact Iff.rfl
  | error text =>
    dsimp only
    cases hasExplicitPrevalidation msg with
    | true => exact Iff.rfl
    | false => exact Iff.rfl

/-! ## The proof -/

omit [PrintTable] [LowerTable] in
theorem withContext_eq (services : Services) (msg : AgentMessage) :
    ∃ metadata, withContext services msg = { msg with metadata := metadata } := by
  unfold withContext
  rcases services.buildContext with _ | buildContext
  · exact ⟨msg.metadata, rfl⟩
  · dsimp only
    rcases buildContext msg with _ | built
    · exact ⟨msg.metadata, rfl⟩
    · obtain ⟨context, hash⟩ := built
      dsimp only
      rcases setItem msg.metadata "dynamic_context" context with _ | metadata
      · exact ⟨msg.metadata, rfl⟩
      · exact ⟨_, rfl⟩

omit [PrintTable] in
theorem enriched_eq (services : Services) (msg : AgentMessage) :
    ∃ metadata, enriched services msg =
      { msg with tenantId := some (messageTenant msg), metadata := metadata } :=
  withContext_eq services (normalizedTenant msg)

omit [PrintTable] [LowerTable] in
theorem toAgent_ne_empty (h : shapeErrors services msg = []) : msg.toAgent ≠ "" := by
  intro hto
  unfold shapeErrors at h
  rw [if_pos hto] at h
  simp at h

omit [PrintTable] in
theorem localTenant_eq (h : TenantAllows bus msg) (hto : msg.toAgent ≠ "") :
    localTenant bus msg msg.fromAgent = some (messageTenant msg) ∧
      localTenant bus msg msg.toAgent = some (messageTenant msg) := by
  have hself : normalize (some (messageTenant msg)) = some (messageTenant msg) :=
    normalize_of_validate h.wellFormed
  obtain ⟨hfrom, hrecipient⟩ :=
    (validateTenantConsistency_eq_nil_iff hto).mp h.consistent
  have key (agent : String) (hagent : ∀ tenant, bus.tenantOf agent = some tenant →
      normalize tenant = normalize (some (normalizeOrDefault msg.tenantId))) :
      localTenant bus msg agent = some (messageTenant msg) := by
    unfold localTenant
    rcases htenant : bus.tenantOf agent with _ | tenant
    · rfl
    · exact (hagent tenant htenant).trans hself
  exact ⟨key msg.fromAgent hfrom, key msg.toAgent hrecipient⟩

omit [PrintTable] in
theorem route_ne_none_iff (hto : msg.toAgent ≠ "") :
    route bus.registryManager.registry (enriched services msg) ≠ none ↔
      ∃ info, bus.registryManager.registry.get msg.toAgent = some info ∧
        agentTenant info = some (messageTenant msg) := by
  obtain ⟨metadata, henriched⟩ := enriched_eq services msg
  have htenant : (some (messageTenant msg)).filter (fun tenant => decide (tenant ≠ "")) =
      some (messageTenant msg) := by
    rw [Option.filter_some, if_pos]
    exact decide_eq_true (normalizeOrDefault_ne_empty msg.tenantId)
  rw [henriched]
  unfold route
  dsimp only
  rw [if_neg hto]
  rcases bus.registryManager.registry.get msg.toAgent with _ | info
  · exact iff_of_false (fun h => h rfl) (by rintro ⟨info, hinfo, -⟩; cases hinfo)
  · dsimp only
    rw [htenant]
    simp only [Option.some_inj, exists_eq_left']
    by_cases heq : agentTenant info = some (messageTenant msg)
    · rw [if_neg (not_not.mpr heq.symm)]
      exact iff_of_true (Option.some_ne_none _) heq
    · rw [if_pos fun h => heq h.symm]
      exact iff_of_false (fun h => h rfl) heq

/-- **The boundary.**  What a message that is accepted crosses, and when. -/
theorem staysWithin_iff (services : Services) (bus : AgentBus) (msg : AgentMessage) :
    StaysWithin services bus msg ↔
      (CanStart bus msg → Checked services bus msg → Admitted services (enriched services msg) →
        Deliverable services (enriched services msg) → RegistriesAgree bus msg) := by
  have haccepted : Accepted services bus msg ↔ _ := accepted_iff
  unfold StaysWithin
  rw [haccepted, decideMessageGovernance_isValid]
  constructor
  · intro h hstart hchecked hadmitted hdeliverable
    obtain ⟨hrecipient, hsender, hroute⟩ := h ⟨hstart, hchecked, hadmitted, hdeliverable⟩
    have hto := toAgent_ne_empty hchecked.shape
    obtain ⟨hlocalFrom, hlocalTo⟩ := localTenant_eq hchecked.tenant hto
    constructor
    · rw [hlocalTo]
      exact (route_ne_none_iff hto).mp hroute
    · intro info hinfo
      rw [hlocalFrom]
      obtain ⟨info', hinfo', htenant⟩ := hsender (by rw [hinfo]; rfl)
      rw [hinfo, Option.some_inj] at hinfo'
      rw [hinfo', htenant]
  · rintro h ⟨hstart, hchecked, hadmitted, hdeliverable⟩
    have hagree := h hstart hchecked hadmitted hdeliverable
    have hto := toAgent_ne_empty hchecked.shape
    obtain ⟨hlocalFrom, hlocalTo⟩ := localTenant_eq hchecked.tenant hto
    obtain ⟨info, hinfo, htenant⟩ := hagree.recipient
    rw [hlocalTo] at htenant
    have hself : normalize (some (messageTenant msg)) = some (messageTenant msg) :=
      normalize_of_validate hchecked.tenant.wellFormed
    refine ⟨⟨info, hinfo, by rw [htenant, hself]⟩, ?_, (route_ne_none_iff hto).mpr
      ⟨info, hinfo, htenant⟩⟩
    intro hknown
    obtain ⟨info', hinfo'⟩ := Option.isSome_iff_exists.mp hknown
    exact ⟨info', hinfo', (hagree.sender info' hinfo').trans hlocalFrom⟩

end Boundary

/-! ## A recipient of another tenant -/

/-- A processor that finds every message valid. -/
def willing : Services where
  process _ := .ok {}

def localEntry (agent tenant : String) : AgentInfo where
  agentId := agent
  agentType := "worker"
  capabilities := []
  tenantId := tenant
  maciRole := none
  constitutionalHash := constitutionalHash
  identity := .null
  registeredAt := 0
  updatedAt := 0

def backendEntry (agent tenant : String) : BackendInfo where
  agentId := agent
  capabilities := []
  metadataTenantId := some tenant

/-- The sender is known to both registries, and the recipient to the backend registry only, where it
belongs to another tenant. -/
def sharedRegistry : AgentBus where
  registryManager :=
    { agents := Dict.empty.set "sender" (localEntry "sender" "acme")
      registry := (Dict.empty.set "sender" (backendEntry "sender" "acme")).set "stranger"
        (backendEntry "stranger" "other")
      maciRoles := Dict.empty }

def toStranger : AgentMessage where
  messageId := "m"
  conversationId := "c"
  content := .obj [("text", .str "hello")]
  fromAgent := "sender"
  toAgent := "stranger"
  tenantId := some "acme"

theorem toStranger_crosses :
    ¬@StaysWithin asciiPrintable asciiLower willing sharedRegistry toStranger := by
  intro h
  have htenant : @TenantAllows asciiLower sharedRegistry toStranger :=
    @TenantAllows.mk asciiLower _ _ (by decide +kernel) (by decide +kernel)
  have hchecked : @Checked asciiLower willing sharedRegistry toStranger :=
    @Checked.mk asciiLower _ _ _ (by decide +kernel) rfl htenant nofun ⟨_, rfl⟩
  have haccepted : @Accepted asciiPrintable asciiLower willing sharedRegistry toStranger :=
    (@accepted_iff asciiPrintable asciiLower _ _ _).mpr
      ⟨.inl rfl, hchecked, rfl, fun _ => rfl, nofun⟩
  have hroute : route sharedRegistry.registryManager.registry
      (@enriched asciiLower willing toStranger) = none := by decide +kernel
  exact (h haccepted).2.2 hroute

end EnhancedAgentBus.Bus
