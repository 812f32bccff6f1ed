import EnhancedAgentBus.Bus.TenantBoundary

/-!
# The gate before the delivery

A message is delivered if it passes the checks and the processor finds it valid, with two ways
around: a stopped bus takes the messages that look like tests, and where the processor raises, a
message passes that says of itself that it was validated before.  Both are asked of fields that the
sender sets (`gate_ways_around`).  There is no other way around (`gate_closed`).
-/

namespace EnhancedAgentBus.Bus

open Components Security

section Gate

variable [PrintTable] [LowerTable] {services : Services} {bus : AgentBus} {msg : AgentMessage}

/-! ## What is asked of the gate -/

/-- What is delivered was sent over a bus that takes messages, has passed the checks, and is valid in
the eyes of the processor. -/
def FailsClosed (services : Services) (bus : AgentBus) (msg : AgentMessage) : Prop :=
  Accepted services bus msg →
    (bus.running = true ∨ bus.allowUnstarted = true) ∧ Checked services bus msg ∧
    ∃ result, services.process (enriched services msg) = .ok result ∧ result.isValid = true

def withMetadata (msg : AgentMessage) (metadata : Json) : AgentMessage :=
  { msg with metadata := metadata }

/-- No service answers differently, if the message has other metadata. -/
structure SameAnswers (services : Services) (msg : AgentMessage) (metadata : Json) : Prop where
  context : services.buildContext.map (· (normalizedTenant msg)) =
    services.buildContext.map (· (normalizedTenant (withMetadata msg metadata)))
  governance : evaluateAdaptiveGovernance services (enriched services msg) =
    evaluateAdaptiveGovernance services (enriched services (withMetadata msg metadata))
  process : services.process (enriched services msg) =
    services.process (enriched services (withMetadata msg metadata))
  kafka : services.kafkaSend.map (· (enriched services msg)) =
    services.kafkaSend.map (· (enriched services (withMetadata msg metadata)))

/-- The metadata that no service reads do not matter. -/
def DeafToMetadata (services : Services) (bus : AgentBus) (msg : AgentMessage) : Prop :=
  ∀ metadata, SameAnswers services msg metadata →
    (Accepted services bus msg ↔ Accepted services bus (withMetadata msg metadata))

/-! ## The two ways around -/

/-- As `FailsClosed`, but for the messages that look like tests, and for the ones that say that they
were validated before. -/
def FailsClosedButMarked (services : Services) (bus : AgentBus) (msg : AgentMessage) : Prop :=
  Accepted services bus msg →
    (bus.running = true ∨ bus.allowUnstarted = true ∨ isTestModeMessage msg = true) ∧
    Checked services bus msg ∧
    ((∃ result, services.process (enriched services msg) = .ok result ∧ result.isValid = true) ∨
      (∃ text, services.process (enriched services msg) = .error text) ∧
        hasExplicitPrevalidation msg = true)

/-- As `DeafToMetadata`, but for the mark of an earlier validation, where the processor raises. -/
def DeafToMetadataButMarked (services : Services) (bus : AgentBus) (msg : AgentMessage) : Prop :=
  ∀ metadata, SameAnswers services msg metadata →
    ((∃ result, services.process (enriched services msg) = .ok result) ∨
      hasExplicitPrevalidation msg = hasExplicitPrevalidation (withMetadata msg metadata)) →
    (Accepted services bus msg ↔ Accepted services bus (withMetadata msg metadata))

/-! ## The marks survive the context -/

omit [PrintTable] [LowerTable] in
theorem getItem_setItem {value value' item : Json} {key key' : String} (hne : key' ≠ key)
    (h : setItem value key item = some value') : getItem value' key' = getItem value key' := by
  unfold setItem at h
  cases value with
  | obj members =>
    rw [Option.some_inj] at h
    subst h
    unfold getItem
    dsimp only
    rw [Json.lookup_assign_of_ne item members hne]
  | null => cases h
  | bool b => cases h
  | int i => cases h
  | float f => cases h
  | str s => cases h
  | arr items => cases h

omit [PrintTable] in
theorem hasExplicitPrevalidation_enriched :
    hasExplicitPrevalidation (enriched services msg) = hasExplicitPrevalidation msg := by
  have key {value value' item : Json} {key : String}
      (hkey : key = "dynamic_context" ∨ key = "dynamic_context_hash")
      (h : setItem value key item = some value') :
      ∀ mark ∈ ["prevalidated", "prevalidated_result", "validated_by_agent",
        "independent_validator_id"], getItem value' mark = getItem value mark := by
    intro mark hmark
    refine getItem_setItem ?_ h
    rintro rfl
    rcases hkey with rfl | rfl
    · exact absurd hmark (by decide)
    · exact absurd hmark (by decide)
  have hmetadata : ∀ mark ∈ ["prevalidated", "prevalidated_result", "validated_by_agent",
      "independent_validator_id"],
      getItem (enriched services msg).metadata mark = getItem msg.metadata mark := by
    intro mark hmark
    unfold enriched withContext
    rcases services.buildContext with _ | buildContext
    · rfl
    · dsimp only
      rcases buildContext (normalizedTenant msg) with _ | built
      · rfl
      · obtain ⟨context, hash⟩ := built
        dsimp only
        cases hset : setItem (normalizedTenant msg).metadata "dynamic_context" context with
        | none => rfl
        | some metadata =>
          dsimp only
          have hfirst := key (.inl rfl) hset mark hmark
          rcases hset' : setItem metadata "dynamic_context_hash" hash with _ | metadata'
          · exact hfirst
          · exact (key (.inr rfl) hset' mark hmark).trans hfirst
  unfold hasExplicitPrevalidation
  rw [hmetadata "prevalidated" (by decide), hmetadata "prevalidated_result" (by decide),
    hmetadata "validated_by_agent" (by decide), hmetadata "independent_validator_id" (by decide)]

/-! ## The proof -/

omit [PrintTable] in
theorem admitted_iff : Admitted services (enriched services msg) ↔
    (∃ result, services.process (enriched services msg) = .ok result ∧ result.isValid = true) ∨
      (∃ text, services.process (enriched services msg) = .error text) ∧
        hasExplicitPrevalidation msg = true := by
  unfold Admitted
  rw [hasExplicitPrevalidation_enriched]
  cases services.process (enriched services msg) with
  | ok result => simp
  | error text => simp

omit [PrintTable] in
theorem SameAnswers.checked {metadata : Json} (h : SameAnswers services msg metadata) :
    Checked services bus msg ↔ Checked services bus (withMetadata msg metadata) := by
  have hgovernance : GovernanceAllows services (enriched services msg) ↔
      GovernanceAllows services (enriched services (withMetadata msg metadata)) := by
    unfold GovernanceAllows
    rw [h.governance]
  constructor
  · intro hchecked
    exact ⟨hchecked.shape, hchecked.hash, ⟨hchecked.tenant.wellFormed, hchecked.tenant.consistent⟩,
      hchecked.rate, hgovernance.mp hchecked.governance⟩
  · intro hchecked
    exact ⟨hchecked.shape, hchecked.hash, ⟨hchecked.tenant.wellFormed, hchecked.tenant.consistent⟩,
      hchecked.rate, hgovernance.mpr hchecked.governance⟩

omit [PrintTable] in
theorem SameAnswers.deliverable {metadata : Json} (h : SameAnswers services msg metadata) :
    Deliverable services (enriched services msg) ↔
      Deliverable services (enriched services (withMetadata msg metadata)) := by
  have hto (m : AgentMessage) : (enriched services m).toAgent = m.toAgent := by
    obtain ⟨metadata, heq⟩ := enriched_eq services m
    rw [heq]
  have hkafka : ∀ send, services.kafkaSend = some send →
      send (enriched services msg) = send (enriched services (withMetadata msg metadata)) := by
    intro send hsend
    have hsame := h.kafka
    rw [hsend] at hsame
    exact Option.some_inj.mp hsame
  constructor
  · intro hdeliverable
    refine ⟨fun hne => hdeliverable.registry ?_, fun send hsend => ?_⟩
    · rw [hto] at hne ⊢
      exact hne
    · rw [← hkafka send hsend]
      exact hdeliverable.kafka send hsend
  · intro hdeliverable
    refine ⟨fun hne => hdeliverable.registry ?_, fun send hsend => ?_⟩
    · rw [hto] at hne ⊢
      exact hne
    · rw [hkafka send hsend]
      exact hdeliverable.kafka send hsend

omit [PrintTable] in
theorem SameAnswers.admitted {metadata : Json} (h : SameAnswers services msg metadata)
    (hmarks : (∃ result, services.process (enriched services msg) = .ok result) ∨
      hasExplicitPrevalidation msg = hasExplicitPrevalidation (withMetadata msg metadata)) :
    Admitted services (enriched services msg) ↔
      Admitted services (enriched services (withMetadata msg metadata)) := by
  rw [admitted_iff, admitted_iff, ← h.process]
  rcases hmarks with ⟨result, hresult⟩ | hmarks
  · rw [hresult]
    simp
  · rw [hmarks]

/-- **The gate.**  But for the two ways around it, a message is delivered only over a bus that takes
messages, having passed every check, and being valid in the eyes of the processor; and the metadata
that no service reads do not matter. -/
theorem gate_closed (services : Services) (bus : AgentBus) (msg : AgentMessage) :
    FailsClosedButMarked services bus msg ∧ DeafToMetadataButMarked services bus msg := by
  have hiff (m : AgentMessage) : Accepted services bus m ↔
      CanStart bus m ∧ Checked services bus m ∧ Admitted services (enriched services m) ∧
        Deliverable services (enriched services m) := by
    rw [accepted_iff, decideMessageGovernance_isValid]
  constructor
  · intro haccepted
    obtain ⟨hstart, hchecked, hadmitted, -⟩ := (hiff msg).mp haccepted
    exact ⟨hstart, hchecked, admitted_iff.mp hadmitted⟩
  · intro metadata hsame hmarks
    rw [hiff msg, hiff (withMetadata msg metadata), hsame.checked, hsame.deliverable,
      hsame.admitted hmarks]
    rfl

end Gate

/-! ## Around the gate -/

def raising : Services where
  process _ := .error "connection lost"

/-- A message within the tenant `acme`. -/
def hello (fromAgent : String) (metadata : Json) : AgentMessage where
  messageId := "m"
  conversationId := "c"
  content := .obj [("text", .str "hello")]
  fromAgent := fromAgent
  toAgent := "recipient"
  tenantId := some "acme"
  metadata := metadata

def emptyBus (running : Bool) : AgentBus where
  running := running
  registryManager := { registry := Dict.empty, maciRoles := Dict.empty }

def marked : Json := .obj [("prevalidated", .bool true)]

/-- A stopped bus delivers for a sender whose name has the test mark.  A running bus delivers what
its processor raises for, if it is marked as validated before; and not without the mark, though no
service reads it. -/
theorem gate_ways_around :
    ¬@FailsClosed asciiPrintable asciiLower willing (emptyBus false) (hello "test-agent" (.obj [])) ∧
    ¬@FailsClosed asciiPrintable asciiLower raising (emptyBus true) (hello "sender" marked) ∧
    ¬@DeafToMetadata asciiPrintable asciiLower raising (emptyBus true) (hello "sender" marked) := by
  have htenant (running : Bool) (metadata : Json) (fromAgent : String) :
      @TenantAllows asciiLower (emptyBus running) (hello fromAgent metadata) := by
    have hvalid : validate (some (@normalizeOrDefault asciiLower (some "acme"))) = true := by
      decide +kernel
    exact @TenantAllows.mk asciiLower _ _ hvalid rfl
  have hforTests : @Accepted asciiPrintable asciiLower willing (emptyBus false)
      (hello "test-agent" (.obj [])) :=
    (@accepted_iff asciiPrintable asciiLower _ _ _).mpr ⟨.inr (.inr (by decide +kernel)),
      @Checked.mk asciiLower _ _ _ (by decide +kernel) rfl (htenant _ _ _) nofun ⟨_, rfl⟩, rfl,
      fun _ => rfl, nofun⟩
  have hmarked : @Accepted asciiPrintable asciiLower raising (emptyBus true)
      (hello "sender" marked) :=
    (@accepted_iff asciiPrintable asciiLower _ _ _).mpr ⟨.inl rfl,
      @Checked.mk asciiLower _ _ _ (by decide +kernel) rfl (htenant _ _ _) nofun ⟨_, rfl⟩,
      by decide +kernel, fun _ => rfl, nofun⟩
  refine ⟨fun h => ?_, fun h => ?_, fun h => ?_⟩
  · rcases (h hforTests).1 with hrunning | hallowed
    · exact absurd hrunning (by decide)
    · exact absurd hallowed (by decide)
  · obtain ⟨-, -, result, hresult, -⟩ := h hmarked
    cases hresult
  · have hsame : @SameAnswers asciiLower raising (hello "sender" marked) (.obj []) :=
      @SameAnswers.mk asciiLower _ _ _ rfl rfl rfl rfl
    have hplain := (h (.obj []) hsame).mp hmarked
    have hvalid := ((@accepted_iff asciiPrintable asciiLower _ _ _).mp hplain).2.2.1
    exact absurd hvalid (by decide +kernel)

end EnhancedAgentBus.Bus
