import EnhancedAgentBus.Bus.Models
import EnhancedAgentBus.Lib.Lookaside

/-!
# The validation cache of the message processor

A message that has passed the gates is answered from the cache, if a message with the same key has
been found valid before; else it is verified and processed.  The key is a digest of some fields of
the message, joined by colons.

The cache changes no verdict just if verification and processing decide alike on messages with the
same fields in the key, as these are joined (`cache_transparent_iff`).
-/

namespace EnhancedAgentBus.MessageProcessor

open Bus

/-! ## The key -/

/-- `raw` as a session, if it is true.  The text of what is true is not empty. -/
def sessionText [PrintTable] (raw : Json) : Option String :=
  if raw.truthy then some (String.ofList raw.pyStr) else none

def extractSessionIdForGovernance [PrintTable] (msg : AgentMessage) : Option String :=
  let header := getItem msg.headers "X-Session-ID"
  let raw := if header.truthy then header else getItem msg.headers "x-session-id"
  (sessionText raw).orElse fun _ =>
    (sessionText (getItem msg.metadata "session_id")).orElse fun _ =>
      sessionText (getItem msg.content "session_id")

def sessionScope [PrintTable] (msg : AgentMessage) : String :=
  ((msg.sessionId.filter (· ≠ "")).orElse fun _ => extractSessionIdForGovernance msg).getD ""

def cacheDimensions [PrintTable] (msg : AgentMessage) : String :=
  let tierVal := (msg.autonomyTier.map AutonomyTier.value).getD "none"
  ":".intercalate
    [String.ofList msg.content.pyStr, msg.constitutionalHash, msg.tenantId.getD "None",
      msg.fromAgent, msg.messageType.value, tierVal, sessionScope msg]

structure CacheKeys where
  digest : String → String
  digest_injective : Function.Injective digest
  governanceCoreMode : String
  governancePeerValidationEnabled : Bool
  governanceManifoldEnabled : Bool

/-- `_compute_cache_key`, of which `compute_message_cache_key` is the first part. -/
def computeCacheKey [PrintTable] (keys : CacheKeys) (msg : AgentMessage) : String :=
  ":".intercalate
    [keys.digest (cacheDimensions msg), keys.governanceCoreMode,
      if keys.governancePeerValidationEnabled then "1" else "0",
      if keys.governanceManifoldEnabled then "1" else "0"]

def defaultLruCacheSize : ℕ := 10000

/-! ## `_do_process` -/

/-- What the parts of the processor make of a message.  There is no answer where a part raises. -/
structure Parts where
  /-- `session_context.session_id`, if a session is found. -/
  resolveSession : AgentMessage → Option String
  /-- `GateCoordinator.run` -/
  gates : AgentMessage → Option (Option ValidationResult)
  /-- The failure that `extract_pqc_failure_result` finds in the verification. -/
  verify : AgentMessage → Option (Option ValidationResult)
  /-- `processing_strategy.process` -/
  process : AgentMessage → Option ValidationResult
  /-- What is written into the metadata of a result. -/
  metadata : AgentMessage → ValidationResult → Json
  /-- `build_decision_event` makes an event. -/
  buildsDecisionEvent : AgentMessage → ValidationResult → Bool

namespace Parts

variable (parts : Parts) (msg : AgentMessage)

def attachSessionContext : AgentMessage :=
  match parts.resolveSession msg with
  | none => msg
  | some sessionId =>
    if (msg.sessionId.filter (· ≠ "")).isSome then msg
    else { msg with sessionId := some sessionId }

def annotate (result : ValidationResult) : ValidationResult :=
  { result with metadata := parts.metadata msg result }

/-- `_handle_failed_processing`, and what is returned after it. -/
def handleFailedProcessing (result : ValidationResult) : Option ValidationResult :=
  if parts.buildsDecisionEvent msg result then some result else none

/-- `_handle_successful_processing`: the result is cached if its event can be made.  The sinks behind
it handle their own failures. -/
def handleSuccessfulProcessing (result : ValidationResult) (cacheKey : String)
    (cache : Dict String ValidationResult) :
    Option ValidationResult × Dict String ValidationResult :=
  if parts.buildsDecisionEvent msg result then
    (some result, Lookaside.store defaultLruCacheSize cache cacheKey result)
  else (none, cache)

def execute (cacheKey : String) (cache : Dict String ValidationResult) :
    Option ValidationResult × Dict String ValidationResult :=
  match parts.verify msg with
  | none => (none, cache)
  | some (some failure) => (parts.handleFailedProcessing msg (parts.annotate msg failure), cache)
  | some none =>
    match parts.process msg with
    | none => (none, cache)
    | some result =>
      let res := parts.annotate msg result
      if res.isValid then parts.handleSuccessfulProcessing msg res cacheKey cache
      else (parts.handleFailedProcessing msg res, cache)

def doProcess [PrintTable] (keys : CacheKeys) (cache : Dict String ValidationResult) :
    Option ValidationResult × Dict String ValidationResult :=
  let msg := parts.attachSessionContext msg
  match parts.gates msg with
  | none => (none, cache)
  | some (some gateResult) =>
    (parts.handleFailedProcessing msg (parts.annotate msg gateResult), cache)
  | some none =>
    let cacheKey := computeCacheKey keys msg
    match cache.get cacheKey with
    | some cached => (some (parts.annotate msg cached), cache.moveToEnd cacheKey)
    | none => parts.execute msg cacheKey cache

def processAll [PrintTable] (keys : CacheKeys) (cache : Dict String ValidationResult) :
    List AgentMessage → List (Option ValidationResult)
  | [] => []
  | msg :: rest =>
    (parts.doProcess msg keys cache).1 ::
      processAll keys (parts.doProcess msg keys cache).2 rest

/-! ## What is asked of the cache -/

omit parts msg in
/-- `is_valid` and `decision` -/
def verdict (result : ValidationResult) : Bool × String := (result.isValid, result.decision)

def freshVerdict [PrintTable] (keys : CacheKeys) : Option (Bool × String) :=
  (parts.doProcess msg keys Dict.empty).1.map verdict

def IsTransparent [PrintTable] (keys : CacheKeys) : Prop :=
  ∀ msgs : List AgentMessage, (parts.processAll keys Dict.empty msgs).map (Option.map verdict) =
    msgs.map fun msg => parts.freshVerdict msg keys

/-! ## When it is met -/

def PassesGates : Prop := parts.gates (parts.attachSessionContext msg) = some none

def decided : Option (Bool × String) :=
  match parts.verify msg with
  | none => none
  | some (some failure) =>
    (parts.handleFailedProcessing msg (parts.annotate msg failure)).map verdict
  | some none =>
    (parts.process msg).bind fun result =>
      (parts.handleFailedProcessing msg (parts.annotate msg result)).map verdict

/-- The result that is cached for the message, if it is verified and processed and found valid. -/
def foundValid : Option ValidationResult :=
  match parts.verify msg with
  | some none =>
    (parts.process msg).bind fun result =>
      (parts.handleFailedProcessing msg (parts.annotate msg result)).filter fun res => res.isValid
  | _ => none

/-- Where a message that passes the gates is found valid, a message that passes them too and has the
same fields in the key is decided alike. -/
def KeyDecides [PrintTable] : Prop :=
  ∀ msg msg' result, parts.PassesGates msg → parts.PassesGates msg' →
    cacheDimensions (parts.attachSessionContext msg) =
      cacheDimensions (parts.attachSessionContext msg') →
    parts.foundValid (parts.attachSessionContext msg) = some result →
      parts.decided (parts.attachSessionContext msg') = some (verdict result)

/-! ## The proof -/

theorem execute_eq (cacheKey : String) (cache : Dict String ValidationResult) :
    (parts.execute msg cacheKey cache).1.map verdict = parts.decided msg ∧
      (parts.execute msg cacheKey cache).2 =
        match parts.foundValid msg with
        | none => cache
        | some result => Lookaside.store defaultLruCacheSize cache cacheKey result := by
  unfold execute decided foundValid
  rcases parts.verify msg with _ | failure
  · exact ⟨rfl, rfl⟩
  · cases failure with
    | some failure => exact ⟨rfl, rfl⟩
    | none =>
      dsimp only
      rcases parts.process msg with _ | result
      · exact ⟨rfl, rfl⟩
      · dsimp only [Option.bind_some]
        unfold handleFailedProcessing handleSuccessfulProcessing
        by_cases hevent : parts.buildsDecisionEvent msg (parts.annotate msg result) = true
        · cases hvalid : (parts.annotate msg result).isValid with
          | true =>
            rw [if_pos rfl, if_pos hevent, if_pos hevent, Option.filter_some_pos hvalid]
            exact ⟨rfl, rfl⟩
          | false =>
            rw [if_neg Bool.false_ne_true, if_pos hevent, Option.filter_some_neg hvalid]
            exact ⟨rfl, rfl⟩
        · rw [if_neg hevent, if_neg hevent, ite_self]
          exact ⟨rfl, rfl⟩

section Transparency

variable {parts} [PrintTable] {keys : CacheKeys} {msg}

theorem computeCacheKey_inj {msg msg' : AgentMessage} :
    computeCacheKey keys msg = computeCacheKey keys msg' ↔
      cacheDimensions msg = cacheDimensions msg' := by
  unfold computeCacheKey
  refine ⟨fun h => keys.digest_injective ?_, fun h => by rw [h]⟩
  simpa only [String.intercalate_cons_cons, String.append_left_inj] using h

variable (parts keys) in
def turn (msg : AgentMessage) :
    Lookaside.Turn String ValidationResult (Option (Bool × String)) :=
  match parts.gates (parts.attachSessionContext msg) with
  | none => .bypass none
  | some (some gateResult) =>
    .bypass ((parts.handleFailedProcessing (parts.attachSessionContext msg)
      (parts.annotate (parts.attachSessionContext msg) gateResult)).map verdict)
  | some none =>
    .look (computeCacheKey keys (parts.attachSessionContext msg)) (fun cached => verdict cached)
      (parts.decided (parts.attachSessionContext msg))
      (parts.foundValid (parts.attachSessionContext msg))

theorem doProcess_eq (cache : Dict String ValidationResult) :
    ((parts.doProcess msg keys cache).1.map verdict, (parts.doProcess msg keys cache).2) =
      Lookaside.step defaultLruCacheSize cache (parts.turn keys msg) := by
  unfold doProcess turn Lookaside.step
  dsimp only
  rcases parts.gates (parts.attachSessionContext msg) with _ | gateResult
  · rfl
  · cases gateResult with
    | some gateResult => rfl
    | none =>
      dsimp only
      cases cache.get (computeCacheKey keys (parts.attachSessionContext msg)) with
      | some cached => rfl
      | none =>
        obtain ⟨hverdict, hcache⟩ := parts.execute_eq (parts.attachSessionContext msg)
          (computeCacheKey keys (parts.attachSessionContext msg)) cache
        dsimp only
        rw [hverdict, hcache]
        rcases parts.foundValid (parts.attachSessionContext msg) with _ | result
        · rfl
        · rfl

theorem processAll_eq (cache : Dict String ValidationResult) (msgs : List AgentMessage) :
    (parts.processAll keys cache msgs).map (Option.map verdict) =
      Lookaside.run defaultLruCacheSize cache (msgs.map (parts.turn keys)) := by
  induction msgs generalizing cache with
  | nil => rfl
  | cons msg rest ih =>
    have hstep : ((parts.doProcess msg keys cache).1.map verdict,
        (parts.doProcess msg keys cache).2) =
          Lookaside.step defaultLruCacheSize cache (parts.turn keys msg) := doProcess_eq cache
    rw [processAll, List.map_cons, List.map_cons, Lookaside.run, ← hstep, ih]

theorem fresh_turn : (parts.turn keys msg).fresh = parts.freshVerdict msg keys := by
  have hstep : ((parts.doProcess msg keys Dict.empty).1.map verdict,
      (parts.doProcess msg keys Dict.empty).2) =
        Lookaside.step defaultLruCacheSize Dict.empty (parts.turn keys msg) :=
    doProcess_eq Dict.empty
  unfold freshVerdict
  rw [(Prod.mk.inj hstep).1]
  unfold Lookaside.Turn.fresh
  cases parts.turn keys msg with
  | bypass answer => rfl
  | look key found fresh kept =>
    rcases kept with _ | value
    · rfl
    · rfl

theorem turn_eq_look_iff {key : String} {found : ValidationResult → Option (Bool × String)}
    {fresh : Option (Bool × String)} {kept : Option ValidationResult} :
    parts.turn keys msg = .look key found fresh kept ↔
      parts.PassesGates msg ∧ key = computeCacheKey keys (parts.attachSessionContext msg) ∧
        found = (fun cached => some (verdict cached)) ∧
        fresh = parts.decided (parts.attachSessionContext msg) ∧
        kept = parts.foundValid (parts.attachSessionContext msg) := by
  unfold turn PassesGates
  rcases parts.gates (parts.attachSessionContext msg) with _ | gateResult
  · simp
  · cases gateResult with
    | some gateResult => simp
    | none => simp [eq_comm]

theorem keysDecide_turn_iff : Lookaside.KeysDecide (parts.turn keys) ↔ parts.KeyDecides := by
  constructor
  · intro h msg msg' result hpasses hpasses' hkeys hfound
    have hkept : Lookaside.KeptUnder (parts.turn keys)
        (computeCacheKey keys (parts.attachSessionContext msg')) result :=
      ⟨msg, _, _, turn_eq_look_iff.mpr ⟨hpasses, (computeCacheKey_inj.mpr hkeys).symm, rfl, rfl,
        hfound.symm⟩⟩
    exact (h msg' _ _ _ _ result (turn_eq_look_iff.mpr ⟨hpasses', rfl, rfl, rfl, rfl⟩) hkept).symm
  · rintro h msg' key found fresh kept result hmsg' ⟨msg, found', fresh', hmsg⟩
    obtain ⟨hpasses', rfl, rfl, rfl, -⟩ := turn_eq_look_iff.mp hmsg'
    obtain ⟨hpasses, hkeys, -, -, hfound⟩ := turn_eq_look_iff.mp hmsg
    exact (h msg msg' result hpasses hpasses' (computeCacheKey_inj.mp hkeys).symm
      hfound.symm).symm

end Transparency

/-- **The validation cache.**  It changes no verdict just if verification and processing decide
alike on messages that pass the gates, have the same fields in the key, and of which one is found
valid. -/
theorem cache_transparent_iff [PrintTable] (parts : Parts) (keys : CacheKeys) :
    parts.IsTransparent keys ↔ parts.KeyDecides := by
  rw [← keysDecide_turn_iff, ← Lookaside.transparent_iff defaultLruCacheSize (parts.turn keys)]
  unfold IsTransparent
  simp only [processAll_eq, fresh_turn]

end Parts

/-! ## Messages that share a key -/

def deciding (allows : AgentMessage → Bool) : Parts where
  resolveSession _ := none
  gates _ := some none
  verify _ := some none
  process msg := some (if allows msg then {} else { isValid := false, decision := "DENY" })
  metadata _ result := result.metadata
  buildsDecisionEvent _ _ := true

def plainKeys : CacheKeys where
  digest := id
  digest_injective := Function.injective_id
  governanceCoreMode := "legacy"
  governancePeerValidationEnabled := false
  governanceManifoldEnabled := false

def request (fromAgent toAgent : String) (messageType : MessageType) (sessionId : Option String) :
    AgentMessage where
  messageId := "m"
  conversationId := "c"
  fromAgent := fromAgent
  toAgent := toAgent
  messageType := messageType
  sessionId := sessionId

/-- A message is allowed for a recipient for whom it would be denied, after the same message for
another one.  A command is allowed where commands are denied, after a query whose sender has colons
in its name. -/
theorem cache_changes_verdicts :
    ¬@Parts.IsTransparent (deciding fun msg => msg.toAgent ≠ "vault") asciiPrintable plainKeys ∧
    ¬@Parts.IsTransparent (deciding fun msg => msg.messageType = .query) asciiPrintable
      plainKeys := by
  constructor
  · intro h
    have hpair := h [request "sender" "worker" .command none,
      request "sender" "vault" .command none]
    exact absurd hpair (by decide +kernel)
  · intro h
    have hpair := h [request "a:command:bounded:z" "worker" .query none,
      request "a" "worker" .command (some "z:query:bounded:")]
    exact absurd hpair (by decide +kernel)

end EnhancedAgentBus.MessageProcessor
