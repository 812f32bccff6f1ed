import EnhancedAgentBus.Maci.Enforcer
import EnhancedAgentBus.Lib.Machine

/-!
# Who validates what it has produced

An enforcer and its registry, run from the start by any list of operations: whether an agent that
once recorded an output can have it validated by itself, and whether a strict enforcer lets anyone
validate an output that no one is known to have produced.

The registry remembers an output in two places, and each of them is a part of the past
(`kept_run`): the record of an agent holds what it has recorded since its record was last made or
lost, and the map of outputs names the last agent to have recorded one, unless that agent has been
unregistered or its session cleared since.  The rule is about the whole past, so it fails where both
have forgotten (`not_neverValidatesOwn`); `neverValidatesOwn_iff` says which calls those are.
-/

namespace EnhancedAgentBus.Maci

/-! ## The system -/

/-- An operation on the registry, or an action to validate. -/
inductive Op where
  | registerAgent (agentId : String) (role : MACIRole) (sessionId : Option String)
  | unregisterAgent (agentId : String) (sessionId : Option String)
  | recordOutput (agentId outputId : String) (sessionId : Option String)
  | batchRecordOutputs (agentId : String) (outputIds : List String) (sessionId : Option String)
  | clearSession (sessionId : String)
  | validateAction (agentId : String) (action : MACIAction)
      (targetOutputId targetAgentId sessionId : Option String)
  deriving DecidableEq

def step (e : MACIEnforcer) : Op → MACIEnforcer
  | .registerAgent agentId role sessionId =>
    { e with registry := (e.registry.registerAgent agentId role sessionId).2 }
  | .unregisterAgent agentId sessionId =>
    { e with registry := (e.registry.unregisterAgent agentId sessionId).2 }
  | .recordOutput agentId outputId sessionId =>
    { e with registry := e.registry.recordOutput agentId outputId sessionId }
  | .batchRecordOutputs agentId outputIds sessionId =>
    { e with registry := e.registry.batchRecordOutputs agentId outputIds sessionId }
  | .clearSession sessionId => { e with registry := (e.registry.clearSession sessionId).2 }
  | .validateAction agentId action targetOutputId targetAgentId sessionId =>
    (e.validateAction agentId action targetOutputId targetAgentId sessionId).2

def start (strictMode : Bool) : MACIEnforcer := { strictMode := strictMode }

abbrev after (strictMode : Bool) (ops : List Op) : MACIEnforcer :=
  Machine.run step (start strictMode) ops

/-! ## The past of an output -/

/-- The operation records an output of a registered agent. -/
def Records (a o : String) (scope : Option String) (e : MACIEnforcer) : Op → Prop
  | .recordOutput agentId outputId sessionId =>
    (e.registry.roleOf a scope).isSome ∧ sessionId = scope ∧ agentId = a ∧ outputId = o
  | .batchRecordOutputs agentId outputIds sessionId =>
    (e.registry.roleOf a scope).isSome ∧ sessionId = scope ∧ agentId = a ∧ o ∈ outputIds
  | _ => False

/-- The operation makes a new record of an agent, or takes its record away. -/
def Resets (a : String) (scope : Option String) (_e : MACIEnforcer) : Op → Prop
  | .registerAgent agentId _ sessionId =>
    MACIRoleRegistry.registrationScope sessionId = scope ∧ agentId = a
  | .unregisterAgent agentId sessionId => sessionId = scope ∧ agentId = a
  | .clearSession sessionId => some sessionId = scope
  | _ => False

/-- The operation gives an output to another agent, or takes the agent away.  Making a new record of
the agent does not. -/
def Displaces (a o : String) (scope : Option String) (e : MACIEnforcer) : Op → Prop
  | .unregisterAgent agentId sessionId => sessionId = scope ∧ agentId = a
  | .clearSession sessionId => some sessionId = scope
  | op => ∃ other ≠ a, Records other o scope e op

/-- The agent has recorded the output at some time. -/
def Recorded (strictMode : Bool) (past : List Op) (a o : String) (scope : Option String) : Prop :=
  Machine.Once step (start strictMode) (Records a o scope) past

def RecordedSinceRegistration (strictMode : Bool) (past : List Op) (a o : String)
    (scope : Option String) : Prop :=
  Machine.Since step (start strictMode) (Records a o scope) (Resets a scope) past

/-- The agent is the last that has recorded the output, and has not been taken away since. -/
def LastToRecord (strictMode : Bool) (past : List Op) (a o : String) (scope : Option String) :
    Prop :=
  Machine.Since step (start strictMode) (Records a o scope) (Displaces a o scope) past

/-! ## The rule -/

/-- A call that validates an output: whoever has recorded it is refused, and a strict enforcer lets
no one else through but for a recorded producer of a role that the agent may validate. -/
structure Right (strictMode : Bool) (past : List Op) (a o : String)
    (targetAgentId scope : Option String) : Prop where
  own : Recorded strictMode past a o scope →
    ¬(after strictMode past).Allows a .validate (some o) targetAgentId scope
  others : strictMode = true →
    (after strictMode past).Allows a .validate (some o) targetAgentId scope →
      ∃ producer, producer ≠ a ∧
        (after strictMode past).registry.getOutputProducer o scope = some producer ∧
        ∃ record target, (after strictMode past).registry.getAgent a scope = some record ∧
          (after strictMode past).registry.getAgent producer scope = some target ∧
          record.canValidateRole target.role = true

/-- **No agent validates its own output**: every validation of an output along a run is right. -/
def NeverValidatesOwn (strictMode : Bool) (ops : List Op) : Prop :=
  ∀ past a o targetAgentId scope rest,
    ops = past ++ .validateAction a .validate (some o) targetAgentId scope :: rest →
      Right strictMode past a o targetAgentId scope

/-- The past of a call from which the rule follows.  It is asked only of a call by a judicial agent
whose other target is in order.

An output with an id must be remembered in one of the two places if the agent has recorded it, or
have passed to one that a judicial agent may not validate; and a strict enforcer must know of
someone who has recorded it.  Of an output with an empty id nothing is checked. -/
structure Covered (strictMode : Bool) (past : List Op) (a o : String)
    (targetAgentId scope : Option String) : Prop where
  own : (after strictMode past).Seated a scope →
    (after strictMode past).TargetAdmitted a targetAgentId scope →
      Recorded strictMode past a o scope → o ≠ "" ∧
        (RecordedSinceRegistration strictMode past a o scope ∨
          LastToRecord strictMode past a o scope ∨
          ∃ producer, producer ≠ "" ∧ LastToRecord strictMode past producer o scope ∧
            ¬(after strictMode past).Judgeable producer scope)
  others : (after strictMode past).Seated a scope →
    (after strictMode past).TargetAdmitted a targetAgentId scope → strictMode = true →
      o ≠ "" ∧ RecordedSinceRegistration strictMode past a o scope ∨
        ∃ producer, LastToRecord strictMode past producer o scope ∧
          (o = "" → producer ≠ a) ∧
          (o = "" ∨ producer = "" ∧ producer ≠ a → (after strictMode past).Judgeable producer scope)

/-! ## What an operation does to the two places -/

/-- Whoever is named as a producer is registered. -/
def Coherent (reg : MACIRoleRegistry) : Prop :=
  ∀ a o scope, reg.getOutputProducer o scope = some a → (reg.roleOf a scope).isSome

namespace Coherent

variable {reg : MACIRoleRegistry}

theorem empty : Coherent {} := by
  intro a o scope h
  rw [MACIRoleRegistry.getOutputProducer_empty] at h
  exact absurd h (Option.some_ne_none a).symm

theorem getOutputProducer_ne (hreg : Coherent reg) {a o : String} {scope : Option String}
    (h : reg.getAgent a scope = none) : reg.getOutputProducer o scope ≠ some a := by
  intro hproducer
  have hsome := hreg a o scope hproducer
  rw [MACIRoleRegistry.roleOf, h] at hsome
  exact absurd hsome Bool.false_ne_true

theorem getOutputProducer_unregisterAgent (hreg : Coherent reg) (agentId : String)
    (sessionId : Option String) (a o : String) (scope : Option String) :
    (reg.unregisterAgent agentId sessionId).2.getOutputProducer o scope = some a ↔
      reg.getOutputProducer o scope = some a ∧ ¬(sessionId = scope ∧ agentId = a) := by
  rw [MACIRoleRegistry.getOutputProducer_unregisterAgent]
  by_cases hscope : scope = sessionId
  · subst hscope
    rcases hagent : reg.getAgent agentId scope with _ | record
    · simp only [Option.isSome_none, Bool.false_eq_true, and_false, if_false]
      refine (and_iff_left_of_imp fun h => ?_).symm
      rintro ⟨-, rfl⟩
      exact hreg.getOutputProducer_ne hagent h
    · simp only [Option.isSome_some, and_self, if_true, Option.filter_eq_some_iff,
        decide_eq_true_eq, true_and]
      exact and_congr_right fun _ => ne_comm.trans Iff.rfl
  · simp [hscope, Ne.symm hscope]

theorem getOutputProducer_clearSession (hreg : Coherent reg) (sessionId : String) (a o : String)
    (scope : Option String) :
    (reg.clearSession sessionId).2.getOutputProducer o scope = some a ↔
      reg.getOutputProducer o scope = some a ∧ some sessionId ≠ scope := by
  rw [MACIRoleRegistry.getOutputProducer_clearSession]
  by_cases hscope : scope = some sessionId
  · subst hscope
    rcases hsession : reg.sessionAgents.get sessionId with _ | agents
    · have hagent : reg.getAgent a (some sessionId) = none := by
        simp [MACIRoleRegistry.getAgent, MACIRoleRegistry.agentsOf,
          Dict.nested_of_get_eq_none hsession]
      simp [hreg.getOutputProducer_ne hagent]
    · simp
  · simp [hscope, Ne.symm hscope]

end Coherent

theorem writes_iff (records : String → Prop) (agentId a : String) (written : Prop)
    [Decidable written] (before : Option String)
    (hrecords : ∀ a, records a ↔ agentId = a ∧ written) :
    (if written then some agentId else before) = some a ↔
      records a ∨ before = some a ∧ ¬∃ other, other ≠ a ∧ records other := by
  by_cases h : written
  · simp only [h, if_true, Option.some.injEq, hrecords, and_true]
    refine (or_iff_left_of_imp ?_).symm
    rintro ⟨-, hother⟩
    by_contra hne
    exact hother ⟨agentId, hne, rfl⟩
  · simp [h, hrecords]

theorem getOutputProducer_step {e : MACIEnforcer} (hreg : Coherent e.registry) (op : Op)
    (a o : String) (scope : Option String) :
    (step e op).registry.getOutputProducer o scope = some a ↔
      Records a o scope e op ∨
        e.registry.getOutputProducer o scope = some a ∧ ¬Displaces a o scope e op := by
  cases op with
  | registerAgent agentId role sessionId =>
    have hsame : (e.registry.registerAgent agentId role sessionId).2.getOutputProducer o scope =
        e.registry.getOutputProducer o scope :=
      MACIRoleRegistry.getOutputProducer_registerAgent ..
    simp [step, hsame, Records, Displaces]
  | unregisterAgent agentId sessionId =>
    rw [step, hreg.getOutputProducer_unregisterAgent]
    exact (or_iff_right id).symm
  | recordOutput agentId outputId sessionId =>
    rw [step, MACIRoleRegistry.getOutputProducer_recordOutput]
    refine writes_iff (fun a => Records a o scope e (.recordOutput agentId outputId sessionId))
      agentId a _ _ fun a => ?_
    rw [Records, MACIRoleRegistry.roleOf, Option.isSome_map]
    constructor
    · rintro ⟨hagent, rfl, rfl, rfl⟩
      exact ⟨rfl, rfl, rfl, hagent⟩
    · rintro ⟨rfl, rfl, rfl, hagent⟩
      exact ⟨hagent, rfl, rfl, rfl⟩
  | batchRecordOutputs agentId outputIds sessionId =>
    rw [step, MACIRoleRegistry.getOutputProducer_batchRecordOutputs]
    refine writes_iff
      (fun a => Records a o scope e (.batchRecordOutputs agentId outputIds sessionId)) agentId a _ _
      fun a => ?_
    rw [Records, MACIRoleRegistry.roleOf, Option.isSome_map]
    constructor
    · rintro ⟨hagent, rfl, rfl, hmem⟩
      exact ⟨rfl, rfl, hmem, hagent⟩
    · rintro ⟨rfl, rfl, hmem, hagent⟩
      exact ⟨hagent, rfl, rfl, hmem⟩
  | clearSession sessionId =>
    rw [step, hreg.getOutputProducer_clearSession]
    exact (or_iff_right id).symm
  | validateAction agentId action targetOutputId targetAgentId sessionId =>
    simp [step, Records, Displaces]

theorem owns_step {e : MACIEnforcer} (op : Op) (a o : String) (scope : Option String) :
    (step e op).registry.Owns a o scope ↔
      Records a o scope e op ∨ e.registry.Owns a o scope ∧ ¬Resets a scope e op := by
  cases op with
  | registerAgent agentId role sessionId =>
    rw [step, MACIRoleRegistry.Owns, MACIRoleRegistry.getAgent_registerAgent]
    by_cases h : scope = MACIRoleRegistry.registrationScope sessionId ∧ a = agentId
    · obtain ⟨rfl, rfl⟩ := h
      simp [Records, Resets]
    · rw [if_neg h]
      refine Iff.trans (and_iff_left ?_).symm (or_iff_right id).symm
      exact fun h' => h ⟨h'.1.symm, h'.2.symm⟩
  | unregisterAgent agentId sessionId =>
    rw [step, MACIRoleRegistry.Owns, MACIRoleRegistry.getAgent_unregisterAgent]
    by_cases h : scope = sessionId ∧ a = agentId
    · obtain ⟨rfl, rfl⟩ := h
      simp [Records, Resets]
    · rw [if_neg h]
      refine Iff.trans (and_iff_left ?_).symm (or_iff_right id).symm
      exact fun h' => h ⟨h'.1.symm, h'.2.symm⟩
  | recordOutput agentId outputId sessionId =>
    rw [step, MACIRoleRegistry.owns_recordOutput, Records, MACIRoleRegistry.roleOf,
      Option.isSome_map]
    refine or_congr ?_ (and_iff_left not_false).symm
    constructor
    · rintro ⟨rfl, rfl, rfl, hagent⟩
      exact ⟨hagent, rfl, rfl, rfl⟩
    · rintro ⟨hagent, rfl, rfl, rfl⟩
      exact ⟨rfl, rfl, rfl, hagent⟩
  | batchRecordOutputs agentId outputIds sessionId =>
    rw [step, MACIRoleRegistry.owns_batchRecordOutputs, Records, MACIRoleRegistry.roleOf,
      Option.isSome_map]
    refine or_congr ?_ (and_iff_left not_false).symm
    constructor
    · rintro ⟨rfl, rfl, hmem, hagent⟩
      exact ⟨hagent, rfl, rfl, hmem⟩
    · rintro ⟨hagent, rfl, rfl, hmem⟩
      exact ⟨rfl, rfl, hmem, hagent⟩
  | clearSession sessionId =>
    rw [step, MACIRoleRegistry.Owns, MACIRoleRegistry.getAgent_clearSession]
    by_cases h : scope = some sessionId
    · subst h
      simp [Records, Resets]
    · rw [if_neg h]
      exact Iff.trans (and_iff_left (Ne.symm h)).symm (or_iff_right id).symm
  | validateAction agentId action targetOutputId targetAgentId sessionId =>
    simp [step, Records, Resets]

theorem Records.registered {a o : String} {scope : Option String} {e : MACIEnforcer} {op : Op}
    (h : Records a o scope e op) : (e.registry.roleOf a scope).isSome := by
  cases op with
  | recordOutput agentId outputId sessionId => exact h.1
  | batchRecordOutputs agentId outputIds sessionId => exact h.1
  | registerAgent agentId role sessionId => exact h.elim
  | unregisterAgent agentId sessionId => exact h.elim
  | clearSession sessionId => exact h.elim
  | validateAction agentId action targetOutputId targetAgentId sessionId => exact h.elim

theorem registered_step {e : MACIEnforcer} {op : Op} {a o : String} {scope : Option String}
    (hrole : (e.registry.roleOf a scope).isSome)
    (h : Records a o scope e op ∨ ¬Displaces a o scope e op) :
    ((step e op).registry.roleOf a scope).isSome := by
  rw [MACIRoleRegistry.roleOf, Option.isSome_map] at hrole ⊢
  cases op with
  | registerAgent agentId role sessionId =>
    rw [step, MACIRoleRegistry.getAgent_registerAgent]
    split
    · rfl
    · exact hrole
  | unregisterAgent agentId sessionId =>
    rw [step, MACIRoleRegistry.getAgent_unregisterAgent]
    have hother : ¬(scope = sessionId ∧ a = agentId) := fun heq =>
      h.elim id fun h => h ⟨heq.1.symm, heq.2.symm⟩
    rwa [if_neg hother]
  | recordOutput agentId outputId sessionId =>
    have hsame : (e.registry.recordOutput agentId outputId sessionId).roleOf a scope =
        e.registry.roleOf a scope := MACIRoleRegistry.roleOf_recordOutput ..
    rwa [← Option.isSome_map (f := MACIAgentRecord.role), ← MACIRoleRegistry.roleOf, step, hsame,
      MACIRoleRegistry.roleOf, Option.isSome_map]
  | batchRecordOutputs agentId outputIds sessionId =>
    have hsame : (e.registry.batchRecordOutputs agentId outputIds sessionId).roleOf a scope =
        e.registry.roleOf a scope := MACIRoleRegistry.roleOf_batchRecordOutputs ..
    rwa [← Option.isSome_map (f := MACIAgentRecord.role), ← MACIRoleRegistry.roleOf, step, hsame,
      MACIRoleRegistry.roleOf, Option.isSome_map]
  | clearSession sessionId =>
    rw [step, MACIRoleRegistry.getAgent_clearSession]
    have hother : scope ≠ some sessionId := fun heq => h.elim id fun h => h heq.symm
    rwa [if_neg hother]
  | validateAction agentId action targetOutputId targetAgentId sessionId =>
    rwa [step, MACIEnforcer.validateAction_registry]

theorem Coherent.step {e : MACIEnforcer} (hreg : Coherent e.registry) (op : Op) :
    Coherent (step e op).registry := by
  intro a o scope hproducer
  rcases (getOutputProducer_step hreg op a o scope).mp hproducer with hrecords | ⟨hbefore, hkept⟩
  · exact registered_step hrecords.registered (.inl hrecords)
  · exact registered_step (hreg a o scope hbefore) (.inr hkept)

/-- **What the registry remembers.** -/
theorem kept_run (strictMode : Bool) (ops : List Op) (a o : String) (scope : Option String) :
    Coherent (after strictMode ops).registry ∧
      ((after strictMode ops).registry.getOutputProducer o scope = some a ↔
        LastToRecord strictMode ops a o scope) ∧
      ((after strictMode ops).registry.Owns a o scope ↔
        RecordedSinceRegistration strictMode ops a o scope) := by
  have hproducer := Machine.since_iff (P := Records a o scope) (Q := Displaces a o scope)
    (fun e : MACIEnforcer => Coherent e.registry)
    (fun e => e.registry.getOutputProducer o scope = some a) (s := start strictMode)
    Coherent.empty
    (fun h =>
      Option.some_ne_none a (h.symm.trans (MACIRoleRegistry.getOutputProducer_empty o scope)))
    (fun e op hreg => hreg.step op) (fun e op hreg => getOutputProducer_step hreg op a o scope) ops
  have howns := Machine.since_iff (P := Records a o scope) (Q := Resets a scope)
    (fun _ : MACIEnforcer => True) (fun e => e.registry.Owns a o scope) (s := start strictMode)
    trivial
    (fun ⟨record, hrecord, _⟩ =>
      Option.some_ne_none record (hrecord.symm.trans (MACIRoleRegistry.getAgent_empty a scope)))
    (fun _ _ _ => trivial) (fun e op _ => owns_step op a o scope) ops
  exact ⟨hproducer.1, hproducer.2, howns.2⟩

/-! ## When the rule is kept -/

section

variable {strictMode : Bool} {past : List Op} {a o : String} {targetAgentId scope : Option String}

theorem allows_iff : (after strictMode past).Allows a .validate (some o) targetAgentId scope ↔
    (after strictMode past).Seated a scope ∧
      (after strictMode past).TargetAdmitted a targetAgentId scope ∧
      (o ≠ "" → ¬LastToRecord strictMode past a o scope ∧
        ¬RecordedSinceRegistration strictMode past a o scope ∧
        ∀ p, LastToRecord strictMode past p o scope → p ≠ "" →
          (after strictMode past).Judgeable p scope) := by
  obtain ⟨hcoherent, hlast, howns⟩ := kept_run strictMode past a o scope
  rw [MACIEnforcer.allows_validate_iff, ← hlast, ← howns]
  refine and_congr_right fun _ => and_congr_right fun _ => imp_congr_right fun _ =>
    and_congr_right fun _ => and_congr_right fun _ => forall_congr' fun p => ?_
  rw [← (kept_run strictMode past p o scope).2.1]
  refine imp_congr_right fun hp => imp_congr_right fun _ => or_iff_right fun hnone => ?_
  have hsome := hcoherent p o scope hp
  rw [hnone] at hsome
  exact absurd hsome Bool.false_ne_true

theorem vouched_iff (hseated : (after strictMode past).Seated a scope) :
    (∃ producer, producer ≠ a ∧
        (after strictMode past).registry.getOutputProducer o scope = some producer ∧
        ∃ record target, (after strictMode past).registry.getAgent a scope = some record ∧
          (after strictMode past).registry.getAgent producer scope = some target ∧
          record.canValidateRole target.role = true) ↔
      ∃ producer, producer ≠ a ∧ LastToRecord strictMode past producer o scope ∧
        (after strictMode past).Judgeable producer scope := by
  obtain ⟨record, hrecord, hrole⟩ := Option.map_eq_some_iff.mp hseated
  refine exists_congr fun p => and_congr_right fun _ => ?_
  rw [(kept_run strictMode past p o scope).2.1]
  refine and_congr_right fun _ => ?_
  constructor
  · rintro ⟨record', target, hrecord', htarget, hvalidate⟩
    obtain rfl := Option.some.inj (hrecord.symm.trans hrecord')
    rw [MACIEnforcer.judgeable_of_getAgent htarget]
    rwa [MACIAgentRecord.canValidateRole, hrole, decide_eq_true_eq] at hvalidate
  · rintro ⟨role, hmem, hrole'⟩
    obtain ⟨target, htarget, rfl⟩ := Option.map_eq_some_iff.mp hrole'
    refine ⟨record, target, hrecord, htarget, ?_⟩
    rwa [MACIAgentRecord.canValidateRole, hrole, decide_eq_true_eq]

theorem right_iff_covered :
    Right strictMode past a o targetAgentId scope ↔
      Covered strictMode past a o targetAgentId scope := by
  constructor
  · rintro ⟨hown, hothers⟩
    constructor
    · intro hseated htarget hrecorded
      have hrefused := hown hrecorded
      rw [allows_iff, not_and, not_and] at hrefused
      have hchecked := hrefused hseated htarget
      push Not at hchecked
      obtain ⟨hne, hchecked⟩ := hchecked
      refine ⟨hne, ?_⟩
      by_cases hlast : LastToRecord strictMode past a o scope
      · exact .inr (.inl hlast)
      · by_cases hsince : RecordedSinceRegistration strictMode past a o scope
        · exact .inl hsince
        · obtain ⟨p, hp, hpne, hjudge⟩ := hchecked hlast hsince
          exact .inr (.inr ⟨p, hpne, hp, hjudge⟩)
    · intro hseated htarget hstrict
      by_cases hallows : (after strictMode past).Allows a .validate (some o) targetAgentId scope
      · obtain ⟨p, hpa, hp, hjudge⟩ := (vouched_iff hseated).mp (hothers hstrict hallows)
        exact .inr ⟨p, hp, fun _ => hpa, fun _ => hjudge⟩
      · rw [allows_iff, not_and, not_and] at hallows
        have hchecked := hallows hseated htarget
        push Not at hchecked
        obtain ⟨hne, hchecked⟩ := hchecked
        by_cases hlast : LastToRecord strictMode past a o scope
        · refine .inr ⟨a, hlast, fun h => absurd h hne, ?_⟩
          rintro (h | h)
          · exact absurd h hne
          · exact absurd rfl h.2
        · by_cases hsince : RecordedSinceRegistration strictMode past a o scope
          · exact .inl ⟨hne, hsince⟩
          · obtain ⟨p, hp, hpne, -⟩ := hchecked hlast hsince
            refine .inr ⟨p, hp, fun h => absurd h hne, ?_⟩
            rintro (h | h)
            · exact absurd h hne
            · exact absurd h.1 hpne
  · rintro ⟨hown, hothers⟩
    constructor
    · intro hrecorded hallows
      rw [allows_iff] at hallows
      obtain ⟨hseated, htarget, hchecked⟩ := hallows
      obtain ⟨hne, hcaught⟩ := hown hseated htarget hrecorded
      obtain ⟨hlast, hsince, hjudge⟩ := hchecked hne
      rcases hcaught with h | h | ⟨p, hpne, hp, hbarred⟩
      · exact hsince h
      · exact hlast h
      · exact hbarred (hjudge p hp hpne)
    · intro hstrict hallows
      rw [allows_iff] at hallows
      obtain ⟨hseated, htarget, hchecked⟩ := hallows
      rw [vouched_iff hseated]
      rcases hothers hseated htarget hstrict with ⟨hne, hsince⟩ | ⟨p, hp, hempty, hjudge⟩
      · exact absurd hsince (hchecked hne).2.1
      · by_cases hne : o = ""
        · exact ⟨p, hempty hne, hp, hjudge (.inl hne)⟩
        · obtain ⟨hlast, -, hjudgeable⟩ := hchecked hne
          have hpa : p ≠ a := fun h => hlast (h ▸ hp)
          by_cases hpne : p = ""
          · exact ⟨p, hpa, hp, hjudge (.inr ⟨hpne, hpa⟩)⟩
          · exact ⟨p, hpa, hp, hjudgeable p hp hpne⟩

end

/-- Every validation of an output along a run is covered by its past. -/
def CoveredThroughout (strictMode : Bool) (ops : List Op) : Prop :=
  ∀ past a o targetAgentId scope rest,
    ops = past ++ .validateAction a .validate (some o) targetAgentId scope :: rest →
      Covered strictMode past a o targetAgentId scope

/-- **When no agent validates its own output.** -/
theorem neverValidatesOwn_iff (strictMode : Bool) (ops : List Op) :
    NeverValidatesOwn strictMode ops ↔ CoveredThroughout strictMode ops := by
  constructor
  · intro h past a o targetAgentId scope rest heq
    exact right_iff_covered.mp (h past a o targetAgentId scope rest heq)
  · intro h past a o targetAgentId scope rest heq
    exact right_iff_covered.mpr (h past a o targetAgentId scope rest heq)

/-- A judicial agent that is unregistered and registered again validates what it has recorded
before. -/
def forgotten : List Op :=
  [.registerAgent "judge" .judicial none, .recordOutput "judge" "ruling" none,
    .unregisterAgent "judge" none, .registerAgent "judge" .judicial none]

theorem not_neverValidatesOwn : ¬NeverValidatesOwn true
    (forgotten ++ [.validateAction "judge" .validate (some "ruling") none none]) := by
  intro h
  have hright := h forgotten "judge" "ruling" none none [] rfl
  refine hright.own ?_ ?_
  · exact ⟨[.registerAgent "judge" .judicial none], .recordOutput "judge" "ruling" none, _, rfl,
      ⟨rfl, rfl, rfl, rfl⟩⟩
  · rw [MACIEnforcer.allows_validate_iff]
    refine ⟨rfl, ?_, fun _ => ?_⟩
    · exact fun target htarget => absurd htarget (Option.some_ne_none target).symm
    refine ⟨fun h => absurd h (by decide), ?_, fun p hp => ?_⟩
    · rintro ⟨record, hrecord, hmem⟩
      obtain rfl := Option.some.inj hrecord
      exact absurd hmem List.not_mem_nil
    · exact absurd hp (Option.some_ne_none p).symm

end EnhancedAgentBus.Maci
