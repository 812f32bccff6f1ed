import EnhancedAgentBus.Constitutional.AmendmentModel
import EnhancedAgentBus.Constitutional.ProposalEngine
import EnhancedAgentBus.Constitutional.Storage
import EnhancedAgentBus.Deliberation.ConstitutionalSaga

/-!
# What the sagas of an amendment call

The activation and the rollback of an amendment call the storage service, the OPA server, the cache,
the audit client, the metrics with their detector, and the notifiers.  Here each call is one
operation.  How it ends is the environment's choice: it
is answered, it comes to nothing (`None`, `False`), or it raises; a call that is not answered may
have taken effect all the same.  The calls of compensations are answered.

A version and an amendment are saved by an `INSERT`, which a row with the same key refuses.
-/

namespace EnhancedAgentBus.Constitutional

open Async Deliberation

/-- The stores, and whether the record of OPA was written since the saga began. -/
structure Stores where
  versions : Versions
  amendments : Dict String Amendment
  opaRecord : Option String := none
  opaWritten : Bool := false

/-- A call.  Of a snapshot of the metrics it matters only whether there is one. -/
inductive StoreCall where
  | getAmendment (proposalId : String)
  | getVersion (versionId : String)
  | getActiveVersion
  | saveVersion (version : ConstitutionalVersion)
  | activateVersion (versionId : String) (now : Time)
  | saveAmendment (amendment : Amendment)
  | putActiveHash (hash : String)
  | deleteCacheKey
  | log
  | getBaselineSnapshot (versionId : String)
  | collectSnapshot (versionId : String)
  | analyzeDegradation
  | sendNotification (channel : String)

namespace StoreCall

@[reducible] def Value : StoreCall → Type
  | getAmendment _ => Option Amendment
  | getVersion _ | getActiveVersion => Option ConstitutionalVersion
  | saveVersion _ | activateVersion _ _ | saveAmendment _ | putActiveHash _ => Bool
  | getBaselineSnapshot _ => Bool
  | deleteCacheKey | log | collectSnapshot _ | analyzeDegradation | sendNotification _ => Unit

/-- What a call returns that has failed without an exception. -/
def nothing : (c : StoreCall) → c.Value
  | getAmendment _ => none
  | getVersion _ | getActiveVersion => none
  | saveVersion _ | activateVersion _ _ | saveAmendment _ | putActiveHash _ => false
  | getBaselineSnapshot _ => false
  | deleteCacheKey | log | collectSnapshot _ | analyzeDegradation | sendNotification _ => ()

def reads : StoreCall → Bool
  | saveVersion _ | activateVersion _ _ | saveAmendment _ | putActiveHash _ => false
  | _ => true

end StoreCall

structure SagaOp where
  call : StoreCall
  compensating : Bool := false

/-- How a call ends.  No program sees whether a call took effect. -/
structure Reply (o : SagaOp) where
  result : Except Raised o.call.Value
  applied : Bool

abbrev SagaCode := Prog SagaOp Reply Raised

namespace Stores

/-- `get_active_version`, which raises where more than one is active. -/
def activeVersion (s : Stores) : Except Raised (Option ConstitutionalVersion) :=
  match s.versions.active with
  | [] => .ok none
  | [version] => .ok (some version)
  | _ => .error .other

def execute (s : Stores) : (c : StoreCall) → Except Raised c.Value × Stores
  | .getAmendment proposalId => (.ok (s.amendments.get proposalId), s)
  | .getVersion versionId => (.ok (s.versions.find versionId), s)
  | .getActiveVersion => (s.activeVersion, s)
  | .saveVersion version =>
    match s.versions.find version.versionId with
    | some _ => (.error .other, s)
    | none => (.ok true, { s with versions := s.versions.put version })
  | .activateVersion versionId now =>
    match s.versions.find versionId with
    | none => (.ok false, s)
    | some version =>
      match s.activeVersion with
      | .error e => (.error e, s)
      | .ok none => (.ok true, { s with versions := s.versions.put (version.activate now) })
      | .ok (some current) =>
        (.ok true,
          { s with
            versions := (s.versions.put (current.deactivate "superseded" now)).put
              (version.activate now) })
  | .saveAmendment amendment =>
    match s.amendments.get amendment.proposalId with
    | some _ => (.error .other, s)
    | none =>
      (.ok true, { s with amendments := s.amendments.set amendment.proposalId amendment })
  | .putActiveHash hash => (.ok true, { s with opaRecord := some hash, opaWritten := true })
  | .deleteCacheKey => (.ok (), s)
  | .log => (.ok (), s)
  | .getBaselineSnapshot _ => (.ok true, s)
  | .collectSnapshot _ => (.ok (), s)
  | .analyzeDegradation => (.ok (), s)
  | .sendNotification _ => (.ok (), s)

end Stores

inductive CallEnding where
  | answered
  | nothing (applied : Bool)
  | raised (e : Raised) (applied : Bool)
  deriving DecidableEq

def Stores.perform (s : Stores) (o : SagaOp) : CallEnding → Reply o × Stores
  | .answered => (⟨(s.execute o.call).1, true⟩, (s.execute o.call).2)
  | .nothing applied => (⟨.ok o.call.nothing, applied⟩, if applied then (s.execute o.call).2 else s)
  | .raised e applied => (⟨.error e, applied⟩, if applied then (s.execute o.call).2 else s)

/-- The calls of compensations are answered, the others end in any way. -/
def CallStep (s : Stores) (o : SagaOp) (r : Reply o) (s' : Stores) : Prop :=
  ∃ ending, (o.compensating = true → ending = .answered) ∧ s.perform o ending = (r, s')

def CallServed (s : Stores) (o : SagaOp) (r : Reply o) (s' : Stores) : Prop :=
  s.perform o .answered = (r, s')

def SagaOp.code (o : SagaOp) : SagaCode o.call.Value := do
  match (← (Prog.perform o : SagaCode (Reply o))).result with
  | .ok value => pure value
  | .error e => .raise e

def call (c : StoreCall) : SagaCode c.Value := SagaOp.code ⟨c, false⟩

def compensatingCall (c : StoreCall) : SagaCode c.Value := SagaOp.code ⟨c, true⟩

/-- `try` around a call whose exceptions of some kinds are logged only. -/
def ignoring {α : Type} (kinds : List Raised) (code : SagaCode α) (otherwise : α) : SagaCode α := do
  match ← code.attempt with
  | .ok value => pure value
  | .error e => if e ∈ kinds then pure otherwise else .raise e

/-! ## What calls do -/

theorem StoreCall.reads_execute {c : StoreCall} (hreads : c.reads = true) (s : Stores) :
    (s.execute c).2 = s := by
  cases c <;> first | rfl | cases hreads

theorem CallStep.read {s s' : Stores} {o : SagaOp} {r : Reply o} (hstep : CallStep s o r s')
    (hreads : o.call.reads = true) :
    s' = s ∧ ∀ value, r.result = .ok value → value = o.call.nothing ∨ (s.execute o.call).1 = .ok value := by
  obtain ⟨ending, -, hperform⟩ := hstep
  have hsame := StoreCall.reads_execute hreads s
  cases ending with
  | answered =>
    obtain ⟨rfl, rfl⟩ := Prod.mk.inj hperform
    exact ⟨hsame, fun value hvalue => Or.inr hvalue⟩
  | nothing applied =>
    obtain ⟨rfl, rfl⟩ := Prod.mk.inj hperform
    refine ⟨by rw [hsame, ite_self], fun value hvalue => Or.inl ?_⟩
    exact (Except.ok.inj hvalue).symm
  | raised e applied =>
    obtain ⟨rfl, rfl⟩ := Prod.mk.inj hperform
    exact ⟨by rw [hsame, ite_self], nofun⟩

theorem CallStep.compensating {s s' : Stores} {c : StoreCall} {r : Reply ⟨c, true⟩}
    (hstep : CallStep s ⟨c, true⟩ r s') :
    r = ⟨(s.execute c).1, true⟩ ∧ s' = (s.execute c).2 := by
  obtain ⟨ending, hanswered, hperform⟩ := hstep
  rw [hanswered rfl] at hperform
  obtain ⟨rfl, rfl⟩ := Prod.mk.inj hperform
  exact ⟨rfl, rfl⟩

section Rules

variable {σ α : Type} {step : σ → (o : SagaOp) → Reply o → σ → Prop} {s : σ}

theorem safe_code (o : SagaOp) {Q : o.call.Value → σ → Prop} {E : Raised → σ → Prop} :
    Safe step (fun _ _ => True) o.code s Q E ↔
      ∀ r s', step s o r s' → match r.result with
        | .ok value => Q value s'
        | .error e => E e s' := by
  rw [SagaOp.code, safe_bind, safe_perform, true_and]
  refine forall₃_congr fun r s' _ => ?_
  cases r.result <;> rfl

theorem safe_ignoring {kinds : List Raised} {code : SagaCode α} {otherwise : α}
    {Q : α → σ → Prop} {E : Raised → σ → Prop} :
    Safe step (fun _ _ => True) (ignoring kinds code otherwise) s Q E ↔
      Safe step (fun _ _ => True) code s Q
        fun e s' => if e ∈ kinds then Q otherwise s' else E e s' := by
  rw [ignoring, safe_bind, safe_attempt]
  have hcaught : ∀ (e : Raised) (s' : σ),
      Safe step (fun _ _ => True) (if e ∈ kinds then pure otherwise else .raise e : SagaCode α) s' Q E ↔
        if e ∈ kinds then Q otherwise s' else E e s' := by
    intro e s'
    split <;> rfl
  constructor
  · exact fun h => h.mono (fun _ _ hq => hq) fun e t he => (hcaught e t).mp he
  · exact fun h => h.mono (fun _ _ hq => hq) fun e t he => (hcaught e t).mpr he

end Rules

end EnhancedAgentBus.Constitutional
