import EnhancedAgentBus.Constitutional.AmendmentChain

/-!
# Whether an activation is all or nothing

The saga writes the record of OPA before any other store, and the first write of the other stores is
never reached.  So the versions and the amendment stay as they were, and the record is set back by a
compensation, if the compensations run.  They do not run after an exception that the saga leaves to
its caller: `ActivationSagaError`, an error of the database driver.  An activation is all or nothing
just if no such exception is raised once the record is written (`allOrNothing_iff`).
-/

namespace EnhancedAgentBus.Constitutional

open Async Async.Prog Deliberation

abbrev StoreEntry := Entry Stores SagaOp Reply

abbrev TracedStores := Stores × List StoreEntry

/-! ## What is promised -/

/-- One active version, one approved amendment that passes the validation, and a record of OPA that
the saga has not written. -/
structure ReadyToActivate (s : Stores) (active : ConstitutionalVersion) (amendment : Amendment) :
    Prop where
  sole : s.versions.active = [active]
  hash : isHash active.constitutionalHash = true
  stored : s.amendments.get amendment.proposalId = some amendment
  approved : amendment.status = .approved
  target : ∃ target, s.versions.find amendment.targetVersion = some target ∧
    target.constitutionalHash = constitutionalHash
  unwritten : s.opaWritten = false

/-- The new version is the active one, and the amendment is active. -/
structure TookEffect (proposalId : String) (result : SagaResult ActivationContext) (s : Stores) :
    Prop where
  active : ∃ v, (∀ w, w ∈ s.versions.active ↔ w = v) ∧ result.context.newVersionId = some v.versionId
  amendment : ∃ amendment, s.amendments.get proposalId = some amendment ∧ amendment.status = .active

/-- The version that was active is the active one, the amendment is approved, and the record of OPA,
if it was written, has the hash of the active version. -/
structure TookNoEffect (versionId proposalId : String) (s : Stores) : Prop where
  active : ∃ v, (∀ w, w ∈ s.versions.active ↔ w = v) ∧ v.versionId = versionId ∧
    (s.opaWritten = true → s.opaRecord = some v.constitutionalHash)
  amendment : ∃ amendment, s.amendments.get proposalId = some amendment ∧
    amendment.status = .approved

/-- A completed activation took effect, any other did not. -/
def AllOrNothing (versionId proposalId : String) :
    Outcome Raised (SagaResult ActivationContext) → Stores → Prop
  | .returned result, s =>
    if result.status = .completed then TookEffect proposalId result s
    else TookNoEffect versionId proposalId s
  | _, s => TookNoEffect versionId proposalId s

/-! ## What breaks a saga off -/

namespace StoreCall

def writesRecord : StoreCall → Bool
  | putActiveHash _ => true
  | _ => false

/-- A value without which a step raises `ActivationSagaError`. -/
def lacks : (c : StoreCall) → c.Value → Bool
  | getAmendment _, found => found.isNone
  | getVersion _, found => found.isNone
  | _, _ => false

/-- Whether what a call returns or raises makes its step raise what the saga does not handle. -/
def breaksOff (c : StoreCall) : Except Raised c.Value → Bool
  | .ok value => c.lacks value
  | .error e => !e.isOperational && !(c.writesRecord && decide (e = .requestError))

end StoreCall

/-- A call of a step breaks the saga off, and the record of OPA is written. -/
def BreaksOff (e : StoreEntry) : Prop :=
  e.op.compensating = false ∧ e.op.call.breaksOff e.resp.result = true ∧
    (e.before.opaWritten = true ∨ e.op.call.writesRecord = true ∧ e.resp.applied = true)

def Unbroken (t : TracedStores) : Prop := ∀ e ∈ t.2, ¬BreaksOff e

theorem Unbroken.cons {t : TracedStores} {e : StoreEntry} {s' : Stores} (h : Unbroken t)
    (he : ¬BreaksOff e) : Unbroken (s', e :: t.2) :=
  List.forall_mem_cons.mpr ⟨he, h⟩

theorem Unbroken.compensating {t : TracedStores} {c : StoreCall} {r : Reply ⟨c, true⟩} {s' : Stores}
    (h : Unbroken t) : Unbroken (s', ⟨t.1, ⟨c, true⟩, r⟩ :: t.2) :=
  h.cons fun hbreaks => Bool.noConfusion hbreaks.1

/-! ## While the steps run -/

/-- Neither the versions nor the amendments have changed, and what OPA was given is a digest. -/
structure Kept (s₀ s : Stores) : Prop where
  versions : s.versions = s₀.versions
  amendments : s.amendments = s₀.amendments
  record : s.opaWritten = true → ∃ hash, s.opaRecord = some hash ∧ hash.length = 64

/-- The saga has left its steps by an exception. -/
structure LeftOff (s₀ : Stores) (t : TracedStores) : Prop where
  kept : Kept s₀ t.1
  broken : Unbroken t ↔ t.1.opaWritten = false

/-- An exception of a step: the step is attempted again, or the saga is left. -/
def Thrown (s₀ : Stores) (e : Raised) (t : TracedStores) : Prop :=
  if e.isOperational then Kept s₀ t.1 ∧ Unbroken t else LeftOff s₀ t

section Calls

variable {s₀ : Stores} {t : TracedStores}

theorem Kept.logged (hkept : Kept s₀ t.1) (hunbroken : Unbroken t) {c : StoreCall}
    (hwrites : c.writesRecord = false) (r : Reply ⟨c, false⟩) :
    if c.breaksOff r.result = true then LeftOff s₀ (t.1, ⟨t.1, ⟨c, false⟩, r⟩ :: t.2)
    else Kept s₀ t.1 ∧ Unbroken (t.1, ⟨t.1, ⟨c, false⟩, r⟩ :: t.2) := by
  have hbreaks : BreaksOff ⟨t.1, ⟨c, false⟩, r⟩ ↔
      c.breaksOff r.result = true ∧ t.1.opaWritten = true := by
    simp [BreaksOff, hwrites]
  split
  · rename_i hoff
    refine ⟨hkept, fun h => ?_, fun h => hunbroken.cons ?_⟩
    · have hnot := h _ List.mem_cons_self
      rw [hbreaks, not_and, Bool.not_eq_true] at hnot
      exact hnot hoff
    · rw [hbreaks, h]
      exact fun hno => Bool.false_ne_true hno.2
  · rename_i hon
    exact ⟨hkept, hunbroken.cons fun h => hon (hbreaks.mp h).1⟩

/-- However the stores answer a step or a compensation, it ends so. -/
abbrev EndsIn {α : Type} (p : SagaCode α) (t : TracedStores) (Q : α → TracedStores → Prop)
    (E : Raised → TracedStores → Prop) : Prop :=
  Safe (traced CallStep) (fun _ _ => True) p t Q E

theorem Kept.read (hkept : Kept s₀ t.1) (hunbroken : Unbroken t) {c : StoreCall}
    (hreads : c.reads = true) :
    EndsIn (call c) t
      (fun value t' => if c.lacks value then LeftOff s₀ t' else Kept s₀ t'.1 ∧ Unbroken t')
      (Thrown s₀) := by
  have hwrites : c.writesRecord = false := by cases c <;> first | rfl | cases hreads
  rw [call, EndsIn, safe_code]
  rintro r ⟨s', log⟩ ⟨hstep, hlog⟩
  dsimp only at hlog hstep
  obtain ⟨rfl, -⟩ := hstep.read hreads
  have hlogged := hkept.logged hunbroken hwrites r
  rw [← hlog] at hlogged
  cases hr : r.result with
  | ok value =>
    rw [hr] at hlogged
    exact hlogged
  | error e =>
    rw [hr, StoreCall.breaksOff, hwrites] at hlogged
    dsimp only [Thrown]
    cases hop : e.isOperational with
    | true => simpa [hop] using hlogged
    | false => simpa [hop] using hlogged

theorem Kept.requireAmendment (hkept : Kept s₀ t.1) (hunbroken : Unbroken t)
    {context : ActivationContext} (hid : context.amendmentId ≠ "") :
    EndsIn (requireAmendment context) t
      (fun _ t' => Kept s₀ t'.1 ∧ Unbroken t') (Thrown s₀) := by
  rw [Constitutional.requireAmendment, if_neg hid, EndsIn, safe_bind]
  refine (hkept.read hunbroken rfl).mono (fun found t' ht' => ?_) fun _ _ he => he
  rcases found with _ | amendment
  · exact ht'
  · exact ht'

theorem Kept.requireTarget (hkept : Kept s₀ t.1) (hunbroken : Unbroken t) (amendment : Amendment) :
    EndsIn (requireTarget amendment) t
      (fun _ t' => Kept s₀ t'.1 ∧ Unbroken t') (Thrown s₀) := by
  rw [Constitutional.requireTarget, EndsIn, safe_bind]
  refine (hkept.read hunbroken rfl).mono (fun found t' ht' => ?_) fun _ _ he => he
  rcases found with _ | target
  · exact ht'
  · exact ht'

theorem CallStep.putActiveHash {s s' : Stores} {hash : String}
    {r : Reply ⟨.putActiveHash hash, false⟩}
    (hstep : CallStep s ⟨.putActiveHash hash, false⟩ r s') :
    r.applied = true ∧ s' = { s with opaRecord := some hash, opaWritten := true } ∨
      r.applied = false ∧ s' = s := by
  obtain ⟨ending, -, hperform⟩ := hstep
  cases ending with
  | answered =>
    obtain ⟨rfl, rfl⟩ := Prod.mk.inj hperform
    exact Or.inl ⟨rfl, rfl⟩
  | nothing applied =>
    obtain ⟨rfl, rfl⟩ := Prod.mk.inj hperform
    cases applied with
    | true => exact Or.inl ⟨rfl, rfl⟩
    | false => exact Or.inr ⟨rfl, rfl⟩
  | raised e applied =>
    obtain ⟨rfl, rfl⟩ := Prod.mk.inj hperform
    cases applied with
    | true => exact Or.inl ⟨rfl, rfl⟩
    | false => exact Or.inr ⟨rfl, rfl⟩

theorem Kept.putActiveHash (hkept : Kept s₀ t.1) (hunbroken : Unbroken t) {hash : String}
    (hlength : hash.length = 64) :
    EndsIn
      (ignoring [.requestError, .osError, .valueError] (call (.putActiveHash hash)) false) t
      (fun _ t' => Kept s₀ t'.1 ∧ Unbroken t') (Thrown s₀) := by
  rw [EndsIn, safe_ignoring, call, safe_code]
  rintro r ⟨s', log⟩ ⟨hstep, hlog⟩
  dsimp only at hlog hstep
  subst hlog
  have hkept' : Kept s₀ s' := by
    rcases hstep.putActiveHash with ⟨-, rfl⟩ | ⟨-, rfl⟩
    · exact ⟨hkept.versions, hkept.amendments, fun _ => ⟨hash, rfl, hlength⟩⟩
    · exact hkept
  have hwritten : s'.opaWritten = true ↔ t.1.opaWritten = true ∨ r.applied = true := by
    rcases hstep.putActiveHash with ⟨happlied, rfl⟩ | ⟨happlied, rfl⟩
    · simp [happlied]
    · simp [happlied]
  have hbreaks : BreaksOff ⟨t.1, ⟨.putActiveHash hash, false⟩, r⟩ ↔
      (StoreCall.putActiveHash hash).breaksOff r.result = true ∧ s'.opaWritten = true := by
    rw [hwritten]
    simp [BreaksOff, StoreCall.writesRecord]
  have hgoing : (StoreCall.putActiveHash hash).breaksOff r.result = false →
      Kept s₀ s' ∧ Unbroken (s', ⟨t.1, ⟨.putActiveHash hash, false⟩, r⟩ :: t.2) := by
    intro hon
    refine ⟨hkept', hunbroken.cons fun h => ?_⟩
    rw [(hbreaks.mp h).1] at hon
    cases hon
  cases hr : r.result with
  | ok value =>
    rw [hr] at hgoing
    exact hgoing rfl
  | error e =>
    rw [hr] at hgoing hbreaks
    dsimp only
    split
    · rename_i hcaught
      refine hgoing ?_
      simp only [List.mem_cons, List.not_mem_nil, or_false] at hcaught
      rcases hcaught with rfl | rfl | rfl <;> rfl
    · rename_i hcaught
      unfold Thrown
      split
      · rename_i hop
        refine hgoing ?_
        rw [StoreCall.breaksOff, hop]
        rfl
      · rename_i hop
        have hrequest : e ≠ .requestError := by
          rintro rfl
          exact hcaught List.mem_cons_self
        have hoff : (StoreCall.putActiveHash hash).breaksOff (.error e) = true := by
          simp [StoreCall.breaksOff, hop, hrequest]
        refine ⟨hkept', fun h => ?_, fun h => hunbroken.cons fun hb => ?_⟩
        · have hnot := h _ List.mem_cons_self
          rw [hbreaks, not_and, Bool.not_eq_true] at hnot
          exact hnot hoff
        · rw [hbreaks, h] at hb
          exact Bool.false_ne_true hb.2

end Calls

/-! ## The steps -/

section Steps

variable {s₀ : Stores} {t : TracedStores} (setting : ActivationSetting)
variable {context : ActivationContext}

theorem Kept.updateOpaPolicies (hkept : Kept s₀ t.1) (hunbroken : Unbroken t)
    (hid : context.amendmentId ≠ "") :
    EndsIn (updateOpaPolicies setting context) t
      (fun context' t' => context' = context ∧ Kept s₀ t'.1 ∧ Unbroken t') (Thrown s₀) := by
  rw [Constitutional.updateOpaPolicies, EndsIn, safe_bind]
  refine (hkept.requireAmendment hunbroken hid).mono (fun amendment t₁ h₁ => ?_) fun _ _ he => he
  rw [safe_bind]
  refine (h₁.1.requireTarget h₁.2 amendment).mono (fun target t₂ h₂ => ?_) fun _ _ he => he
  rw [safe_bind]
  refine (h₂.1.putActiveHash h₂.2 (setting.length_hexdigest _)).mono (fun _ t₃ h₃ => ?_)
    fun _ _ he => he
  exact ⟨rfl, h₃⟩

theorem Kept.updateCache (hkept : Kept s₀ t.1) (hunbroken : Unbroken t)
    (hid : context.amendmentId ≠ "") :
    EndsIn (updateCache setting context) t
      (fun _ _ => False) (Thrown s₀) := by
  rw [Constitutional.updateCache, EndsIn, safe_bind]
  refine (hkept.requireAmendment hunbroken hid).mono (fun amendment t₁ h₁ => ?_) fun _ _ he => he
  rw [safe_bind]
  refine (h₁.1.requireTarget h₁.2 amendment).mono (fun target t₂ h₂ => ?_) fun _ _ he => he
  rw [buildVersion_error]
  exact h₂

theorem Kept.attempts {run : SagaCode ActivationContext}
    {Q : ActivationContext → TracedStores → Prop}
    (hrun : ∀ t, Kept s₀ t.1 → Unbroken t →
      EndsIn run t Q (Thrown s₀))
    (hkept : Kept s₀ t.1) (hunbroken : Unbroken t) (n : ℕ) :
    EndsIn (attempts run n) t
      (fun result t' => match result with
        | some context' => Q context' t'
        | none => Kept s₀ t'.1 ∧ Unbroken t')
      (fun _ => LeftOff s₀) := by
  refine (safe_attempts (I := fun t => Kept s₀ t.1 ∧ Unbroken t) (Q := Q) (fun t ht => ?_)
    ⟨hkept, hunbroken⟩ n).mono (fun result t' ht' => ?_) fun _ _ he => he
  · exact (hrun t ht.1 ht.2).mono (fun _ _ hq => hq) fun _ _ he => he
  · rcases result with _ | context'
    · exact ht'
    · exact ht'

/-! ### Before the record is written -/

structure Untouched (s₀ : Stores) (t : TracedStores) : Prop where
  stores : t.1 = s₀
  unbroken : Unbroken t

variable (hunwritten : s₀.opaWritten = false)
include hunwritten

theorem Untouched.read (huntouched : Untouched s₀ t) {c : StoreCall} (hreads : c.reads = true) :
    EndsIn (call c) t
      (fun value t' => Untouched s₀ t' ∧ (value = c.nothing ∨ (s₀.execute c).1 = .ok value))
      (fun _ t' => Untouched s₀ t') := by
  have hwrites : c.writesRecord = false := by cases c <;> first | rfl | cases hreads
  obtain ⟨rfl, hunbroken⟩ := huntouched
  rw [call, EndsIn, safe_code]
  rintro r ⟨s', log⟩ ⟨hstep, hlog⟩
  dsimp only at hlog hstep
  obtain ⟨rfl, hfound⟩ := hstep.read hreads
  have huntouched : Untouched t.1 (t.1, log) := by
    refine ⟨rfl, ?_⟩
    rw [hlog]
    exact hunbroken.cons fun h => by simp [BreaksOff, hwrites, hunwritten] at h
  cases hr : r.result with
  | ok value => exact ⟨huntouched, hfound value hr⟩
  | error e => exact huntouched

theorem Untouched.kept (huntouched : Untouched s₀ t) : Kept s₀ t.1 := by
  obtain ⟨rfl, -⟩ := huntouched
  refine ⟨rfl, rfl, fun h => ?_⟩
  rw [hunwritten] at h
  cases h

theorem Untouched.thrown (huntouched : Untouched s₀ t) (e : Raised) :
    if e.isOperational then Untouched s₀ t else LeftOff s₀ t := by
  split
  · exact huntouched
  · refine ⟨huntouched.kept hunwritten, fun _ => ?_, fun _ => huntouched.unbroken⟩
    rw [huntouched.stores, hunwritten]

theorem Untouched.attempts {run : SagaCode ActivationContext}
    {Q : ActivationContext → TracedStores → Prop}
    (hrun : ∀ t, Untouched s₀ t →
      EndsIn run t Q fun _ => Untouched s₀)
    (huntouched : Untouched s₀ t) (n : ℕ) :
    EndsIn (attempts run n) t
      (fun result t' => match result with
        | some context' => Q context' t'
        | none => Untouched s₀ t')
      (fun _ => LeftOff s₀) := by
  refine (safe_attempts (I := Untouched s₀) (Q := Q) (fun t ht => ?_) huntouched n).mono
    (fun result t' ht' => ?_) fun _ _ he => he
  · exact (hrun t ht).mono (fun _ _ hq => hq) fun e _ he => he.thrown hunwritten e
  · rcases result with _ | context'
    · exact ht'
    · exact ht'

theorem Untouched.requireAmendment (huntouched : Untouched s₀ t) :
    EndsIn (requireAmendment context) t
      (fun _ t' => context.amendmentId ≠ "" ∧ Untouched s₀ t') (fun _ t' => Untouched s₀ t') := by
  rw [Constitutional.requireAmendment]
  split
  · exact huntouched
  · rename_i hid
    rw [EndsIn, safe_bind]
    refine (huntouched.read hunwritten rfl).mono (fun found t' ht' => ?_) fun _ _ he => he
    rcases found with _ | amendment
    · exact ht'.1
    · exact ⟨hid, ht'.1⟩

theorem Untouched.requireTarget (huntouched : Untouched s₀ t) (amendment : Amendment) :
    EndsIn (requireTarget amendment) t
      (fun _ t' => Untouched s₀ t') (fun _ t' => Untouched s₀ t') := by
  rw [Constitutional.requireTarget, EndsIn, safe_bind]
  refine (huntouched.read hunwritten rfl).mono (fun found t' ht' => ?_) fun _ _ he => he
  rcases found with _ | target
  · exact ht'.1
  · exact ht'.1

theorem Untouched.validateActivation (huntouched : Untouched s₀ t) :
    EndsIn (validateActivation context) t
      (fun context' t' => context'.amendmentId ≠ "" ∧ context'.backup = context.backup ∧ Untouched s₀ t')
      (fun _ t' => Untouched s₀ t') := by
  rw [Constitutional.validateActivation, EndsIn, safe_bind]
  refine (huntouched.requireAmendment hunwritten).mono (fun amendment t₁ h₁ => ?_) fun _ _ he => he
  obtain ⟨hid, h₁⟩ := h₁
  split
  · exact h₁
  rw [safe_bind]
  refine (h₁.requireTarget hunwritten amendment).mono (fun target t₂ h₂ => ?_) fun _ _ he => he
  rw [safe_bind]
  refine (h₂.read hunwritten rfl).mono (fun _ t₃ h₃ => ?_) fun _ _ he => he
  split
  · exact h₃.1
  · exact ⟨hid, rfl, h₃.1⟩

theorem Untouched.backupCurrentVersion (huntouched : Untouched s₀ t) {active : ConstitutionalVersion}
    (hactive : s₀.versions.active = [active]) :
    EndsIn (backupCurrentVersion context) t
      (fun context' t' => context'.amendmentId = context.amendmentId ∧
        context'.backup =
          some ⟨active.versionId, active.version, active.constitutionalHash⟩ ∧ Untouched s₀ t')
      (fun _ t' => Untouched s₀ t') := by
  rw [Constitutional.backupCurrentVersion, EndsIn, safe_bind]
  refine (huntouched.read hunwritten rfl).mono (fun found t' ht' => ?_) fun _ _ he => he
  obtain ⟨ht', hfound⟩ := ht'
  rcases found with _ | version
  · exact ht'
  · have hversion : some version = some active := by
      rcases hfound with hnothing | hstored
      · cases hnothing
      · rw [Stores.execute, Stores.activeVersion, hactive] at hstored
        exact (Except.ok.inj hstored).symm
    obtain rfl := Option.some.inj hversion
    exact ⟨rfl, rfl, ht'⟩

end Steps

/-! ## The compensations -/

section Compensations

variable {s₀ : Stores} {t : TracedStores} {active : ConstitutionalVersion} {amendment : Amendment}

theorem safe_compensatingCall {c : StoreCall} {value : c.Value} {Q : c.Value → TracedStores → Prop}
    {E : Raised → TracedStores → Prop} (hanswer : (t.1.execute c).1 = .ok value)
    (hQ : Q value ((t.1.execute c).2, ⟨t.1, ⟨c, true⟩, ⟨.ok value, true⟩⟩ :: t.2)) :
    EndsIn (compensatingCall c) t Q E := by
  rw [compensatingCall, EndsIn, safe_code]
  rintro r ⟨s', log⟩ ⟨hstep, hlog⟩
  dsimp only at hlog hstep
  obtain ⟨rfl, rfl⟩ := hstep.compensating
  subst hlog
  dsimp only
  rw [hanswer]
  exact hQ

theorem Stores.activateVersion_active {s : Stores} (hactive : s.versions.active = [active])
    (now : Time) :
    s.execute (.activateVersion active.versionId now) =
      (.ok true,
        { s with
          versions := (s.versions.put (active.deactivate "superseded" now)).put
            (active.activate now) }) := by
  have hmem : active ∈ s.versions.active := by rw [hactive]; exact List.mem_cons_self
  rw [Stores.execute, (Versions.mem_active.mp hmem).1, Stores.activeVersion, hactive]

theorem Versions.mem_active_reactivated {vs : Versions} (hactive : vs.active = [active]) (now : Time)
    (w : ConstitutionalVersion) :
    w ∈ ((vs.put (active.deactivate "superseded" now)).put (active.activate now)).active ↔
      w = active.activate now := by
  rw [Versions.mem_active_put, Versions.mem_active_put, hactive, List.mem_singleton]
  constructor
  · rintro (⟨hw, -⟩ | ⟨⟨rfl, -⟩ | ⟨rfl, hne⟩, hid⟩)
    · exact hw
    · exact absurd rfl hid
    · exact absurd rfl hid
  · exact fun hw => Or.inl ⟨hw, rfl⟩

variable (hready : ReadyToActivate s₀ active amendment)
include hready

theorem ReadyToActivate.tookNoEffect :
    TookNoEffect active.versionId amendment.proposalId s₀ where
  active := by
    refine ⟨active, fun w => ?_, rfl, fun h => ?_⟩
    · rw [hready.sole, List.mem_singleton]
    · rw [hready.unwritten] at h
      cases h
  amendment := ⟨amendment, hready.stored, hready.approved⟩

theorem LeftOff.tookNoEffect_iff (h : LeftOff s₀ t) :
    TookNoEffect active.versionId amendment.proposalId t.1 ↔ t.1.opaWritten = false := by
  have hsole : ∀ w, w ∈ t.1.versions.active ↔ w = active := by
    intro w
    rw [h.kept.versions, hready.sole, List.mem_singleton]
  constructor
  · intro hno
    obtain ⟨v, hv, -, hrecord⟩ := hno.active
    obtain rfl : v = active := (hsole v).mp ((hv v).mpr rfl)
    by_contra hwritten
    rw [Bool.not_eq_false] at hwritten
    -- a hash of a version is no digest
    obtain ⟨hash, hhash, hlength⟩ := h.kept.record hwritten
    obtain rfl := Option.some.inj (hhash.symm.trans (hrecord hwritten))
    have hshape := hready.hash
    simp [isHash, hlength] at hshape
  · intro hwritten
    refine ⟨⟨active, hsole, rfl, fun hno => ?_⟩, amendment, ?_, hready.approved⟩
    · rw [hwritten] at hno
      cases hno
    · rw [h.kept.amendments]
      exact hready.stored

omit hready in
theorem Kept.revertCache_done (hkept : Kept s₀ t.1) (hunbroken : Unbroken t)
    (setting : ActivationSetting) :
    EndsIn (revertCache setting) t
      (fun done t' => done = true ∧ Kept s₀ t'.1 ∧ Unbroken t') (fun _ _ => False) := by
  rw [revertCache]
  split
  · rw [EndsIn, safe_ignoring, safe_bind]
    exact safe_compensatingCall rfl ⟨rfl, hkept, hunbroken.compensating⟩
  · exact ⟨rfl, hkept, hunbroken⟩

/-- The record of OPA has the hash of the version that was active, and nothing else has changed. -/
structure Reverted (s₀ : Stores) (hash : String) (t : TracedStores) : Prop where
  versions : t.1.versions = s₀.versions
  amendments : t.1.amendments = s₀.amendments
  record : t.1.opaRecord = some hash
  unbroken : Unbroken t

variable {context : ActivationContext}
  (hbackup : context.backup = some ⟨active.versionId, active.version, active.constitutionalHash⟩)

omit hready in
include hbackup in
theorem Kept.revertOpaPolicies_done (hkept : Kept s₀ t.1) (hunbroken : Unbroken t) :
    EndsIn (revertOpaPolicies context) t
      (fun done t' => done = true ∧ Reverted s₀ active.constitutionalHash t') (fun _ _ => False) := by
  rw [revertOpaPolicies, hbackup, EndsIn, safe_ignoring]
  exact safe_compensatingCall rfl
    ⟨rfl, hkept.versions, hkept.amendments, rfl, hunbroken.compensating⟩

include hbackup in
theorem Reverted.restoreBackup_done (h : Reverted s₀ active.constitutionalHash t)
    (setting : ActivationSetting) :
    EndsIn (restoreBackup setting context) t
      (fun done t' => done = true ∧
        TookNoEffect active.versionId amendment.proposalId t'.1 ∧ Unbroken t')
      (fun _ _ => False) := by
  have hactive : t.1.versions.active = [active] := by rw [h.versions, hready.sole]
  have hanswer := Stores.activateVersion_active hactive setting.now
  rw [restoreBackup, hbackup]
  dsimp only
  rw [EndsIn, safe_ignoring, safe_bind]
  refine safe_compensatingCall (congrArg Prod.fst hanswer) ?_
  rw [hanswer]
  refine ⟨rfl, ⟨⟨active.activate setting.now, ?_, rfl, fun _ => h.record⟩, amendment, ?_,
    hready.approved⟩, h.unbroken.compensating⟩
  · exact Versions.mem_active_reactivated hactive setting.now
  · show t.1.amendments.get amendment.proposalId = some amendment
    rw [h.amendments, hready.stored]

/-- The saga has ended without effect, and its compensations have run. -/
def Undone (active : ConstitutionalVersion) (amendment : Amendment) (t : TracedStores) : Prop :=
  TookNoEffect active.versionId amendment.proposalId t.1 ∧ Unbroken t

omit hready in
theorem Undone.logged (h : Undone active amendment t) (name : String) :
    EndsIn
      (runCompensations context [{ name := name, execute := fun _ => pure true }]) t
      (fun _ => Undone active amendment) (fun _ => LeftOff s₀) := by
  have hdone : EndsIn (pure true : SagaCode Bool) t
      (fun done t' => done = true ∧ Undone active amendment t') (fun _ _ => False) := ⟨rfl, h⟩
  refine safe_runCompensations_cons ?_
  exact (safe_executeCompensation_succ hdone 2).mono (fun _ _ ht => ht.2) fun _ _ he => he

theorem Kept.undone (hkept : Kept s₀ t.1) (hunbroken : Unbroken t) (setting : ActivationSetting)
    (hbackup : context.backup =
      some ⟨active.versionId, active.version, active.constitutionalHash⟩) :
    EndsIn
      (runCompensations context
        [{ name := "revert_cache", execute := fun _ => revertCache setting },
          { name := "revert_opa_policies", execute := revertOpaPolicies },
          { name := "restore_backup", execute := restoreBackup setting },
          { name := "log_validation_failure", execute := fun _ => pure true }]) t
      (fun _ => Undone active amendment) (fun _ => LeftOff s₀) := by
  refine safe_runCompensations_cons ?_
  refine (safe_executeCompensation_succ (hkept.revertCache_done hunbroken setting) 2).mono
    (fun _ t₁ h₁ => ?_) fun _ _ he => he
  refine safe_runCompensations_cons ?_
  refine (safe_executeCompensation_succ (h₁.2.1.revertOpaPolicies_done hbackup h₁.2.2) 2).mono
    (fun _ t₂ h₂ => ?_) fun _ _ he => he
  refine safe_runCompensations_cons ?_
  refine (safe_executeCompensation_succ (h₂.2.restoreBackup_done hready hbackup setting) 2).mono
    (fun _ t₃ h₃ => ?_) fun _ _ he => he
  exact Undone.logged h₃.2 _

theorem Untouched.undone (huntouched : Untouched s₀ t) : Undone active amendment t := by
  obtain ⟨rfl, hunbroken⟩ := huntouched
  exact ⟨hready.tookNoEffect, hunbroken⟩

theorem Untouched.undone_backup (huntouched : Untouched s₀ t) (setting : ActivationSetting)
    (hnone : context.backup = none) :
    EndsIn
      (runCompensations context
        [{ name := "restore_backup", execute := restoreBackup setting },
          { name := "log_validation_failure", execute := fun _ => pure true }]) t
      (fun _ => Undone active amendment) (fun _ => LeftOff s₀) := by
  have hrestore : ∀ t, Undone active amendment t →
      EndsIn (restoreBackup setting context) t
        (fun done t' => if done then Undone active amendment t' else Undone active amendment t')
        (fun e t' => if e.isOperational then Undone active amendment t' else LeftOff s₀ t') := by
    intro t ht
    rw [restoreBackup, hnone]
    exact ht
  refine safe_runCompensations_cons ?_
  refine (safe_executeCompensation hrestore (huntouched.undone hready) 3).mono (fun done t₁ h₁ => ?_)
    fun _ _ he => he
  rw [ite_self] at h₁
  exact h₁.logged _

end Compensations

/-! ## The saga -/

section Saga

variable {s₀ : Stores} {active : ConstitutionalVersion} {amendment : Amendment}
variable (hready : ReadyToActivate s₀ active amendment) (setting : ActivationSetting)
include hready

abbrev Leads (s₀ : Stores) (active : ConstitutionalVersion) (amendment : Amendment) :
    SagaRun SagaOp Reply ActivationContext → TracedStores → Prop :=
  Concludes (traced CallStep) (fun _ _ => True)
    (fun result t => result.status ≠ .completed ∧ Undone active amendment t)
    (Undone active amendment) (fun _ => LeftOff s₀)

theorem safe_fromUpdateCache {context : ActivationContext} {t : TracedStores} {names : List String}
    (hid : context.amendmentId ≠ "")
    (hbackup : context.backup =
      some ⟨active.versionId, active.version, active.constitutionalHash⟩)
    (hkept : Kept s₀ t.1) (hunbroken : Unbroken t) :
    EndsIn
      (executeSteps ((activationSteps setting).drop 3)
        { context := context
          compensations :=
            [{ name := "revert_opa_policies", execute := revertOpaPolicies },
              { name := "restore_backup", execute := restoreBackup setting },
              { name := "log_validation_failure", execute := fun _ => pure true }]
          completedSteps := names }) t
      (Leads s₀ active amendment) (fun _ => LeftOff s₀) := by
  refine safe_executeSteps_cons ?_
  refine (Kept.attempts (fun t hkept hunbroken => hkept.updateCache setting hunbroken hid) hkept
    hunbroken 3).mono (fun updated t₁ h₁ => ?_) fun _ _ he => he
  rcases updated with _ | context'
  · exact h₁.1.undone hready h₁.2 setting hbackup
  · exact h₁.elim

theorem safe_fromUpdateOpa {context : ActivationContext} {t : TracedStores} {names : List String}
    (hid : context.amendmentId ≠ "")
    (hbackup : context.backup =
      some ⟨active.versionId, active.version, active.constitutionalHash⟩)
    (hkept : Kept s₀ t.1) (hunbroken : Unbroken t) :
    EndsIn
      (executeSteps ((activationSteps setting).drop 2)
        { context := context
          compensations :=
            [{ name := "restore_backup", execute := restoreBackup setting },
              { name := "log_validation_failure", execute := fun _ => pure true }]
          completedSteps := names }) t
      (Leads s₀ active amendment) (fun _ => LeftOff s₀) := by
  refine safe_executeSteps_cons ?_
  refine (Kept.attempts (fun t hkept hunbroken => hkept.updateOpaPolicies setting hunbroken hid) hkept
    hunbroken 3).mono (fun updated t₁ h₁ => ?_) fun _ _ he => he
  rcases updated with _ | context'
  · exact safe_fromUpdateCache hready setting hid hbackup h₁.1 h₁.2
  · obtain ⟨rfl, hkept', hunbroken'⟩ := h₁
    exact safe_fromUpdateCache hready setting hid hbackup hkept' hunbroken'

theorem safe_activateAmendment (amendmentId : String) :
    EndsIn (activateAmendment setting amendmentId) (s₀, [])
      (fun result t => result.status ≠ .completed ∧ Undone active amendment t)
      (fun _ => LeftOff s₀) := by
  have hfirst : Untouched s₀ (s₀, []) := ⟨rfl, fun _ he => absurd he List.not_mem_nil⟩
  have hunwritten := hready.unwritten
  refine safe_execute (R := Undone active amendment) ?_ fun result t hstatus ht => ⟨hstatus, ht⟩
  rw [activationSteps]
  refine safe_executeSteps_cons ?_
  refine (Untouched.attempts hunwritten (fun t ht => ht.validateActivation hunwritten)
    hfirst 3).mono (fun validated t₁ h₁ => ?_) fun _ _ he => he
  rcases validated with _ | context₁
  · show Safe _ _ (runCompensations _ _) t₁ _ _
    exact (h₁.undone hready).logged _
  · obtain ⟨hid, hnone, h₁⟩ := h₁
    refine safe_executeSteps_cons ?_
    refine (Untouched.attempts hunwritten (fun t ht => ht.backupCurrentVersion hunwritten hready.sole)
      h₁ 3).mono (fun backed t₂ h₂ => ?_) fun _ _ he => he
    rcases backed with _ | context₂
    · exact h₂.undone_backup hready setting hnone
    · obtain ⟨hsame, hbackup, h₂⟩ := h₂
      rw [← hsame] at hid
      exact safe_fromUpdateOpa hready setting hid hbackup (h₂.kept hunwritten) h₂.unbroken

variable {setting} {out : Outcome Raised (SagaResult ActivationContext)} {t : TracedStores}

omit hready in
theorem allOrNothing_iff_tookNoEffect {amendmentId versionId : String}
    (hrun : Exec (traced CallStep) (activateAmendment setting amendmentId) (s₀, []) out t) :
    AllOrNothing versionId amendmentId out t.1 ↔ TookNoEffect versionId amendmentId t.1 := by
  cases out with
  | stopped => exact Iff.rfl
  | raised e => exact Iff.rfl
  | returned result =>
    rw [AllOrNothing, if_neg (activateAmendment_not_completed setting amendmentId hrun)]

/-- **All or nothing.**  An activation is so just if no call of its steps breaks it off after the
record of OPA is written. -/
theorem allOrNothing_iff
    (hrun : Exec (traced CallStep) (activateAmendment setting amendment.proposalId) (s₀, []) out t)
    (hended : out.ended = true) :
    AllOrNothing active.versionId amendment.proposalId out t.1 ↔ ∀ e ∈ t.2, ¬BreaksOff e := by
  have hsafe := safe_activateAmendment hready setting amendment.proposalId
  rw [allOrNothing_iff_tookNoEffect hrun]
  cases out with
  | stopped => cases hended
  | returned result =>
    obtain ⟨-, hundone⟩ := hrun.returned hsafe
    exact ⟨fun _ => hundone.2, fun _ => hundone.1⟩
  | raised e =>
    have hleft := hrun.raised hsafe
    rw [hleft.tookNoEffect_iff hready]
    exact hleft.broken.symm

end Saga

/-! ## An activation that is broken off -/

/-- An amendment of the first version, approved. -/
def quotaAmendment : Amendment where
  proposalId := "a1"
  proposedChanges := Dict.empty.set "quota" .null
  justification := "introduce a quota"
  proposerAgentId := "agent-1"
  targetVersion := "v1"
  newVersion := some "1.1.0"
  status := .approved

/-- The first version and the amendment are stored. -/
def quotaStores : Stores :=
  { firstStores with amendments := Dict.empty.set "a1" quotaAmendment }

theorem quota_ready : ReadyToActivate quotaStores firstVersion quotaAmendment where
  sole := rfl
  hash := by decide +kernel
  stored := rfl
  approved := rfl
  target := ⟨firstVersion, rfl, rfl⟩
  unwritten := rfl

/-- A call, unless it is of a compensation and not answered. -/
def Stores.performAllowed (s : Stores) (o : SagaOp) (ending : CallEnding) :
    Option (Reply o × Stores) :=
  if o.compensating = true ∧ ending ≠ .answered then none else some (s.perform o ending)

/-- The run in which the storage finds nothing more, once the record of OPA is written. -/
def quotaRun : Outcome Raised (SagaResult ActivationContext) × TracedStores :=
  replay Stores.performAllowed
    (fun s o => some (if s.opaWritten && !o.compensating then .nothing false else .answered))
    (activateAmendment plainSetting "a1") (quotaStores, [])

theorem quotaRun_exec :
    Exec (traced CallStep) (activateAmendment plainSetting quotaAmendment.proposalId)
      (quotaStores, []) quotaRun.1 quotaRun.2 := by
  refine (replay_sound _ _ _ _).mono fun s o r s' hstep => ⟨?_, hstep.2⟩
  obtain ⟨ending, hperform⟩ := hstep.1
  unfold Stores.performAllowed at hperform
  split at hperform
  · cases hperform
  · rename_i hallowed
    exact ⟨ending, fun h => by_contra fun hne => hallowed ⟨h, hne⟩, Option.some.inj hperform⟩

theorem quotaRun_ended : quotaRun.1.ended = true := by
  decide +kernel

/-- The theorem, of it. -/
theorem quotaRun_allOrNothing_iff :
    AllOrNothing "v1" "a1" quotaRun.1 quotaRun.2.1 ↔ ∀ e ∈ quotaRun.2.2, ¬BreaksOff e :=
  allOrNothing_iff quota_ready quotaRun_exec quotaRun_ended

/-- OPA is left with the digest of a version that was never built. -/
theorem quotaRun_not_allOrNothing :
    ¬∀ s₀ active amendment setting out (t : TracedStores), ReadyToActivate s₀ active amendment →
      Exec (traced CallStep) (activateAmendment setting amendment.proposalId) (s₀, []) out t →
      out.ended = true → AllOrNothing active.versionId amendment.proposalId out t.1 := by
  intro h
  have hall := h _ _ _ _ _ _ quota_ready quotaRun_exec quotaRun_ended
  rw [allOrNothing_iff_tookNoEffect quotaRun_exec] at hall
  obtain ⟨v, hv, -, hrecord⟩ := hall.active
  have hwritten : quotaRun.2.1.opaWritten = true := by decide +kernel
  have hactive : quotaRun.2.1.versions.active.map (·.constitutionalHash) = [constitutionalHash] := by
    decide +kernel
  have hmem : v.constitutionalHash ∈ quotaRun.2.1.versions.active.map (·.constitutionalHash) :=
    List.mem_map_of_mem ((hv v).mpr rfl)
  rw [hactive, List.mem_singleton] at hmem
  rw [hmem] at hrecord
  have hdigest : quotaRun.2.1.opaRecord ≠ some constitutionalHash := by decide +kernel
  exact hdigest (hrecord hwritten)

end EnhancedAgentBus.Constitutional
