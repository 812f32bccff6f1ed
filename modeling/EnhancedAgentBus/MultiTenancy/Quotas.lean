import EnhancedAgentBus.Lib.Dict
import EnhancedAgentBus.Lib.Machine
import Mathlib.Algebra.Order.Ring.Rat

/-!
# The quotas of tenants

The usage that a `TenantManager` tracks, and the calls that change it.  `increment_usage` checks the
quota first, and the check tells the subscribers when the quota is exceeded or nearly so: while
their handlers are awaited, other calls come in.  So an increment that publishes is two steps
(`increment` and `resume`), or it ends in between, when a handler's exception is one that is not
caught (`abandon`); one that publishes nothing is one.

Amounts are rational numbers: storage is counted in fractions, the other resources in whole numbers.
The tenants and their quotas are given, and do not change.
-/

namespace EnhancedAgentBus.MultiTenancy

universe u

/-! ## Quotas and usage -/

abbrev Amount := { q : ℚ // 0 ≤ q }

structure TenantQuota where
  maxAgents : ℤ := 100
  maxPolicies : ℤ := 1000
  maxMessagesPerMinute : ℤ := 10000
  maxStorageMb : ℤ := 10240
  maxConcurrentSessions : ℤ := 100

structure TenantUsage where
  agentCount : ℚ := 0
  policyCount : ℚ := 0
  messageCountMinute : ℚ := 0
  storageUsedMb : ℚ := 0
  concurrentSessions : ℚ := 0

/-- The keys of `resource_map`. -/
inductive Resource where
  | agents
  | policies
  | messages
  | storage
  | sessions
  deriving DecidableEq

/-- `resource in resource_map` -/
def Resource.ofName? (name : String) : Option Resource :=
  if name = "agents" then some .agents
  else if name = "policies" then some .policies
  else if name = "messages" then some .messages
  else if name = "storage" then some .storage
  else if name = "sessions" then some .sessions
  else none

/-- `getattr(quota, quota_field)` -/
def TenantQuota.limit (quota : TenantQuota) : Resource → ℤ
  | .agents => quota.maxAgents
  | .policies => quota.maxPolicies
  | .messages => quota.maxMessagesPerMinute
  | .storage => quota.maxStorageMb
  | .sessions => quota.maxConcurrentSessions

namespace TenantUsage

/-- `getattr(usage, usage_field)` -/
def current (usage : TenantUsage) : Resource → ℚ
  | .agents => usage.agentCount
  | .policies => usage.policyCount
  | .messages => usage.messageCountMinute
  | .storage => usage.storageUsedMb
  | .sessions => usage.concurrentSessions

def set (usage : TenantUsage) (resource : Resource) (amount : ℚ) : TenantUsage :=
  match resource with
  | .agents => { usage with agentCount := amount }
  | .policies => { usage with policyCount := amount }
  | .messages => { usage with messageCountMinute := amount }
  | .storage => { usage with storageUsedMb := amount }
  | .sessions => { usage with concurrentSessions := amount }

@[simp] theorem current_default (resource : Resource) : current {} resource = 0 := by
  cases resource <;> rfl

theorem current_set (usage : TenantUsage) (r r' : Resource) (amount : ℚ) :
    (usage.set r amount).current r' = if r' = r then amount else usage.current r' := by
  cases r <;> cases r' <;> rfl

end TenantUsage

/-! ## The manager -/

/-- The tenants with their quotas, and `_quota_warning_threshold`. -/
structure Setting where
  tenants : String → Option TenantQuota
  warningThreshold : ℚ := 4 / 5

inductive Pending where
  /-- `QUOTA_EXCEEDED`: the increment is going to raise. -/
  | refusing (tenantId resource : String)
  /-- `QUOTA_WARNING`: the increment is going to add. -/
  | adding (tenantId resource : String) (amount : Amount)

/-- `TenantQuotaExceededError` -/
structure QuotaExceeded where
  message : String
  tenantId : String
  resource : String
  current : ℤ
  limit : ℤ

inductive Outcome where
  | updated (usage : TenantUsage)
  | tenantNotFound (message : String)
  | quotaExceeded (error : QuotaExceeded)

/-- `_usage`, and of the increments, which are awaiting handlers and how others ended. -/
structure TenantManager (ι : Type u) where
  usage : Dict String TenantUsage := .empty
  pending : ι → Option Pending := fun _ => none
  outcome : ι → Option Outcome := fun _ => none

/-- How `check_quota` ends. -/
inductive QuotaCheck where
  | tenantNotFound
  | unknownResource
  | exceeded
  | warned
  | granted
  deriving DecidableEq

namespace TenantManager

variable {ι : Type u}

/-- `self._usage.get(tenant_id, TenantUsage())` -/
def getUsage (m : TenantManager ι) (tenantId : String) : TenantUsage :=
  (m.usage.get tenantId).getD {}

/-- `check_quota`, up to the event that it publishes. -/
def checkQuota (cfg : Setting) (m : TenantManager ι) (tenantId resource : String)
    (requestedAmount : Amount) : QuotaCheck :=
  match cfg.tenants tenantId with
  | none => .tenantNotFound
  | some quota =>
    match Resource.ofName? resource with
    | none => .unknownResource
    | some r =>
      let limit := quota.limit r
      let current := (m.getUsage tenantId).current r
      if limit < current + requestedAmount.val then .exceeded
      else
        let usageRatio := if 0 < limit then (current + requestedAmount.val) / limit else 0
        if cfg.warningThreshold ≤ usageRatio then .warned else .granted

def change (m : TenantManager ι) (tenantId resource : String) (f : ℚ → ℚ) : TenantManager ι :=
  let usage := m.getUsage tenantId
  let usage :=
    match Resource.ofName? resource with
    | none => usage
    | some r => usage.set r (f (usage.current r))
  { m with usage := m.usage.set tenantId usage }

/-- The second half of `increment_usage`. -/
def add (m : TenantManager ι) (tenantId resource : String) (amount : Amount) : TenantManager ι :=
  m.change tenantId resource (· + amount.val)

def decrementUsage (m : TenantManager ι) (tenantId resource : String) (amount : Amount) :
    TenantManager ι :=
  m.change tenantId resource fun current => max 0 (current - amount.val)

def resetMessageUsage (m : TenantManager ι) : TenantManager ι :=
  { m with usage := m.usage.mapValues fun usage => usage.set .messages 0 }

end TenantManager

/-! ## The calls -/

inductive Event (ι : Type u) where
  | increment (call : ι) (tenantId resource : String) (amount : Amount)
  /-- The handlers are through. -/
  | resume (call : ι)
  /-- A handler's exception, or a cancellation, ends the call. -/
  | abandon (call : ι)
  | decrement (tenantId resource : String) (amount : Amount)
  | resetMessages

def Event.call? {ι : Type u} : Event ι → Option ι
  | increment call _ _ _ => some call
  | resume call => some call
  | abandon call => some call
  | decrement _ _ _ => none
  | resetMessages => none

/-- `int(...)` -/
def truncate (q : ℚ) : ℤ := if 0 ≤ q then q.floor else q.ceil

namespace TenantManager

variable {ι : Type u} [DecidableEq ι]

def refuse (cfg : Setting) (m : TenantManager ι) (call : ι) (tenantId resource : String) :
    TenantManager ι :=
  let quota := (cfg.tenants tenantId).getD {}
  let error : Option Outcome := (Resource.ofName? resource).map fun r =>
    .quotaExceeded
      { message := "Quota exceeded for " ++ resource
        tenantId := tenantId
        resource := resource
        current := truncate ((m.getUsage tenantId).current r)
        limit := quota.limit r }
  { m with
    pending := Function.update m.pending call none
    outcome := Function.update m.outcome call error }

def finish (m : TenantManager ι) (call : ι) (tenantId resource : String) (amount : Amount) :
    TenantManager ι :=
  let m := m.add tenantId resource amount
  { m with
    pending := Function.update m.pending call none
    outcome := Function.update m.outcome call (some (.updated (m.getUsage tenantId))) }

def step (cfg : Setting) (m : TenantManager ι) : Event ι → TenantManager ι
  | .increment call tenantId resource amount =>
    match m.pending call with
    | some _ => m
    | none =>
      match m.checkQuota cfg tenantId resource amount with
      | .tenantNotFound =>
        { m with
          outcome := Function.update m.outcome call
            (some (.tenantNotFound ("Tenant not found: " ++ tenantId))) }
      | .exceeded =>
        { m with
          pending := Function.update m.pending call (some (.refusing tenantId resource)) }
      | .warned =>
        { m with
          pending := Function.update m.pending call
            (some (.adding tenantId resource amount)) }
      | .unknownResource => m.finish call tenantId resource amount
      | .granted => m.finish call tenantId resource amount
  | .resume call =>
    match m.pending call with
    | none => m
    | some (.refusing tenantId resource) => m.refuse cfg call tenantId resource
    | some (.adding tenantId resource amount) => m.finish call tenantId resource amount
  | .abandon call => { m with pending := Function.update m.pending call none }
  | .decrement tenantId resource amount => m.decrementUsage tenantId resource amount
  | .resetMessages => m.resetMessageUsage

end TenantManager

/-! ## The quotas in every state -/

section Quotas

variable {ι : Type u} [DecidableEq ι] {cfg : Setting} {m : TenantManager ι}

def WithinQuotas (cfg : Setting) (m : TenantManager ι) : Prop :=
  ∀ tenantId quota r, cfg.tenants tenantId = some quota →
    0 ≤ (m.getUsage tenantId).current r ∧ (m.getUsage tenantId).current r ≤ quota.limit r

def Refused (m : TenantManager ι) (call : ι) : Prop :=
  ∃ tenantId resource, m.pending call = some (.refusing tenantId resource)

def RefusesOnly (cfg : Setting) (m : TenantManager ι) (e : Event ι) : Prop :=
  ∀ call, e.call? = some call → Refused m call ∨ Refused (m.step cfg e) call →
    (m.step cfg e).usage = m.usage

def StillFits (cfg : Setting) (m : TenantManager ι) (e : Event ι) : Prop :=
  ∀ call tenantId resource amount quota r, e = .resume call →
    m.pending call = some (.adding tenantId resource amount) →
    cfg.tenants tenantId = some quota → Resource.ofName? resource = some r →
    (m.getUsage tenantId).current r + amount.val ≤ quota.limit r

omit [DecidableEq ι] in
theorem current_change (m : TenantManager ι) (tenantId tenantId' resource : String)
    (f : ℚ → ℚ) (r : Resource) :
    ((m.change tenantId resource f).getUsage tenantId').current r =
      if tenantId' = tenantId ∧ Resource.ofName? resource = some r then
        f ((m.getUsage tenantId').current r)
      else (m.getUsage tenantId').current r := by
  by_cases htenant : tenantId' = tenantId
  · subst htenant
    simp only [TenantManager.change, TenantManager.getUsage, Dict.get_set, if_true,
      Option.getD_some, true_and]
    rcases hres : Resource.ofName? resource with _ | r'
    · simp
    · rw [TenantUsage.current_set]
      by_cases hr : r = r'
      · simp [hr]
      · simp [hr, Ne.symm hr]
  · simp [TenantManager.change, TenantManager.getUsage, Dict.get_set, htenant]

omit [DecidableEq ι] in
theorem current_reset (m : TenantManager ι) (tenantId : String) (r : Resource) :
    (m.resetMessageUsage.getUsage tenantId).current r =
      if r = .messages then 0 else (m.getUsage tenantId).current r := by
  simp only [TenantManager.resetMessageUsage, TenantManager.getUsage, Dict.get_mapValues]
  rcases m.usage.get tenantId with _ | usage
  · simp
  · exact TenantUsage.current_set usage .messages r 0

omit [DecidableEq ι] in
theorem le_limit_of_checkQuota {tenantId resource : String} {amount : Amount} {quota : TenantQuota}
    {r : Resource} (htenant : cfg.tenants tenantId = some quota)
    (hresource : Resource.ofName? resource = some r)
    (hcheck : m.checkQuota cfg tenantId resource amount ≠ .exceeded) :
    (m.getUsage tenantId).current r + amount.val ≤ quota.limit r := by
  rw [TenantManager.checkQuota, htenant, hresource] at hcheck
  by_contra hlt
  exact hcheck (if_pos (not_le.mp hlt))

omit [DecidableEq ι] in
theorem WithinQuotas.add (h : WithinQuotas cfg m) {tenantId resource : String} {amount : Amount}
    (hfits : ∀ quota r, cfg.tenants tenantId = some quota → Resource.ofName? resource = some r →
      (m.getUsage tenantId).current r + amount.val ≤ quota.limit r) :
    WithinQuotas cfg (m.add tenantId resource amount) := by
  intro tenantId' quota r hquota
  rw [TenantManager.add, current_change]
  split
  · rename_i heq
    obtain ⟨rfl, hresource⟩ := heq
    exact ⟨add_nonneg (h _ quota r hquota).1 amount.property, hfits quota r hquota hresource⟩
  · exact h tenantId' quota r hquota

omit [DecidableEq ι] in
theorem WithinQuotas.decrement (h : WithinQuotas cfg m) (tenantId resource : String)
    (amount : Amount) : WithinQuotas cfg (m.decrementUsage tenantId resource amount) := by
  intro tenantId' quota r hquota
  obtain ⟨hnonneg, hle⟩ := h tenantId' quota r hquota
  rw [TenantManager.decrementUsage, current_change]
  split
  · exact ⟨le_max_left .., max_le (hnonneg.trans hle)
      ((sub_le_self _ amount.property).trans hle)⟩
  · exact ⟨hnonneg, hle⟩

omit [DecidableEq ι] in
theorem WithinQuotas.reset (h : WithinQuotas cfg m) : WithinQuotas cfg m.resetMessageUsage := by
  intro tenantId quota r hquota
  obtain ⟨hnonneg, hle⟩ := h tenantId quota r hquota
  rw [current_reset]
  split
  · exact ⟨le_rfl, hnonneg.trans hle⟩
  · exact ⟨hnonneg, hle⟩

theorem WithinQuotas.increment (h : WithinQuotas cfg m) (call : ι) (tenantId resource : String)
    (amount : Amount) :
    WithinQuotas cfg (m.step cfg (.increment call tenantId resource amount)) := by
  have hadd (hcheck : m.checkQuota cfg tenantId resource amount ≠ .exceeded) :
      WithinQuotas cfg (m.finish call tenantId resource amount) :=
    h.add fun _ _ hquota hresource => le_limit_of_checkQuota hquota hresource hcheck
  rw [TenantManager.step]
  split
  · exact h
  · split
    · exact h
    · exact h
    · exact h
    · rename_i hcheck
      exact hadd (by rw [hcheck]; decide)
    · rename_i hcheck
      exact hadd (by rw [hcheck]; decide)

/-- **What a step keeps**: an addition that still fits keeps the quotas, and so does all else. -/
theorem WithinQuotas.step (h : WithinQuotas cfg m) {e : Event ι} (hfits : StillFits cfg m e) :
    WithinQuotas cfg (m.step cfg e) := by
  cases e with
  | increment call tenantId resource amount => exact h.increment call tenantId resource amount
  | abandon call => exact h
  | decrement tenantId resource amount => exact h.decrement tenantId resource amount
  | resetMessages => exact h.reset
  | resume call =>
    rw [TenantManager.step]
    split
    · exact h
    · exact h
    · rename_i tenantId resource amount hpending
      exact h.add fun quota r hquota hresource =>
        hfits call tenantId resource amount quota r rfl hpending hquota hresource

theorem stillFits_of_withinQuotas {e : Event ι} (h : WithinQuotas cfg (m.step cfg e)) :
    StillFits cfg m e := by
  rintro call tenantId resource amount quota r rfl hpending hquota hresource
  have hle := (h tenantId quota r hquota).2
  have hadded : ((m.step cfg (.resume call)).getUsage tenantId).current r =
      (m.getUsage tenantId).current r + amount.val := by
    have hstep : (m.step cfg (.resume call)).getUsage tenantId =
        (m.add tenantId resource amount).getUsage tenantId := by
      rw [TenantManager.step, hpending]
      rfl
    rw [hstep, TenantManager.add, current_change, if_pos ⟨rfl, hresource⟩]
  rwa [hadded] at hle

theorem not_refused_finish (m : TenantManager ι) (call : ι) (tenantId resource : String)
    (amount : Amount) : ¬ Refused (m.finish call tenantId resource amount) call := by
  rintro ⟨_, _, h⟩
  simp [TenantManager.finish] at h

theorem refusesOnly (cfg : Setting) (m : TenantManager ι) (e : Event ι) : RefusesOnly cfg m e := by
  intro call hcall hrefused
  cases e with
  | abandon => rfl
  | decrement => cases hcall
  | resetMessages => cases hcall
  | increment call' tenantId resource amount =>
    obtain rfl := Option.some_inj.mp hcall
    cases hpending : m.pending call' with
    | some _ => simp only [TenantManager.step, hpending]
    | none =>
      have hfinish (hstep : m.step cfg (.increment call' tenantId resource amount) =
          m.finish call' tenantId resource amount) : False := by
        rcases hrefused with ⟨_, _, h⟩ | h
        · exact absurd (hpending.symm.trans h) (by simp)
        · exact not_refused_finish m call' tenantId resource amount (hstep ▸ h)
      cases hcheck : m.checkQuota cfg tenantId resource amount with
      | tenantNotFound => simp only [TenantManager.step, hpending, hcheck]
      | exceeded => simp only [TenantManager.step, hpending, hcheck]
      | warned => simp only [TenantManager.step, hpending, hcheck]
      | unknownResource =>
        exact (hfinish (by simp only [TenantManager.step, hpending, hcheck])).elim
      | granted => exact (hfinish (by simp only [TenantManager.step, hpending, hcheck])).elim
  | resume call' =>
    obtain rfl := Option.some_inj.mp hcall
    rcases hpending : m.pending call' with _ | pending
    · simp only [TenantManager.step, hpending]
    · cases pending with
      | refusing => simp only [TenantManager.step, hpending, TenantManager.refuse]
      | adding tenantId resource amount =>
        rcases hrefused with ⟨_, _, h⟩ | h
        · rw [hpending] at h
          cases h
        · rw [TenantManager.step, hpending] at h
          exact absurd h (not_refused_finish m call' tenantId resource amount)

def start (ι : Type u) : TenantManager ι := {}

omit [DecidableEq ι] in
theorem withinQuotas_start :
    WithinQuotas cfg (start ι) ↔
      ∀ tenantId quota r, cfg.tenants tenantId = some quota → 0 ≤ quota.limit r := by
  refine forall₄_congr fun tenantId quota r _ => ?_
  have hzero : ((start ι).getUsage tenantId).current r = 0 := TenantUsage.current_default r
  rw [hzero]
  exact ⟨fun h => by exact_mod_cast h.2, fun h => ⟨le_rfl, by exact_mod_cast h⟩⟩

/-- **Quotas over every interleaving**: at the start and after every step each usage is between zero
and its quota, and a refused increment changes nothing, exactly when no quota is negative and no
increment goes on after a warning that no longer fits. -/
theorem quotas_kept_iff (cfg : Setting) (events : List (Event ι)) :
    (WithinQuotas cfg (start ι) ∧
        Machine.Along (TenantManager.step cfg)
          (fun m e => WithinQuotas cfg (m.step cfg e) ∧ RefusesOnly cfg m e) (start ι) events) ↔
      (∀ tenantId quota r, cfg.tenants tenantId = some quota → 0 ≤ quota.limit r) ∧
        Machine.Along (TenantManager.step cfg) (StillFits cfg) (start ι) events := by
  rw [← withinQuotas_start (ι := ι)]
  refine and_congr_right fun hstart => (Machine.along_iff (WithinQuotas cfg) hstart ?_ ?_).symm
  · intro m e h
    exact ⟨fun hfits => ⟨h.step hfits, refusesOnly cfg m e⟩, fun h => stillFits_of_withinQuotas h.1⟩
  · exact fun m e h hfits => h.step hfits

/-- Two increments of nine, of ten agents, each of which is warned of before the other goes on. -/
def twoWarned : List (Event ℕ) :=
  [.increment 0 "tenant-1" "agents" ⟨9, by decide⟩,
    .increment 1 "tenant-1" "agents" ⟨9, by decide⟩, .resume 0, .resume 1]

def tenAgents : Setting where
  tenants tenantId := if tenantId = "tenant-1" then some { maxAgents := 10 } else none

theorem quotas_exceeded :
    ¬ ∀ (cfg : Setting) (events : List (Event ℕ)),
      (∀ tenantId quota r, cfg.tenants tenantId = some quota → 0 ≤ quota.limit r) →
      Machine.Along (TenantManager.step cfg)
        (fun m e => WithinQuotas cfg (m.step cfg e) ∧ RefusesOnly cfg m e) (start ℕ) events := by
  intro h
  have hquota (tenantId : String) (quota : TenantQuota) (r : Resource)
      (hsome : tenAgents.tenants tenantId = some quota) : 0 ≤ quota.limit r := by
    have hquota : quota = { maxAgents := 10 } := by
      by_cases htenant : tenantId = "tenant-1"
      · exact (Option.some_inj.mp ((if_pos htenant).symm.trans hsome)).symm
      · exact absurd ((if_neg htenant).symm.trans hsome) (by simp)
    subst hquota
    cases r <;> decide
  have hrun := h tenAgents twoWarned hquota
  have hlast := (hrun.2.2.2.1.1 "tenant-1" { maxAgents := 10 } .agents rfl).2
  exact absurd hlast (by decide +kernel)

end Quotas

end EnhancedAgentBus.MultiTenancy
