import EnhancedAgentBus.Components.RegistryManager

/-!
# Registrations that fail

A registration that is refused by the registry of roles, or by the backend, is undone where the
agent is new.  Nothing is undone for an agent that is known already, of which the table has a new
entry and the index a second tenant, and a role that was registered stays with the agent.

The index stays exact, and refused calls change nothing, in just those runs in which known agents
keep their tenant, and every call that will be refused brings the entry and the role that are there
already (`registrations_atomic_iff`).
-/

namespace EnhancedAgentBus.Components

open Security Machine

/-! ## Calls -/

inductive Call where
  | register (call : Registration)
  | unregister (aid : String) (backendFails : Bool)

namespace RegistryManager

variable [LowerTable] (enableMaci : Bool) (manager : RegistryManager)

def perform : Call → Outcome × RegistryManager
  | .register call => manager.registerAgent enableMaci call
  | .unregister aid backendFails => manager.unregisterAgent aid backendFails

def after (call : Call) : RegistryManager := (manager.perform enableMaci call).2

/-! ## What is asked of a call -/

def RegisteredWith (aid tenant : String) : Prop :=
  ∃ info, manager.agents.get aid = some info ∧ info.tenantId = tenant

/-- The index has every agent under its tenant, and under no other. -/
def Exact : Prop :=
  ∀ aid tenant, aid ∈ Buckets.members manager.agentsByTenant tenant ↔
    manager.RegisteredWith aid tenant

/-- A call leaves an exact index, which is what the agents are listed by, and changes nothing if it
is a registration that fails. -/
structure Atomic (call : Call) : Prop where
  exact : (manager.after enableMaci call).Exact
  listed : ∀ aid tenant, tenant ≠ "" → tenant ≠ "none" →
    (aid ∈ (manager.after enableMaci call).getAgentsByTenant (some tenant) ↔
      (manager.after enableMaci call).RegisteredWith aid tenant)
  unchanged : ∀ registration, call = .register registration →
    (manager.perform enableMaci call).1 = .returned false →
      manager.after enableMaci call = manager

/-! ## When it is met -/

/-- The backend refuses the registration: it holds the agent, or does so without a reason. -/
def backendRefuses (call : Registration) : Bool :=
  match call.backend with
  | .refuses => true
  | .raises _ => false
  | .works => (manager.registry.get call.agentId).isSome

/-- The registration is refused, by the registry of roles or by the backend. -/
def refused (call : Registration) : Bool :=
  match roleToRegister enableMaci call, call.maci with
  | some _, some .handled => true
  | some _, some .unhandled => false
  | _, _ => manager.backendRefuses call

/-- The registration keeps the tenant of a known agent, and if it is refused then it brings what is
there already. -/
structure Harmless (call : Registration) (hash : String) : Prop where
  sameTenant : ∀ info, manager.agents.get call.agentId = some info → info.tenantId = call.tenant
  sameEntry : manager.refused enableMaci call = true →
    ∀ info, manager.agents.get call.agentId = some info → info = call.info hash
  sameRole : manager.refused enableMaci call = true → call.maci = none →
    ∀ role, roleToRegister enableMaci call = some role →
      manager.maciRoles.get call.agentId = some role

/-- Every registration that goes as far as the stores is harmless. -/
def Safe : Call → Prop
  | .register call => call.isBlank = false → ∀ hash, call.syncConstitutionalHash = some hash →
      manager.Harmless enableMaci call hash
  | .unregister _ _ => True

end RegistryManager

namespace RegistryManager

variable [LowerTable] {enableMaci : Bool} {manager : RegistryManager} {call : Registration}
  {hash : String}

/-! ## What a registration leaves -/

/-- The roles after `_register_maci_role_if_enabled`. -/
def rolesAfter (enableMaci : Bool) (manager : RegistryManager) (call : Registration) :
    Dict String RoleArgument :=
  match roleToRegister enableMaci call, call.maci with
  | some role, none => manager.maciRoles.set call.agentId role
  | _, _ => manager.maciRoles

def written (enableMaci : Bool) (manager : RegistryManager) (call : Registration) (hash : String) :
    RegistryManager :=
  { manager.storeLocalAgent call hash with maciRoles := rolesAfter enableMaci manager call }

theorem registerBackend_of_refuses {m : RegistryManager} (hm : m.registry = manager.registry)
    (h : manager.backendRefuses call = true) :
    m.registerBackend call = (.returned false, m) := by
  unfold backendRefuses at h
  unfold registerBackend
  rw [hm]
  cases hbackend : call.backend with
  | refuses => rfl
  | raises stored =>
    rw [hbackend] at h
    cases h
  | works =>
    rw [hbackend] at h
    obtain ⟨info, hinfo⟩ := Option.isSome_iff_exists.mp h
    dsimp only
    rw [hinfo]

theorem registerBackend_of_not_refuses {m : RegistryManager} (hm : m.registry = manager.registry)
    (h : manager.backendRefuses call = false) :
    (∃ registry, m.registerBackend call = (.raised, { m with registry := registry })) ∨
      ∃ registry, m.registerBackend call = (.returned true, { m with registry := registry }) := by
  unfold backendRefuses at h
  unfold registerBackend
  rw [hm]
  cases hbackend : call.backend with
  | refuses =>
    rw [hbackend] at h
    cases h
  | raises stored =>
    rcases stored with _ | _
    · exact .inl ⟨m.registry, rfl⟩
    · exact .inl ⟨_, rfl⟩
  | works =>
    rw [hbackend] at h
    have hnone : manager.registry.get call.agentId = none := Option.not_isSome_iff_eq_none.mp
      (Bool.not_eq_true _ ▸ h)
    dsimp only
    rw [hnone]
    exact .inr ⟨_, rfl⟩

theorem registerAgent_of_refused (hblank : call.isBlank = false)
    (hsync : call.syncConstitutionalHash = some hash)
    (h : manager.refused enableMaci call = true) :
    manager.registerAgent enableMaci call =
      (.returned false, (written enableMaci manager call hash).rollbackLocalRegistration call
        (manager.agents.get call.agentId).isSome) := by
  unfold refused at h
  unfold registerAgent registerMaciRoleIfEnabled written rolesAfter
  rw [hblank, hsync]
  rcases hrole : roleToRegister enableMaci call with _ | role
  · rw [hrole] at h
    have hbackend := registerBackend_of_refuses (m := manager.storeLocalAgent call hash) rfl h
    dsimp only
    rw [hbackend]
    rfl
  · rw [hrole] at h
    rcases hmaci : call.maci with _ | failure
    · rw [hmaci] at h
      have hbackend := registerBackend_of_refuses
        (m := { manager.storeLocalAgent call hash with
          maciRoles := (manager.storeLocalAgent call hash).maciRoles.set call.agentId role })
        rfl h
      dsimp only
      rw [hbackend]
      rfl
    · cases failure with
      | handled => rfl
      | unhandled =>
        rw [hmaci] at h
        cases h

theorem registerAgent_of_not_refused (hblank : call.isBlank = false)
    (hsync : call.syncConstitutionalHash = some hash)
    (h : manager.refused enableMaci call = false) :
    ∃ outcome registry roles, outcome ≠ .returned false ∧
      manager.registerAgent enableMaci call =
        (outcome, { manager.storeLocalAgent call hash with
          registry := registry, maciRoles := roles }) := by
  unfold refused at h
  unfold registerAgent registerMaciRoleIfEnabled
  rw [hblank, hsync]
  rcases hrole : roleToRegister enableMaci call with _ | role
  · rw [hrole] at h
    dsimp only
    rcases registerBackend_of_not_refuses (m := manager.storeLocalAgent call hash) rfl h with
      ⟨registry, heq⟩ | ⟨registry, heq⟩
    · rw [heq]
      exact ⟨.raised, registry, _, nofun, rfl⟩
    · rw [heq]
      exact ⟨.returned true, registry, _, nofun, rfl⟩
  · rw [hrole] at h
    rcases hmaci : call.maci with _ | failure
    · rw [hmaci] at h
      dsimp only
      rcases registerBackend_of_not_refuses
        (m := { manager.storeLocalAgent call hash with
          maciRoles := (manager.storeLocalAgent call hash).maciRoles.set call.agentId role })
        rfl h with ⟨registry, heq⟩ | ⟨registry, heq⟩
      · rw [heq]
        exact ⟨.raised, registry, _, nofun, rfl⟩
      · rw [heq]
        exact ⟨.returned true, registry, _, nofun, rfl⟩
    · cases failure with
      | handled =>
        rw [hmaci] at h
        cases h
      | unhandled => exact ⟨.raised, _, _, nofun, rfl⟩

/-! ## What is kept besides -/

/-- The index has no tenant without agents, and every agent has a tenant. -/
structure WellKept (manager : RegistryManager) : Prop where
  noneEmpty : Buckets.NoneEmpty manager.agentsByTenant
  named : ∀ aid info, manager.agents.get aid = some info → info.tenantId ≠ ""

theorem WellKept.storeLocalAgent (h : manager.WellKept) (call : Registration) (hash : String) :
    (manager.storeLocalAgent call hash).WellKept := by
  refine ⟨h.noneEmpty.add _ _, ?_⟩
  intro aid info hinfo
  rcases Dict.get_set_cases hinfo with ⟨-, rfl⟩ | ⟨-, hget⟩
  · exact normalizeOrDefault_ne_empty _
  · exact h.named aid info hget

/-! ## The index after a write -/

theorem exact_storeLocalAgent_iff (h : manager.Exact) (call : Registration) (hash : String) :
    (manager.storeLocalAgent call hash).Exact ↔
      ∀ info, manager.agents.get call.agentId = some info → info.tenantId = call.tenant := by
  have hmem (aid tenant : String) :
      aid ∈ Buckets.members (manager.storeLocalAgent call hash).agentsByTenant tenant ↔
        (tenant = call.tenant ∧ aid = call.agentId) ∨ manager.RegisteredWith aid tenant := by
    rw [← h aid tenant]
    exact Buckets.mem_members_add
  have hregistered (aid tenant : String) :
      (manager.storeLocalAgent call hash).RegisteredWith aid tenant ↔
        if aid = call.agentId then tenant = call.tenant else manager.RegisteredWith aid tenant := by
    unfold RegisteredWith storeLocalAgent
    dsimp only
    simp only [Dict.get_set]
    by_cases haid : aid = call.agentId
    · simp only [if_pos haid, Option.some_inj, exists_eq_left']
      exact eq_comm
    · simp only [if_neg haid]
  constructor
  · intro hexact info hinfo
    have hin := (hexact call.agentId info.tenantId).mp
      ((hmem _ _).mpr (.inr ⟨info, hinfo, rfl⟩))
    rw [hregistered, if_pos rfl] at hin
    exact hin
  · intro hsame aid tenant
    rw [hmem, hregistered]
    by_cases haid : aid = call.agentId
    · rw [if_pos haid]
      constructor
      · rintro (⟨htenant, -⟩ | ⟨info, hinfo, htenant⟩)
        · exact htenant
        · rw [← htenant]
          exact hsame info (haid ▸ hinfo)
      · intro htenant
        exact .inl ⟨htenant, haid⟩
    · rw [if_neg haid]
      constructor
      · rintro (⟨-, heq⟩ | hwith)
        · exact absurd heq haid
        · exact hwith
      · exact .inr

omit [LowerTable] in
theorem Exact.unregisterLocal (h : manager.Exact) (hkept : manager.WellKept) (aid : String) :
    (manager.unregisterLocal aid).Exact := by
  intro aid' tenant
  unfold RegistryManager.unregisterLocal RegisteredWith
  rcases hget : manager.agents.get aid with _ | info
  · exact h aid' tenant
  · dsimp only
    rw [if_neg (hkept.named aid info hget), Buckets.mem_members_discard, h aid' tenant]
    simp only [Dict.get_erase]
    by_cases haid : aid' = aid
    · subst haid
      simp only [if_true, reduceCtorEq, false_and, exists_false, iff_false, and_true]
      rintro ⟨⟨info', hinfo', rfl⟩, hne⟩
      rw [hget, Option.some_inj] at hinfo'
      exact hne (by rw [hinfo'])
    · simp only [haid, and_false, not_false_eq_true, and_true]
      rfl

omit [LowerTable] in
theorem WellKept.unregisterLocal (h : manager.WellKept) (aid : String) :
    (manager.unregisterLocal aid).WellKept := by
  unfold RegistryManager.unregisterLocal
  rcases hget : manager.agents.get aid with _ | info
  · exact h
  · dsimp only
    rw [if_neg (h.named aid info hget)]
    refine ⟨h.noneEmpty.discard _ _, ?_⟩
    intro aid' info' hinfo'
    have hget' : (manager.agents.erase aid).get aid' = some info' := hinfo'
    rw [Dict.get_erase] at hget'
    by_cases haid : aid' = aid
    · rw [if_pos haid] at hget'
      cases hget'
    · rw [if_neg haid] at hget'
      exact h.named aid' info' hget'

omit [LowerTable] in
theorem Exact.listed (h : manager.Exact) {tenant : String} (hne : tenant ≠ "")
    (hnone : tenant ≠ "none") (aid : String) :
    aid ∈ manager.getAgentsByTenant (some tenant) ↔ manager.RegisteredWith aid tenant := by
  unfold getAgentsByTenant
  dsimp only
  rw [if_neg (not_or.mpr ⟨hne, hnone⟩)]
  exact h aid tenant

/-! ## Rolling back -/

theorem rollback_of_new (h : manager.Exact) (hkept : manager.WellKept)
    (hnew : manager.agents.get call.agentId = none) :
    (written enableMaci manager call hash).rollbackLocalRegistration call false =
      { manager with maciRoles := rolesAfter enableMaci manager call } := by
  have hout : call.agentId ∉ Buckets.members manager.agentsByTenant call.tenant := by
    rw [h]
    rintro ⟨info, hinfo, -⟩
    rw [hnew] at hinfo
    cases hinfo
  have hagents : (manager.agents.set call.agentId (call.info hash)).erase call.agentId =
      manager.agents := Dict.erase_set_of_new hnew
  have hindex : Buckets.discard (Buckets.add manager.agentsByTenant call.tenant call.agentId)
      call.tenant call.agentId = manager.agentsByTenant := Buckets.discard_add hkept.noneEmpty hout
  unfold rollbackLocalRegistration written storeLocalAgent
  rw [if_neg Bool.false_ne_true]
  dsimp only
  rw [hagents, hindex]

omit [LowerTable] in
theorem rolesAfter_eq_iff :
    rolesAfter enableMaci manager call = manager.maciRoles ↔
      (call.maci = none → ∀ role, roleToRegister enableMaci call = some role →
        manager.maciRoles.get call.agentId = some role) := by
  unfold rolesAfter
  rcases hrole : roleToRegister enableMaci call with _ | role
  · exact iff_of_true rfl fun _ role h => nomatch h
  · cases hmaci : call.maci with
    | some failure => exact iff_of_true rfl fun h => nomatch h
    | none =>
      dsimp only
      constructor
      · intro heq _ role' hrole'
        rw [← heq, Dict.get_set, if_pos rfl]
        exact hrole'
      · intro hget
        exact Dict.set_of_get (hget rfl role rfl)

theorem written_eq_iff (h : manager.Exact) {info : AgentInfo}
    (hinfo : manager.agents.get call.agentId = some info) :
    written enableMaci manager call hash = manager ↔
      info = call.info hash ∧ rolesAfter enableMaci manager call = manager.maciRoles := by
  constructor
  · intro heq
    refine ⟨?_, congrArg RegistryManager.maciRoles heq⟩
    have hagents : manager.agents.set call.agentId (call.info hash) = manager.agents :=
      congrArg RegistryManager.agents heq
    rw [← hagents, Dict.get_set, if_pos rfl] at hinfo
    exact (Option.some_inj.mp hinfo).symm
  · rintro ⟨rfl, hroles⟩
    have hagents : manager.agents.set call.agentId (call.info hash) = manager.agents :=
      Dict.set_of_get hinfo
    have hindex : Buckets.add manager.agentsByTenant call.tenant call.agentId =
        manager.agentsByTenant := Buckets.add_of_mem ((h _ _).mpr ⟨_, hinfo, rfl⟩)
    unfold written storeLocalAgent
    rw [hagents, hindex, hroles]

theorem rolledBack_eq_iff (h : manager.Exact) (hkept : manager.WellKept) (enableMaci : Bool)
    (call : Registration) (hash : String) :
    (written enableMaci manager call hash).rollbackLocalRegistration call
        (manager.agents.get call.agentId).isSome = manager ↔
      (∀ info, manager.agents.get call.agentId = some info → info = call.info hash) ∧
        rolesAfter enableMaci manager call = manager.maciRoles := by
  rcases hget : manager.agents.get call.agentId with _ | info
  · rw [Option.isSome_none, rollback_of_new h hkept hget]
    constructor
    · intro heq
      exact ⟨nofun, congrArg RegistryManager.maciRoles heq⟩
    · intro hroles
      rw [hroles.2]
  · rw [Option.isSome_some, rollbackLocalRegistration, if_pos rfl, written_eq_iff h hget]
    simp only [Option.some_inj, forall_eq']

/-! ## One call -/

theorem atomic_iff_of_exact {c : Call} :
    manager.Atomic enableMaci c ↔ (manager.after enableMaci c).Exact ∧
      ∀ registration, c = .register registration →
        (manager.perform enableMaci c).1 = .returned false →
          manager.after enableMaci c = manager := by
  constructor
  · intro h
    exact ⟨h.exact, h.unchanged⟩
  · rintro ⟨hexact, hunchanged⟩
    exact ⟨hexact, fun aid tenant hne hnone => hexact.listed hne hnone aid, hunchanged⟩

theorem after_of_not_stored
    (h : call.isBlank = true ∨ call.syncConstitutionalHash = none) :
    manager.after enableMaci (.register call) = manager := by
  unfold after perform registerAgent
  dsimp only
  by_cases hblank : call.isBlank = true
  · rw [if_pos hblank]
  · rw [if_neg hblank, h.resolve_left hblank]

/-- **One registration.** -/
theorem atomic_register_iff (h : manager.Exact) (hkept : manager.WellKept) :
    manager.Atomic enableMaci (.register call) ↔ manager.Safe enableMaci (.register call) := by
  rw [atomic_iff_of_exact]
  by_cases hstored : call.isBlank = true ∨ call.syncConstitutionalHash = none
  · have hafter : manager.after enableMaci (.register call) = manager :=
      after_of_not_stored hstored
    rw [hafter]
    refine iff_of_true ⟨h, fun _ _ _ => rfl⟩ ?_
    intro hblank hash hsync
    rw [hblank, hsync] at hstored
    simp at hstored
  · rw [not_or, Bool.not_eq_true] at hstored
    obtain ⟨hblank, hne⟩ := hstored
    obtain ⟨hash, hsync⟩ := Option.ne_none_iff_exists'.mp hne
    have hsafe : manager.Safe enableMaci (.register call) ↔
        manager.Harmless enableMaci call hash := by
      constructor
      · intro hsafe
        exact hsafe hblank hash hsync
      · intro hharmless _ hash' hsync'
        rw [hsync, Option.some_inj] at hsync'
        exact hsync' ▸ hharmless
    rw [hsafe]
    cases hrefused : manager.refused enableMaci call with
    | true =>
      have hperform : manager.perform enableMaci (.register call) = _ :=
        registerAgent_of_refused hblank hsync hrefused
      unfold after
      rw [hperform]
      constructor
      · rintro ⟨-, hunchanged⟩
        obtain ⟨hentry, hroles⟩ := (rolledBack_eq_iff h hkept enableMaci call hash).mp (hunchanged call rfl rfl)
        refine ⟨fun info hinfo => ?_, fun _ => hentry, fun _ => rolesAfter_eq_iff.mp hroles⟩
        rw [hentry info hinfo]
        rfl
      · intro hharmless
        have heq := (rolledBack_eq_iff h hkept enableMaci call hash).mpr
          ⟨hharmless.sameEntry hrefused, rolesAfter_eq_iff.mpr (hharmless.sameRole hrefused)⟩
        dsimp only
        rw [heq]
        exact ⟨h, fun _ _ _ => rfl⟩
    | false =>
      obtain ⟨outcome, registry, roles, hne, hregister⟩ :=
        registerAgent_of_not_refused hblank hsync hrefused
      have hperform : manager.perform enableMaci (.register call) = _ := hregister
      unfold after
      rw [hperform]
      have hexact := exact_storeLocalAgent_iff h call hash
      constructor
      · rintro ⟨hafter, -⟩
        refine ⟨hexact.mp hafter, ?_, ?_⟩
        · intro hrefused'
          rw [hrefused] at hrefused'
          cases hrefused'
        · intro hrefused'
          rw [hrefused] at hrefused'
          cases hrefused'
      · intro hharmless
        exact ⟨hexact.mpr hharmless.sameTenant, fun _ _ hfalse => absurd hfalse hne⟩

omit [LowerTable] in
theorem unregisterAgent_agents (manager : RegistryManager) (aid : String) (backendFails : Bool) :
    ∃ registry, (manager.unregisterAgent aid backendFails).2 =
      { manager.unregisterLocal aid with registry := registry } := by
  unfold unregisterAgent
  cases backendFails with
  | true => exact ⟨(manager.unregisterLocal aid).registry, rfl⟩
  | false => exact ⟨_, rfl⟩

/-- **One call.** -/
theorem atomic_iff (h : manager.Exact) (hkept : manager.WellKept) (c : Call) :
    manager.Atomic enableMaci c ↔ manager.Safe enableMaci c := by
  cases c with
  | register call => exact atomic_register_iff h hkept
  | unregister aid backendFails =>
    rw [atomic_iff_of_exact]
    refine iff_of_true ⟨?_, fun registration heq => nomatch heq⟩ trivial
    obtain ⟨registry, hafter⟩ := unregisterAgent_agents manager aid backendFails
    have heq : manager.after enableMaci (.unregister aid backendFails) = _ := hafter
    rw [heq]
    exact h.unregisterLocal hkept aid

theorem WellKept.after (hkept : manager.WellKept) (h : manager.Exact) (c : Call) :
    (manager.after enableMaci c).WellKept := by
  cases c with
  | unregister aid backendFails =>
    obtain ⟨registry, hafter⟩ := unregisterAgent_agents manager aid backendFails
    have heq : manager.after enableMaci (.unregister aid backendFails) = _ := hafter
    have hlocal := hkept.unregisterLocal aid
    rw [heq]
    exact ⟨hlocal.noneEmpty, hlocal.named⟩
  | register call =>
    by_cases hstored : call.isBlank = true ∨ call.syncConstitutionalHash = none
    · rw [after_of_not_stored hstored]
      exact hkept
    · rw [not_or, Bool.not_eq_true] at hstored
      obtain ⟨hblank, hne⟩ := hstored
      obtain ⟨hash, hsync⟩ := Option.ne_none_iff_exists'.mp hne
      have hlocal := hkept.storeLocalAgent call hash
      rcases hrefused : manager.refused enableMaci call with _ | _
      · obtain ⟨outcome, registry, roles, -, hregister⟩ :=
          registerAgent_of_not_refused hblank hsync hrefused
        have heq : manager.perform enableMaci (.register call) = _ := hregister
        unfold RegistryManager.after
        rw [heq]
        exact ⟨hlocal.noneEmpty, hlocal.named⟩
      · have heq : manager.perform enableMaci (.register call) = _ :=
          registerAgent_of_refused hblank hsync hrefused
        unfold RegistryManager.after
        rw [heq]
        rcases hget : manager.agents.get call.agentId with _ | info
        · rw [Option.isSome_none]
          dsimp only
          rw [rollback_of_new h hkept hget]
          exact ⟨hkept.noneEmpty, hkept.named⟩
        · rw [Option.isSome_some, rollbackLocalRegistration, if_pos rfl]
          exact ⟨hlocal.noneEmpty, hlocal.named⟩

/-! ## Runs -/

/-- A manager at its start, over a backend and a registry of roles that may be in use. -/
def start (registry : Dict String BackendInfo) (maciRoles : Dict String RoleArgument) :
    RegistryManager where
  registry := registry
  maciRoles := maciRoles

omit [LowerTable] in
theorem exact_start (registry : Dict String BackendInfo) (maciRoles : Dict String RoleArgument) :
    (start registry maciRoles).Exact := by
  intro aid tenant
  refine iff_of_false (Finset.notMem_empty aid) ?_
  rintro ⟨info, hinfo, -⟩
  cases hinfo

omit [LowerTable] in
theorem wellKept_start (registry : Dict String BackendInfo)
    (maciRoles : Dict String RoleArgument) : (start registry maciRoles).WellKept :=
  ⟨Buckets.noneEmpty_empty, fun _ _ hinfo => nomatch hinfo⟩

/-- **Runs.**  Every call of a run leaves an exact index, and every registration that fails changes
nothing, just if every call of the run is safe in the state that it finds. -/
theorem registrations_atomic_iff (enableMaci : Bool) (registry : Dict String BackendInfo)
    (maciRoles : Dict String RoleArgument) (calls : List Call) :
    Along (fun m c => after enableMaci m c) (fun m c => m.Atomic enableMaci c)
        (start registry maciRoles) calls ↔
      Along (fun m c => after enableMaci m c) (fun m c => m.Safe enableMaci c)
        (start registry maciRoles) calls := by
  refine along_iff (fun m => m.Exact ∧ m.WellKept)
    ⟨exact_start registry maciRoles, wellKept_start registry maciRoles⟩ ?_ ?_
  · intro m c hm
    exact atomic_iff hm.1 hm.2 c
  · intro m c hm hatomic
    exact ⟨hatomic.exact, hm.2.after hm.1 c⟩

end RegistryManager

/-! ## A second tenant -/

namespace RegistryManager

/-- An agent is registered, and registered again with another tenant. -/
def moved : List Call :=
  let call : Registration := { agentId := "agent-1", constitutionalHash := "hash", now := 1 }
  [.register { call with tenantId := some "acme" },
    .register { call with tenantId := some "other", now := 2 }]

/-- The second call answers that it failed, but the agent is of the other tenant after it, and is
listed with the first one too. -/
theorem moved_not_atomic :
    ¬Along (fun m c => @after asciiLower false m c) (fun m c => @Atomic asciiLower false m c)
      (start Dict.empty Dict.empty) moved := by
  intro h
  have hlisted : "agent-1" ∈ Buckets.members
      (run (fun m c => @after asciiLower false m c) (start Dict.empty Dict.empty)
        moved).agentsByTenant "acme" := by decide +kernel
  have htenant : ((run (fun m c => @after asciiLower false m c) (start Dict.empty Dict.empty)
        moved).agents.get "agent-1").map AgentInfo.tenantId = some "other" := by decide +kernel
  have hexact := @Atomic.exact asciiLower _ _ _ h.2.1
  obtain ⟨info, hinfo, hacme⟩ := (hexact "agent-1" "acme").mp hlisted
  have hinfo' : (run (fun m c => @after asciiLower false m c) (start Dict.empty Dict.empty)
      moved).agents.get "agent-1" = some info := hinfo
  rw [hinfo', Option.map_some, hacme] at htenant
  exact absurd htenant (by decide)

end RegistryManager

end EnhancedAgentBus.Components
