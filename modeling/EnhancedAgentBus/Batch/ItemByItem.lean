import EnhancedAgentBus.Batch.Governance
import EnhancedAgentBus.Lib.Memo

/-!
# Memoised governance, item by item

A tenant decision depends on nothing but its key.  A role decision on a validation depends on its
target too, so an item may pass by what was decided on another target; and without `fail_closed` a
denial that lets its own item pass stops the next one with the same key (`itemByItem_iff`).
-/

namespace EnhancedAgentBus.Batch

open Maci Security

/-! ## Roles -/

section Decisions

variable {κ : Type} [DecidableEq κ] (hashKey : Json → Option κ)
variable (mw : Governance) (reg : AgentRegistry)

def mayTarget (agentRecord : MACIAgentRecord) (item : BatchRequestItem) : Bool :=
  match targetAgent item with
  | none => true
  | some (.str target) =>
    target ≠ item.fromAgent &&
      match reg.roles.agents.get target with
      | none => true
      | some targetRecord => agentRecord.canValidateRole targetRecord.role
  | some (.arr _) | some (.obj _) => false
  | some _ => true

/-- The agent of an item is registered, its role allows the action, and a validation has a target
that it may validate. -/
def permitted (item : BatchRequestItem) : Bool :=
  match reg.roles.agents.get item.fromAgent with
  | none => false
  | some agentRecord =>
    agentRecord.canPerform (mapMessageTypeToAction item.messageType) &&
      (mapMessageTypeToAction item.messageType ≠ .validate || mayTarget reg agentRecord item)

def maciTurn (item : BatchRequestItem) : Memo.Turn (DecisionKey κ) :=
  if item.fromAgent = "" then .skip
  else
    match decisionKey hashKey item with
    | none => .stop
    | some key => .check key (permitted reg item || !mw.failClosed) (permitted reg item)

variable {mw reg}

variable (mw reg) in
theorem checkValidationActionConstraints_spec (item : BatchRequestItem) (idx : ℕ)
    (agentRecord : MACIAgentRecord) (key : DecisionKey κ) (s : MaciState κ) :
    (mayTarget reg agentRecord item = true ∧
      checkValidationActionConstraints mw reg item idx agentRecord key s =
        .ok ((true, true), s)) ∨
    mayTarget reg agentRecord item = false ∧
      ((∃ text, checkValidationActionConstraints mw reg item idx agentRecord key s = .error text) ∨
        ∃ violation, checkValidationActionConstraints mw reg item idx agentRecord key s =
          .ok ((!mw.failClosed, false), s.deny key violation)) := by
  unfold checkValidationActionConstraints mayTarget
  rcases targetAgent item with _ | value
  · exact .inl ⟨rfl, rfl⟩
  · cases value with
    | str target =>
      by_cases hself : target = item.fromAgent
      · exact .inr ⟨by simp [hself], .inr ⟨_, if_pos hself⟩⟩
      · dsimp only
        rw [if_neg hself]
        rcases hrecord : reg.roles.agents.get target with _ | targetRecord
        · exact .inl ⟨by simp [hself], rfl⟩
        · by_cases hrole : agentRecord.canValidateRole targetRecord.role = true
          · exact .inl ⟨by simp [hself, hrole], if_pos hrole⟩
          · exact .inr ⟨by simp [hrole], .inr ⟨_, if_neg hrole⟩⟩
    | arr items => exact .inr ⟨rfl, .inl ⟨_, rfl⟩⟩
    | obj members => exact .inr ⟨rfl, .inl ⟨_, rfl⟩⟩
    | null => exact .inl ⟨rfl, rfl⟩
    | bool b => exact .inl ⟨rfl, rfl⟩
    | int i => exact .inl ⟨rfl, rfl⟩
    | float f => exact .inl ⟨rfl, rfl⟩

variable (mw) in
theorem finalizeMaciPermission_spec (canPerform : Bool) (key : DecisionKey κ) (idx : ℕ)
    (agentId : String) (maciAction : MACIAction) (agentRecord : MACIAgentRecord)
    (s : MaciState κ) :
    ∃ s', finalizeMaciPermission mw canPerform key idx agentId maciAction agentRecord s =
        (canPerform || !mw.failClosed, s') ∧ s'.cache = s.cache.set key canPerform := by
  unfold finalizeMaciPermission
  cases canPerform with
  | true => exact ⟨_, rfl, rfl⟩
  | false =>
    cases hclosed : mw.failClosed with
    | true => exact ⟨_, rfl, rfl⟩
    | false => exact ⟨_, rfl, rfl⟩

variable (mw reg) in
theorem tryMaciRole_spec (item : BatchRequestItem) (idx : ℕ) (key : DecisionKey κ)
    (s : MaciState κ) :
    (∃ s', tryMaciRole mw reg item idx key s = .ok (permitted reg item || !mw.failClosed, s') ∧
      s'.cache.get = Function.update s.cache.get key (some (permitted reg item))) ∨
    permitted reg item = false ∧ ∃ text s', tryMaciRole mw reg item idx key s = .error (text, s') ∧
      Function.update s'.cache.get key (some false) =
        Function.update s.cache.get key (some false) := by
  unfold tryMaciRole permitted
  rcases hrecord : reg.roles.agents.get item.fromAgent with _ | agentRecord
  · cases hclosed : mw.failClosed with
    | true =>
      refine .inl ⟨s.deny key (.unregisteredAgent idx item.fromAgent), ?_, ?_⟩
      · simp [validateAgentRegistration, hclosed]
      · exact Memo.get_set_eq_update ..
    | false =>
      refine .inr ⟨rfl, "'NoneType' object has no attribute 'can_perform'",
        { s with cache := s.cache.set key true }, ?_, ?_⟩
      · simp [validateAgentRegistration, hclosed]
      · rw [Memo.get_set_eq_update, Function.update_idem]
  · simp only [validateAgentRegistration]
    by_cases hvalidate : mapMessageTypeToAction item.messageType = .validate
    · rw [if_pos hvalidate]
      unfold applyValidationConstraints
      rcases checkValidationActionConstraints_spec mw reg item idx agentRecord
        key s with ⟨hmay, hcheck⟩ | ⟨hmay, ⟨text, hcheck⟩ | ⟨violation, hcheck⟩⟩
      · left
        obtain ⟨s', hfinal, hcache⟩ := finalizeMaciPermission_spec mw
          (agentRecord.canPerform .validate) key idx item.fromAgent .validate agentRecord s
        refine ⟨s', ?_, ?_⟩
        · simp [hcheck, hvalidate, hmay, hfinal]
        · rw [hcache, Memo.get_set_eq_update]
          simp [hvalidate, hmay]
      · right
        refine ⟨by simp [hvalidate, hmay], text, s, ?_, rfl⟩
        simp [hcheck]
      · left
        cases hclosed : mw.failClosed with
        | true =>
          refine ⟨s.deny key violation, ?_, ?_⟩
          · simp [hcheck, hclosed, hvalidate, hmay]
          · rw [MaciState.cache_deny, Memo.get_set_eq_update]
            simp [hvalidate, hmay]
        | false =>
          obtain ⟨s', hfinal, hcache⟩ := finalizeMaciPermission_spec mw false key idx
            item.fromAgent .validate agentRecord (s.deny key violation)
          refine ⟨s', ?_, ?_⟩
          · simp [hcheck, hclosed, hvalidate, hmay, hfinal]
          · rw [hcache, Memo.get_set_eq_update, MaciState.cache_deny, Memo.get_set_eq_update,
              Function.update_idem]
            simp [hvalidate, hmay]
    · rw [if_neg hvalidate]
      left
      obtain ⟨s', hfinal, hcache⟩ := finalizeMaciPermission_spec mw
        (agentRecord.canPerform (mapMessageTypeToAction item.messageType)) key idx
        item.fromAgent (mapMessageTypeToAction item.messageType) agentRecord s
      refine ⟨s', ?_, ?_⟩
      · simp [hvalidate, hfinal]
      · rw [hcache, Memo.get_set_eq_update]
        simp [hvalidate]

variable (mw reg) in
theorem validateSingleMaciRole_spec (item : BatchRequestItem) (idx : ℕ) (s : MaciState κ) :
    match maciTurn hashKey mw reg item with
    | .skip => validateSingleMaciRole hashKey mw reg item idx s = .ok (true, s)
    | .stop => ∃ text, validateSingleMaciRole hashKey mw reg item idx s = .error text
    | .check key passes stored =>
      match s.cache.get key with
      | some verdict => ∃ s', validateSingleMaciRole hashKey mw reg item idx s =
          .ok (verdict, s') ∧ s'.cache.get = s.cache.get
      | none => ∃ s', validateSingleMaciRole hashKey mw reg item idx s = .ok (passes, s') ∧
          s'.cache.get = Function.update s.cache.get key (some stored) := by
  unfold maciTurn validateSingleMaciRole
  by_cases hagent : item.fromAgent = ""
  · simp [hagent]
  · rw [if_neg hagent, if_neg hagent]
    rcases hkey : decisionKey hashKey item with _ | key
    · exact ⟨_, rfl⟩
    · dsimp only
      cases hcache : s.cache.get key with
      | some verdict => exact ⟨_, rfl, rfl⟩
      | none =>
        dsimp only
        rcases tryMaciRole_spec mw reg item idx key s.miss with
          ⟨s', htry, hstored⟩ | ⟨hdenied, text, s', htry, hstored⟩
        · rw [htry]
          exact ⟨s', rfl, hstored⟩
        · rw [htry, hdenied]
          refine ⟨_, rfl, ?_⟩
          rw [MaciState.cache_deny, Memo.get_set_eq_update]
          exact hstored

variable (mw reg) in
theorem accepted_checkMaciItems (items : List BatchRequestItem) (idx : ℕ) (s : MaciState κ) :
    accepted (checkMaciItems hashKey mw reg idx items s) =
      Memo.run (maciTurn hashKey mw reg) s.cache.get items := by
  induction items generalizing idx s with
  | nil => rfl
  | cons item rest ih =>
    have hspec := validateSingleMaciRole_spec hashKey mw reg item idx s
    rw [checkMaciItems, Memo.run]
    cases hturn : maciTurn hashKey mw reg item with
    | skip =>
      rw [hturn] at hspec
      rw [hspec]
      exact ih ..
    | stop =>
      rw [hturn] at hspec
      obtain ⟨text, herror⟩ := hspec
      rw [herror]
      rfl
    | check key passes stored =>
      rw [hturn] at hspec
      dsimp only at hspec ⊢
      cases hcache : s.cache.get key with
      | some verdict =>
        rw [hcache] at hspec
        obtain ⟨s', hok, hsame⟩ := hspec
        rw [hok, ← hsame]
        cases verdict with
        | true => exact ih ..
        | false => rfl
      | none =>
        rw [hcache] at hspec
        obtain ⟨s', hok, hsame⟩ := hspec
        rw [hok, ← hsame]
        cases passes with
        | true => exact ih ..
        | false => rfl

theorem accepted_checkMaciRoles (items : List BatchRequestItem) :
    accepted (checkMaciRoles hashKey mw reg items) =
      Memo.run (maciTurn hashKey mw reg) (fun _ => none) items := by
  have hloop := accepted_checkMaciItems hashKey mw reg items 0 {}
  rw [checkMaciRoles]
  rcases hitems : checkMaciItems hashKey mw reg 0 items {} with text | result
  · rw [hitems] at hloop
    exact hloop
  · rw [hitems] at hloop
    exact hloop

/-! ### What the loop accepts -/

def SameKey (item item' : BatchRequestItem) : Prop :=
  item.fromAgent ≠ "" ∧ item'.fromAgent ≠ "" ∧ decisionKey hashKey item = decisionKey hashKey item'

variable (reg) in
/-- An item has an agent, and no key or no permission. -/
def Denied (item : BatchRequestItem) : Prop :=
  item.fromAgent ≠ "" ∧ (decisionKey hashKey item = none ∨ permitted reg item = false)

def FirstUnderKey (before : List BatchRequestItem) (item : BatchRequestItem) : Prop :=
  ∀ b ∈ before, ¬SameKey hashKey b item

variable {hashKey}

omit [DecidableEq κ] in
theorem maciTurn_of_key {item : BatchRequestItem} {key : DecisionKey κ}
    (hagent : item.fromAgent ≠ "") (hkey : decisionKey hashKey item = some key) :
    maciTurn hashKey mw reg item =
      .check key (permitted reg item || !mw.failClosed) (permitted reg item) := by
  rw [maciTurn, if_neg hagent, hkey]

omit [DecidableEq κ] in
theorem under_iff {item : BatchRequestItem} {key : DecisionKey κ} :
    Memo.Under (maciTurn hashKey mw reg) key item ↔
      item.fromAgent ≠ "" ∧ decisionKey hashKey item = some key := by
  constructor
  · rintro ⟨passes, stored, hturn⟩
    rw [maciTurn] at hturn
    by_cases hagent : item.fromAgent = ""
    · rw [if_pos hagent] at hturn
      cases hturn
    · rw [if_neg hagent] at hturn
      rcases hkey : decisionKey hashKey item with _ | key'
      · rw [hkey] at hturn
        cases hturn
      · rw [hkey] at hturn
        cases hturn
        exact ⟨hagent, rfl⟩
  · rintro ⟨hagent, hkey⟩
    exact ⟨_, _, maciTurn_of_key hagent hkey⟩

omit [DecidableEq κ] in
theorem first_iff {before : List BatchRequestItem} {item : BatchRequestItem} {key : DecisionKey κ}
    (hagent : item.fromAgent ≠ "") (hkey : decisionKey hashKey item = some key) :
    Memo.First (maciTurn hashKey mw reg) before key ↔ FirstUnderKey hashKey before item := by
  refine forall_congr' fun b => forall_congr' fun _ => not_congr ?_
  rw [under_iff, SameKey, hkey]
  exact ⟨fun h => ⟨h.1, hagent, h.2⟩, fun h => ⟨h.1, h.2.2⟩⟩

variable (hashKey mw reg) in
theorem passesAt_iff (before : List BatchRequestItem) (item : BatchRequestItem) :
    Memo.passesAt (maciTurn hashKey mw reg)
        (Memo.storedAfter (maciTurn hashKey mw reg) (fun _ => none) before) item = true ↔
      (item.fromAgent ≠ "" → decisionKey hashKey item ≠ none) ∧
        (FirstUnderKey hashKey before item → Denied hashKey reg item → mw.failClosed = false) ∧
          ∀ earlier b later, before = earlier ++ b :: later → FirstUnderKey hashKey earlier b →
            SameKey hashKey b item → decisionKey hashKey item ≠ none → permitted reg b = true := by
  by_cases hagent : item.fromAgent = ""
  · have hturn : maciTurn hashKey mw reg item = .skip := if_pos hagent
    simp only [Memo.passesAt, hturn, true_iff]
    exact ⟨fun h => absurd hagent h, fun _ h => absurd hagent h.1,
      fun _ _ _ _ _ h => absurd hagent h.2.1⟩
  · rcases hkey : decisionKey hashKey item with _ | key
    · have hturn : maciTurn hashKey mw reg item = .stop := by
        rw [maciTurn, if_neg hagent, hkey]
      simp only [Memo.passesAt, hturn]
      exact iff_of_false Bool.false_ne_true fun h => h.1 hagent rfl
    · rw [Memo.passesAt_storedAfter (maciTurn_of_key hagent hkey), first_iff hagent hkey]
      constructor
      · rintro ⟨hfirst, hstored⟩
        refine ⟨fun _ => Option.some_ne_none key, fun hfresh hdenied => ?_, ?_⟩
        · have hpasses := hfirst hfresh
          have hnot : permitted reg item = false :=
            hdenied.2.resolve_left (by rw [hkey]; exact Option.some_ne_none key)
          rw [hnot, Bool.false_or] at hpasses
          simpa using hpasses
        · intro earlier b later hbefore hfresh hsame _
          have hb : decisionKey hashKey b = some key := hsame.2.2.trans hkey
          exact hstored earlier b later _ _ hbefore ((first_iff hsame.1 hb).mpr hfresh)
            (maciTurn_of_key hsame.1 hb)
      · rintro ⟨-, hfirst, hstored⟩
        refine ⟨fun hfresh => ?_, ?_⟩
        · cases hpermitted : permitted reg item with
          | true => rfl
          | false =>
            rw [hfirst hfresh ⟨hagent, .inr hpermitted⟩]
            rfl
        · intro earlier b later passes stored hbefore hfresh hturn
          obtain ⟨hagentb, hb⟩ := under_iff.mp ⟨passes, stored, hturn⟩
          rw [maciTurn_of_key hagentb hb] at hturn
          cases hturn
          exact hstored earlier b later hbefore ((first_iff hagentb hb).mp hfresh)
            ⟨hagentb, hagent, hb.trans hkey.symm⟩ (Option.some_ne_none key)

theorem accepted_checkMaciRoles_singleton (item : BatchRequestItem) :
    accepted (checkMaciRoles hashKey mw reg [item]) = true ↔
      (item.fromAgent ≠ "" → decisionKey hashKey item ≠ none) ∧
        (Denied hashKey reg item → mw.failClosed = false) := by
  rw [accepted_checkMaciRoles, Memo.run_iff]
  have hitem := passesAt_iff hashKey mw reg [] item
  constructor
  · intro h
    obtain ⟨hkey, hdenied, -⟩ := hitem.mp (h [] item [] rfl)
    exact ⟨hkey, hdenied fun b hb => absurd hb List.not_mem_nil⟩
  · rintro ⟨hkey, hdenied⟩ before a after hsplit
    rcases before with _ | ⟨b, rest⟩
    · cases hsplit
      refine hitem.mpr ⟨hkey, fun _ => hdenied, fun earlier b later hnil => ?_⟩
      exact absurd hnil.symm (List.append_ne_nil_of_right_ne_nil _ (List.cons_ne_nil _ _))
    · obtain ⟨-, hnil⟩ := List.cons.inj hsplit
      exact absurd hnil.symm (List.append_ne_nil_of_right_ne_nil _ (List.cons_ne_nil _ _))

theorem accepted_checkMaciRoles_iff (items : List BatchRequestItem) :
    accepted (checkMaciRoles hashKey mw reg items) = true ↔
      (∀ item ∈ items, item.fromAgent ≠ "" → decisionKey hashKey item ≠ none) ∧
        ∀ before item after, items = before ++ item :: after → FirstUnderKey hashKey before item →
          Denied hashKey reg item →
            mw.failClosed = false ∧ ∀ later ∈ after, ¬SameKey hashKey item later := by
  rw [accepted_checkMaciRoles, Memo.run_iff]
  constructor
  · intro h
    have hkeys : ∀ item ∈ items, item.fromAgent ≠ "" → decisionKey hashKey item ≠ none := by
      intro item hitem
      obtain ⟨before, after, hsplit⟩ := List.append_of_mem hitem
      exact ((passesAt_iff ..).mp (h before item after hsplit)).1
    refine ⟨hkeys, fun before item after hsplit hfirst hdenied => ⟨?_, ?_⟩⟩
    · exact ((passesAt_iff ..).mp (h before item after hsplit)).2.1 hfirst hdenied
    · intro later hlater hsame
      obtain ⟨between, rest, rfl⟩ := List.append_of_mem hlater
      have hat := h (before ++ item :: between) later rest (by
        rw [hsplit, List.append_assoc, List.cons_append])
      have hkey : decisionKey hashKey item ≠ none :=
        hkeys item (hsplit ▸ List.mem_append_right _ (List.mem_cons_self ..)) hdenied.1
      have hpermitted := ((passesAt_iff ..).mp hat).2.2 before item between rfl hfirst hsame
        (hsame.2.2 ▸ hkey)
      rw [hdenied.2.resolve_left hkey] at hpermitted
      cases hpermitted
  · rintro ⟨hkeys, hdenied⟩ before item after rfl
    refine (passesAt_iff ..).mpr
      ⟨hkeys item (List.mem_append_right _ (List.mem_cons_self ..)), ?_, ?_⟩
    · exact fun hfirst hitem => (hdenied before item after rfl hfirst hitem).1
    · rintro earlier b later rfl hfirst hsame -
      by_contra hnot
      refine (hdenied earlier b (later ++ item :: after) ?_ hfirst
        ⟨hsame.1, .inr (by simpa using hnot)⟩).2 item ?_ hsame
      · rw [List.append_assoc, List.cons_append]
      · exact List.mem_append_right _ (List.mem_cons_self ..)

end Decisions

/-! ## Tenants -/

section Access

variable (reg : AgentRegistry)

/-- Where an item has an agent, this one is registered and has access to the tenant of the item. -/
def HasAccess (item : BatchRequestItem) : Prop :=
  item.fromAgent ≠ "" → (reg.roles.agents.get item.fromAgent).isSome = true ∧
    checkAgentTenantPermissions reg item.fromAgent (tenantOf item) = .ok true

def TenantsAgree (items : List BatchRequestItem) : Prop :=
  ∀ a ∈ nonDefaultTenants items, ∀ b ∈ nonDefaultTenants items, a = b

def wellFormed [LowerTable] (item : BatchRequestItem) : Bool :=
  (sanitizeAndValidate (some (tenantOf item))).2 || tenantOf item = "default"

variable {reg} {mw : Governance}

variable (mw) in
theorem validateTenantFormats_spec [LowerTable] (items : List BatchRequestItem) (s : TenantState) :
    ((validateTenantFormats mw items s).1 = true ↔
      (mw.failClosed = true → ∀ item ∈ items, wellFormed item = true)) ∧
        (validateTenantFormats mw items s).2.cache = s.cache := by
  induction items generalizing s with
  | nil => simp [validateTenantFormats]
  | cons item rest ih =>
    rw [validateTenantFormats, List.forall_mem_cons]
    cases hformat : wellFormed item with
    | true =>
      have hvalid : ¬(!(sanitizeAndValidate (some (tenantOf item))).2 &&
          decide (tenantOf item ≠ "default")) = true := by
        simpa [wellFormed, or_iff_not_imp_left] using hformat
      rw [if_neg hvalid]
      exact ⟨(ih s).1.trans (by simp), (ih s).2⟩
    | false =>
      have hinvalid : (!(sanitizeAndValidate (some (tenantOf item))).2 &&
          decide (tenantOf item ≠ "default")) = true := by
        simpa [wellFormed] using hformat
      rw [if_pos hinvalid]
      cases hclosed : mw.failClosed with
      | true => exact ⟨by simp, rfl⟩
      | false =>
        obtain ⟨hrest, hcache⟩ := ih (s.violate (.invalidTenantFormat (tenantOf item)))
        refine ⟨?_, hcache⟩
        rw [hclosed] at hrest
        simpa using hrest

variable (mw) in
theorem checkTenants_spec (all : Finset String) (firstTenant : String) (tenants : List String)
    (s : TenantState) :
    ((checkTenants mw all firstTenant tenants s).1 = true ↔
      (mw.failClosed = true → ∀ tenant ∈ tenants, tenant = firstTenant)) ∧
        (checkTenants mw all firstTenant tenants s).2.cache = s.cache := by
  induction tenants generalizing s with
  | nil => simp [checkTenants]
  | cons tenant rest ih =>
    rw [checkTenants, List.forall_mem_cons]
    by_cases hsame : tenant = firstTenant
    · rw [if_neg (not_not_intro hsame)]
      exact ⟨(ih s).1.trans (by simp [hsame]), (ih s).2⟩
    · rw [if_pos hsame]
      cases hclosed : mw.failClosed with
      | true => exact ⟨by simp [hsame], rfl⟩
      | false =>
        obtain ⟨hrest, hcache⟩ := ih (s.violate (.crossTenantBatch all))
        refine ⟨?_, hcache⟩
        rw [hclosed] at hrest
        simpa using hrest

variable (mw) in
theorem checkBatchTenantConsistency_spec (items : List BatchRequestItem) (s : TenantState) :
    ((checkBatchTenantConsistency mw items s).1 = true ↔
      (mw.failClosed = true → TenantsAgree items)) ∧
        (checkBatchTenantConsistency mw items s).2.cache = s.cache := by
  rw [checkBatchTenantConsistency, TenantsAgree]
  rcases htenants : nonDefaultTenants items with _ | ⟨firstTenant, rest⟩
  · exact ⟨by simp, rfl⟩
  · obtain ⟨hcheck, hcache⟩ :=
      checkTenants_spec mw (firstTenant :: rest).toFinset firstTenant rest s
    have hagree : (∀ a ∈ firstTenant :: rest, ∀ b ∈ firstTenant :: rest, a = b) ↔
        ∀ tenant ∈ rest, tenant = firstTenant := by
      constructor
      · exact fun h tenant htenant =>
          h tenant (List.mem_cons_of_mem _ htenant) firstTenant (List.mem_cons_self ..)
      · intro h a ha b hb
        have hfirst : ∀ c ∈ firstTenant :: rest, c = firstTenant := by
          rw [List.forall_mem_cons]
          exact ⟨rfl, h⟩
        rw [hfirst a ha, hfirst b hb]
    rw [hagree, ← hcheck]
    dsimp only
    cases hresult : checkTenants mw (firstTenant :: rest).toFinset firstTenant rest s with
    | mk success s' =>
      rw [hresult] at hcache
      cases success with
      | true => exact ⟨Iff.rfl, hcache⟩
      | false => exact ⟨Iff.rfl, hcache⟩

def grants (reg : AgentRegistry) (key : String × String) : Bool :=
  (reg.roles.agents.get key.1).isSome &&
    match checkAgentTenantPermissions reg key.1 key.2 with
    | .ok allowed => allowed
    | .error _ => false

theorem hasAccess_iff {item : BatchRequestItem} (hagent : item.fromAgent ≠ "") :
    HasAccess reg item ↔ grants reg (item.fromAgent, tenantOf item) = true := by
  rw [HasAccess, grants]
  rcases hcheck : checkAgentTenantPermissions reg item.fromAgent (tenantOf item) with text | allowed
  · simp [hagent]
  · simp [hagent]

theorem validateItemTenantAccess_of_open (hopen : mw.failClosed = false) (idx : ℕ)
    (items : List BatchRequestItem) (s : TenantState) :
    (validateItemTenantAccess mw reg idx items s).1 = true := by
  induction items generalizing idx s with
  | nil => rfl
  | cons item rest ih =>
    rw [validateItemTenantAccess]
    split
    · exact ih ..
    · split
      · exact ih ..
      · have hsingle : ∀ s, (validateSingleItemTenantAccess mw reg idx item.fromAgent
            (tenantOf item) s).1 = true := by
          intro s
          unfold validateSingleItemTenantAccess
          split
          · rw [hopen]
            rfl
          · split
            · rw [hopen]
              rfl
            · rfl
            · rw [hopen]
              rfl
        split
        · rename_i heq
          have hfalse := congrArg Prod.fst heq
          rw [hsingle] at hfalse
          cases hfalse
        · exact ih ..

variable (reg) in
theorem validateSingleItemTenantAccess_spec (hclosed : mw.failClosed = true) (idx : ℕ)
    (agentId tenantId : String) (s : TenantState) :
    (validateSingleItemTenantAccess mw reg idx agentId tenantId s).1 =
        grants reg (agentId, tenantId) ∧
      (validateSingleItemTenantAccess mw reg idx agentId tenantId s).2.cache =
        s.cache.set (agentId, tenantId) (grants reg (agentId, tenantId)) := by
  unfold validateSingleItemTenantAccess grants
  rcases hrecord : reg.roles.agents.get agentId with _ | record
  · rw [if_pos hclosed]
    exact ⟨rfl, rfl⟩
  · dsimp only
    rcases hcheck : checkAgentTenantPermissions reg agentId tenantId with text | allowed
    · rw [hclosed]
      exact ⟨rfl, rfl⟩
    · cases allowed with
      | true => exact ⟨rfl, rfl⟩
      | false =>
        rw [hclosed]
        exact ⟨rfl, rfl⟩

theorem validateItemTenantAccess_of_closed (hclosed : mw.failClosed = true) (idx : ℕ)
    (items : List BatchRequestItem) (s : TenantState)
    (hcache : ∀ key verdict, s.cache.get key = some verdict → verdict = grants reg key) :
    (validateItemTenantAccess mw reg idx items s).1 = true ↔
      ∀ item ∈ items, HasAccess reg item := by
  induction items generalizing idx s with
  | nil => simp [validateItemTenantAccess]
  | cons item rest ih =>
    rw [validateItemTenantAccess, List.forall_mem_cons]
    by_cases hagent : item.fromAgent = ""
    · rw [if_pos hagent, ih (idx + 1) s hcache]
      exact (and_iff_right fun h => absurd hagent h).symm
    · rw [if_neg hagent, hasAccess_iff hagent]
      -- where nothing is stored, or a no, the decision is made anew
      have hanew {s' s'' : TenantState} {success : Bool} (hsame : s'.cache = s.cache)
          (hresult : validateSingleItemTenantAccess mw reg idx item.fromAgent (tenantOf item) s' =
            (success, s'')) :
          (success = true ∧ (validateItemTenantAccess mw reg (idx + 1) rest s'').1 = true) ↔
            grants reg (item.fromAgent, tenantOf item) = true ∧
              ∀ item ∈ rest, HasAccess reg item := by
        obtain ⟨hsuccess, hstored⟩ := validateSingleItemTenantAccess_spec reg hclosed idx
          item.fromAgent (tenantOf item) s'
        rw [hresult] at hsuccess hstored
        dsimp only at hsuccess hstored
        rw [hsuccess]
        refine and_congr_right fun _ => ih (idx + 1) _ fun key verdict hget => ?_
        rw [hstored, hsame] at hget
        rcases Dict.get_set_cases hget with ⟨rfl, heq⟩ | ⟨-, hget⟩
        · exact heq.symm
        · exact hcache key verdict hget
      rcases hget : s.cache.get (item.fromAgent, tenantOf item) with _ | verdict
      · have hcheck : checkTenantCache mw item.fromAgent (tenantOf item) idx s =
            (false, s) := by
          rw [checkTenantCache, hget]
        rw [hcheck]
        dsimp only
        rcases hresult : validateSingleItemTenantAccess mw reg idx item.fromAgent (tenantOf item) _
          with ⟨_ | _, s''⟩
        · rw [← hanew (by rfl) hresult]
          exact iff_of_false Bool.false_ne_true fun h => Bool.false_ne_true h.1
        · rw [← hanew (by rfl) hresult]
          exact (and_iff_right rfl).symm
      · have hverdict := hcache _ _ hget
        cases verdict with
        | true =>
          have hcheck : ∃ s', checkTenantCache mw item.fromAgent (tenantOf item) idx s =
              (true, s') ∧ s'.cache = s.cache := by
            rw [checkTenantCache, hget]
            exact ⟨_, rfl, rfl⟩
          obtain ⟨s', hcheck, hsame⟩ := hcheck
          rw [hcheck, ← hverdict]
          exact (ih (idx + 1) s' (by rwa [hsame])).trans (and_iff_right rfl).symm
        | false =>
          have hcheck : ∃ s', checkTenantCache mw item.fromAgent (tenantOf item) idx s =
              (false, s') ∧ s'.cache = s.cache := by
            rw [checkTenantCache, hget, hclosed]
            exact ⟨_, rfl, rfl⟩
          obtain ⟨s', hcheck, hsame⟩ := hcheck
          rw [hcheck]
          dsimp only
          rcases hresult : validateSingleItemTenantAccess mw reg idx item.fromAgent (tenantOf item) _
            with ⟨_ | _, s''⟩
          · rw [← hanew (by exact hsame) hresult]
            exact iff_of_false Bool.false_ne_true fun h => Bool.false_ne_true h.1
          · rw [← hanew (by exact hsame) hresult]
            exact (and_iff_right rfl).symm

variable (mw reg) in
theorem validateTenantAccess_iff [LowerTable] (items : List BatchRequestItem) :
    (validateTenantAccess mw reg items).1 = true ↔
      (mw.failClosed = true → (∀ item ∈ items, wellFormed item = true) ∧ TenantsAgree items ∧
        ∀ item ∈ items, HasAccess reg item) := by
  unfold validateTenantAccess
  by_cases hnil : items = []
  · subst hnil
    refine iff_of_true rfl fun _ => ⟨?_, ?_, ?_⟩
    · exact fun item hitem => absurd hitem List.not_mem_nil
    · exact fun a ha => absurd ha List.not_mem_nil
    · exact fun item hitem => absurd hitem List.not_mem_nil
  rw [if_neg hnil]
  obtain ⟨hformats, hcache⟩ := validateTenantFormats_spec mw items {}
  cases hresult : validateTenantFormats mw items {} with
  | mk success s =>
    rw [hresult] at hformats hcache
    rcases success with _ | _
    · refine iff_of_false Bool.false_ne_true fun h => ?_
      exact Bool.false_ne_true (hformats.mpr fun hclosed => (h hclosed).1)
    · obtain ⟨hagree, hcache'⟩ := checkBatchTenantConsistency_spec mw items s
      dsimp only
      cases hresult' : checkBatchTenantConsistency mw items s with
      | mk success s' =>
        rw [hresult'] at hagree hcache'
        rcases success with _ | _
        · refine iff_of_false Bool.false_ne_true fun h => ?_
          exact Bool.false_ne_true (hagree.mpr fun hclosed => (h hclosed).2.1)
        · show (validateItemTenantAccess mw reg 0 items s').1 = true ↔ _
          have hempty : s'.cache = Dict.empty := hcache'.trans hcache
          rcases hclosed : mw.failClosed with _ | _
          · rw [validateItemTenantAccess_of_open hclosed]
            exact iff_of_true rfl fun h => by cases h
          · rw [validateItemTenantAccess_of_closed hclosed]
            · exact ⟨fun h _ => ⟨hformats.mp rfl hclosed, hagree.mp rfl hclosed, h⟩,
                fun h => (h rfl).2.2⟩
            · intro key verdict hget
              rw [hempty] at hget
              cases hget

end Access

/-! ## A batch and its items -/

section Batches

variable [LowerTable] {κ : Type} [DecidableEq κ] (hashKey : Json → Option κ)
variable (mw : Governance) (reg : AgentRegistry) (items : List BatchRequestItem)

/-- An agent validates itself, or an agent whose role may not validate its own. -/
def Barred (item : BatchRequestItem) : Prop :=
  item.fromAgent ≠ "" ∧ mapMessageTypeToAction item.messageType = .validate ∧
    ∃ target, targetAgent item = some (.str target) ∧
      (target = item.fromAgent ∨
        ∃ record targetRecord, reg.roles.agents.get item.fromAgent = some record ∧
          reg.roles.agents.get target = some targetRecord ∧
            record.canValidateRole targetRecord.role = false)

/-- **A batch is governed as its items are**, one by one. -/
structure ItemByItem : Prop where
  roles : accepted (checkMaciRoles hashKey mw reg items) = true ↔
    ∀ item ∈ items, accepted (checkMaciRoles hashKey mw reg [item]) = true
  tenants : (validateTenantAccess mw reg items).1 = true ↔
    (∀ item ∈ items, HasAccess reg item) ∧ TenantsAgree items
  barred : mw.failClosed = true → (∃ item ∈ items, Barred reg item) →
    accepted (checkMaciRoles hashKey mw reg items) = false

/-- With `fail_closed`, where an item is denied, one that is the first under its key is; and the
tenants of items with access have the format of a tenant. -/
structure FirstDenied : Prop where
  roles : (∃ item ∈ items, Denied hashKey reg item) → ∃ before item after,
    items = before ++ item :: after ∧ FirstUnderKey hashKey before item ∧ Denied hashKey reg item
  tenants : (∀ item ∈ items, HasAccess reg item) → TenantsAgree items →
    ∀ item ∈ items, wellFormed item = true

/-- Without `fail_closed`, where every item has a key, no item comes after a denied one that is the
first under its key; and the items have access to one tenant. -/
structure NotRepeated : Prop where
  roles : (∀ item ∈ items, item.fromAgent ≠ "" → decisionKey hashKey item ≠ none) →
    ∀ before item after, items = before ++ item :: after → FirstUnderKey hashKey before item →
      Denied hashKey reg item → ∀ later ∈ after, ¬SameKey hashKey item later
  tenants : (∀ item ∈ items, HasAccess reg item) ∧ TenantsAgree items

variable {hashKey mw reg items}

omit [LowerTable] [DecidableEq κ] in
theorem Barred.denied {item : BatchRequestItem} (h : Barred reg item) :
    Denied hashKey reg item := by
  obtain ⟨hagent, hvalidate, target, htarget, hbarred⟩ := h
  refine ⟨hagent, .inr ?_⟩
  rw [permitted]
  rcases hrecord : reg.roles.agents.get item.fromAgent with _ | agentRecord
  · rfl
  · have hmay : mayTarget reg agentRecord item = false := by
      rw [mayTarget, htarget]
      rcases hbarred with rfl | ⟨record, targetRecord, hrecord', htargetRecord, hrole⟩
      · simp
      · rw [hrecord] at hrecord'
        cases hrecord'
        simp [htargetRecord, hrole]
    simp [hvalidate, hmay]

omit [LowerTable] in
theorem accepted_of_closed (hclosed : mw.failClosed = true) :
    accepted (checkMaciRoles hashKey mw reg items) = true ↔
      ¬∃ before item after, items = before ++ item :: after ∧
        FirstUnderKey hashKey before item ∧ Denied hashKey reg item := by
  rw [accepted_checkMaciRoles_iff, hclosed]
  constructor
  · rintro ⟨-, hdenied⟩ ⟨before, item, after, hsplit, hfirst, hitem⟩
    cases (hdenied before item after hsplit hfirst hitem).1
  · intro hnone
    refine ⟨fun item hitem hagent hkey => ?_, fun before item after hsplit hfirst hitem => ?_⟩
    · -- the first item without a key is the first under its key
      have hexists : ∃ before item after, items = before ++ item :: after ∧
          (item.fromAgent ≠ "" ∧ decisionKey hashKey item = none) ∧
            ∀ b ∈ before, ¬(b.fromAgent ≠ "" ∧ decisionKey hashKey b = none) := by
        clear hnone
        induction items with
        | nil => cases hitem
        | cons first rest ih =>
          by_cases hfirst : first.fromAgent ≠ "" ∧ decisionKey hashKey first = none
          · exact ⟨[], first, rest, rfl, hfirst, fun b hb => absurd hb List.not_mem_nil⟩
          · rcases List.mem_cons.mp hitem with rfl | hitem
            · exact absurd ⟨hagent, hkey⟩ hfirst
            · obtain ⟨before, item', after, rfl, hitem', hfresh⟩ := ih hitem
              refine ⟨first :: before, item', after, rfl, hitem', ?_⟩
              rw [List.forall_mem_cons]
              exact ⟨hfirst, hfresh⟩
      obtain ⟨before, item', after, hsplit, ⟨hagent', hkey'⟩, hfresh⟩ := hexists
      refine hnone ⟨before, item', after, hsplit, fun b hb hsame => ?_, hagent', .inl hkey'⟩
      exact hfresh b hb ⟨hsame.1, hsame.2.2.trans hkey'⟩
    · exact absurd ⟨before, item, after, hsplit, hfirst, hitem⟩ hnone

omit [LowerTable] in
theorem accepted_alone_of_closed (hclosed : mw.failClosed = true) (item : BatchRequestItem) :
    accepted (checkMaciRoles hashKey mw reg [item]) = true ↔ ¬Denied hashKey reg item := by
  rw [accepted_checkMaciRoles_singleton, hclosed]
  constructor
  · rintro ⟨-, hdenied⟩ hitem
    cases hdenied hitem
  · exact fun h => ⟨fun hagent hkey => h ⟨hagent, .inl hkey⟩, fun hitem => absurd hitem h⟩

theorem itemByItem_of_closed (hclosed : mw.failClosed = true) :
    ItemByItem hashKey mw reg items ↔ FirstDenied hashKey reg items := by
  have halone : (∀ item ∈ items, accepted (checkMaciRoles hashKey mw reg [item]) = true) ↔
      ¬∃ item ∈ items, Denied hashKey reg item := by
    simp only [accepted_alone_of_closed hclosed]
    exact ⟨fun h ⟨item, hitem, hdenied⟩ => h item hitem hdenied,
      fun h item hitem hdenied => h ⟨item, hitem, hdenied⟩⟩
  have htenants := validateTenantAccess_iff reg mw items
  constructor
  · intro h
    refine ⟨fun hdenied => ?_, fun haccess hagree => ?_⟩
    · by_contra hnone
      exact halone.mp (h.roles.mp ((accepted_of_closed hclosed).mpr hnone)) hdenied
    · exact (htenants.mp (h.tenants.mpr ⟨haccess, hagree⟩) hclosed).1
  · intro h
    have hroles : accepted (checkMaciRoles hashKey mw reg items) = true ↔
        ¬∃ item ∈ items, Denied hashKey reg item := by
      rw [accepted_of_closed hclosed]
      refine not_congr ⟨?_, h.roles⟩
      rintro ⟨before, item, after, rfl, -, hdenied⟩
      exact ⟨item, List.mem_append_right _ (List.mem_cons_self ..), hdenied⟩
    refine ⟨hroles.trans halone.symm, ?_, fun _ => ?_⟩
    · rw [htenants]
      exact ⟨fun hall => ⟨(hall hclosed).2.2, (hall hclosed).2.1⟩,
        fun hall _ => ⟨h.tenants hall.1 hall.2, hall.2, hall.1⟩⟩
    · rintro ⟨item, hitem, hbarred⟩
      rw [← Bool.not_eq_true, hroles]
      exact not_not_intro ⟨item, hitem, hbarred.denied⟩

theorem itemByItem_of_open (hopen : mw.failClosed = false) :
    ItemByItem hashKey mw reg items ↔ NotRepeated hashKey reg items := by
  have halone : (∀ item ∈ items, accepted (checkMaciRoles hashKey mw reg [item]) = true) ↔
      ∀ item ∈ items, item.fromAgent ≠ "" → decisionKey hashKey item ≠ none := by
    refine forall_congr' fun item => forall_congr' fun _ => ?_
    rw [accepted_checkMaciRoles_singleton]
    exact and_iff_left fun _ => hopen
  have htenants : (validateTenantAccess mw reg items).1 = true := by
    rw [validateTenantAccess_iff]
    intro hclosed
    rw [hopen] at hclosed
    cases hclosed
  constructor
  · intro h
    refine ⟨fun hkeys before item after hsplit hfirst hdenied => ?_, h.tenants.mp htenants⟩
    have haccepted := h.roles.mpr (halone.mpr hkeys)
    rw [accepted_checkMaciRoles_iff] at haccepted
    exact (haccepted.2 before item after hsplit hfirst hdenied).2
  · intro h
    refine ⟨?_, iff_of_true htenants h.tenants, fun hclosed => ?_⟩
    · rw [halone, accepted_checkMaciRoles_iff]
      refine ⟨fun hall => hall.1, fun hkeys => ⟨hkeys, ?_⟩⟩
      exact fun before item after hsplit hfirst hdenied =>
        ⟨hopen, h.roles hkeys before item after hsplit hfirst hdenied⟩
    · rw [hopen] at hclosed
      cases hclosed

variable (hashKey mw reg items) in
/-- **When a batch is governed as its items are**: with `fail_closed`, no denial is covered by what
is stored; without it, no denial is repeated. -/
theorem itemByItem_iff :
    ItemByItem hashKey mw reg items ↔
      if mw.failClosed then FirstDenied hashKey reg items else NotRepeated hashKey reg items := by
  cases hclosed : mw.failClosed with
  | true => exact itemByItem_of_closed hclosed
  | false => exact itemByItem_of_open hclosed

end Batches

/-! ## A judge that validates itself -/

def twoRoles : AgentRegistry where
  roles := (({} : MACIRoleRegistry).registerAgent "judge" .judicial none).2.registerAgent
    "executive" .executive none |>.2

def validates (target : String) : BatchRequestItem where
  requestId := target
  content := [("target_agent_id", .str target)]
  fromAgent := "judge"
  messageType := "constitutional_validation"
  priority_ge := BatchRequestItem.default_priority_ge
  priority_le := BatchRequestItem.default_priority_le

def textKey : Json → Option String
  | .str text => some text
  | _ => none

/-- Behind a validation of the executive, the judge's validation of itself is accepted. -/
theorem not_itemByItem_selfValidation :
    ¬@ItemByItem asciiLower String _ textKey {} twoRoles
      [validates "executive", validates "judge"] := by
  let _ := asciiLower
  intro h
  have hbarred : Barred twoRoles (validates "judge") :=
    ⟨by decide, by decide, "judge", rfl, .inl rfl⟩
  have hrejected := h.barred rfl
    ⟨_, List.mem_cons_of_mem _ (List.mem_cons_self ..), hbarred⟩
  have haccepted : accepted (checkMaciRoles textKey {} twoRoles
      [validates "executive", validates "judge"]) = true := by decide
  rw [haccepted] at hrejected
  cases hrejected

end EnhancedAgentBus.Batch
