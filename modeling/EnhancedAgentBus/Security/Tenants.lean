import EnhancedAgentBus.Constitutional.ProposalEngine

/-!
# Tenant identifiers

Tenant identifiers are stripped, and put in lower case; what is blank is no identifier.  An agent
table says of each agent what tenant it belongs to.
-/

namespace EnhancedAgentBus.Security

/-- `text.lower()`: the letters outside ASCII are the interpreter's own table. -/
class LowerTable where
  lower : String → String
  ascii : ∀ text : String, (∀ c ∈ text.toList, c.toNat < 128) → lower text = text.map Char.toLower

@[reducible] def asciiLower : LowerTable where
  lower text := text.map Char.toLower
  ascii _ _ := rfl

/-! ## `TenantValidator` -/

section TenantValidator

variable [LowerTable]

def normalize (tenantId : Option String) : Option String :=
  match tenantId with
  | none => none
  | some tenantId =>
    let normalized := Constitutional.ProposalEngine.strip tenantId
    if normalized = "" then none else some (LowerTable.lower normalized)

/-- One of `[a-z0-9_\-]`. -/
def isTenantChar (c : Char) : Bool :=
  ('a' ≤ c && c ≤ 'z') || ('0' ≤ c && c ≤ '9') || c = '_' || c = '-'

/-- `validate`, of an identifier without white space at its ends: three to 64 of the characters. -/
def validate (tenantId : Option String) : Bool :=
  match tenantId with
  | none => false
  | some tenantId =>
    3 ≤ tenantId.length && tenantId.length ≤ 64 && tenantId.toList.all isTenantChar

def sanitizeAndValidate (tenantId : Option String) : Option String × Bool :=
  let normalized := normalize tenantId
  (normalized, validate normalized)

end TenantValidator

/-! ## `security_helpers` -/

section Helpers

variable [LowerTable]

/-- `normalize_tenant_id(tenant_id) or "default"` -/
def normalizeOrDefault (tenantId : Option String) : String :=
  match normalize tenantId with
  | none => "default"
  | some normalized => if normalized = "" then "default" else normalized

theorem normalizeOrDefault_ne_empty (tenantId : Option String) :
    normalizeOrDefault tenantId ≠ "" := by
  unfold normalizeOrDefault
  rcases normalize tenantId with _ | normalized
  · exact by decide
  · dsimp only
    by_cases h : normalized = ""
    · rw [if_pos h]
      decide
    · rw [if_neg h]
      exact h

omit [LowerTable] in
def formatTenantId (tenantId : Option String) : String :=
  match tenantId with
  | none => "none"
  | some tenantId => if tenantId = "" then "none" else tenantId

omit [LowerTable] in
/-- The error of `validate_tenant_consistency`, of the sender or of the recipient. -/
def tenantMismatch (party : String) (messageTenant agentTenant : Option String) : String :=
  "Tenant mismatch: message tenant_id '" ++ formatTenantId messageTenant ++ "' does not match " ++
    party ++ " tenant_id '" ++ formatTenantId agentTenant ++ "'"

/-- What `validate_tenant_consistency` asks of one agent.  `tenantOf` is the table of the agents:
the tenant of each, where one is given. -/
def consistencyErrors (tenantOf : String → Option (Option String)) (party agent : String)
    (messageTenant : Option String) : List String :=
  match tenantOf agent with
  | none => []
  | some agentTenant =>
    if normalize agentTenant = normalize messageTenant then []
    else [tenantMismatch party (normalize messageTenant) (normalize agentTenant)]

def validateTenantConsistency (tenantOf : String → Option (Option String))
    (fromAgent toAgent : String) (messageTenant : Option String) : List String :=
  consistencyErrors tenantOf "sender" fromAgent messageTenant ++
    if toAgent = "" then [] else consistencyErrors tenantOf "recipient" toAgent messageTenant

theorem consistencyErrors_eq_nil_iff {tenantOf : String → Option (Option String)}
    {party agent : String} {messageTenant : Option String} :
    consistencyErrors tenantOf party agent messageTenant = [] ↔
      ∀ agentTenant, tenantOf agent = some agentTenant →
        normalize agentTenant = normalize messageTenant := by
  unfold consistencyErrors
  rcases tenantOf agent with _ | agentTenant
  · exact iff_of_true rfl nofun
  · simp only [Option.some_inj, forall_eq', ite_eq_left_iff, List.cons_ne_self, imp_false,
      not_not]

theorem validateTenantConsistency_eq_nil_iff {tenantOf : String → Option (Option String)}
    {fromAgent toAgent : String} (hto : toAgent ≠ "") {messageTenant : Option String} :
    validateTenantConsistency tenantOf fromAgent toAgent messageTenant = [] ↔
      (∀ tenant, tenantOf fromAgent = some tenant → normalize tenant = normalize messageTenant) ∧
        ∀ tenant, tenantOf toAgent = some tenant → normalize tenant = normalize messageTenant := by
  unfold validateTenantConsistency
  rw [if_neg hto, List.append_eq_nil_iff, consistencyErrors_eq_nil_iff,
    consistencyErrors_eq_nil_iff]

/-! ## Identifiers that are valid -/

omit [LowerTable] in
theorem isTenantChar_lt {c : Char} (h : isTenantChar c = true) : c.toNat < 128 := by
  unfold isTenantChar at h
  simp only [Bool.or_eq_true, Bool.and_eq_true, decide_eq_true_eq] at h
  rcases h with ((⟨-, hle⟩ | ⟨-, hle⟩) | rfl) | rfl
  · exact Nat.lt_of_le_of_lt hle (by decide)
  · exact Nat.lt_of_le_of_lt hle (by decide)
  · decide
  · decide

omit [LowerTable] in
theorem isTenantChar_spec {c : Char} (h : isTenantChar c = true) :
    Constitutional.ProposalEngine.isSpace c = false ∧ c.toLower = c := by
  have key : ∀ n < 128, isTenantChar (Char.ofNat n) = true →
      Constitutional.ProposalEngine.isSpace (Char.ofNat n) = false ∧
        (Char.ofNat n).toLower = Char.ofNat n := by decide
  have hc := key c.toNat (isTenantChar_lt h)
  rw [Char.ofNat_toNat] at hc
  exact hc h

omit [LowerTable] in
theorem strip_of_forall {text : String}
    (h : ∀ c ∈ text.toList, Constitutional.ProposalEngine.isSpace c = false) :
    Constitutional.ProposalEngine.strip text = text := by
  have hdrop (l : List Char) (hl : ∀ c ∈ l, Constitutional.ProposalEngine.isSpace c = false) :
      l.dropWhile Constitutional.ProposalEngine.isSpace = l := by
    rcases l with _ | ⟨c, rest⟩
    · rfl
    · rw [List.dropWhile_cons_of_neg]
      rw [hl c List.mem_cons_self]
      exact Bool.false_ne_true
  unfold Constitutional.ProposalEngine.strip
  rw [hdrop _ h, hdrop _ fun c hc => h c (List.mem_reverse.mp hc), List.reverse_reverse,
    String.ofList_toList]

theorem normalize_of_validate {tenantId : String} (h : validate (some tenantId) = true) :
    normalize (some tenantId) = some tenantId := by
  unfold validate at h
  simp only [Bool.and_eq_true, decide_eq_true_eq, List.all_eq_true] at h
  obtain ⟨⟨hlength, -⟩, hchars⟩ := h
  have hspace : Constitutional.ProposalEngine.strip tenantId = tenantId :=
    strip_of_forall fun c hc => (isTenantChar_spec (hchars c hc)).1
  have hne : tenantId ≠ "" := by
    rintro rfl
    exact absurd hlength (by decide)
  have hlower : tenantId.map Char.toLower = tenantId := by
    apply String.toList_injective
    rw [String.toList_map]
    exact (List.map_congr_left fun c hc => (isTenantChar_spec (hchars c hc)).2).trans
      (List.map_id _)
  unfold normalize
  dsimp only
  rw [hspace, if_neg hne, LowerTable.ascii _ fun c hc => isTenantChar_lt (hchars c hc), hlower]

end Helpers

end EnhancedAgentBus.Security
