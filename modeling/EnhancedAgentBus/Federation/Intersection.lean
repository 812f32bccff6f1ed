import EnhancedAgentBus.Lib.Dict
import Mathlib.Data.Multiset.Lattice
import Mathlib.Data.Multiset.Sort
import Mathlib.Order.WithBot

/-!
# Capability vectors and their intersection

An organisation's rules are summarised as the highest severity of each category, and vectors of two
organisations are merged category by category.  Seen as a function to the severities, with a bottom
for a category that is not there (`envelope`), a vector is the supremum of its rules' envelopes, and
merging is the supremum of two.

`str.strip`, `str.lower` and `str.upper` are the interpreter's (`StrMethods`); nothing is assumed of
them.
-/

namespace EnhancedAgentBus.Federation

/-- The methods of `str` that normalise what a rule says. -/
structure StrMethods where
  strip : String → String
  lower : String → String
  upper : String → String

/-! ## The code -/

/-- The keys of `SEVERITY_ORDER`. -/
inductive Severity where
  | low
  | medium
  | high
  | critical
  deriving DecidableEq

namespace Severity

def order : Severity → ℕ
  | .critical => 4
  | .high => 3
  | .medium => 2
  | .low => 1

def ofLabel : String → Option Severity
  | "CRITICAL" => some .critical
  | "HIGH" => some .high
  | "MEDIUM" => some .medium
  | "LOW" => some .low
  | _ => none

theorem order_injective : Function.Injective order := by
  intro s s' h
  cases s <;> cases s' <;> first | rfl | cases h

instance instLinearOrder : LinearOrder Severity := LinearOrder.lift' order order_injective

end Severity

inductive MergeSemantic where
  | strictestWins
  | localOverride
  | union
  deriving DecidableEq

/-- What is read of a rule: its texts as `str` gives them. -/
structure Rule where
  category : String := ""
  severity : String := ""
  active : Bool := true

structure GovernanceCapabilityVector where
  categorySeverities : Dict String Severity
  totalRules : ℤ
  version : String
  orgId : String := ""

section Code

variable (S : StrMethods)

def normalizeCategory (category : String) : String := S.lower (S.strip category)

/-- `_normalize_severity`, or the message of its `ValueError`. -/
def normalizeSeverity (severity : String) : Except String Severity :=
  match Severity.ofLabel (S.upper (S.strip severity)) with
  | none => .error s!"unsupported severity: {severity}"
  | some normalized => .ok normalized

/-- One rule of `compute_capability_vector`. -/
def countRule (acc : Dict String Severity × ℤ) (rule : Rule) :
    Except String (Dict String Severity × ℤ) :=
  if !rule.active then .ok acc
  else do
    let category := normalizeCategory S rule.category
    let severity ← normalizeSeverity S rule.severity
    if category = "" then return acc
    match acc.1.get category with
    | none => return (acc.1.set category severity, acc.2 + 1)
    | some current =>
      if current.order < severity.order then return (acc.1.set category severity, acc.2 + 1)
      else return (acc.1, acc.2 + 1)

def computeCapabilityVector (rules : List Rule) (orgId : String := "") (version : String := "1.0") :
    Except String GovernanceCapabilityVector := do
  let acc ← rules.foldlM (countRule S) (.empty, 0)
  return { categorySeverities := acc.1, totalRules := acc.2, version := version, orgId := orgId }

end Code

def higherSeverity (left right : Severity) : Severity :=
  if right.order ≤ left.order then left else right

/-- `sorted` of a set of texts. -/
def sortedSet (texts : List String) : List String := texts.dedup.mergeSort fun a b => a ≤ b

def mergeMetadata (left right : String) : String :=
  "|".intercalate (sortedSet ([left, right].filter fun value => value ≠ ""))

/-- One category of `compute_intersection`. -/
def mergeCategory (localVector peer : GovernanceCapabilityVector) (acc : Dict String Severity)
    (category : String) : Dict String Severity :=
  match localVector.categorySeverities.get category, peer.categorySeverities.get category with
  -- the categories are those of the two vectors
  | none, none => acc
  | none, some peerSeverity => acc.set category peerSeverity
  | some localSeverity, none => acc.set category localSeverity
  | some localSeverity, some peerSeverity =>
    acc.set category (higherSeverity localSeverity peerSeverity)

def computeIntersection (semantic : MergeSemantic) (localVector peer : GovernanceCapabilityVector) :
    GovernanceCapabilityVector :=
  if semantic = .localOverride then localVector
  else
    { categorySeverities :=
        (sortedSet (localVector.categorySeverities.keys ++ peer.categorySeverities.keys)).foldl
          (mergeCategory localVector peer) .empty
      totalRules := localVector.totalRules + peer.totalRules
      version := mergeMetadata localVector.version peer.version
      orgId := mergeMetadata localVector.orgId peer.orgId }

/-! ## Envelopes -/

abbrev Envelope := String → WithBot Severity

def envelopeOf (severities : Dict String Severity) : Envelope := severities.get

namespace GovernanceCapabilityVector

def envelope (V : GovernanceCapabilityVector) : Envelope := envelopeOf V.categorySeverities

def SameSeverities (V W : GovernanceCapabilityVector) : Prop :=
  ∀ category, V.categorySeverities.get category = W.categorySeverities.get category

theorem sameSeverities_iff {V W : GovernanceCapabilityVector} :
    V.SameSeverities W ↔ V.envelope = W.envelope := funext_iff.symm

end GovernanceCapabilityVector

open GovernanceCapabilityVector

theorem higherSeverity_eq_sup (left right : Severity) :
    higherSeverity left right = left ⊔ right := by
  rw [higherSeverity]
  split
  · next h => exact (sup_eq_left.mpr (show right ≤ left from h)).symm
  · next h => exact (sup_eq_right.mpr (show left ≤ right from (not_le.mp h).le)).symm

theorem merge_eq_sup (o o' : WithBot Severity) :
    (Option.merge higherSeverity o o' : WithBot Severity) = o ⊔ o' := by
  rcases o with _ | left
  · exact (bot_sup_eq o').symm ▸ by rcases o' with _ | right <;> rfl
  · rcases o' with _ | right
    · exact (sup_bot_eq (left : WithBot Severity)).symm
    · exact congrArg some (higherSeverity_eq_sup left right)

theorem get_mergeCategory (V W : GovernanceCapabilityVector) (acc : Dict String Severity)
    (category category' : String) : (mergeCategory V W acc category).get category' =
      if category' = category then
        (Option.merge higherSeverity (V.categorySeverities.get category)
          (W.categorySeverities.get category)).or (acc.get category')
      else acc.get category' := by
  unfold mergeCategory
  split
  · rename_i hV hW
    rw [hV, hW]
    split <;> rfl
  · rename_i hV hW
    rw [hV, hW, Dict.get_set]
    split <;> rfl
  · rename_i hV hW
    rw [hV, hW, Dict.get_set]
    split <;> rfl
  · rename_i hV hW
    rw [hV, hW, Dict.get_set]
    split <;> rfl

theorem get_foldl_mergeCategory (V W : GovernanceCapabilityVector) (categories : List String)
    (acc : Dict String Severity) (category : String) :
    (categories.foldl (mergeCategory V W) acc).get category =
      if category ∈ categories then
        (Option.merge higherSeverity (V.categorySeverities.get category)
          (W.categorySeverities.get category)).or (acc.get category)
      else acc.get category := by
  induction categories generalizing acc with
  | nil => rfl
  | cons first categories ih =>
    rw [List.foldl_cons, ih, get_mergeCategory]
    by_cases hfirst : category = first
    · subst hfirst
      rcases Option.merge higherSeverity (V.categorySeverities.get category)
        (W.categorySeverities.get category) with _ | severity <;> simp
    · simp only [hfirst, if_false, List.mem_cons, false_or]

theorem envelope_computeIntersection {semantic : MergeSemantic}
    (hsemantic : semantic ≠ .localOverride) (V W : GovernanceCapabilityVector) :
    (computeIntersection semantic V W).envelope = V.envelope ⊔ W.envelope := by
  funext category
  have hget : (computeIntersection semantic V W).categorySeverities.get category =
      Option.merge higherSeverity (V.categorySeverities.get category)
        (W.categorySeverities.get category) := by
    rw [computeIntersection, if_neg hsemantic]
    dsimp only
    rw [get_foldl_mergeCategory, Dict.get_empty, Option.or_none]
    split
    · rfl
    · rename_i hmem
      simp only [sortedSet, List.mem_mergeSort, List.mem_dedup, List.mem_append, not_or,
        Dict.mem_keys_iff, not_exists] at hmem
      rw [Option.eq_none_iff_forall_ne_some.mpr hmem.1,
        Option.eq_none_iff_forall_ne_some.mpr hmem.2]
      rfl
  exact hget.trans (merge_eq_sup _ _)

/-! ## What the rules ask for -/

section Rules

variable (S : StrMethods)

def Rule.Supported (rule : Rule) : Prop :=
  rule.active = true → (Severity.ofLabel (S.upper (S.strip rule.severity))).isSome

def Rule.Counts (rule : Rule) : Prop :=
  rule.active = true ∧ normalizeCategory S rule.category ≠ ""

instance Rule.decidableCounts (rule : Rule) : Decidable (rule.Counts S) :=
  inferInstanceAs (Decidable (_ ∧ _))

def Rule.envelope (rule : Rule) : Envelope := fun category =>
  if rule.Counts S ∧ category = normalizeCategory S rule.category then
    Severity.ofLabel (S.upper (S.strip rule.severity))
  else ⊥

def single (category : String) (severity : Severity) : Envelope := fun category' =>
  if category' = category then severity else ⊥

theorem envelopeOf_set {severities : Dict String Severity} {category : String} {severity : Severity}
    (h : ∀ current, severities.get category = some current → current ≤ severity) :
    envelopeOf (severities.set category severity) =
      envelopeOf severities ⊔ single category severity := by
  funext category'
  rw [Pi.sup_apply, envelopeOf, Dict.get_set, single]
  split
  · rename_i heq
    subst heq
    refine (sup_eq_right.mpr ?_).symm
    rw [envelopeOf]
    rcases hget : severities.get category' with _ | current
    · exact bot_le
    · exact WithBot.coe_le_coe.mpr (h current hget)
  · exact (sup_bot_eq _).symm

theorem envelopeOf_sup_single {severities : Dict String Severity} {category : String}
    {severity current : Severity} (hget : severities.get category = some current)
    (h : severity ≤ current) : envelopeOf severities ⊔ single category severity =
      envelopeOf severities := by
  funext category'
  rw [Pi.sup_apply, single]
  split
  · rename_i heq
    refine sup_eq_left.mpr ?_
    rw [heq, envelopeOf, hget]
    exact WithBot.coe_le_coe.mpr h
  · exact sup_bot_eq _

/-- **One rule** of the loop. -/
theorem countRule_ok {rule : Rule} (hrule : rule.Supported S) (acc : Dict String Severity × ℤ) :
    ∃ acc', countRule S acc rule = .ok acc' ∧
      envelopeOf acc'.1 = envelopeOf acc.1 ⊔ rule.envelope S ∧
      acc'.2 = acc.2 + if rule.Counts S then 1 else 0 := by
  unfold countRule
  by_cases hactive : rule.active
  · obtain ⟨severity, hseverity⟩ := Option.isSome_iff_exists.mp (hrule hactive)
    have hnormal : normalizeSeverity S rule.severity = .ok severity := by
      rw [normalizeSeverity, hseverity]
    rw [hactive, hnormal]
    simp only [Bool.not_true, Bool.false_eq_true, if_false]
    by_cases hcategory : normalizeCategory S rule.category = ""
    · have hcounts : ¬ rule.Counts S := fun h => h.2 hcategory
      refine ⟨acc, by simp [hcategory, bind, Except.bind, pure, Except.pure], ?_, ?_⟩
      · funext category
        simp [Rule.envelope, hcounts]
      · simp [hcounts]
    · have hcounts : rule.Counts S := ⟨hactive, hcategory⟩
      have hsingle : rule.envelope S = single (normalizeCategory S rule.category) severity := by
        funext category
        simp only [Rule.envelope, hcounts, true_and, single, hseverity]
        rfl
      rw [hsingle]
      simp only [bind, Except.bind, pure, Except.pure, hcategory, if_false, hcounts, if_true]
      split
      · rename_i hnone
        refine ⟨_, rfl, envelopeOf_set fun current h => ?_, rfl⟩
        rw [hnone] at h
        cases h
      · rename_i current hcurrent
        split
        · rename_i hlt
          refine ⟨_, rfl, envelopeOf_set fun current' h => ?_, rfl⟩
          obtain rfl := Option.some_inj.mp (hcurrent.symm.trans h)
          exact le_of_lt (show current < severity from hlt)
        · rename_i hle
          refine ⟨_, rfl, (envelopeOf_sup_single hcurrent ?_).symm, rfl⟩
          exact show severity ≤ current from Nat.le_of_not_lt hle
  · have hcounts : ¬ rule.Counts S := fun h => hactive h.1
    refine ⟨acc, by simp [hactive], ?_, ?_⟩
    · funext category
      simp [Rule.envelope, hcounts]
    · simp [hcounts]

theorem foldlM_countRule {rules : List Rule} (hrules : ∀ rule ∈ rules, rule.Supported S)
    (acc : Dict String Severity × ℤ) : ∃ acc', rules.foldlM (countRule S) acc = .ok acc' ∧
      envelopeOf acc'.1 = envelopeOf acc.1 ⊔ Multiset.sup ↑(rules.map (Rule.envelope S)) ∧
      acc'.2 = acc.2 + rules.countP fun rule => rule.Counts S := by
  induction rules generalizing acc with
  | nil => exact ⟨acc, rfl, by simp, by simp⟩
  | cons rule rules ih =>
    obtain ⟨acc₁, hfirst, hget₁, hcount₁⟩ := countRule_ok S (hrules rule List.mem_cons_self) acc
    obtain ⟨acc', hrest, hget, hcount⟩ :=
      ih (fun rule' h => hrules rule' (List.mem_cons_of_mem _ h)) acc₁
    refine ⟨acc', ?_, ?_, ?_⟩
    · rw [List.foldlM_cons, hfirst]
      exact hrest
    · rw [hget, hget₁, List.map_cons, ← Multiset.cons_coe, Multiset.sup_cons, sup_assoc]
    · rw [hcount, hcount₁, List.countP_cons]
      simp only [decide_eq_true_eq]
      split <;> omega

/-- **The vector of a list of rules** is the supremum of what they ask for. -/
theorem computeCapabilityVector_ok {rules : List Rule}
    (hrules : ∀ rule ∈ rules, rule.Supported S) (orgId version : String) :
    ∃ V, computeCapabilityVector S rules orgId version = .ok V ∧
      V.envelope = Multiset.sup ↑(rules.map (Rule.envelope S)) ∧
      V.totalRules = rules.countP fun rule => rule.Counts S := by
  obtain ⟨acc, hfold, hget, hcount⟩ := foldlM_countRule S hrules (.empty, 0)
  refine ⟨⟨acc.1, acc.2, version, orgId⟩, ?_, ?_, ?_⟩
  · rw [computeCapabilityVector, hfold]
    rfl
  · exact hget.trans (bot_sup_eq _)
  · exact hcount.trans (Int.zero_add _)

end Rules

/-! ## Peers -/

/-- The vectors of the peers are merged into the own one, one after another. -/
def foldPeers (semantic : MergeSemantic) (V : GovernanceCapabilityVector)
    (peers : List GovernanceCapabilityVector) : GovernanceCapabilityVector :=
  peers.foldl (computeIntersection semantic) V

theorem envelope_foldPeers {semantic : MergeSemantic} (hsemantic : semantic ≠ .localOverride)
    (V : GovernanceCapabilityVector) (peers : List GovernanceCapabilityVector) :
    (foldPeers semantic V peers).envelope = Multiset.sup ↑((V :: peers).map envelope) := by
  induction peers generalizing V with
  | nil => simp [foldPeers]
  | cons peer peers ih =>
    rw [foldPeers, List.foldl_cons, ← foldPeers, ih, List.map_cons, List.map_cons, List.map_cons,
      envelope_computeIntersection hsemantic, ← Multiset.cons_coe, ← Multiset.cons_coe,
      ← Multiset.cons_coe, Multiset.sup_cons, Multiset.sup_cons, Multiset.sup_cons, sup_assoc]

/-- **The vectors form a join**, and summarise rules. -/
structure IsJoin (S : StrMethods) (semantic : MergeSemantic) : Prop where
  summary : ∀ (r s : List Rule), (∀ rule ∈ r ++ s, rule.Supported S) →
    ∀ orgId orgId' orgId'' version version' version'' : String, ∃ V W U,
      computeCapabilityVector S r orgId version = .ok V ∧
      computeCapabilityVector S s orgId' version' = .ok W ∧
      computeCapabilityVector S (r ++ s) orgId'' version'' = .ok U ∧
      U.SameSeverities (computeIntersection semantic V W) ∧
      U.totalRules = (computeIntersection semantic V W).totalRules
  comm : ∀ V W, (computeIntersection semantic V W).SameSeverities (computeIntersection semantic W V)
  assoc : ∀ V W U, (computeIntersection semantic (computeIntersection semantic V W) U).SameSeverities
    (computeIntersection semantic V (computeIntersection semantic W U))
  idem : ∀ V, (computeIntersection semantic V V).SameSeverities V
  strict : ∀ V W category, ∀ severity : Severity,
    V.categorySeverities.get category = some severity ∨
      W.categorySeverities.get category = some severity →
    ∃ merged, (computeIntersection semantic V W).categorySeverities.get category = some merged ∧
      severity.order ≤ merged.order
  peers : ∀ V W Vs Ws, (V :: Vs).Perm (W :: Ws) →
    (foldPeers semantic V Vs).SameSeverities (foldPeers semantic W Ws)

theorem isJoin_computeIntersection (S : StrMethods) {semantic : MergeSemantic}
    (hsemantic : semantic ≠ .localOverride) : IsJoin S semantic where
  summary r s hrules orgId orgId' orgId'' version version' version'' := by
    obtain ⟨V, hV, hVget, hVcount⟩ := computeCapabilityVector_ok S
      (fun rule h => hrules rule (List.mem_append_left _ h)) orgId version
    obtain ⟨W, hW, hWget, hWcount⟩ := computeCapabilityVector_ok S
      (fun rule h => hrules rule (List.mem_append_right _ h)) orgId' version'
    obtain ⟨U, hU, hUget, hUcount⟩ := computeCapabilityVector_ok S hrules orgId'' version''
    refine ⟨V, W, U, hV, hW, hU, ?_, ?_⟩
    · rw [sameSeverities_iff, envelope_computeIntersection hsemantic, hUget, hVget, hWget,
        List.map_append, ← Multiset.coe_add, Multiset.sup_add]
    · rw [computeIntersection, if_neg hsemantic, hUcount, hVcount, hWcount, List.countP_append,
        Int.natCast_add]
  comm V W := by
    rw [sameSeverities_iff, envelope_computeIntersection hsemantic,
      envelope_computeIntersection hsemantic, sup_comm]
  assoc V W U := by
    simp only [sameSeverities_iff, envelope_computeIntersection hsemantic, sup_assoc]
  idem V := by
    rw [sameSeverities_iff, envelope_computeIntersection hsemantic, sup_idem]
  strict V W category severity h := by
    have hle : (severity : WithBot Severity) ≤
        (computeIntersection semantic V W).envelope category := by
      rw [envelope_computeIntersection hsemantic]
      obtain hV | hW := h
      · exact le_sup_of_le_left (le_of_eq hV.symm)
      · exact le_sup_of_le_right (le_of_eq hW.symm)
    obtain ⟨merged, hmerged, hle⟩ := WithBot.coe_le_iff.mp hle
    exact ⟨merged, hmerged, hle⟩
  peers V W Vs Ws hperm := by
    rw [sameSeverities_iff, envelope_foldPeers hsemantic, envelope_foldPeers hsemantic,
      Multiset.coe_eq_coe.mpr (hperm.map _)]

/-- The methods on texts in ASCII without blanks around them. -/
def asciiMethods : StrMethods := ⟨id, String.toLower, String.toUpper⟩

theorem isJoin_computeIntersection_union : IsJoin asciiMethods .union :=
  isJoin_computeIntersection asciiMethods (by decide)

end EnhancedAgentBus.Federation
