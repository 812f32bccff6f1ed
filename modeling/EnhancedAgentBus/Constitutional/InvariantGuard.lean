import EnhancedAgentBus.Json
import EnhancedAgentBus.Lib.Dict
import EnhancedAgentBus.Lib.Paths

/-!
# The guard of the constitutional invariants

A manifest lists invariants, each with the paths it protects.  `InvariantClassifier` matches the
paths a change affects with the protected ones, and its answer decides an amendment proposal
(`ProposalInvariantValidator`) and a write at run time (`RuntimeMutationGuard`).

`classifyChange_blocked_iff` is the classifier's answer in closed form: the two loops over the index
amount to one existential.  Everything the guards do is read off from it.  The log calls are left
out, and so are the branches for an exception of the classifier, which has none to raise.
-/

namespace EnhancedAgentBus.Constitutional

/-! ## The manifest -/

inductive InvariantScope where
  | HARD
  | META
  | SOFT
  deriving DecidableEq

structure InvariantDefinition where
  invariantId : String
  scope : InvariantScope
  protectedPaths : List String := []
  deriving DecidableEq

/-- `defn.scope in (InvariantScope.HARD, InvariantScope.META)` -/
def InvariantDefinition.refoundationOnly (defn : InvariantDefinition) : Bool :=
  defn.scope = .HARD || defn.scope = .META

/-- `InvariantManifest`; the hash is the digest of the definitions. -/
structure InvariantManifest where
  invariantHash : String
  invariants : List InvariantDefinition := []

def defaultInvariants : List InvariantDefinition :=
  [{ invariantId := "INV-001"
     scope := .HARD
     protectedPaths := ["middlewares/batch/governance.py", "maci/enforcer.py"] },
    { invariantId := "INV-002"
      scope := .HARD
      protectedPaths := ["bus/governance.py", "pipeline/router.py"] },
    { invariantId := "INV-003"
      scope := .HARD
      protectedPaths := ["guardrails/audit_log.py", "audit_client.py"] },
    { invariantId := "INV-004"
      scope := .META
      protectedPaths := ["constitutional/storage.py", "constitutional/activation_saga.py"] },
    { invariantId := "INV-005"
      scope := .HARD
      protectedPaths := ["multi_tenancy/rls.py", "multi_tenancy/context.py"] },
    { invariantId := "INV-006"
      scope := .META
      protectedPaths :=
        ["constitutional/activation_saga.py", "deliberation_layer/hitl_manager.py"] }]

def getDefaultManifest (invariantHash : String) : InvariantManifest :=
  ⟨invariantHash, defaultInvariants⟩

structure ChangeClassification where
  touchesInvariants : Bool
  touchedInvariantIds : List String := []
  blocked : Bool
  requiresRefoundation : Bool := false
  reason : Option String := none

/-- `str(ids)` of a list of texts. -/
def idsText [PrintTable] (ids : List String) : String :=
  String.ofList (Json.pyStr (.arr (ids.map .str)))

/-! ## The classifier -/

namespace InvariantClassifier

abbrev PathIndex := Dict String (List InvariantDefinition)

/-- `index.setdefault(path, []).append(inv)` -/
def addPath (inv : InvariantDefinition) (index : PathIndex) (path : String) : PathIndex :=
  index.set path ((index.get path).getD [] ++ [inv])

def buildPathIndex (manifest : InvariantManifest) : PathIndex :=
  manifest.invariants.foldl (fun index inv => inv.protectedPaths.foldl (addPath inv) index)
    Dict.empty

/-- `text.startswith(start)` -/
def startsWith (text start : String) : Bool := start.toList.isPrefixOf text.toList

def pathMatches (changePath protectedPath : String) : Bool :=
  changePath = protectedPath || startsWith changePath (protectedPath ++ ".") ||
    startsWith changePath (protectedPath ++ "/")

/-- The body of the innermost loop, over `matched_ids` and `has_hard_or_meta`. -/
def matchDefinition (found : List String × Bool) (defn : InvariantDefinition) :
    List String × Bool :=
  (if defn.invariantId ∈ found.1 then found.1 else found.1 ++ [defn.invariantId],
    found.2 || defn.refoundationOnly)

def matchPath (index : PathIndex) (found : List String × Bool) (changePath : String) :
    List String × Bool :=
  index.entries.foldl (fun found entry =>
    if pathMatches changePath entry.1 then entry.2.foldl matchDefinition found else found) found

def doClassify [PrintTable] (index : PathIndex) (affectedPaths : List String) :
    ChangeClassification :=
  let (matchedIds, hasHardOrMeta) := affectedPaths.foldl (matchPath index) ([], false)
  if matchedIds = [] then
    { touchesInvariants := false, blocked := false }
  else if hasHardOrMeta then
    { touchesInvariants := true
      touchedInvariantIds := matchedIds
      blocked := true
      requiresRefoundation := true
      reason := some ("Change touches HARD/META invariants: " ++ idsText matchedIds ++
        ". Refoundation required.") }
  else
    { touchesInvariants := true
      touchedInvariantIds := matchedIds
      blocked := false
      reason := some ("Change touches SOFT invariants: " ++ idsText matchedIds ++
        ". Allowed with review.") }

def classifyChange [PrintTable] (manifest : InvariantManifest) (affectedPaths : List String) :
    ChangeClassification :=
  if manifest.invariants = [] then
    { touchesInvariants := true
      blocked := true
      reason := some "Empty invariant manifest — fail-closed: all changes blocked" }
  else doClassify (buildPathIndex manifest) affectedPaths

end InvariantClassifier

/-! ## The two guards -/

/-- `ConstitutionalInvariantViolation`, with the text of `str(exc)`. -/
structure ConstitutionalInvariantViolation where
  classification : ChangeClassification
  message : String

/-- `message or classification.reason or "Invariant violation"` -/
def ConstitutionalInvariantViolation.of (classification : ChangeClassification)
    (message : String := "") : ConstitutionalInvariantViolation where
  classification := classification
  message :=
    if message ≠ "" then message
    else if classification.reason.getD "" ≠ "" then classification.reason.getD ""
    else "Invariant violation"

def validateProposal [PrintTable] (manifest : InvariantManifest) (affectedPaths : List String) :
    Except ConstitutionalInvariantViolation ChangeClassification :=
  let classification := InvariantClassifier.classifyChange manifest affectedPaths
  if classification.blocked then .error (.of classification) else .ok classification

def recommendationOnlyRoles : List String := ["sdpc", "adaptive_governance"]

def validateMutation [PrintTable] (manifest : InvariantManifest)
    (targetPath operation actorRole : String) : Except ConstitutionalInvariantViolation Unit :=
  let classification := InvariantClassifier.classifyChange manifest [targetPath]
  if classification.blocked then
    .error (.of classification ("Runtime mutation blocked: " ++ actorRole ++ " attempted '" ++
      operation ++ "' on protected path '" ++ targetPath ++ "'"))
  else if classification.touchesInvariants ∧ actorRole ∈ recommendationOnlyRoles then
    .error (.of
      { touchesInvariants := true
        touchedInvariantIds := classification.touchedInvariantIds
        blocked := true
        reason := some ("Role '" ++ actorRole ++ "' may only recommend changes to " ++
          "invariant-protected paths, not write directly.") })
  else .ok ()

/-! ## The classifier's answer in closed form -/

namespace InvariantClassifier

def Separator (c : Char) : Prop := c = '.' ∨ c = '/'

/-- One path of text is the other or lies below it. -/
def AtOrBelow (path other : String) : Prop :=
  Paths.AtOrBelow Separator path.toList other.toList

/-- One path of text lies strictly below the other. -/
def Below (path other : String) : Prop := Paths.Below Separator path.toList other.toList

theorem pathMatches_iff {changePath protectedPath : String} :
    pathMatches changePath protectedPath = true ↔ AtOrBelow changePath protectedPath := by
  simp only [pathMatches, startsWith, Bool.or_eq_true, decide_eq_true_eq, AtOrBelow,
    Paths.AtOrBelow, Paths.Below, Separator, List.isPrefixOf_iff_prefix, String.toList_append,
    String.toList_inj, or_assoc]
  refine or_congr_right ⟨?_, ?_⟩
  · rintro (h | h)
    · exact ⟨'.', Or.inl rfl, h⟩
    · exact ⟨'/', Or.inr rfl, h⟩
  · rintro ⟨c, rfl | rfl, h⟩
    · exact Or.inl h
    · exact Or.inr h

instance (path other : String) : Decidable (AtOrBelow path other) :=
  decidable_of_iff _ pathMatches_iff

def Lists (index : PathIndex) (path : String) (defn : InvariantDefinition) : Prop :=
  ∃ definitions, index.get path = some definitions ∧ defn ∈ definitions

theorem lists_addPath {inv defn : InvariantDefinition} {index : PathIndex} {path path' : String} :
    Lists (addPath inv index path) path' defn ↔
      Lists index path' defn ∨ (path' = path ∧ defn = inv) := by
  by_cases hpath : path' = path
  · subst hpath
    cases hget : index.get path' <;> simp [Lists, addPath, hget]
  · simp [Lists, addPath, hpath]

theorem lists_addPaths {inv defn : InvariantDefinition} {path : String} (paths : List String)
    (index : PathIndex) :
    Lists (paths.foldl (addPath inv) index) path defn ↔
      Lists index path defn ∨ (path ∈ paths ∧ defn = inv) := by
  induction paths generalizing index with
  | nil => simp
  | cons first rest ih =>
    rw [List.foldl_cons, ih, lists_addPath, List.mem_cons]
    tauto

theorem lists_foldl {defn : InvariantDefinition} {path : String}
    (invariants : List InvariantDefinition) (index : PathIndex) :
    Lists (invariants.foldl (fun index inv => inv.protectedPaths.foldl (addPath inv) index) index)
        path defn ↔
      Lists index path defn ∨ (defn ∈ invariants ∧ path ∈ defn.protectedPaths) := by
  induction invariants generalizing index with
  | nil => simp
  | cons inv rest ih =>
    rw [List.foldl_cons, ih, lists_addPaths, List.mem_cons]
    constructor
    · rintro ((h | ⟨hpath, rfl⟩) | ⟨hmem, hpath⟩)
      · exact Or.inl h
      · exact Or.inr ⟨Or.inl rfl, hpath⟩
      · exact Or.inr ⟨Or.inr hmem, hpath⟩
    · rintro (h | ⟨rfl | hmem, hpath⟩)
      · exact Or.inl (Or.inl h)
      · exact Or.inl (Or.inr ⟨hpath, rfl⟩)
      · exact Or.inr ⟨hmem, hpath⟩

theorem lists_buildPathIndex {manifest : InvariantManifest} {path : String}
    {defn : InvariantDefinition} :
    Lists (buildPathIndex manifest) path defn ↔
      defn ∈ manifest.invariants ∧ path ∈ defn.protectedPaths := by
  rw [buildPathIndex, lists_foldl]
  simp [Lists]

/-- The definitions the loops come across, in their order. -/
def touched (index : PathIndex) (affectedPaths : List String) : List InvariantDefinition :=
  affectedPaths.flatMap fun changePath =>
    index.entries.flatMap fun entry => if pathMatches changePath entry.1 then entry.2 else []

theorem foldl_matchPath (index : PathIndex) (affectedPaths : List String)
    (found : List String × Bool) :
    affectedPaths.foldl (matchPath index) found =
      (touched index affectedPaths).foldl matchDefinition found := by
  rw [touched, List.foldl_flatMap]
  congr 1
  funext found changePath
  rw [matchPath, List.foldl_flatMap]
  congr 1
  funext found entry
  split <;> rfl

theorem mem_touched {manifest : InvariantManifest} {affectedPaths : List String}
    {defn : InvariantDefinition} :
    defn ∈ touched (buildPathIndex manifest) affectedPaths ↔
      defn ∈ manifest.invariants ∧ ∃ changePath ∈ affectedPaths, ∃ path ∈ defn.protectedPaths,
        AtOrBelow changePath path := by
  simp only [touched, List.mem_flatMap]
  constructor
  · rintro ⟨changePath, hchange, ⟨path, definitions⟩, hentry, hdefn⟩
    split at hdefn
    · rename_i hmatch
      have hlists : Lists (buildPathIndex manifest) path defn :=
        ⟨definitions, Dict.lookup_of_mem (Dict.nodup _) hentry, hdefn⟩
      obtain ⟨hmem, hpath⟩ := lists_buildPathIndex.mp hlists
      exact ⟨hmem, changePath, hchange, path, hpath, pathMatches_iff.mp hmatch⟩
    · cases hdefn
  · rintro ⟨hmem, changePath, hchange, path, hpath, hbelow⟩
    obtain ⟨definitions, hget, hdefn⟩ := lists_buildPathIndex.mpr ⟨hmem, hpath⟩
    refine ⟨changePath, hchange, (path, definitions), Dict.mem_entries_of_get hget, ?_⟩
    rw [if_pos (pathMatches_iff.mpr hbelow)]
    exact hdefn

theorem foldl_matchDefinition_snd (definitions : List InvariantDefinition)
    (found : List String × Bool) :
    (definitions.foldl matchDefinition found).2 =
      (found.2 || definitions.any InvariantDefinition.refoundationOnly) := by
  induction definitions generalizing found with
  | nil => simp
  | cons defn rest ih =>
    rw [List.foldl_cons, ih, List.any_cons, matchDefinition, Bool.or_assoc]

theorem foldl_matchDefinition_fst (definitions : List InvariantDefinition)
    (found : List String × Bool) :
    (definitions.foldl matchDefinition found).1 = [] ↔ found.1 = [] ∧ definitions = [] := by
  induction definitions generalizing found with
  | nil => simp
  | cons defn rest ih =>
    have hne : (matchDefinition found defn).1 ≠ [] := by
      rw [matchDefinition]
      split
      · rename_i hmem
        exact List.ne_nil_of_mem hmem
      · exact List.append_ne_nil_of_right_ne_nil _ (List.cons_ne_nil _ _)
    simp [ih, hne]

/-- A path of the change is at or below a path that one of these definitions protects. -/
def Touches (manifest : InvariantManifest) (affectedPaths : List String)
    (concerned : InvariantDefinition → Prop) : Prop :=
  ∃ defn ∈ manifest.invariants, concerned defn ∧
    ∃ changePath ∈ affectedPaths, ∃ path ∈ defn.protectedPaths, AtOrBelow changePath path

instance (manifest : InvariantManifest) (affectedPaths : List String)
    (concerned : InvariantDefinition → Prop) [DecidablePred concerned] :
    Decidable (Touches manifest affectedPaths concerned) :=
  inferInstanceAs (Decidable (∃ defn ∈ manifest.invariants, concerned defn ∧ _))

theorem classifyChange_blocked_iff [PrintTable] {manifest : InvariantManifest}
    {affectedPaths : List String} :
    (classifyChange manifest affectedPaths).blocked = true ↔
      manifest.invariants = [] ∨
        Touches manifest affectedPaths fun defn => defn.refoundationOnly = true := by
  rw [classifyChange]
  split
  · rename_i hempty
    simp [hempty]
  · rename_i hne
    simp only [hne, false_or, doClassify, foldl_matchPath, foldl_matchDefinition_snd,
      foldl_matchDefinition_fst, Bool.false_or, true_and]
    have hany : (touched (buildPathIndex manifest) affectedPaths).any
          InvariantDefinition.refoundationOnly = true ↔
        Touches manifest affectedPaths fun defn => defn.refoundationOnly = true := by
      simp only [List.any_eq_true, mem_touched, Touches]
      tauto
    rw [← hany]
    split
    · rename_i hnil
      simp [hnil]
    · split
      · rename_i hhard
        simpa using hhard
      · rename_i hhard
        simpa using hhard

theorem classifyChange_touches_iff [PrintTable] {manifest : InvariantManifest}
    {affectedPaths : List String} :
    (classifyChange manifest affectedPaths).touchesInvariants = true ↔
      manifest.invariants = [] ∨ Touches manifest affectedPaths fun _ => True := by
  rw [classifyChange]
  split
  · rename_i hempty
    simp [hempty]
  · rename_i hne
    have hnil : touched (buildPathIndex manifest) affectedPaths = [] ↔
        ¬ Touches manifest affectedPaths fun _ => True := by
      rw [List.eq_nil_iff_forall_not_mem, Touches, not_exists]
      refine forall_congr' fun defn => not_congr ?_
      rw [mem_touched]
      tauto
    simp only [hne, false_or, doClassify, foldl_matchPath, foldl_matchDefinition_fst, true_and]
    split
    · rename_i hempty
      simpa using hnil.mp hempty
    · rename_i htouched
      have := mt hnil.mpr htouched
      split <;> simpa using this

end InvariantClassifier

open InvariantClassifier

theorem validateProposal_error_iff [PrintTable] {manifest : InvariantManifest}
    {affectedPaths : List String} :
    (∃ violation, validateProposal manifest affectedPaths = .error violation) ↔
      manifest.invariants = [] ∨
        Touches manifest affectedPaths fun defn => defn.refoundationOnly = true := by
  rw [← classifyChange_blocked_iff, validateProposal]
  cases (classifyChange manifest affectedPaths).blocked <;> simp

/-- A write is refused when its target is at or below a path that a HARD or META invariant protects;
for a role that may only recommend, any invariant will do. -/
theorem validateMutation_error_iff [PrintTable] {manifest : InvariantManifest}
    {targetPath operation actorRole : String} :
    (∃ violation, validateMutation manifest targetPath operation actorRole = .error violation) ↔
      manifest.invariants = [] ∨
        Touches manifest [targetPath] (fun defn => defn.refoundationOnly = true) ∨
        (Touches manifest [targetPath] (fun _ => True) ∧ actorRole ∈ recommendationOnlyRoles) := by
  have hblocked := @classifyChange_blocked_iff _ manifest [targetPath]
  have htouches := @classifyChange_touches_iff _ manifest [targetPath]
  simp only [validateMutation]
  split
  · rename_i hb
    have := hblocked.mp hb
    simp only [Except.error.injEq, exists_eq', true_iff]
    tauto
  · rename_i hb
    have hb' := mt hblocked.mpr hb
    split
    · rename_i ht
      have := htouches.mp ht.1
      simp only [Except.error.injEq, exists_eq', true_iff]
      tauto
    · rename_i ht
      rw [htouches] at ht
      simp only [reduceCtorEq, exists_false, false_iff]
      tauto

/-- **The two guards agree**: a proposal is refused exactly if one of its paths is closed to the
writes of every role, or there is no invariant at all. -/
theorem validateProposal_iff_validateMutation [PrintTable] (manifest : InvariantManifest)
    (affectedPaths : List String) :
    (∃ violation, validateProposal manifest affectedPaths = .error violation) ↔
      manifest.invariants = [] ∨ ∃ path ∈ affectedPaths, ∀ operation actorRole,
        ∃ violation, validateMutation manifest path operation actorRole = .error violation := by
  rw [validateProposal_error_iff]
  simp only [validateMutation_error_iff]
  refine or_congr_right' fun hne => ⟨?_, ?_⟩
  · rintro ⟨defn, hdefn, hhard, path, hpath, hbelow⟩
    exact ⟨path, hpath, fun _ _ =>
      .inr (.inl ⟨defn, hdefn, hhard, path, List.mem_singleton_self _, hbelow⟩)⟩
  · rintro ⟨path, hpath, hall⟩
    rcases hall "" "" with hempty | ⟨defn, hdefn, hhard, _, hmem, hbelow⟩ | ⟨-, hrole⟩
    · exact absurd hempty hne
    · exact ⟨defn, hdefn, hhard, path, hpath, List.mem_singleton.mp hmem ▸ hbelow⟩
    · exact absurd hrole (by decide)

end EnhancedAgentBus.Constitutional
