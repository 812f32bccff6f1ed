import EnhancedAgentBus.Constitutional.InvariantGuard
import EnhancedAgentBus.Constitutional.VersionModel
import Mathlib.Algebra.Order.Ring.Rat

/-!
# Amendment proposals

`createProposal` is `AmendmentProposalEngine.create_proposal`.  The invariants are checked first, on
the top-level keys of the proposed changes; what the changes do is decided by `mergeChanges`, which
replaces whole values under those keys.  `createProposal_refused_iff` says when a proposal is refused
as invalid.

`amendments_guarded_iff` compares the two.  A nested change is a change of the value under its
top-level key (`valueAt_congr`), so the paths that count are the top-level keys, and a protected path
that concerns one of them is above it, is it, or lies below it.  The matcher sees the first two.

The answers of the collaborators (the MACI enforcer, the storage) are an argument.  The diff preview
and the audit events are left out: they are made after the last check.  Scores are rational numbers:
the code's floats, without their rounding.
-/

namespace EnhancedAgentBus.Constitutional

def constitutionalHash : String := "608508a9bd224290"

structure ProposalRequest where
  proposedChanges : Dict String Json
  justification : String
  proposerAgentId : String
  targetVersion : Option String := none
  newVersion : Option String := none
  metadata : Dict String Json := Dict.empty

/-- What the call ends with when it does not return.  `raised` is an exception of a collaborator. -/
inductive ProposalFailure where
  | proposalValidationError (message : String)
  | valueError (message : String)
  | raised (message : String)

/-- What `validate_action` returns: a dict, an object with `is_valid`, or something else. -/
inductive MaciResult where
  | dict (allowed : Option Json)
  | object (isValid : Bool)
  | other

structure ImpactAnalysis where
  score : ℚ
  factors : Dict String ℚ
  recommendation : String
  requiresDeliberation : Bool

structure AmendmentProposal where
  proposalId : String
  proposedChanges : Dict String Json
  justification : String
  proposerAgentId : String
  targetVersion : String
  newVersion : String
  impact : ImpactAnalysis
  invariantHash : String
  invariantImpact : List String
  requiresRefoundation : Bool
  metadata : Dict String Json

/-- The proposal, and the draft whose diff with the active version is shown. -/
structure ProposalResponse where
  proposal : AmendmentProposal
  tempVersion : ConstitutionalVersion

structure ProposalEngine where
  manifest : InvariantManifest
  enableMaci : Bool
  maciEnforcer : Bool
  invariantImportsAvailable : Bool := true

structure Answers where
  maci : Except String MaciResult
  activeVersion : Except String (Option ConstitutionalVersion)
  saveAmendment : Except String Bool
  validatedAt : String
  versionId : String
  proposalId : String
  now : Time

namespace ProposalEngine

open InvariantClassifier

/-- `_validate_proposed_changes`: the errors, empty when the changes are valid.  The two critical
fields are a set, and are taken in the order in which they are written. -/
def validateProposedChanges (proposedChanges content : Dict String Json) : List String :=
  (if proposedChanges.entries = [] then ["Proposed changes cannot be empty"] else []) ++
    ["constitutional_hash", "version"].filterMap fun field =>
      if (proposedChanges.get field).isSome ∧ (content.get field).isSome then
        some ("Cannot modify critical field '" ++ field ++ "' directly")
      else none

def mergeChanges (baseContent proposedChanges : Dict String Json) : Dict String Json :=
  proposedChanges.entries.foldl (fun merged entry => merged.set entry.1 entry.2) baseContent

def computeNextVersion (currentVersion : String) : Except ProposalFailure String :=
  match (currentVersion.splitOn ".").map String.toNat? with
  | [some major, some minor, some patch] => .ok s!"{major}.{minor + 1}.{patch}"
  | _ => .error (.valueError "invalid version number")

def computeImpactScore (proposedChanges : Dict String Json) : ImpactAnalysis :=
  let changeMagnitude : ℚ := proposedChanges.entries.length * (1 / 10)
  let principles : ℚ := if (proposedChanges.get "principles").isSome then 3 / 10 else 0
  let enforcement : ℚ := if (proposedChanges.get "enforcement").isSome then 2 / 10 else 0
  let impactScore := min (min changeMagnitude (1 / 2) + principles + enforcement) 1
  { score := impactScore
    factors := ((Dict.empty.set "change_magnitude" changeMagnitude).set
      "principles_modified" principles).set "enforcement_modified" enforcement
    recommendation :=
      if 8 / 10 ≤ impactScore then "High impact - requires multi-approver deliberation"
      else "Medium impact - single approver sufficient"
    requiresDeliberation := 8 / 10 ≤ impactScore }

/-- `str.isspace` of one character. -/
def isSpace (c : Char) : Bool :=
  let n := c.toNat
  (0x09 ≤ n && n ≤ 0x0d) || (0x1c ≤ n && n ≤ 0x20) || n = 0x85 || n = 0xa0 || n = 0x1680 ||
    (0x2000 ≤ n && n ≤ 0x200a) || n = 0x2028 || n = 0x2029 || n = 0x202f || n = 0x205f || n = 0x3000

def strip (text : String) : String :=
  String.ofList (((text.toList.dropWhile isSpace).reverse.dropWhile isSpace).reverse)

/-- Step 1: whether the enforcer allows the proposer to propose. -/
def maciAllows (engine : ProposalEngine) (answers : Answers) : Except ProposalFailure Bool :=
  if engine.enableMaci ∧ engine.maciEnforcer then
    match answers.maci with
    | .error message => .error (.raised message)
    | .ok (.dict allowed) => .ok (allowed.any Json.truthy)
    | .ok (.object isValid) => .ok isValid
    | .ok .other => .ok false
  else .ok true

def proposalMetadata (answers : Answers) (request : ProposalRequest)
    (classification : ChangeClassification) : Dict String Json :=
  let checked := (request.metadata.set "constitutional_hash" (.str constitutionalHash)).set
    "validation_results" (.obj [("valid", .bool true), ("errors", .arr []), ("warnings", .arr []),
      ("validated_at", .str answers.validatedAt)])
  if classification.touchesInvariants then
    checked.set "invariant_note" (classification.reason.elim .null .str)
  else checked

/-- Steps 4 to 9: the draft, the analysis and the proposal, which is stored. -/
def buildProposal (engine : ProposalEngine) (answers : Answers) (request : ProposalRequest)
    (classification : ChangeClassification) (active : ConstitutionalVersion)
    (targetVersion : String) : Except ProposalFailure ProposalResponse := do
  let newVersion ← match request.newVersion with
    | some version => .ok version
    | none => computeNextVersion active.version
  let justification := strip request.justification
  if justification.length < 10 then
    throw (.valueError "Justification must be at least 10 characters")
  let proposal : AmendmentProposal :=
    { proposalId := answers.proposalId
      proposedChanges := request.proposedChanges
      justification := justification
      proposerAgentId := request.proposerAgentId
      targetVersion := targetVersion
      newVersion := newVersion
      impact := computeImpactScore request.proposedChanges
      invariantHash := engine.manifest.invariantHash
      invariantImpact :=
        if classification.touchesInvariants then classification.touchedInvariantIds else []
      requiresRefoundation := classification.requiresRefoundation
      metadata := proposalMetadata answers request classification }
  match answers.saveAmendment with
  | .error message => throw (.raised message)
  | .ok _ =>
    return {
      proposal := proposal
      tempVersion :=
        { versionId := answers.versionId
          version := newVersion
          constitutionalHash := constitutionalHash
          content := mergeChanges active.content request.proposedChanges
          predecessorVersion := some active.versionId
          createdAt := answers.now } }

def createProposal [PrintTable] (engine : ProposalEngine) (answers : Answers)
    (request : ProposalRequest) : Except ProposalFailure ProposalResponse :=
  if ¬ engine.invariantImportsAvailable then
    .error (.proposalValidationError ("Invariant validator unavailable — fail-closed: proposals " ++
      "blocked until constitutional invariant modules are properly installed"))
  else
    match validateProposal engine.manifest request.proposedChanges.keys with
    | .error violation =>
      .error (.proposalValidationError
        ("Constitutional invariant violation: " ++ violation.message))
    | .ok classification =>
      match engine.maciAllows answers with
      | .error failure => .error failure
      | .ok false =>
        .error (.valueError ("MACI violation: Agent " ++ request.proposerAgentId ++
          " not authorized to propose amendments. Required role: LEGISLATIVE"))
      | .ok true =>
        match answers.activeVersion with
        | .error message => .error (.raised message)
        | .ok none =>
          .error (.proposalValidationError "No active constitutional version found")
        | .ok (some active) =>
          let targetVersion := request.targetVersion.getD active.version
          if targetVersion ≠ active.version then
            .error (.proposalValidationError ("Target version " ++ targetVersion ++
              " does not match active version " ++ active.version))
          else
            let errors := validateProposedChanges request.proposedChanges active.content
            if errors ≠ [] then
              .error (.proposalValidationError ("Invalid proposal: " ++ idsText errors))
            else
              buildProposal engine answers request classification active targetVersion

/-! ## What a proposal changes -/

theorem get_mergeChanges (baseContent proposedChanges : Dict String Json) (key : String) :
    (mergeChanges baseContent proposedChanges).get key =
      (proposedChanges.get key).or (baseContent.get key) :=
  Dict.get_foldl_set proposedChanges.nodup baseContent key

def valueAt (content : Dict String Json) : List String → Option Json
  | [] => some (.obj content.entries)
  | part :: rest => (content.get part).bind (Json.follow rest)

theorem valueAt_singleton (content : Dict String Json) (key : String) :
    valueAt content [key] = content.get key := by
  rw [valueAt]
  cases content.get key <;> rfl

theorem valueAt_congr {content content' : Dict String Json} {part : String} {rest : List String}
    (h : content.get part = content'.get part) :
    valueAt content (part :: rest) = valueAt content' (part :: rest) := by
  rw [valueAt, valueAt, h]

def PathText (parts : List String) (text : String) : Prop :=
  Paths.Joins Separator (parts.map String.toList) text.toList

/-- One of two paths of text is the other or lies below it. -/
def Related (path other : String) : Prop := Paths.Related Separator path.toList other.toList

/-- A path that a HARD or META invariant protects. -/
def RefoundationPath (manifest : InvariantManifest) (path : String) : Prop :=
  ∃ defn ∈ manifest.invariants, defn.refoundationOnly = true ∧ path ∈ defn.protectedPaths

theorem touches_refoundation_iff {manifest : InvariantManifest} {affectedPaths : List String} :
    Touches manifest affectedPaths (fun defn => defn.refoundationOnly = true) ↔
      ∃ changePath ∈ affectedPaths, ∃ path, RefoundationPath manifest path ∧
        AtOrBelow changePath path := by
  constructor
  · rintro ⟨defn, hmem, hscope, changePath, hchange, path, hpath, hbelow⟩
    exact ⟨changePath, hchange, path, ⟨defn, hmem, hscope, hpath⟩, hbelow⟩
  · rintro ⟨changePath, hchange, path, ⟨defn, hmem, hscope, hpath⟩, hbelow⟩
    exact ⟨defn, hmem, hscope, changePath, hchange, path, hpath, hbelow⟩

def ChangesKey (content proposedChanges : Dict String Json) (key : String) : Prop :=
  key ∈ proposedChanges.keys ∧ content.get key ≠ proposedChanges.get key

/-- The merge adds, removes or changes a value at a path that is, lies below or lies above one that
a HARD or META invariant protects. -/
def ChangesProtected (manifest : InvariantManifest) (content proposedChanges : Dict String Json) :
    Prop :=
  ∃ path, RefoundationPath manifest path ∧ ∃ parts text, PathText parts text ∧
    valueAt content parts ≠ valueAt (mergeChanges content proposedChanges) parts ∧
      Related text path

theorem changesKey_iff {content proposedChanges : Dict String Json} {key : String} :
    ChangesKey content proposedChanges key ↔
      content.get key ≠ (mergeChanges content proposedChanges).get key := by
  rw [ChangesKey, get_mergeChanges, Dict.mem_keys_iff]
  cases proposedChanges.get key <;> simp

theorem changesProtected_iff {manifest : InvariantManifest}
    {content proposedChanges : Dict String Json} :
    ChangesProtected manifest content proposedChanges ↔
      ∃ path, RefoundationPath manifest path ∧ ∃ key, ChangesKey content proposedChanges key ∧
        Related key path := by
  refine exists_congr fun path => and_congr_right fun _ => ⟨?_, ?_⟩
  · rintro ⟨parts, text, htext, hne, hrelated⟩
    rcases parts with _ | ⟨key, rest⟩
    · cases htext
    · refine ⟨key, changesKey_iff.mpr (mt valueAt_congr hne), ?_⟩
      exact hrelated.of_atOrBelow htext.atOrBelow_head
  · rintro ⟨key, hchanges, hrelated⟩
    refine ⟨[key], key, Paths.Joins.single _, ?_, hrelated⟩
    rw [valueAt_singleton, valueAt_singleton]
    exact changesKey_iff.mp hchanges

/-! ## When a proposal is refused as invalid -/

/-- The call ends with a `ProposalValidationError`. -/
def Refused (outcome : Except ProposalFailure ProposalResponse) : Prop :=
  ∃ message, outcome = .error (.proposalValidationError message)

theorem buildProposal_not_refused {engine : ProposalEngine} {answers : Answers}
    {request : ProposalRequest} {classification : ChangeClassification}
    {active : ConstitutionalVersion} {targetVersion : String} :
    ¬ Refused (buildProposal engine answers request classification active targetVersion) := by
  rintro ⟨message, h⟩
  have hversion (version : String) (failure : ProposalFailure)
      (hf : computeNextVersion version = .error failure) :
      failure = .valueError "invalid version number" := by
    rw [computeNextVersion] at hf
    split at hf
    · cases hf
    · exact (Except.error.inj hf).symm
  simp only [buildProposal, bind, Except.bind, pure, Except.pure, throw, throwThe,
    MonadExceptOf.throw] at h
  grind

theorem maciAllows_error {engine : ProposalEngine} {answers : Answers} {failure : ProposalFailure}
    (h : engine.maciAllows answers = .error failure) : ∃ message, failure = .raised message := by
  rw [maciAllows] at h
  split at h
  · split at h
    · exact ⟨_, (Except.error.inj h).symm⟩
    all_goals cases h
  · cases h

/-- The checks on the active version: the version aimed at, and the changes themselves. -/
def Invalid (request : ProposalRequest) (active : ConstitutionalVersion) : Prop :=
  request.targetVersion.getD active.version ≠ active.version ∨
    validateProposedChanges request.proposedChanges active.content ≠ []

theorem createProposal_refused_iff [PrintTable] {engine : ProposalEngine} {answers : Answers}
    {request : ProposalRequest} {active : ConstitutionalVersion}
    (hactive : answers.activeVersion = .ok (some active)) :
    Refused (createProposal engine answers request) ↔
      engine.invariantImportsAvailable = false ∨
        (engine.manifest.invariants = [] ∨
          Touches engine.manifest request.proposedChanges.keys
            fun defn => defn.refoundationOnly = true) ∨
        (engine.maciAllows answers = .ok true ∧ Invalid request active) := by
  rw [← validateProposal_error_iff, createProposal, Invalid]
  rcases engine.invariantImportsAvailable with _ | _
  · simp [Refused]
  · cases hvalidate : validateProposal engine.manifest request.proposedChanges.keys with
    | error violation => simp [Refused]
    | ok classification =>
      rcases hmaci : engine.maciAllows answers with failure | allowed
      · obtain ⟨message, rfl⟩ := maciAllows_error hmaci
        simp [Refused]
      · rcases allowed with _ | _
        · simp [Refused]
        · have := @buildProposal_not_refused engine answers request classification active
          by_cases htarget : request.targetVersion.getD active.version = active.version
          · by_cases herrors :
              validateProposedChanges request.proposedChanges active.content = []
            · simp [hactive, htarget, herrors, this]
            · simp [hactive, htarget, herrors, Refused]
          · simp [hactive, htarget, Refused]

/-! ## Protected paths -/

/-- A proposal that would change a protected path of the active version is refused as invalid. -/
def AmendmentGuarded [PrintTable] (engine : ProposalEngine) (answers : Answers)
    (request : ProposalRequest) : Prop :=
  ∀ active, answers.activeVersion = .ok (some active) →
    ChangesProtected engine.manifest active.content request.proposedChanges →
      Refused (createProposal engine answers request)

/-- A write is refused when its target is, lies below or contains a protected path. -/
def MutationGuarded [PrintTable] (manifest : InvariantManifest)
    (targetPath operation actorRole : String) : Prop :=
  (∃ path, RefoundationPath manifest path ∧ Related targetPath path) →
    ∃ violation, validateMutation manifest targetPath operation actorRole = .error violation

/-- No protected path lies strictly below a top-level key that the proposal changes. -/
def NoneBelowChange (manifest : InvariantManifest) (content proposedChanges : Dict String Json) :
    Prop :=
  ∀ path, RefoundationPath manifest path →
    ∀ key, ChangesKey content proposedChanges key → ¬ Below path key

def NoneBelowTarget (manifest : InvariantManifest) (targetPath : String) : Prop :=
  ∀ path, RefoundationPath manifest path → ¬ Below path targetPath

theorem amendmentGuarded_iff [PrintTable] {engine : ProposalEngine} {answers : Answers}
    {request : ProposalRequest} :
    AmendmentGuarded engine answers request ↔
      ∀ active, answers.activeVersion = .ok (some active) →
        NoneBelowChange engine.manifest active.content request.proposedChanges ∨
          Touches engine.manifest request.proposedChanges.keys
            (fun defn => defn.refoundationOnly = true) ∨
          engine.invariantImportsAvailable = false ∨
          (engine.maciAllows answers = .ok true ∧ Invalid request active) := by
  refine forall_congr' fun active => forall_congr' fun hactive => ?_
  rw [createProposal_refused_iff hactive, changesProtected_iff]
  constructor
  · intro h
    by_cases hnone : NoneBelowChange engine.manifest active.content request.proposedChanges
    · exact Or.inl hnone
    · simp only [NoneBelowChange, not_forall, not_not] at hnone
      obtain ⟨path, hpath, key, hkey, hbelow⟩ := hnone
      obtain ⟨defn, hmem, _⟩ := id hpath
      have hne : engine.manifest.invariants ≠ [] := List.ne_nil_of_mem hmem
      have := h ⟨path, hpath, key, hkey, Or.inr (Or.inr hbelow)⟩
      tauto
  · rintro h ⟨path, hpath, key, hkey, hrelated⟩
    rcases h with hnone | htouches | himports | hinvalid
    · have habove : AtOrBelow key path := by
        rcases hrelated with h | h | h
        · exact h
        · exact Or.inl h.symm
        · exact absurd h (hnone path hpath key hkey)
      exact Or.inr (Or.inl (Or.inr
        (touches_refoundation_iff.mpr ⟨key, hkey.1, path, hpath, habove⟩)))
    · exact Or.inr (Or.inl (Or.inr htouches))
    · exact Or.inl himports
    · exact Or.inr (Or.inr hinvalid)

theorem mutationGuarded_iff [PrintTable] {manifest : InvariantManifest}
    {targetPath operation actorRole : String} :
    MutationGuarded manifest targetPath operation actorRole ↔
      NoneBelowTarget manifest targetPath ∨
        Touches manifest [targetPath] (fun defn => defn.refoundationOnly = true) ∨
        (Touches manifest [targetPath] (fun _ => True) ∧
          actorRole ∈ recommendationOnlyRoles) := by
  rw [MutationGuarded, validateMutation_error_iff]
  constructor
  · intro h
    by_cases hnone : NoneBelowTarget manifest targetPath
    · exact Or.inl hnone
    · simp only [NoneBelowTarget, not_forall, not_not] at hnone
      obtain ⟨path, hpath, hbelow⟩ := hnone
      obtain ⟨defn, hmem, _⟩ := id hpath
      have hne : manifest.invariants ≠ [] := List.ne_nil_of_mem hmem
      have := h ⟨path, hpath, Or.inr (Or.inr hbelow)⟩
      tauto
  · rintro (hnone | h) ⟨path, hpath, hrelated⟩
    · have habove : AtOrBelow targetPath path := by
        rcases hrelated with h | h | h
        · exact h
        · exact Or.inl h.symm
        · exact absurd h (hnone path hpath)
      exact Or.inr (Or.inl (touches_refoundation_iff.mpr
        ⟨targetPath, List.mem_singleton_self _, path, hpath, habove⟩))
    · exact Or.inr h

/-- Protected paths are safe exactly when none lies strictly below a changed top-level key or below
the target of a write, or the change or the write is refused for another reason. -/
theorem amendments_guarded_iff [PrintTable] (engine : ProposalEngine) (answers : Answers)
    (request : ProposalRequest) (targetPath operation actorRole : String) :
    (AmendmentGuarded engine answers request ∧
        MutationGuarded engine.manifest targetPath operation actorRole) ↔
      (∀ active, answers.activeVersion = .ok (some active) →
        NoneBelowChange engine.manifest active.content request.proposedChanges ∨
          Touches engine.manifest request.proposedChanges.keys
            (fun defn => defn.refoundationOnly = true) ∨
          engine.invariantImportsAvailable = false ∨
          (engine.maciAllows answers = .ok true ∧ Invalid request active)) ∧
      (NoneBelowTarget engine.manifest targetPath ∨
        Touches engine.manifest [targetPath] (fun defn => defn.refoundationOnly = true) ∨
        (Touches engine.manifest [targetPath] (fun _ => True) ∧
          actorRole ∈ recommendationOnlyRoles)) :=
  and_congr amendmentGuarded_iff mutationGuarded_iff

/-! ## A change from above

Under the default manifest `maci/enforcer.py` is protected.  The proposal writes a value under the
top-level key `maci`, and thereby one at that path. -/

@[reducible] def plainTable : PrintTable := ⟨fun _ => false⟩

/-- An engine with the default manifest and without an enforcer. -/
def sampleEngine : ProposalEngine where
  manifest := getDefaultManifest "0123456789abcdef"
  enableMaci := true
  maciEnforcer := false

def sampleAnswers : Answers where
  maci := .ok .other
  activeVersion := .ok (some
    { versionId := "v1"
      version := "1.0.0"
      constitutionalHash := constitutionalHash
      content := Dict.empty
      status := .active
      createdAt := 0 })
  saveAmendment := .ok true
  validatedAt := "1970-01-01T00:00:00+00:00"
  versionId := "v2"
  proposalId := "p1"
  now := 0

/-- `{"maci": {"enforcer.py": null}}` -/
def fromAbove : ProposalRequest where
  proposedChanges := Dict.empty.set "maci" (.obj [("enforcer.py", .null)])
  justification := "replace the enforcer"
  proposerAgentId := "agent-1"

theorem fromAbove_not_guarded :
    ¬ (@AmendmentGuarded plainTable sampleEngine sampleAnswers fromAbove ∧
      @MutationGuarded plainTable sampleEngine.manifest "maci" "write" "executive") := by
  rintro ⟨h, -⟩
  have hchanges : ChangesProtected sampleEngine.manifest Dict.empty fromAbove.proposedChanges := by
    refine ⟨"maci/enforcer.py", ⟨_, List.mem_cons_self, rfl, by decide⟩,
      ["maci", "enforcer.py"], "maci/enforcer.py", ?_, ?_, Or.inl (Paths.AtOrBelow.refl _ _)⟩
    · exact Paths.Joins.cons _ (Or.inr rfl) (Paths.Joins.single _)
    · simp [valueAt, fromAbove, get_mergeChanges, Json.follow, Json.lookup]
  have huntouched : ¬ Touches sampleEngine.manifest fromAbove.proposedChanges.keys
      fun defn => defn.refoundationOnly = true := by
    rintro ⟨defn, hdefn, -, changePath, hchange, path, hpath, hat⟩
    obtain rfl : changePath = "maci" := List.mem_singleton.mp hchange
    -- every path of the manifest is longer than the key
    have hlonger : ∀ defn ∈ defaultInvariants, ∀ path ∈ defn.protectedPaths,
        "maci".toList.length < path.toList.length := by decide +kernel
    have hlength : path.toList.length ≤ "maci".toList.length := by
      rcases hat with heq | hbelow
      · exact heq.symm ▸ le_rfl
      · exact hbelow.length_lt.le
    exact absurd hlength (hlonger defn hdefn path hpath).not_ge
  have hrefused := (@createProposal_refused_iff plainTable _ _ _ _ rfl).mp (h _ rfl hchanges)
  rcases hrefused with himports | (hempty | htouches) | ⟨-, htarget | herrors⟩
  · cases himports
  · cases hempty
  · exact huntouched htouches
  · exact htarget rfl
  · exact herrors rfl

end ProposalEngine

end EnhancedAgentBus.Constitutional
