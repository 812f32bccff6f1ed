import EnhancedAgentBus.Constitutional.VersionModel
import Mathlib.Algebra.Order.Ring.Rat

/-!
# Amendments and their life cycle

`Amendment` is the record `AmendmentProposal` as it is kept once it is proposed, with its status.
Each method that changes the status asks for one status and writes another; `transition_ok` is the
fact shared by all of them.  The fields that nothing here reads (the factors and the text of the
impact analysis, the invariants, the metrics) are left out, and scores are rational numbers.
-/

namespace EnhancedAgentBus.Constitutional

inductive AmendmentStatus where
  | proposed
  | underReview
  | approved
  | rejected
  | active
  | rolledBack
  | withdrawn
  deriving DecidableEq

/-- An entry of `approval_chain`.  The id of the approver comes from the approval service, which
may send any value. -/
structure ApprovalEntry where
  decidedBy : Json
  role : String
  decision : String
  reason : Option Json := none
  timestamp : Time

/-- `AmendmentProposal` -/
structure Amendment where
  proposalId : String
  proposedChanges : Dict String Json
  justification : String
  proposerAgentId : String
  targetVersion : String
  newVersion : Option String := none
  status : AmendmentStatus := .proposed
  impactScore : Option ℚ := none
  requiresDeliberation : Bool := false
  approvalChain : List ApprovalEntry := []
  rejectionReason : Option Json := none
  rollbackReason : Option String := none
  metadata : Dict String Json := Dict.empty
  reviewedAt : Option Time := none
  activatedAt : Option Time := none
  rolledBackAt : Option Time := none

/-- The `ACGSValidationError` of a method called in a status that it does not allow. -/
structure TransitionError where
  message : String
  errorCode : String

namespace Amendment

def statusText : AmendmentStatus → String
  | .proposed => "AmendmentStatus.PROPOSED"
  | .underReview => "AmendmentStatus.UNDER_REVIEW"
  | .approved => "AmendmentStatus.APPROVED"
  | .rejected => "AmendmentStatus.REJECTED"
  | .active => "AmendmentStatus.ACTIVE"
  | .rolledBack => "AmendmentStatus.ROLLED_BACK"
  | .withdrawn => "AmendmentStatus.WITHDRAWN"

/-- A method that asks for one of some statuses, and then rewrites the record. -/
def transition (allowed : List AmendmentStatus) (demand errorCode : String)
    (write : Amendment → Amendment) (a : Amendment) : Except TransitionError Amendment :=
  if a.status ∈ allowed then .ok (write a)
  else .error ⟨demand ++ " (current: " ++ statusText a.status ++ ")", errorCode⟩

def submitForReview : Amendment → Except TransitionError Amendment :=
  transition [.proposed] "Can only submit proposals in PROPOSED status" "AMENDMENT_NOT_PROPOSED"
    fun a => { a with status := .underReview }

def approve (approverId : Json) (approverRole : String) (now : Time) :
    Amendment → Except TransitionError Amendment :=
  transition [.underReview] "Can only approve proposals in UNDER_REVIEW status"
    "AMENDMENT_NOT_UNDER_REVIEW"
    fun a =>
      { a with
        status := .approved
        reviewedAt := some now
        approvalChain := a.approvalChain ++ [⟨approverId, approverRole, "approved", none, now⟩] }

def reject (reviewerId reason : Json) (reviewerRole : String) (now : Time) :
    Amendment → Except TransitionError Amendment :=
  transition [.underReview] "Can only reject proposals in UNDER_REVIEW status"
    "AMENDMENT_NOT_UNDER_REVIEW"
    fun a =>
      { a with
        status := .rejected
        reviewedAt := some now
        rejectionReason := some reason
        approvalChain :=
          a.approvalChain ++ [⟨reviewerId, reviewerRole, "rejected", some reason, now⟩] }

def activate (now : Time) : Amendment → Except TransitionError Amendment :=
  transition [.approved] "Can only activate proposals in APPROVED status" "AMENDMENT_NOT_APPROVED"
    fun a => { a with status := .active, activatedAt := some now }

def rollback (reason : String) (now : Time) : Amendment → Except TransitionError Amendment :=
  transition [.active] "Can only rollback amendments in ACTIVE status" "AMENDMENT_NOT_ACTIVE"
    fun a =>
      { a with status := .rolledBack, rolledBackAt := some now, rollbackReason := some reason }

def withdraw : Amendment → Except TransitionError Amendment :=
  transition [.proposed, .underReview] "Can only withdraw pending proposals"
    "AMENDMENT_NOT_PENDING" fun a => { a with status := .withdrawn }

theorem transition_ok {allowed : List AmendmentStatus} {demand errorCode : String}
    {write : Amendment → Amendment} {a a' : Amendment} :
    transition allowed demand errorCode write a = .ok a' ↔ a.status ∈ allowed ∧ write a = a' := by
  rw [transition]
  split
  · next hmem => exact ⟨fun h => ⟨hmem, Except.ok.inj h⟩, fun h => congrArg Except.ok h.2⟩
  · next hmem => exact ⟨fun h => (nomatch h), fun h => absurd h.1 hmem⟩

inductive Moves : AmendmentStatus → AmendmentStatus → Prop where
  | submit : Moves .proposed .underReview
  | approve : Moves .underReview .approved
  | reject : Moves .underReview .rejected
  | activate : Moves .approved .active
  | rollback : Moves .active .rolledBack
  | withdrawProposed : Moves .proposed .withdrawn
  | withdrawUnderReview : Moves .underReview .withdrawn

inductive Method where
  | submitForReview
  | approve (approverId : Json) (approverRole : String)
  | reject (reviewerId reason : Json) (reviewerRole : String)
  | activate
  | rollback (reason : String)
  | withdraw

def call (now : Time) : Method → Amendment → Except TransitionError Amendment
  | .submitForReview => submitForReview
  | .approve approverId role => approve approverId role now
  | .reject reviewerId reason role => reject reviewerId reason role now
  | .activate => activate now
  | .rollback reason => rollback reason now
  | .withdraw => withdraw

end Amendment

end EnhancedAgentBus.Constitutional
