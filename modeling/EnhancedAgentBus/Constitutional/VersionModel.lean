import EnhancedAgentBus.Json
import EnhancedAgentBus.Lib.Dict
import Mathlib.Data.Int.Notation

/-!
# Constitutional versions

The record of one version of the constitution, and what activating and deactivating it write.  The
validators of the record (the shape of the version number and of the hash) run when it is built; a
version that is stored has passed them.
-/

namespace EnhancedAgentBus.Constitutional

abbrev Time := ℤ

inductive ConstitutionalStatus where
  | draft
  | proposed
  | underReview
  | approved
  | active
  | superseded
  | rolledBack
  | rejected
  deriving DecidableEq

structure ConstitutionalVersion where
  versionId : String
  version : String
  constitutionalHash : String
  content : Dict String Json
  predecessorVersion : Option String := none
  status : ConstitutionalStatus := .draft
  metadata : Dict String Json := Dict.empty
  createdAt : Time
  activatedAt : Option Time := none
  deactivatedAt : Option Time := none

namespace ConstitutionalVersion

def isActive (v : ConstitutionalVersion) : Bool := v.status = .active

/-- A first activation is dated, a later one keeps the date. -/
def activate (v : ConstitutionalVersion) (now : Time) : ConstitutionalVersion :=
  { v with status := .active, activatedAt := some (v.activatedAt.getD now) }

def deactivate (v : ConstitutionalVersion) (reason : String) (now : Time) :
    ConstitutionalVersion :=
  { v with
    status := if reason = "rolled_back" then .rolledBack else .superseded
    deactivatedAt := some (v.deactivatedAt.getD now) }

@[simp] theorem activate_versionId (v : ConstitutionalVersion) (now : Time) :
    (v.activate now).versionId = v.versionId := rfl

theorem deactivate_status_ne (v : ConstitutionalVersion) (reason : String) (now : Time) :
    (v.deactivate reason now).status ≠ .active := by
  rw [deactivate]
  split <;> simp

end ConstitutionalVersion

end EnhancedAgentBus.Constitutional
