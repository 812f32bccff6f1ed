import EnhancedAgentBus.Json
import Mathlib.Data.Rat.Defs

/-!
# Edit operations of the collaborative editor

The data of `collaboration/models.py` that the sync engine reads: one edit
operation with all of its fields, and the validation the model class performs
(none beyond the field types).

A timestamp is a rational: the engine only compares two of them.
-/

namespace EnhancedAgentBus.Collaboration

inductive EditOperationType where
  | insert
  | delete
  | replace
  | move
  | setProperty
  | deleteProperty
deriving DecidableEq, Repr

structure EditOperation where
  operationId : String
  type : EditOperationType
  path : String
  value : Json := .null
  oldValue : Json := .null
  position : Option ℤ := none
  length : Option ℤ := none
  timestamp : ℚ
  userId : String
  clientId : String
  version : ℤ
  parentVersion : Option ℤ := none

namespace EditOperation

/-- `len(str(op.value)) if op.value else 1`: the width the transform gives an insertion. -/
def valueLen [PrintTable] (op : EditOperation) : ℕ :=
  if op.value.truthy then op.value.pyStr.length else 1

/-- `op.length or 1`: an absent length and a length of zero both read as one. -/
def lengthOr1 (op : EditOperation) : ℤ :=
  match op.length with
  | none => 1
  | some l => if l = 0 then 1 else l

theorem one_le_valueLen [PrintTable] (op : EditOperation) : 1 ≤ op.valueLen := by
  unfold valueLen
  split
  · next h => exact List.length_pos_iff.mpr (Json.pyStr_ne_nil_of_truthy h)
  · exact Nat.le_refl 1

theorem lengthOr1_of_pos {op : EditOperation} {l : ℤ} (h : op.length = some l) (hl : l ≠ 0) :
    op.lengthOr1 = l := by
  simp [lengthOr1, h, hl]

end EditOperation

end EnhancedAgentBus.Collaboration
