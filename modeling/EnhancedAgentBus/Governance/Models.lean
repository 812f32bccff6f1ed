import Mathlib.Algebra.Order.Ring.Rat
import Mathlib.Data.Finset.Sort
import Mathlib.Data.String.Basic

/-!
# Governance paths

The hops of a governance path, and what a hop is signed with.  The HMAC under the key that is used
throughout is a parameter: it takes a payload to its hex digest.

Checks are the strings on the wire.  Instants are rational numbers.
-/

namespace EnhancedAgentBus.Governance

/-- `PathSegment`: one signed hop. -/
structure PathSegment where
  hopId : String
  nodeId : String := ""
  nodeRole : String := ""
  constitutionalHash : String := "608508a9bd224290"
  checksPerformed : Finset String := ∅
  timestamp : ℚ
  signature : String := ""
  prevSignature : String := ""
  deriving DecidableEq

/-- `GovernancePath`: the hops in the order in which they were taken. -/
structure GovernancePath where
  segments : List PathSegment := []
  pathId : String
  requiredQuorum : ℤ := 1

/-- `TypeError`: `hmac.compare_digest` takes strings of ASCII characters only. -/
inductive CompareError where
  | typeError
  deriving DecidableEq

def isAscii (s : String) : Bool := s.toList.all fun c => c.toNat < 128

def compareDigest (a b : String) : Except CompareError Bool :=
  if isAscii a && isAscii b then .ok (a = b) else .error .typeError

/-! Texts are sorted in ascending order. -/

instance isTransStringLe : IsTrans String (· ≤ ·) := ⟨fun _ _ _ => le_trans⟩

instance antisymmStringLe : Std.Antisymm fun a b : String => a ≤ b := ⟨fun _ _ => le_antisymm⟩

instance totalStringLe : Std.Total fun a b : String => a ≤ b := ⟨le_total⟩

namespace PathSegment

variable (hmac : String → String) (segment : PathSegment)

/-- The fields of a payload, before they are joined by `|`. -/
def payloadFields (prevSig : String) : List String :=
  [segment.hopId, segment.nodeId, segment.constitutionalHash,
    ",".intercalate (segment.checksPerformed.sort (· ≤ ·)), prevSig]

def canonicalPayload (prevSig : String) : String := "|".intercalate (segment.payloadFields prevSig)

def sign (prevSig : String) : PathSegment :=
  { segment with
    prevSignature := prevSig
    signature := hmac (segment.canonicalPayload prevSig) }

def verify (prevSig : String) : Except CompareError Bool :=
  compareDigest (hmac (segment.canonicalPayload prevSig)) segment.signature

end PathSegment

end EnhancedAgentBus.Governance
