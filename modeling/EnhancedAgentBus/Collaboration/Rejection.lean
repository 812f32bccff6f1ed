import EnhancedAgentBus.Collaboration.Convergence
import EnhancedAgentBus.Collaboration.Engine

/-!
# Edits that are rejected

An edit works in place and may raise half-way, and nothing undoes what it has done by then.  Three
kinds of operation do something before they raise (`PartialEdit`): an insertion whose path leaves
the document before its last component creates an array there and then asks that array for a
member; a deletion that counts from the end of an array removes items until it runs out of them;
and a move removes its source before it finds that the target cannot be written.

A batch stops at the first rejected operation and keeps those before it.
-/

namespace EnhancedAgentBus.Collaboration

open Json

/-! ## Where a path leads -/

variable {part : String} {rest : List String} {members : List (String × Json)} {doc : Json}
  {edit : Json → Edited} {parts : List String}

section Calls

variable [PrintTable] {documentId : String}

def SyncState.transformed (s : SyncState) (documentId : String) (op : EditOperation) :
    EditOperation :=
  transformAgainstHistory (s.operationHistory documentId) op

/-- The document is there, and its edit goes through. -/
def SyncState.Accepts (s : SyncState) (documentId : String) (op : EditOperation) : Prop :=
  ∃ doc, s.documents documentId = some doc ∧
    (applyToDocument (s.transformed documentId op) doc).2 = none

variable {op : EditOperation} {s : SyncState} {operations : List EditOperation}

def AllOrNothing (documentId : String) (operations : List EditOperation) (s : SyncState) : Prop :=
  (∃ applied, (batchApplyOperations documentId operations s).1 = .ok applied ∧
      applied.length = operations.length) ∨
    (batchApplyOperations documentId operations s).2 = s

end Calls

/-! ## A move that loses its source -/

/-- `{"draft": "text", "title": "plan"}`, and no history. -/
def drafted : SyncState where
  documents := fun _ => some (.obj [("draft", .str "text"), ("title", .str "plan")])

end EnhancedAgentBus.Collaboration
