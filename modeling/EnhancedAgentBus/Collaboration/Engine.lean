import EnhancedAgentBus.Collaboration.SyncEngine

/-!
# The calls of the sync engine

`apply_operation`, `batch_apply_operations`, `undo_last_operation`, `get_operation_history` and
`compact_history`, on the documents and histories of one engine and the version of the session
they are called with.  Every call runs under the engine's lock, so a call is a function of the
state: what it returns or raises, and the state it leaves, which after an exception is whatever
the edit had done by then.

What Redis is sent, and log lines, are left out; nothing reads them back here.
-/

namespace EnhancedAgentBus.Collaboration

variable [PrintTable]

inductive SyncError where
  /-- `ConflictError`, for the exception an edit raised -/
  | conflict (cause : EditError)
  /-- `CollaborationValidationError`: the document is not found -/
  | validation
  /-- an exception of an edit, not wrapped -/
  | raised (cause : EditError)
  | keyError
deriving DecidableEq

/-- The documents and histories of an engine, and `session.version`. -/
structure SyncState where
  documents : String → Option Json
  operationHistory : String → List EditOperation := fun _ => []
  sessionVersion : ℤ := 1

namespace SyncState

variable (documentId : String)

def setDocument (doc : Json) (s : SyncState) : SyncState :=
  { s with documents := Function.update s.documents documentId (some doc) }

def setHistory (history : List EditOperation) (s : SyncState) : SyncState :=
  { s with operationHistory := Function.update s.operationHistory documentId history }

def initializeDocument (initialContent : Json) (s : SyncState) : SyncState :=
  (s.setDocument documentId initialContent).setHistory documentId []

end SyncState

/-- `operation.parent_version or operation.version` -/
def baseVersion (operation : EditOperation) : ℤ :=
  match operation.parentVersion with
  | some v => if v = 0 then operation.version else v
  | none => operation.version

def concurrentOps (history : List EditOperation) (operation : EditOperation) :
    List EditOperation :=
  history.filter fun op => op.version ≥ baseVersion operation

def transformAgainstHistory (history : List EditOperation) (operation : EditOperation) :
    EditOperation :=
  let transformed := (concurrentOps history operation).foldl
    (fun transformed concurrentOp => (transformOperations concurrentOp transformed).2) operation
  { transformed with version := history.length + 1 }

def applyOperation (documentId : String) (operation : EditOperation) (s : SyncState) :
    Except SyncError EditOperation × SyncState :=
  match s.documents documentId with
  | none => (.error .validation, s)
  | some doc =>
    let transformed := transformAgainstHistory (s.operationHistory documentId) operation
    match applyToDocument transformed doc with
    -- The edit is made in place: what it did before it raised stays
    | (doc', some e) => (.error (.conflict e), s.setDocument documentId doc')
    | (doc', none) =>
      let s' := (s.setDocument documentId doc').setHistory documentId
        (s.operationHistory documentId ++ [transformed])
      (.ok transformed, { s' with sessionVersion := s.sessionVersion + 1 })

/-- Whether `except _SYNC_ENGINE_OPERATION_ERRORS` catches an exception.  `ConflictError` and
`CollaborationValidationError` derive from `Exception` directly. -/
def SyncError.isOperationError : SyncError → Bool
  | conflict _ | validation => false
  | raised _ | keyError => true

def batchApplyOperations (documentId : String) :
    List EditOperation → SyncState → Except SyncError (List EditOperation) × SyncState
  | [], s => (.ok [], s)
  | op :: operations, s =>
    match applyOperation documentId op s with
    | (.ok transformed, s') =>
      match batchApplyOperations documentId operations s' with
      | (.ok applied, s'') => (.ok (transformed :: applied), s'')
      | (.error e, s'') => (.error e, s'')
    | (.error e, s') =>
      if e.isOperationError then batchApplyOperations documentId operations s'
      else (.error e, s')

def createInverseOperation (operationId : String) (timestamp : ℚ) (operation : EditOperation) :
    EditOperation :=
  match operation.type with
  | .insert =>
    { operationId, timestamp, type := .delete, path := operation.path,
      position := operation.position, length := some operation.valueLen,
      userId := operation.userId, clientId := operation.clientId,
      version := operation.version }
  | .delete =>
    { operationId, timestamp, type := .insert, path := operation.path,
      position := operation.position, value := operation.oldValue,
      userId := operation.userId, clientId := operation.clientId,
      version := operation.version }
  | .setProperty =>
    match operation.oldValue with
    | .null =>
      { operationId, timestamp, type := .deleteProperty, path := operation.path,
        userId := operation.userId, clientId := operation.clientId,
        version := operation.version }
    | oldValue =>
      { operationId, timestamp, type := .setProperty, path := operation.path,
        value := oldValue, oldValue := operation.value, userId := operation.userId,
        clientId := operation.clientId, version := operation.version }
  | .replace =>
    { operationId, timestamp, type := .replace, path := operation.path,
      value := operation.oldValue, oldValue := operation.value, userId := operation.userId,
      clientId := operation.clientId, version := operation.version }
  | .move | .deleteProperty => operation

def undoLastOperation (documentId operationId : String) (timestamp : ℚ) (s : SyncState) :
    Except SyncError (Option EditOperation) × SyncState :=
  match (s.operationHistory documentId).getLast? with
  | none => (.ok none, s)
  | some lastOp =>
    let popped := s.setHistory documentId (s.operationHistory documentId).dropLast
    match s.documents documentId with
    | none => (.error .keyError, popped)
    | some doc =>
      match applyToDocument (createInverseOperation operationId timestamp lastOp) doc with
      | (doc', some e) => (.error (.raised e), popped.setDocument documentId doc')
      | (doc', none) =>
        (.ok (some lastOp), { popped.setDocument documentId doc' with
          sessionVersion := s.sessionVersion - 1 })

def getOperationHistory (documentId : String) (sinceVersion : ℤ) (s : SyncState) :
    List EditOperation :=
  (s.operationHistory documentId).filter fun op => op.version > sinceVersion

def compactHistory (documentId : String) (s : SyncState) : SyncState :=
  match s.documents documentId with
  | none => s
  | some _ =>
    let history := s.operationHistory documentId
    if history.length > 100 then
      -- `history[-50:]`
      s.setHistory documentId (history.drop (history.length - 50))
    else s

end EnhancedAgentBus.Collaboration
