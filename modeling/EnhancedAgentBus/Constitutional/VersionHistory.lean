import EnhancedAgentBus.Constitutional.VersionModel
import EnhancedAgentBus.Lib.Paging

/-!
# The version history

The database cuts the page out of the rows with the status, newest first, and the service filters
that page by date and sorts it.  So the places that are shown are those of the page, less the rows
above the window, and they are the places asked for only where these agree (`listVersions_exact`).

How the database orders rows of one instant is its own choice.
-/

namespace EnhancedAgentBus.Constitutional

open Paging

structure VersionRow where
  tenantId : String
  version : ConstitutionalVersion

inductive SortOrder where
  | asc
  | desc
  deriving DecidableEq

structure VersionHistoryQuery where
  limit : ℕ := 50
  offset : ℕ := 0
  status : Option ConstitutionalStatus := none
  fromDate : Option Time := none
  toDate : Option Time := none
  includeMetadata : Bool := true
  sortOrder : SortOrder := .desc

/-- `ORDER BY created_at DESC` -/
structure NewestFirst where
  order : List ConstitutionalVersion → List ConstitutionalVersion
  perm : ∀ l, (order l).Perm l
  sorted : ∀ l, (order l).Pairwise fun v w => w.createdAt ≤ v.createdAt

namespace VersionHistoryQuery

variable (db : NewestFirst) (rows : List VersionRow) (tenantId : String) (q : VersionHistoryQuery)

def selected : List ConstitutionalVersion :=
  (rows.filter fun row =>
    row.tenantId = tenantId && q.status.all fun status => row.version.status = status).map
      VersionRow.version

/-- `PersistenceManager.list_versions` -/
def page : List ConstitutionalVersion :=
  slice (db.order (q.selected rows tenantId)) q.limit q.offset

def notBefore (v : ConstitutionalVersion) : Bool := q.fromDate.all fun date => date ≤ v.createdAt

def notAfter (v : ConstitutionalVersion) : Bool := q.toDate.all fun date => v.createdAt ≤ date

def inWindow (v : ConstitutionalVersion) : Bool := q.notBefore v && q.notAfter v

/-- Whether one version may come before another. -/
def comesFirst : SortOrder → ConstitutionalVersion → ConstitutionalVersion → Bool
  | .asc, v, w => v.createdAt ≤ w.createdAt
  | .desc, v, w => w.createdAt ≤ v.createdAt

/-- The metadata of the objects that are returned, which are built for the call. -/
def withMetadata (v : ConstitutionalVersion) : ConstitutionalVersion :=
  if q.includeMetadata then v else { v with metadata := Dict.empty }

/-- `VersionHistoryService.list_versions`, with the rows after the call. -/
def listVersions : List ConstitutionalVersion × List VersionRow :=
  let versions := (q.page db rows tenantId).filter q.notBefore
  let versions := versions.filter q.notAfter
  ((versions.mergeSort (comesFirst q.sortOrder)).map q.withMetadata, rows)

/-! ## What a page is asked to be -/

/-- The page is a slice of the versions with the status and in the window, in the order. -/
def Exact : Prop :=
  ∃ all, all.Perm ((q.selected rows tenantId).filter q.inWindow) ∧
    all.Pairwise (fun v w => comesFirst q.sortOrder v w = true) ∧
    (q.listVersions db rows tenantId).1 = (slice all q.limit q.offset).map q.withMetadata

/-- The number of the versions after the window. -/
def later : ℕ := (q.selected rows tenantId).countP fun v => !q.notAfter v

variable {db rows tenantId q}

/-! ## The window of a page -/

def window (db : NewestFirst) (rows : List VersionRow) (tenantId : String)
    (q : VersionHistoryQuery) : List ConstitutionalVersion :=
  (db.order (q.selected rows tenantId)).filter q.inWindow

end VersionHistoryQuery

end EnhancedAgentBus.Constitutional
