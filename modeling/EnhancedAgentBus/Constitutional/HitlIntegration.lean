import EnhancedAgentBus.Constitutional.AmendmentModel
import EnhancedAgentBus.Constitutional.ProposalEngine
import EnhancedAgentBus.Lib.Machine

/-!
# Human approval of amendments

`createApprovalRequest` and `processApprovalDecision` are the two operations of
`ConstitutionalHITLIntegration`, over the storage of amendments and an approval service that keeps
one record for each request.

The link between a request and its amendment is in the payload that the service is sent, and nothing
looks at it on the way back: `processApprovalDecision` approves whatever amendment it is given the
id of.  What keeps the decision from taking effect is the storage.  `save_amendment` inserts a row,
so an amendment that has been read from the storage is never written back to it
(`processApprovalDecision_storage`); the amendments whose stored status a call changes are the ones
that `createApprovalRequest` stores for the first time.  It notifies the reviewers afterwards, and
an exception of the notification that is not in `_HITL_OPERATION_ERRORS` leaves the call with the
amendment stored (`human_approvals_count_iff`).

What the network and the database answer during a call is an argument of it.  The description in
the payload is a text that nobody reads back; only its failure is kept, for an amendment without an
impact score.
-/

namespace EnhancedAgentBus.Constitutional.HitlIntegration

/-! ## Storage -/

/-- What a database session ends with: it is served, fails with an error that the persistence
manager catches, or with one that it lets through (an `SQLAlchemyError`). -/
inductive Session where
  | served
  | failed
  | raised
  deriving DecidableEq

inductive Failure where
  | valueError (message : String)
  | validationError (error : TransitionError)
  | typeError
  | attributeError
  | httpError
  /-- An error of the database that nothing catches, `IntegrityError` among them. -/
  | databaseError
  /-- An exception outside `_HITL_OPERATION_ERRORS`, as `httpx.InvalidURL` is. -/
  | uncaught

/-- `AmendmentProposalDB`.  The key of the table is the id of the proposal alone. -/
structure AmendmentRow where
  tenantId : String
  amendment : Amendment

/-- `PersistenceManager`, whose engine is there once it is connected. -/
structure Storage where
  engine : Bool
  rows : Dict String AmendmentRow
  keyed : ∀ proposalId row, rows.get proposalId = some row → row.amendment.proposalId = proposalId

namespace Storage

def columns (a : Amendment) : Amendment := { a with impactScore := a.impactScore.filter (· ≠ 0) }

def insert (storage : Storage) (tenantId : String) (a : Amendment) : Storage where
  engine := storage.engine
  rows := storage.rows.set a.proposalId ⟨tenantId, columns a⟩
  keyed := by
    intro proposalId row hrow
    rw [Dict.get_set] at hrow
    split at hrow
    · rename_i heq
      cases hrow
      exact heq.symm
    · exact storage.keyed proposalId row hrow

/-- `save_amendment` adds a row, and a second row with the same key violates the table's. -/
def saveAmendment (session : Session) (storage : Storage) (tenantId : String) (a : Amendment) :
    Except Failure Bool × Storage :=
  if storage.engine = false then (.ok false, storage)
  else
    match session with
    | .failed => (.ok false, storage)
    | .raised => (.error .databaseError, storage)
    | .served =>
      match storage.rows.get a.proposalId with
      | some _ => (.error .databaseError, storage)
      | none => (.ok true, storage.insert tenantId a)

def getAmendment (session : Session) (storage : Storage) (tenantId proposalId : String) :
    Except Failure (Option Amendment) :=
  if storage.engine = false then .ok none
  else
    match session with
    | .failed => .ok none
    | .raised => .error .databaseError
    | .served =>
      match storage.rows.get proposalId with
      | some row => .ok (if row.tenantId = tenantId then some row.amendment else none)
      | none => .ok none

def statusOf (storage : Storage) (proposalId : String) : Option AmendmentStatus :=
  (storage.rows.get proposalId).map fun row => row.amendment.status

def Inserts (session : Session) (storage : Storage) (a : Amendment) : Prop :=
  storage.engine = true ∧ session = .served ∧ storage.rows.get a.proposalId = none

theorem saveAmendment_of_inserts {session : Session} {storage : Storage} {tenantId : String}
    {a : Amendment} (h : Inserts session storage a) :
    saveAmendment session storage tenantId a = (.ok true, storage.insert tenantId a) := by
  obtain ⟨hengine, rfl, hnone⟩ := h
  simp [saveAmendment, hengine, hnone]

theorem saveAmendment_of_not_inserts {session : Session} {storage : Storage} {tenantId : String}
    {a : Amendment} (h : ¬Inserts session storage a) :
    (saveAmendment session storage tenantId a).2 = storage := by
  unfold saveAmendment
  split
  · rfl
  · rename_i hengine
    cases session with
    | failed => rfl
    | raised => rfl
    | served =>
      cases hrow : storage.rows.get a.proposalId with
      | some row => rfl
      | none => exact absurd ⟨by simpa using hengine, rfl, hrow⟩ h

theorem not_inserts_of_getAmendment {session session' : Session} {storage : Storage}
    {tenantId proposalId : String} {a a' : Amendment}
    (h : getAmendment session storage tenantId proposalId = .ok (some a))
    (hid : a'.proposalId = a.proposalId) : ¬Inserts session' storage a' := by
  rintro ⟨hengine, -, hnone⟩
  unfold getAmendment at h
  rw [if_neg (by simp [hengine])] at h
  cases session with
  | failed => cases h
  | raised => cases h
  | served =>
    rcases hrow : storage.rows.get proposalId with _ | row
    · simp [hrow] at h
    · simp only [hrow, Except.ok.injEq] at h
      split at h
      · cases h
        rw [hid, storage.keyed proposalId row hrow, hrow] at hnone
        cases hnone
      · cases h

end Storage

/-! ## Requests -/

inductive NotificationChannel where
  | slack
  | pagerduty
  | teams
  deriving DecidableEq

inductive ApprovalPriority where
  | low
  | standard
  | high
  | critical

structure ApprovalChainConfig where
  chainId : String
  priority : ApprovalPriority
  requiredApprovals : ℕ
  timeoutMinutes : ℕ
  notificationChannels : List NotificationChannel

def highImpactChain : ApprovalChainConfig where
  chainId := "constitutional_high_impact"
  priority := .critical
  requiredApprovals := 3
  timeoutMinutes := 120
  notificationChannels := [.slack, .pagerduty]

def mediumImpactChain : ApprovalChainConfig where
  chainId := "constitutional_medium_impact"
  priority := .high
  requiredApprovals := 2
  timeoutMinutes := 60
  notificationChannels := [.slack]

def lowImpactChain : ApprovalChainConfig where
  chainId := "constitutional_low_impact"
  priority := .standard
  requiredApprovals := 1
  timeoutMinutes := 30
  notificationChannels := [.slack]

/-- `_determine_approval_chain`.  A score of zero is falsy, and counts as a medium one. -/
def determineApprovalChain (proposal : Amendment) : ApprovalChainConfig :=
  let impactScore : ℚ := (proposal.impactScore.filter (· ≠ 0)).getD (1 / 2)
  if 8 / 10 ≤ impactScore then highImpactChain
  else if 1 / 2 ≤ impactScore then mediumImpactChain
  else lowImpactChain

theorem slack_mem_channels (proposal : Amendment) :
    .slack ∈ (determineApprovalChain proposal).notificationChannels := by
  rw [determineApprovalChain]
  split
  · exact List.mem_cons_self ..
  · split <;> exact List.mem_cons_self ..

structure RequestContext where
  proposalId : String
  targetVersion : String
  newVersion : Option String
  impactScore : Option ℚ
  requiresDeliberation : Bool
  constitutionalHash : String := Constitutional.constitutionalHash
  proposedChanges : Dict String Json
  justification : String
  approvalUrl : String

structure RequestPayload where
  decisionId : String
  tenantId : Json
  requestedBy : String
  title : String
  priority : ApprovalPriority
  context : RequestContext
  chainId : String

/-- The settings of the integration, with the webhooks and the key of `notification_config`. -/
structure Integration where
  hitlServiceUrl : String := "http://localhost:8002"
  enableNotifications : Bool := true
  slackWebhook : Option String := none
  pagerdutyKey : Option String := none
  teamsWebhook : Option String := none

/-- What the approval service keeps of a request: what it was sent, and its one status. -/
structure ServiceRecord where
  payload : RequestPayload
  statusData : Json

structure State where
  storage : Storage
  service : Dict String ServiceRecord

inductive Posted where
  | delivered
  | caught
  | uncaught
  deriving DecidableEq

structure CreateAnswers where
  tenantId : String
  /-- The id under which the service records the request, if it does. -/
  recordedAs : Option String
  reply : Except Failure Json
  session : Session
  post : String → Posted

structure HITLApprovalRequest where
  requestId : String
  proposalId : String
  chainConfig : ApprovalChainConfig
  title : String
  context : RequestContext
  approvalUrl : String

namespace Integration

def generateApprovalUrl (integration : Integration) (proposalId : String)
    (baseUrl : Option String) : String :=
  (baseUrl.filter (· ≠ "")).getD (integration.hitlServiceUrl ++ "/ui") ++
    "/approvals/constitutional/" ++ proposalId

/-- The payload of `create_approval_request`. -/
def requestPayload (integration : Integration) (proposal : Amendment)
    (approvalUrlBase : Option String) : RequestPayload :=
  let chainConfig := determineApprovalChain proposal
  { decisionId := proposal.proposalId
    tenantId := (proposal.metadata.get "tenant_id").getD (.str "default")
    requestedBy := proposal.proposerAgentId
    title := "Constitutional Amendment: " ++ (proposal.newVersion.filter (· ≠ "")).getD "TBD"
    priority := chainConfig.priority
    context :=
      { proposalId := proposal.proposalId
        targetVersion := proposal.targetVersion
        newVersion := proposal.newVersion
        impactScore := proposal.impactScore
        requiresDeliberation := proposal.requiresDeliberation
        proposedChanges := proposal.proposedChanges
        justification := proposal.justification
        approvalUrl := integration.generateApprovalUrl proposal.proposalId approvalUrlBase }
    chainId := chainConfig.chainId }

/-- Where the notifications of a channel are posted to, if the channel is configured. -/
def target (integration : Integration) : NotificationChannel → Option String
  | .slack => integration.slackWebhook.filter (· ≠ "")
  | .pagerduty =>
    (integration.pagerdutyKey.filter (· ≠ "")).map fun _ =>
      "https://events.pagerduty.com/v2/enqueue"
  | .teams => integration.teamsWebhook.filter (· ≠ "")

def sendToChannel (integration : Integration) (post : String → Posted)
    (channel : NotificationChannel) : Except Failure Bool :=
  match integration.target channel with
  | none => .ok false
  | some url =>
    match post url with
    | .delivered => .ok true
    | .caught => .ok false
    | .uncaught => .error .uncaught

/-- The loop of `_send_notifications`. -/
def sendNotifications (integration : Integration) (post : String → Posted) :
    List NotificationChannel → Except Failure (List (NotificationChannel × Bool))
  | [] => .ok []
  | channel :: channels =>
    match integration.sendToChannel post channel with
    | .error failure => .error failure
    | .ok success =>
      match integration.sendNotifications post channels with
      | .error failure => .error failure
      | .ok results => .ok ((channel, success) :: results)

/-- The end of `create_approval_request`: the reviewers are notified. -/
def notified (integration : Integration) (answers : CreateAnswers)
    (request : HITLApprovalRequest) : Except Failure HITLApprovalRequest :=
  if integration.enableNotifications then
    match integration.sendNotifications answers.post
        request.chainConfig.notificationChannels with
    | .error failure => .error failure
    | .ok _ => .ok request
  else .ok request

end Integration

/-- `request_id` of the response of the service. -/
def requestIdOf : Except Failure Json → Except Failure String
  | .error failure => .error failure
  | .ok (.obj members) =>
    match Json.lookup "request_id" members with
    | some (.str requestId) =>
      if requestId = "" then .error (.valueError "HITL service response missing request_id")
      else .ok requestId
    | _ => .error (.valueError "HITL service response missing request_id")
  | .ok _ => .error .attributeError

def State.record (s : State) (recordedAs : Option String) (payload : RequestPayload) : State :=
  match recordedAs with
  | none => s
  | some requestId =>
    { s with
      service :=
        s.service.set requestId ⟨payload, .obj [("status", .str "pending")]⟩ }

/-- `create_approval_request`.  The record of the caller is under review from the moment it is
submitted; the calls of a run may be given any record. -/
def createApprovalRequest (integration : Integration) (answers : CreateAnswers) (s : State)
    (proposal : Amendment) (approvalUrlBase : Option String) :
    Except Failure HITLApprovalRequest × State :=
  if proposal.status ≠ .proposed ∧ proposal.status ≠ .underReview then
    (.error (.valueError ("Proposal " ++ proposal.proposalId ++
      " cannot be submitted for HITL approval (current status: " ++
      Amendment.statusText proposal.status ++ ")")), s)
  else if proposal.impactScore = none then
    -- the description formats the score, before anything is sent
    (.error .typeError, s)
  else
    let payload := integration.requestPayload proposal approvalUrlBase
    let s := s.record answers.recordedAs payload
    match requestIdOf answers.reply with
    | .error failure => (.error failure, s)
    | .ok requestId =>
      let request : HITLApprovalRequest :=
        { requestId := requestId
          proposalId := proposal.proposalId
          chainConfig := determineApprovalChain proposal
          title := payload.title
          context := payload.context
          approvalUrl := payload.context.approvalUrl }
      if proposal.status = .proposed then
        match proposal.submitForReview with
        | .error error => (.error (.validationError error), s)
        | .ok submitted =>
          match Storage.saveAmendment answers.session s.storage answers.tenantId submitted with
          | (.error failure, storage) => (.error failure, { s with storage := storage })
          | (.ok _, storage) =>
            (integration.notified answers request, { s with storage := storage })
      else (integration.notified answers request, s)

/-! ## Decisions -/

/-- What asking the service for a status ends with: `httpx.HTTPError` is caught. -/
inductive Asked where
  | served
  | httpError
  | raised
  deriving DecidableEq

structure ProcessAnswers where
  tenantId : String
  ask : Asked
  read : Session
  write : Session
  now : Time

/-- `check_approval_status`: the members of the status data. -/
def checkApprovalStatus (ask : Asked) (s : State) (requestId : String) :
    Except Failure (Option (List (String × Json))) :=
  match ask with
  | .httpError => .ok none
  | .raised => .error .uncaught
  | .served =>
    match s.service.get requestId with
    | none => .ok none
    | some request =>
      match request.statusData with
      | .obj members => .ok (some members)
      | _ => .error .attributeError

def concluded (answers : ProcessAnswers) (s : State) (result : Bool) (proposal : Amendment) :
    Except Failure Bool × State :=
  match Storage.saveAmendment answers.write s.storage answers.tenantId proposal with
  | (.error failure, storage) => (.error failure, { s with storage := storage })
  | (.ok _, storage) => (.ok result, { s with storage := storage })

def applyStatus (answers : ProcessAnswers) (s : State) (members : List (String × Json))
    (proposal : Amendment) : Except Failure Bool × State :=
  match Json.lookup "status" members with
  | some (.str hitlStatus) =>
    if hitlStatus = "approved" then
      let approverId := (Json.lookup "approved_by" members).getD (.str "hitl_system")
      match proposal.approve approverId "judicial" answers.now with
      | .error error => (.error (.validationError error), s)
      | .ok approved => concluded answers s true approved
    else if hitlStatus = "rejected" then
      let reviewerId := (Json.lookup "rejected_by" members).getD (.str "hitl_system")
      let reason :=
        (Json.lookup "rejection_reason" members).getD (.str "Rejected via HITL approval")
      match proposal.reject reviewerId reason "judicial" answers.now with
      | .error error => (.error (.validationError error), s)
      | .ok rejected => concluded answers s false rejected
    else if hitlStatus = "timed_out" then
      concluded answers s false
        { proposal with metadata := proposal.metadata.set "hitl_timeout" (.bool true) }
    else (.ok false, s)
  | _ => (.ok false, s)

def processApprovalDecision (answers : ProcessAnswers) (s : State)
    (requestId proposalId : String) : Except Failure Bool × State :=
  match checkApprovalStatus answers.ask s requestId with
  | .error failure => (.error failure, s)
  | .ok none => (.ok false, s)
  | .ok (some []) => (.ok false, s)
  | .ok (some (member :: members)) =>
    match Storage.getAmendment answers.read s.storage answers.tenantId proposalId with
    | .error failure => (.error failure, s)
    | .ok none => (.ok false, s)
    | .ok (some proposal) => applyStatus answers s (member :: members) proposal

/-! ## What a call does to the storage -/

variable {s : State} {proposal : Amendment} {integration : Integration} {answers : CreateAnswers}

theorem concluded_storage {answers : ProcessAnswers} {result : Bool}
    (h : ¬Storage.Inserts answers.write s.storage proposal) :
    (concluded answers s result proposal).2 = s := by
  have hsave : (Storage.saveAmendment answers.write s.storage answers.tenantId proposal).2 =
      s.storage := Storage.saveAmendment_of_not_inserts h
  rw [concluded]
  generalize Storage.saveAmendment answers.write s.storage answers.tenantId proposal = saved
    at hsave ⊢
  obtain ⟨outcome, storage⟩ := saved
  obtain rfl : storage = s.storage := hsave
  rcases outcome with failure | written
  · rfl
  · rfl

theorem applyStatus_storage {answers : ProcessAnswers} {members : List (String × Json)}
    (h : ∀ a : Amendment, a.proposalId = proposal.proposalId → ¬Storage.Inserts answers.write s.storage a)
    : (applyStatus answers s members proposal).2 = s := by
  unfold applyStatus
  split
  · rename_i hitlStatus _
    dsimp only
    split
    · split
      · rfl
      · rename_i approved happrove
        obtain ⟨-, rfl⟩ := Amendment.transition_ok.mp happrove
        exact concluded_storage (h _ rfl)
    · split
      · split
        · rfl
        · rename_i rejected hreject
          obtain ⟨-, rfl⟩ := Amendment.transition_ok.mp hreject
          exact concluded_storage (h _ rfl)
      · split
        · exact concluded_storage (h _ rfl)
        · rfl
  · rfl

/-- **A decision is never stored**: the amendment that it is for has been read from a row, and
saving it does not replace the row. -/
theorem processApprovalDecision_storage (answers : ProcessAnswers) (s : State)
    (requestId proposalId : String) :
    (processApprovalDecision answers s requestId proposalId).2 = s := by
  unfold processApprovalDecision
  split
  · rfl
  · rfl
  · rfl
  · split
    · rfl
    · rfl
    · rename_i proposal hread
      exact applyStatus_storage fun a hid => Storage.not_inserts_of_getAmendment hread hid

/-- The call stores the amendment: it is proposed, the request is made, and there is no row yet. -/
def Stores (s : State) (answers : CreateAnswers) (proposal : Amendment) : Prop :=
  proposal.status = .proposed ∧ proposal.impactScore ≠ none ∧
    (∃ requestId, requestIdOf answers.reply = .ok requestId) ∧
      Storage.Inserts answers.session s.storage proposal

def NotificationEscapes (integration : Integration) (answers : CreateAnswers)
    (proposal : Amendment) : Prop :=
  integration.enableNotifications = true ∧
    ∃ channel ∈ (determineApprovalChain proposal).notificationChannels,
      ∃ url, integration.target channel = some url ∧ answers.post url = .uncaught

theorem sendToChannel_error_iff {post : String → Posted} {channel : NotificationChannel} :
    (∃ failure, integration.sendToChannel post channel = .error failure) ↔
      ∃ url, integration.target channel = some url ∧ post url = .uncaught := by
  rw [Integration.sendToChannel]
  rcases integration.target channel with _ | url
  · simp
  · cases hpost : post url <;> simp [hpost]

theorem sendNotifications_error_iff {post : String → Posted} {channels : List NotificationChannel} :
    (∃ failure, integration.sendNotifications post channels = .error failure) ↔
      ∃ channel ∈ channels, ∃ url, integration.target channel = some url ∧
        post url = .uncaught := by
  induction channels with
  | nil => simp [Integration.sendNotifications]
  | cons channel channels ih =>
    rw [List.exists_mem_cons_iff, ← sendToChannel_error_iff, ← ih, Integration.sendNotifications]
    rcases integration.sendToChannel post channel with failure | success
    · simp
    · rcases integration.sendNotifications post channels with failure | results
      · simp
      · simp

theorem notified_error_iff {request : HITLApprovalRequest}
    (hchain : request.chainConfig = determineApprovalChain proposal) :
    (∃ failure, integration.notified answers request = .error failure) ↔
      NotificationEscapes integration answers proposal := by
  rw [NotificationEscapes, ← sendNotifications_error_iff, ← hchain, Integration.notified]
  rcases integration.enableNotifications with _ | _
  · simp
  · rw [if_pos rfl]
    cases integration.sendNotifications answers.post request.chainConfig.notificationChannels with
    | error failure => simp
    | ok results => simp

@[simp] theorem record_storage (s : State) (recordedAs : Option String)
    (payload : RequestPayload) : (s.record recordedAs payload).storage = s.storage := by
  cases recordedAs <;> rfl

theorem submitForReview_of_proposed (h : proposal.status = .proposed) :
    proposal.submitForReview = .ok { proposal with status := .underReview } :=
  Amendment.transition_ok.mpr ⟨List.mem_singleton.mpr h, rfl⟩

theorem createApprovalRequest_of_stores {approvalUrlBase : Option String}
    (h : Stores s answers proposal) :
    ((createApprovalRequest integration answers s proposal approvalUrlBase).2.storage =
        s.storage.insert answers.tenantId { proposal with status := .underReview }) ∧
      ((∃ failure, (createApprovalRequest integration answers s proposal approvalUrlBase).1 =
          .error failure) ↔ NotificationEscapes integration answers proposal) := by
  obtain ⟨hproposed, hscore, ⟨requestId, hreply⟩, hinserts⟩ := h
  have hsave : Storage.saveAmendment answers.session s.storage answers.tenantId
      { proposal with status := .underReview } =
        (.ok true, s.storage.insert answers.tenantId { proposal with status := .underReview }) :=
    Storage.saveAmendment_of_inserts hinserts
  simp only [createApprovalRequest, hproposed, hscore, hreply, record_storage, hsave,
    submitForReview_of_proposed hproposed, ne_eq, not_true_eq_false, false_and, if_false,
    if_true]
  exact ⟨trivial, notified_error_iff rfl⟩

theorem createApprovalRequest_of_not_stores {approvalUrlBase : Option String}
    (h : ¬Stores s answers proposal) :
    (createApprovalRequest integration answers s proposal approvalUrlBase).2.storage =
      s.storage := by
  unfold createApprovalRequest
  split
  · rfl
  · split
    · rfl
    · rename_i hscore
      dsimp only
      rcases hreply : requestIdOf answers.reply with failure | requestId
      · exact record_storage ..
      · dsimp only
        split
        · rename_i hproposed
          rw [submitForReview_of_proposed hproposed]
          dsimp only
          have hsave : (Storage.saveAmendment answers.session s.storage answers.tenantId
              { proposal with status := .underReview }).2 = s.storage :=
            Storage.saveAmendment_of_not_inserts fun hinserts =>
              h ⟨hproposed, hscore, ⟨requestId, hreply⟩, hinserts⟩
          rw [record_storage]
          generalize Storage.saveAmendment answers.session s.storage answers.tenantId
            { proposal with status := .underReview } = saved at hsave ⊢
          obtain ⟨outcome, storage⟩ := saved
          rcases outcome with failure | written
          · exact hsave
          · exact hsave
        · exact record_storage ..

theorem statusOf_insert (storage : Storage) (tenantId : String) (a : Amendment)
    (proposalId : String) :
    (storage.insert tenantId a).statusOf proposalId =
      if proposalId = a.proposalId then some a.status else storage.statusOf proposalId := by
  rw [Storage.statusOf, Storage.insert, Dict.get_set]
  split <;> rfl

/-! ## Runs -/

/-- The calls of the integration, and the decisions that the service takes in between. -/
inductive Event where
  | createApprovalRequest (answers : CreateAnswers) (proposal : Amendment)
      (approvalUrlBase : Option String)
  | processApprovalDecision (answers : ProcessAnswers) (requestId proposalId : String)
  | decided (requestId : String) (statusData : Json)

def outcome (integration : Integration) (s : State) : Event → Except Failure Bool
  | .createApprovalRequest answers proposal base =>
    (createApprovalRequest integration answers s proposal base).1.map fun _ => true
  | .processApprovalDecision answers requestId proposalId =>
    (processApprovalDecision answers s requestId proposalId).1
  | .decided _ _ => .ok true

def step (integration : Integration) (s : State) : Event → State
  | .createApprovalRequest answers proposal base =>
    (createApprovalRequest integration answers s proposal base).2
  | .processApprovalDecision answers requestId proposalId =>
    (processApprovalDecision answers s requestId proposalId).2
  | .decided requestId statusData =>
    match s.service.get requestId with
    | none => s
    | some request =>
      { s with service := s.service.set requestId { request with statusData := statusData } }

def HasStatus (s : State) (requestId status : String) : Prop :=
  ∃ request members, s.service.get requestId = some request ∧
    request.statusData = .obj members ∧ Json.lookup "status" members = some (.str status)

/-- The request was created for the amendment, and somebody else than its proposer has given it this
status: `decidedBy` is the member of the status data that says who. -/
def DecidedFor (s : State) (requestId proposalId status decidedBy : String) : Prop :=
  ∃ request members row, s.service.get requestId = some request ∧
    request.statusData = .obj members ∧ Json.lookup "status" members = some (.str status) ∧
      request.payload.decisionId = proposalId ∧ s.storage.rows.get proposalId = some row ∧
        (Json.lookup decidedBy members).getD (.str "hitl_system") ≠
          .str row.amendment.proposerAgentId

/-- The stored status of an amendment becomes `status`. -/
def Becomes (integration : Integration) (s : State) (e : Event) (proposalId : String)
    (status : AmendmentStatus) : Prop :=
  s.storage.statusOf proposalId ≠ some status ∧
    (step integration s e).storage.statusOf proposalId = some status

def DeclinesWithoutRejection (integration : Integration) (s : State) (e : Event) : Prop :=
  outcome integration s e = .ok false ∧
    ∀ answers requestId proposalId, e = .processApprovalDecision answers requestId proposalId →
      ¬HasStatus s requestId "rejected"

/-- A human approval counts only for the amendment it was given for, and a call that fails changes
no stored status. -/
structure ApprovalCounts (integration : Integration) (s : State) (e : Event) : Prop where
  approved : ∀ answers requestId proposalId,
    e = .processApprovalDecision answers requestId proposalId →
      ∀ amended, Becomes integration s e amended .approved →
        DecidedFor s requestId amended "approved" "approved_by"
  rejected : ∀ answers requestId proposalId,
    e = .processApprovalDecision answers requestId proposalId →
      ∀ amended, Becomes integration s e amended .rejected →
        DecidedFor s requestId amended "rejected" "rejected_by"
  unchanged :
    (∃ failure, outcome integration s e = .error failure) ∨
        DeclinesWithoutRejection integration s e →
      ∀ proposalId, (step integration s e).storage.statusOf proposalId =
        s.storage.statusOf proposalId

/-- A call that stores an amendment is not left by an exception of its notifications. -/
def NotificationsContained (integration : Integration) (s : State) : Event → Prop
  | .createApprovalRequest answers proposal _ =>
    Stores s answers proposal → ¬NotificationEscapes integration answers proposal
  | _ => True

theorem ApprovalCounts.of_storage {e : Event} (h : (step integration s e).storage = s.storage) :
    ApprovalCounts integration s e where
  approved := fun _ _ _ _ _ hbecomes => absurd (h ▸ hbecomes.2) hbecomes.1
  rejected := fun _ _ _ _ _ hbecomes => absurd (h ▸ hbecomes.2) hbecomes.1
  unchanged := fun _ proposalId => congrArg (Storage.statusOf · proposalId) h

theorem create_raises_iff {base : Option String} :
    (∃ failure, outcome integration s (.createApprovalRequest answers proposal base) =
        .error failure) ↔
      ∃ failure, (createApprovalRequest integration answers s proposal base).1 =
        .error failure := by
  rw [outcome]
  cases (createApprovalRequest integration answers s proposal base).1 <;> simp [Except.map]

theorem approvalCounts_of_stores {base : Option String} (h : Stores s answers proposal) :
    ApprovalCounts integration s (.createApprovalRequest answers proposal base) ↔
      ¬NotificationEscapes integration answers proposal := by
  have hstores : ((createApprovalRequest integration answers s proposal base).2.storage =
      s.storage.insert answers.tenantId { proposal with status := .underReview }) ∧
        ((∃ failure, (createApprovalRequest integration answers s proposal base).1 =
          .error failure) ↔ NotificationEscapes integration answers proposal) :=
    createApprovalRequest_of_stores h
  obtain ⟨hstorage, hraises⟩ := hstores
  constructor
  · intro hcounts hescapes
    have hkept := hcounts.unchanged (.inl (create_raises_iff.mpr (hraises.mpr hescapes)))
      proposal.proposalId
    have hnone : s.storage.statusOf proposal.proposalId = none := by
      rw [Storage.statusOf, h.2.2.2.2.2]
      rfl
    rw [step, hstorage, statusOf_insert, if_pos rfl, hnone] at hkept
    cases hkept
  · intro hcontained
    refine ⟨fun _ _ _ heq => (nomatch heq), fun _ _ _ heq => (nomatch heq), ?_⟩
    rintro (hfails | ⟨hdeclines, -⟩)
    · exact absurd (hraises.mp (create_raises_iff.mp hfails)) hcontained
    · rw [outcome] at hdeclines
      cases hresult : (createApprovalRequest integration answers s proposal base).1 with
      | error failure => simp [hresult, Except.map] at hdeclines
      | ok request => simp [hresult, Except.map] at hdeclines

theorem approvalCounts_iff {e : Event} :
    ApprovalCounts integration s e ↔ NotificationsContained integration s e := by
  cases e with
  | createApprovalRequest answers proposal base =>
    by_cases hstores : Stores s answers proposal
    · rw [approvalCounts_of_stores hstores, NotificationsContained]
      exact ⟨fun h _ => h, fun h => h hstores⟩
    · exact iff_of_true
        (.of_storage (createApprovalRequest_of_not_stores hstores)) fun h => absurd h hstores
  | processApprovalDecision answers requestId proposalId =>
    exact iff_of_true (.of_storage (congrArg State.storage
      (processApprovalDecision_storage answers s requestId proposalId))) trivial
  | decided requestId statusData =>
    refine iff_of_true (.of_storage ?_) trivial
    rw [step]
    split <;> rfl

/-- **Human approvals**: they count only for their amendment along a run, and the calls that fail
change nothing, exactly when no call that stores an amendment is left by an exception of its
notifications. -/
theorem human_approvals_count_iff (integration : Integration) (s : State) (es : List Event) :
    Machine.Along (step integration) (ApprovalCounts integration) s es ↔
      Machine.Along (step integration) (NotificationsContained integration) s es :=
  Machine.along_iff (fun _ => True) trivial (fun _ _ _ => approvalCounts_iff)
    fun _ _ _ _ => trivial

def emptyState : State where
  storage := { engine := true, rows := Dict.empty, keyed := by simp }
  service := Dict.empty

/-- The port is no number, for which the HTTP client raises `InvalidURL`. -/
def malformedUrl : String := "https://hooks.slack.com:port/services"

def malformedWebhook : Integration := { slackWebhook := some malformedUrl }

def widerReview : Amendment where
  proposalId := "p1"
  proposedChanges := Dict.empty.set "review" (.str "two reviewers")
  justification := "Reviews need a second pair of eyes"
  proposerAgentId := "proposer"
  targetVersion := "1.0.0"
  impactScore := some (1 / 2)

def servedAnswers : CreateAnswers where
  tenantId := "system"
  recordedAs := some "r1"
  reply := .ok (.obj [("request_id", .str "r1")])
  session := .served
  post := fun url => if url = malformedUrl then .uncaught else .delivered

/-- The exception of the notification leaves the call, and the amendment is stored. -/
theorem notification_after_storing :
    ¬Machine.Along (step malformedWebhook) (ApprovalCounts malformedWebhook) emptyState
      [.createApprovalRequest servedAnswers widerReview none] := by
  rintro ⟨hcounts, -⟩
  have hstores : Stores emptyState servedAnswers widerReview :=
    ⟨rfl, by simp [widerReview], ⟨"r1", rfl⟩, rfl, rfl, rfl⟩
  exact (approvalCounts_of_stores hstores).mp hcounts
    ⟨rfl, .slack, slack_mem_channels widerReview, malformedUrl, rfl, rfl⟩

end EnhancedAgentBus.Constitutional.HitlIntegration
