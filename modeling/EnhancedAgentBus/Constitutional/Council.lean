import EnhancedAgentBus.Constitutional.ProposalEngine
import EnhancedAgentBus.Deliberation.Deadline
import EnhancedAgentBus.Lib.Machine
import Mathlib.Data.Rat.Floor

/-!
# The constitutional council

A proposal is put to an election among the council members, who vote by signed messages.  The
election is held by the rules of the voting service: a vote replaces the agent's earlier one, and an
election that is resolved is closed (`castVoteIn`, which `castVote_ruled` ties to the code of
`VotingService.cast_vote`).  The council calls that method with the fields of the vote as keywords;
here it hands over the vote.

`min_quorum` reaches the election only through an adaptive quorum, which is off: an election is
approved by the number of approvals that the strategy of the voting service asks for
(`approvalsNeeded`).  And the signed text names the election, the member and the decision, but no
order, so an old message is as good as the last one.  `ratification_safe` asks for a quorum that the
strategy covers, and for messages that their members have not replaced.

### What is load-bearing

Signatures are unforgeable: a signature verifies under the key of a member only if the member has
signed the text (`Unforged`).  What the members have signed is the ghost `signed`, latest first.
-/

namespace EnhancedAgentBus.Deliberation

open Async Async.Prog

/-! ## The rules of the voting service -/

/-- A recorded vote, and the election closed if it is resolved then. -/
def ElectionData.receive (defaultStrategy : VotingStrategy) (data : ElectionData) (vote : Vote) :
    ElectionData :=
  let voted := data.storeVote vote
  match voted.resolution defaultStrategy with
  | (true, decision) => VotingService.close decision voted
  | (false, _) => voted

@[simp] theorem ElectionData.receive_votes (defaultStrategy : VotingStrategy)
    (data : ElectionData) (vote : Vote) :
    (data.receive defaultStrategy vote).votes = (data.storeVote vote).votes := by
  rw [receive]
  split <;> rfl

theorem ElectionData.resolution_of_receive {defaultStrategy : VotingStrategy} {data : ElectionData}
    {vote : Vote} (hopen : data.status = .open)
    (hclosed : (data.receive defaultStrategy vote).status = .closed)
    (hresult : (data.receive defaultStrategy vote).result = some "APPROVE") :
    (data.storeVote vote).resolution defaultStrategy = (true, "APPROVE") := by
  rw [receive] at hclosed hresult
  split at hclosed
  · rename_i decision hresolution
    rw [hresolution] at hresult ⊢
    exact congrArg (Prod.mk true) (Option.some.inj hresult)
  · rw [show (data.storeVote vote).status = data.status from rfl, hopen] at hclosed
    cases hclosed

/-- `VotingService.cast_vote` on the elections of the service. -/
def castVoteIn (defaultStrategy : VotingStrategy) (elections : String → Option ElectionData)
    (electionId : String) (vote : Vote) : Bool × (String → Option ElectionData) :=
  match elections electionId with
  | none => (false, elections)
  | some data =>
    if data.status = .open ∧ vote.agentId ∈ data.participants then
      (true, Function.update elections electionId (some (data.receive defaultStrategy vote)))
    else (false, elections)

/-- **The rules are those of the code**, for an election in memory or none: every call that ends
returns what they say, and leaves the elections as they say. -/
theorem castVote_ruled {S : VotingService} (hmemory : S.electionStore = false) (electionId : String)
    (vote : Vote) (t : Time) (s : Stores) :
    Safe (StepAt t) (fun _ _ => True) (S.castVote electionId vote) s
      (fun r s' => (r, s'.memory S.process) =
        castVoteIn S.defaultStrategy (s.memory S.process) electionId vote)
      fun _ _ => False := by
  rw [castVoteIn]
  rcases hdata : s.memory S.process electionId with _ | data
  -- without an election nothing is asked of the vote
  · simp only [VotingService.castVote, VotingService.validateVoteEligibility, safe_bind]
    refine getElectionData_inMemory hmemory trivial ?_
    rw [hdata]
    rfl
  · refine (castVote_inMemory hmemory hdata).mono (fun r s' h => ?_) fun _ _ => id
    obtain ⟨rfl, hholds⟩ := h
    rw [hholds, ElectionData.cast]
    dsimp only
    split
    · rw [ElectionData.receive]
      rcases (data.storeVote vote).resolution S.defaultStrategy with ⟨_ | _, _⟩ <;> rfl
    · rw [← hdata, Function.update_eq_self]

theorem castVote_ruled_oneVoter :
    Safe (StepAt 9) (fun _ _ => True) (memoryService.castVote "e1" ⟨"ann", "APPROVE", none, 9⟩)
      oneVoter (fun r s' => (r, s'.memory 0) =
        castVoteIn .quorum (oneVoter.memory 0) "e1" ⟨"ann", "APPROVE", none, 9⟩)
      fun _ _ => False :=
  castVote_ruled rfl "e1" _ 9 oneVoter

end EnhancedAgentBus.Deliberation

namespace EnhancedAgentBus.Constitutional

open Deliberation (VotingStrategy ElectionData Vote newElection castVoteIn)

/-! ## The council -/

/-- What checking a signature ends with: an exception that `SIGNATURE_VERIFICATION_ERRORS` lists
makes it invalid, another one leaves the call. -/
inductive Verified where
  | valid
  | invalid
  | raises
  deriving DecidableEq

/-- The cryptography.  `changesDigest` is the SHA-256 of the canonical text of proposed changes. -/
structure Crypto where
  verifySignature : (keyType payload signature publicKey : String) → Verified
  changesDigest : Dict String Json → String

/-- `ConstitutionalCouncilService`, with adaptive quorum and danger signals off, and the default
strategy of its voting service. -/
structure Council where
  councilMembers : Dict String String
  councilPqcKeys : Dict String String := Dict.empty
  minQuorum : ℚ := 66 / 100
  defaultStrategy : VotingStrategy := .quorum

structure CouncilState where
  elections : String → Option ElectionData := fun _ => none
  activeElections : Dict String String := Dict.empty
  /-- what the members have signed, latest first -/
  signed : List (String × String) := []

inductive CouncilFailure where
  | permissionError (message : String)
  | proposal (failure : ProposalFailure)
  /-- an exception of the cryptography -/
  | raised

def votePayload (electionId memberId decision : String) : String :=
  electionId ++ ":" ++ memberId ++ ":" ++ decision ++ ":" ++ constitutionalHash

namespace Council

variable (council : Council) (crypto : Crypto)

def proposerPayload (request : ProposalRequest) : String :=
  request.proposerAgentId ++ ":" ++ crypto.changesDigest request.proposedChanges ++ ":" ++
    request.justification ++ ":" ++ constitutionalHash

/-- The election of a proposal: three days, and every member weighs one. -/
def election (now : Time) : ElectionData :=
  newElection council.defaultStrategy council.councilMembers.keys
    (council.councilMembers.keys.foldl (fun weights member => weights.set member 1) Dict.empty)
    none (now + 86400 * 3 * 1000000)

/-- `submit_proposal`.  `created` is what `create_proposal` ends with, the id of the proposal; the
id of the election is drawn by `uuid4`. -/
def submitProposal (s : CouncilState) (request : ProposalRequest) (proposerSignature : String)
    (created : Except ProposalFailure String) (electionId : String) (now : Time) :
    Except CouncilFailure String × CouncilState :=
  match council.councilMembers.get request.proposerAgentId with
  | none =>
    (.error (.permissionError
      ("No proposer public key registered for " ++ request.proposerAgentId)), s)
  | some publicKey =>
    match crypto.verifySignature "Ed25519" (proposerPayload crypto request) proposerSignature
        publicKey with
    | .raises => (.error .raised, s)
    | .invalid => (.error (.permissionError "Invalid proposer signature"), s)
    | .valid =>
      match created with
      | .error failure => (.error (.proposal failure), s)
      | .ok proposalId =>
        (.ok electionId,
          { s with
            elections := Function.update s.elections electionId
              (some (council.election now))
            activeElections := s.activeElections.set proposalId electionId })

def publicKey (memberId keyType : String) : Option String :=
  if keyType = "ML-DSA-65" then council.councilPqcKeys.get memberId
  else council.councilMembers.get memberId

/-- The checks of `cast_vote`. -/
def authentic (electionId memberId decision signature keyType : String) : Verified :=
  if memberId ∈ council.councilMembers.keys then
    match council.publicKey memberId keyType with
    | none => .invalid
    | some publicKey =>
      crypto.verifySignature keyType (votePayload electionId memberId decision) signature
        publicKey
  else .invalid

/-- `cast_vote`, as far as the vote is accepted. -/
def castVote (s : CouncilState) (electionId memberId decision signature : String)
    (reason : Option String) (keyType : String) (now : Time) :
    Except CouncilFailure Bool × CouncilState :=
  match council.authentic crypto electionId memberId decision signature keyType with
  | .raises => (.error .raised, s)
  | .invalid => (.ok false, s)
  | .valid =>
    let (success, elections) := castVoteIn council.defaultStrategy s.elections electionId
      ⟨memberId, decision, reason, now⟩
    (.ok success, { s with elections := elections })

/-! ## Runs -/

/-- The calls of anyone, and what the members sign in between. -/
inductive Event where
  | submitProposal (request : ProposalRequest) (proposerSignature : String)
      (created : Except ProposalFailure String) (electionId : String) (now : Time)
  | castVote (electionId memberId decision signature : String) (reason : Option String)
      (keyType : String) (now : Time)
  | sign (memberId payload : String)

/-- One event.  `uuid4` draws no id that is in use. -/
def step (s : CouncilState) : Event → CouncilState
  | .submitProposal request signature created electionId now =>
    if (s.elections electionId).isSome then s
    else (council.submitProposal crypto s request signature created electionId now).2
  | .castVote electionId memberId decision signature reason keyType now =>
    (council.castVote crypto s electionId memberId decision signature reason keyType now).2
  | .sign memberId payload => { s with signed := (memberId, payload) :: s.signed }

/-- The member has signed an APPROVE for the election, and no DENY since. -/
def StandingApproval (s : CouncilState) (electionId memberId : String) : Prop :=
  ∃ later earlier,
    s.signed = later ++ (memberId, votePayload electionId memberId "APPROVE") :: earlier ∧
      (memberId, votePayload electionId memberId "DENY") ∉ later

def LastSigned (s : CouncilState) (electionId memberId decision : String) : Prop :=
  ∃ later earlier,
    s.signed = later ++ (memberId, votePayload electionId memberId decision) :: earlier ∧
      ∀ decision', (memberId, votePayload electionId memberId decision') ∉ later

def recorded (s : CouncilState) (electionId memberId : String) : Option String :=
  (s.elections electionId).bind fun data => (data.votes.get memberId).map (·.decision)

def Approved (s : CouncilState) (electionId : String) : Prop :=
  ∃ data, s.elections electionId = some data ∧ data.status = .closed ∧
    data.result = some "APPROVE"

instance (s : CouncilState) (electionId : String) : Decidable (Approved s electionId) :=
  decidable_of_iff (((s.elections electionId).any fun data =>
    data.status = .closed ∧ data.result = some "APPROVE") = true) (by
      rw [Approved, Option.any_eq_true]
      simp)

/-- **Ratification is safe** at an event: an election that it resolves to approval has the quorum of
standing approvals, and it takes no recorded vote away from the last decision of its member. -/
structure RatificationSafe (s : CouncilState) (e : Event) : Prop where
  quorum : ∀ electionId, ¬Approved s electionId → Approved (step council crypto s e) electionId →
    ∃ approvers : List String, approvers.Nodup ∧
      (∀ member ∈ approvers, member ∈ council.councilMembers.keys ∧
        StandingApproval (step council crypto s e) electionId member) ∧
      ⌈council.minQuorum * council.councilMembers.keys.length⌉ ≤ approvers.length
  replay : ∀ electionId member decision, LastSigned s electionId member decision →
    recorded s electionId member = some decision →
      recorded (step council crypto s e) electionId member = some decision

/-- The member has signed a DENY for the election, and no APPROVE since. -/
def Withdrawn (s : CouncilState) (electionId memberId : String) : Prop :=
  ∃ later earlier,
    s.signed = later ++ (memberId, votePayload electionId memberId "DENY") :: earlier ∧
      (memberId, votePayload electionId memberId "APPROVE") ∉ later

def Unforged (s : CouncilState) : Event → Prop
  | .castVote electionId memberId decision signature _ keyType _ =>
    council.authentic crypto electionId memberId decision signature keyType = .valid →
      (memberId, votePayload electionId memberId decision) ∈ s.signed
  | _ => True

/-- What is asked of an authentic message for an open election: it is not older than the decision
that is recorded, and where it resolves the election to approval, nobody has withdrawn an approval
that counts. -/
def Timely (s : CouncilState) : Event → Prop
  | .castVote electionId memberId decision signature reason keyType now =>
    council.authentic crypto electionId memberId decision signature keyType = .valid →
      ∀ data, s.elections electionId = some data → data.status = .open →
        (∀ last, LastSigned s electionId memberId last →
          recorded s electionId memberId = some last → decision = last) ∧
        ((data.storeVote ⟨memberId, decision, reason, now⟩).resolution council.defaultStrategy =
            (true, "APPROVE") →
          ∀ member vote,
            (data.storeVote ⟨memberId, decision, reason, now⟩).votes.get member = some vote →
              vote.decision = "APPROVE" → ¬Withdrawn s electionId member)
  | _ => True

/-- The approvals that resolve an election of `n` members of weight one. -/
def approvalsNeeded : VotingStrategy → ℕ → ℕ
  | .quorum, n => n / 2 + 1
  | .unanimous, n => n
  | .superMajority, n => (2 * n + 2) / 3

/-! ## Counting approvals -/

theorem denied_ne {p : Prop} [Decidable p] :
    (if p then (true, "DENY") else (false, "DENY")) ≠ (true, "APPROVE") := by
  split <;> decide

theorem approvalsNeeded_le {strategy : VotingStrategy} {approvals n : ℕ} {denials : ℚ}
    (h : Deliberation.evaluateStrategyResolution strategy (approvals, denials, n) none =
      (true, "APPROVE")) : approvalsNeeded strategy n ≤ approvals := by
  cases strategy with
  | quorum =>
    have hmajority : (n : ℚ) / 2 < approvals := by
      by_contra hnot
      rw [Deliberation.evaluateStrategyResolution, Deliberation.checkQuorumResolution,
        if_neg fun hmet => hnot hmet.1, if_neg fun hmet => hmet.1 rfl,
        if_neg fun hmet => hmet.1 rfl] at h
      exact denied_ne h
    have hdouble : (n : ℚ) < 2 * approvals := by linarith
    have hnat : n < 2 * approvals := by exact_mod_cast hdouble
    rw [approvalsNeeded]
    omega
  | unanimous =>
    have hall : (n : ℚ) ≤ approvals := by
      by_contra hnot
      rw [Deliberation.evaluateStrategyResolution, Deliberation.checkUnanimousResolution,
        if_neg hnot] at h
      exact denied_ne h
    exact_mod_cast hall
  | superMajority =>
    have htwoThirds : (n : ℚ) * 2 / 3 ≤ approvals := by
      by_contra hnot
      rw [Deliberation.evaluateStrategyResolution, Deliberation.checkSuperMajorityResolution,
        if_neg hnot] at h
      exact denied_ne h
    have htriple : (2 * n : ℚ) ≤ 3 * approvals := by linarith
    have hnat : 2 * n ≤ 3 * approvals := by exact_mod_cast htriple
    rw [approvalsNeeded]
    omega

/-- An election of the council: every member weighs one, and the recorded votes are signed. -/
structure Held (s : CouncilState) (electionId : String) (data : ElectionData) : Prop where
  participants : data.participants = council.councilMembers.keys
  strategy : data.votingStrategy council.defaultStrategy = council.defaultStrategy
  required : data.requiredApprovalWeight = none
  weight : ∀ pid ∈ data.participants, data.weightOf pid = 1
  votes : ∀ member vote, data.votes.get member = some vote → vote.agentId = member ∧
    member ∈ data.participants ∧ (member, votePayload electionId member vote.decision) ∈ s.signed

section Held

variable {council : Council} {s : CouncilState} {electionId : String} {data : ElectionData}

theorem mem_agentsFor {decision pid : String} :
    pid ∈ data.agentsFor decision ↔
      ∃ vote, data.votes.get pid = some vote ∧ vote.decision = decision := by
  rw [ElectionData.agentsFor, List.mem_map]
  constructor
  · rintro ⟨⟨pid', vote⟩, hentry, rfl⟩
    obtain ⟨hmem, hdecision⟩ := List.mem_filter.mp hentry
    exact ⟨vote, Dict.get_eq_some_iff.mpr hmem, of_decide_eq_true hdecision⟩
  · rintro ⟨vote, hget, hdecision⟩
    exact ⟨(pid, vote), List.mem_filter.mpr ⟨Dict.get_eq_some_iff.mp hget,
      decide_eq_true hdecision⟩, rfl⟩

namespace Held

theorem ballot (h : Held council s electionId data) : data.Ballot where
  weights := fun pid hpid => by rw [h.weight pid hpid]; exact zero_le_one
  agents := fun entry hentry =>
    (h.votes entry.1 entry.2 (Dict.get_eq_some_iff.mpr hentry)).1.symm
  eligible := fun pid hpid => by
    obtain ⟨vote, hvote⟩ := Dict.mem_keys_iff.mp hpid
    exact (h.votes pid vote hvote).2.1

theorem sum_weights (h : Held council s electionId data) {pids : List String}
    (hpids : ∀ pid ∈ pids, pid ∈ data.participants) :
    (pids.map data.weightOf).sum = pids.length := by
  rw [List.map_congr_left fun pid hpid => h.weight pid (hpids pid hpid)]
  simp

theorem decisionWeight (h : Held council s electionId data) (decision : String) :
    data.decisionWeight decision = (data.agentsFor decision).length := by
  rw [h.ballot.decisionWeight_eq]
  refine h.sum_weights fun pid hpid => ?_
  obtain ⟨vote, hvote, -⟩ := mem_agentsFor.mp hpid
  exact (h.votes pid vote hvote).2.1

/-- **Approval** takes as many members as the strategy needs. -/
theorem approvalsNeeded_le_length (h : Held council s electionId data)
    (happroves : data.resolution council.defaultStrategy = (true, "APPROVE")) :
    approvalsNeeded council.defaultStrategy council.councilMembers.keys.length ≤
      (data.agentsFor "APPROVE").length := by
  rw [ElectionData.resolution, ElectionData.calculateVoteWeights, h.strategy, h.required,
    h.decisionWeight "APPROVE", ElectionData.totalWeight, h.sum_weights fun _ => id,
    h.participants] at happroves
  exact approvalsNeeded_le happroves

theorem mono (h : Held council s electionId data) {s' : CouncilState}
    (hsigned : ∀ entry ∈ s.signed, entry ∈ s'.signed) : Held council s' electionId data :=
  { h with
    votes := fun member vote hvote =>
      have hbefore := h.votes member vote hvote
      ⟨hbefore.1, hbefore.2.1, hsigned _ hbefore.2.2⟩ }

theorem storeVote (h : Held council s electionId data) {vote : Vote}
    (hmember : vote.agentId ∈ data.participants)
    (hsigned : (vote.agentId, votePayload electionId vote.agentId vote.decision) ∈ s.signed) :
    Held council s electionId (data.storeVote vote) :=
  { h with
    votes := by
      intro member vote' hvote
      rcases Dict.get_set_cases hvote with ⟨rfl, rfl⟩ | ⟨-, hvote⟩
      · exact ⟨rfl, hmember, hsigned⟩
      · exact h.votes member vote' hvote }

theorem receive (h : Held council s electionId data) {vote : Vote}
    (hmember : vote.agentId ∈ data.participants)
    (hsigned : (vote.agentId, votePayload electionId vote.agentId vote.decision) ∈ s.signed) :
    Held council s electionId (data.receive council.defaultStrategy vote) := by
  have hstored := h.storeVote hmember hsigned
  rw [ElectionData.receive]
  split
  · exact { hstored with }
  · exact hstored

end Held

theorem held_election (council : Council) (s : CouncilState) (electionId : String) (now : Time) :
    Held council s electionId (council.election now) where
  participants := rfl
  strategy := by
    rw [ElectionData.votingStrategy, election, newElection, VotingStrategy.ofValue_value]
    rfl
  required := rfl
  weight := by
    have hones (members : List String) (weights : Dict String ℚ)
        (hweights : ∀ pid, (weights.get pid).getD 1 = 1) (pid : String) :
        ((members.foldl (fun weights member => weights.set member 1) weights).get pid).getD 1 =
          1 := by
      induction members generalizing weights with
      | nil => exact hweights pid
      | cons member members ih =>
        refine ih _ fun pid' => ?_
        rw [Dict.get_set]
        split
        · rfl
        · exact hweights pid'
    intro pid hpid
    exact (Deliberation.weightOf_newElection hpid).trans (hones _ _ (fun _ => rfl) pid)
  votes := fun _ _ hvote => by cases hvote

end Held

/-! ## One event -/

section Step

variable {council : Council} {crypto : Crypto} {s : CouncilState}

theorem castVote_cases {electionId memberId decision signature : String} {reason : Option String}
    {keyType : String} {now : Time} :
    (council.castVote crypto s electionId memberId decision signature reason keyType now).2 = s ∨
      council.authentic crypto electionId memberId decision signature keyType = .valid ∧
        ∃ data, s.elections electionId = some data ∧ data.status = .open ∧
          memberId ∈ data.participants ∧
            (council.castVote crypto s electionId memberId decision signature reason keyType now).2 =
              { s with
                elections := Function.update s.elections electionId
                  (some (data.receive council.defaultStrategy
                    ⟨memberId, decision, reason, now⟩)) } := by
  rw [castVote]
  cases hauthentic : council.authentic crypto electionId memberId decision signature keyType with
  | raises => exact .inl rfl
  | invalid => exact .inl rfl
  | valid =>
    dsimp only
    rw [castVoteIn]
    rcases hdata : s.elections electionId with _ | data
    · exact .inl rfl
    · dsimp only
      by_cases heligible : data.status = .open ∧ memberId ∈ data.participants
      · rw [if_pos heligible]
        exact .inr ⟨rfl, data, rfl, heligible.1, heligible.2, rfl⟩
      · rw [if_neg heligible]
        exact .inl rfl

theorem submitProposal_cases {request : ProposalRequest} {signature : String}
    {created : Except ProposalFailure String} {electionId : String} {now : Time} :
    (council.submitProposal crypto s request signature created electionId now).2 = s ∨
      ∃ active, (council.submitProposal crypto s request signature created electionId now).2 =
        { s with
          elections := Function.update s.elections electionId (some (council.election now))
          activeElections := active } := by
  unfold submitProposal
  split
  · exact .inl rfl
  · split
    · exact .inl rfl
    · exact .inl rfl
    · split
      · exact .inl rfl
      · exact .inr ⟨_, rfl⟩

def Sound (council : Council) (s : CouncilState) : Prop :=
  ∀ electionId data, s.elections electionId = some data → Held council s electionId data

theorem Sound.update {s' : CouncilState} {electionId : String} {data : ElectionData}
    (h : Sound council s) (hsigned : s'.signed = s.signed)
    (helections : s'.elections = Function.update s.elections electionId (some data))
    (hdata : Held council s electionId data) : Sound council s' := by
  intro electionId' data' hget
  have hmono : ∀ entry ∈ s.signed, entry ∈ s'.signed := fun entry hentry => hsigned ▸ hentry
  rw [helections] at hget
  by_cases heq : electionId' = electionId
  · subst heq
    rw [Function.update_self] at hget
    cases hget
    exact hdata.mono hmono
  · rw [Function.update_of_ne heq] at hget
    exact (h electionId' data' hget).mono hmono

theorem Sound.step (h : Sound council s) {e : Event} (hunforged : Unforged council crypto s e) :
    Sound council (step council crypto s e) := by
  cases e with
  | submitProposal request signature created electionId now =>
    rw [Council.step]
    split
    · exact h
    · rcases submitProposal_cases with hsame | ⟨active, hnew⟩
      · rw [hsame]
        exact h
      · rw [hnew]
        exact h.update rfl rfl (held_election council s electionId now)
  | castVote electionId memberId decision signature reason keyType now =>
    rw [Council.step]
    rcases castVote_cases with hsame | ⟨hvalid, data, hdata, -, hmember, hreceived⟩
    · rw [hsame]
      exact h
    · rw [hreceived]
      exact h.update rfl rfl ((h electionId data hdata).receive hmember (hunforged hvalid))
  | sign memberId payload =>
    exact fun electionId data hdata =>
      (h electionId data hdata).mono fun _ hentry => List.mem_cons_of_mem _ hentry

theorem last_of_mem {α : Type} {a : α} (b : α) {l : List α} (h : a ∈ l) :
    (∃ later earlier, l = later ++ a :: earlier ∧ b ∉ later) ∨
      ∃ later earlier, l = later ++ b :: earlier ∧ a ∉ later := by
  induction l with
  | nil => cases h
  | cons x l ih =>
    by_cases hxa : x = a
    · subst hxa
      exact .inl ⟨[], l, rfl, List.not_mem_nil⟩
    · by_cases hxb : x = b
      · subst hxb
        exact .inr ⟨[], l, rfl, List.not_mem_nil⟩
      · rcases ih ((List.mem_cons.mp h).resolve_left (Ne.symm hxa)) with
          ⟨later, earlier, rfl, hnot⟩ | ⟨later, earlier, rfl, hnot⟩
        · exact .inl ⟨x :: later, earlier, rfl,
            List.not_mem_cons_of_ne_of_not_mem (Ne.symm hxb) hnot⟩
        · exact .inr ⟨x :: later, earlier, rfl,
            List.not_mem_cons_of_ne_of_not_mem (Ne.symm hxa) hnot⟩

theorem standingApproval_of_signed {electionId member : String}
    (hsigned : (member, votePayload electionId member "APPROVE") ∈ s.signed)
    (hkept : ¬Withdrawn s electionId member) : StandingApproval s electionId member :=
  (last_of_mem (member, votePayload electionId member "DENY") hsigned).resolve_right hkept

theorem RatificationSafe.of_same {e : Event}
    (h : (step council crypto s e).elections = s.elections) :
    RatificationSafe council crypto s e where
  quorum := fun electionId hnot happroved => by
    rw [Approved, h] at happroved
    exact absurd happroved hnot
  replay := fun electionId member decision _ hrecorded => by
    rw [recorded, h]
    exact hrecorded

theorem RatificationSafe.of_new {e : Event} {electionId : String} {data : ElectionData}
    (hopen : data.status = .open) (hnew : s.elections electionId = none)
    (helections : (step council crypto s e).elections =
      Function.update s.elections electionId (some data)) :
    RatificationSafe council crypto s e where
  quorum := by
    rintro electionId' hnot ⟨data', hdata', hclosed, hresult⟩
    rw [helections] at hdata'
    by_cases heq : electionId' = electionId
    · subst heq
      rw [Function.update_self] at hdata'
      cases hdata'
      rw [hopen] at hclosed
      cases hclosed
    · rw [Function.update_of_ne heq] at hdata'
      exact absurd ⟨data', hdata', hclosed, hresult⟩ hnot
  replay := by
    intro electionId' member decision _ hrecorded
    have hne : electionId' ≠ electionId := by
      rintro rfl
      rw [recorded, hnew] at hrecorded
      cases hrecorded
    rw [recorded, helections, Function.update_of_ne hne]
    exact hrecorded

theorem ratificationSafe_received (h : Sound council s)
    (hquorum : ⌈council.minQuorum * council.councilMembers.keys.length⌉ ≤
      (approvalsNeeded council.defaultStrategy council.councilMembers.keys.length : ℤ))
    {electionId memberId decision signature : String} {reason : Option String} {keyType : String}
    {now : Time} {data : ElectionData}
    (hunforged : Unforged council crypto s
      (.castVote electionId memberId decision signature reason keyType now))
    (htimely : Timely council crypto s
      (.castVote electionId memberId decision signature reason keyType now))
    (hvalid : council.authentic crypto electionId memberId decision signature keyType = .valid)
    (hdata : s.elections electionId = some data) (hopen : data.status = .open)
    (hmember : memberId ∈ data.participants)
    (hreceived : (council.castVote crypto s electionId memberId decision signature reason keyType
        now).2 = { s with
          elections := Function.update s.elections electionId
            (some (data.receive council.defaultStrategy ⟨memberId, decision, reason, now⟩)) }) :
    RatificationSafe council crypto s
      (.castVote electionId memberId decision signature reason keyType now) := by
  obtain ⟨hlast, hstanding⟩ := htimely hvalid data hdata hopen
  have hvoted : Held council s electionId (data.storeVote ⟨memberId, decision, reason, now⟩) :=
    (h electionId data hdata).storeVote hmember (hunforged hvalid)
  have hother {electionId' : String} (hne : electionId' ≠ electionId) :
      (step council crypto s (.castVote electionId memberId decision signature reason keyType
        now)).elections electionId' = s.elections electionId' := by
    rw [Council.step, hreceived]
    exact Function.update_of_ne hne ..
  have hself : (step council crypto s (.castVote electionId memberId decision signature reason
      keyType now)).elections electionId =
        some (data.receive council.defaultStrategy ⟨memberId, decision, reason, now⟩) := by
    rw [Council.step, hreceived]
    exact Function.update_self ..
  have hsigned : (step council crypto s (.castVote electionId memberId decision signature reason
      keyType now)).signed = s.signed := by
    rw [Council.step, hreceived]
  constructor
  · rintro electionId' hnot ⟨data', hdata', hclosed, hresult⟩
    by_cases heq : electionId' = electionId
    · subst heq
      rw [hself] at hdata'
      cases hdata'
      have happroves := ElectionData.resolution_of_receive hopen hclosed hresult
      refine ⟨(data.storeVote ⟨memberId, decision, reason, now⟩).agentsFor "APPROVE",
        Deliberation.ElectionData.Ballot.agentsFor_nodup "APPROVE", fun member happrover => ?_,
        hquorum.trans ?_⟩
      · obtain ⟨vote, hvote, hdecision⟩ := mem_agentsFor.mp happrover
        obtain ⟨-, hparticipant, hvoteSigned⟩ := hvoted.votes member vote hvote
        rw [hdecision] at hvoteSigned
        have hstands := standingApproval_of_signed hvoteSigned
          (hstanding happroves member vote hvote hdecision)
        rw [StandingApproval, hsigned]
        exact ⟨hvoted.participants ▸ hparticipant, hstands⟩
      · exact_mod_cast hvoted.approvalsNeeded_le_length happroves
    · rw [hother heq] at hdata'
      exact absurd ⟨data', hdata', hclosed, hresult⟩ hnot
  · intro electionId' member last hlastSigned hrecorded
    by_cases heq : electionId' = electionId
    · subst heq
      rw [recorded, hself, Option.bind_some, ElectionData.receive_votes, ElectionData.storeVote,
        Dict.get_set]
      split
      · rename_i hsame
        obtain rfl : member = memberId := hsame
        exact congrArg some (hlast last hlastSigned hrecorded)
      · rw [recorded, hdata] at hrecorded
        exact hrecorded
    · rw [recorded, hother heq]
      exact hrecorded

/-- **One event**, timely and with signatures that are not forged. -/
theorem ratificationSafe_step (h : Sound council s)
    (hquorum : ⌈council.minQuorum * council.councilMembers.keys.length⌉ ≤
      (approvalsNeeded council.defaultStrategy council.councilMembers.keys.length : ℤ))
    {e : Event} (hunforged : Unforged council crypto s e) (htimely : Timely council crypto s e) :
    RatificationSafe council crypto s e := by
  cases e with
  | submitProposal request signature created electionId now =>
    cases hnew : s.elections electionId with
    | some data =>
      refine .of_same ?_
      rw [Council.step, hnew]
      rfl
    | none =>
      rcases submitProposal_cases (s := s) with hsame | ⟨active, hadded⟩
      · refine .of_same ?_
        rw [Council.step, hnew, hsame]
        rfl
      · refine .of_new (show (council.election now).status = .open from rfl) hnew ?_
        rw [Council.step, hnew, hadded]
        rfl
  | castVote electionId memberId decision signature reason keyType now =>
    rcases castVote_cases with hsame | ⟨hvalid, data, hdata, hopen, hmember, hreceived⟩
    · refine .of_same ?_
      rw [Council.step, hsame]
    · exact ratificationSafe_received h hquorum hunforged htimely hvalid hdata hopen hmember
        hreceived
  | sign memberId payload => exact .of_same rfl

end Step

/-- **Council ratification** is safe in a run without forged signatures, where the strategy of the
voting service covers the quorum and the messages are timely. -/
theorem ratification_safe (council : Council) (crypto : Crypto) (events : List Event)
    (hquorum : ⌈council.minQuorum * council.councilMembers.keys.length⌉ ≤
      (approvalsNeeded council.defaultStrategy council.councilMembers.keys.length : ℤ))
    (hunforged : Machine.Along (step council crypto) (Unforged council crypto) {} events)
    (htimely : Machine.Along (step council crypto) (Timely council crypto) {} events) :
    Machine.Along (step council crypto) (RatificationSafe council crypto) {} events :=
  (hunforged.and htimely).imp (Sound council) (fun _ _ hnone => by cases hnone) fun _ _ h he =>
    ⟨ratificationSafe_step h hquorum he.1 he.2, h.step he.1⟩

/-! ## Three of five, and two of two -/

def keyedCrypto : Crypto where
  verifySignature := fun _ payload signature publicKey =>
    if signature = publicKey ++ "/" ++ payload then .valid else .invalid
  changesDigest := fun _ => "digest"

def fiveMembers : Council where
  councilMembers := ((((Dict.empty.set "ann" "k1").set "bob" "k2").set "cat" "k3").set "dan"
    "k4").set "eve" "k5"

def twoMembers : Council where
  councilMembers := (Dict.empty.set "ann" "k1").set "bob" "k2"
  minQuorum := 1

def anyProposal : ProposalRequest where
  proposedChanges := Dict.empty.set "review" (.str "two reviewers")
  justification := "Reviews need a second pair of eyes"
  proposerAgentId := "ann"

def proposes : Event :=
  .submitProposal anyProposal ("k1/" ++ proposerPayload keyedCrypto anyProposal) (.ok "p1") "e" 0

def approves (memberId publicKey : String) : List Event :=
  [.sign memberId (votePayload "e" memberId "APPROVE"),
    .castVote "e" memberId "APPROVE" (publicKey ++ "/" ++ votePayload "e" memberId "APPROVE") none
      "Ed25519" 0]

/-- The proposal, and the approvals of Ann and Bob. -/
def twoApprovals : List Event := proposes :: (approves "ann" "k1" ++ approves "bob" "k2")

theorem not_withdrawn_of_approvals {s : CouncilState} {electionId member : String}
    (h : ∀ entry ∈ s.signed, entry.2 = votePayload electionId entry.1 "APPROVE") :
    ¬Withdrawn s electionId member := by
  rintro ⟨later, earlier, hsigned, -⟩
  have hsame := h (member, votePayload electionId member "DENY") (by rw [hsigned]; simp)
  have hlength := congrArg String.length hsame
  simp only [votePayload, String.length_append, add_left_inj, add_right_inj] at hlength
  exact absurd hlength (by decide)

/-- The theorem for two members, who both approve. -/
theorem ratification_safe_two :
    Machine.Along (step twoMembers keyedCrypto) (RatificationSafe twoMembers keyedCrypto) {}
        twoApprovals ∧
      Approved (Machine.run (step twoMembers keyedCrypto) {} twoApprovals) "e" := by
  refine ⟨ratification_safe twoMembers keyedCrypto twoApprovals (by decide +kernel)
    ⟨trivial, trivial, fun _ => List.mem_cons_self .., trivial, fun _ => List.mem_cons_self ..,
      trivial⟩
    ⟨trivial, trivial, fun _ _ _ _ => ⟨fun last _ hrecorded => absurd hrecorded ?_,
        fun _ member _ _ _ => not_withdrawn_of_approvals ?_⟩,
      trivial, fun _ _ _ _ => ⟨fun last _ hrecorded => absurd hrecorded ?_,
        fun _ member _ _ _ => not_withdrawn_of_approvals ?_⟩, trivial⟩, ?_⟩
  · rw [show recorded _ "e" "ann" = none by decide +kernel]
    exact nofun
  · exact List.forall_mem_cons.mpr ⟨rfl, List.forall_mem_nil _⟩
  · rw [show recorded _ "e" "bob" = none by decide +kernel]
    exact nofun
  · exact List.forall_mem_cons.mpr ⟨rfl, List.forall_mem_cons.mpr ⟨rfl, List.forall_mem_nil _⟩⟩
  · decide +kernel

/-- Three of five members approve, and the quorum is four. -/
theorem three_of_five_not_safe :
    ¬Machine.Along (step fiveMembers keyedCrypto) (RatificationSafe fiveMembers keyedCrypto) {}
      (twoApprovals ++ approves "cat" "k3") := by
  intro h
  have hsafe := (Machine.along_append.mp h).2.2.1
  obtain ⟨approvers, hnodup, happrovers, hlength⟩ :=
    hsafe.quorum "e" (by decide +kernel) (by decide +kernel)
  have hthree : approvers ⊆ ["cat", "bob", "ann"] := by
    intro member hmember
    obtain ⟨later, earlier, hsigned, -⟩ := (happrovers member hmember).2
    have hmem : member ∈ (later ++ (member, votePayload "e" member "APPROVE") :: earlier).map
        Prod.fst := by simp
    rw [← hsigned] at hmem
    exact hmem
  have hle : approvers.length ≤ 3 := (List.subperm_of_subset hnodup hthree).length_le
  have hfour : (⌈fiveMembers.minQuorum * fiveMembers.councilMembers.keys.length⌉ : ℤ) = 4 := by
    decide +kernel
  omega

end Council

end EnhancedAgentBus.Constitutional
