import EnhancedAgentBus.Deliberation.VotingService

/-!
# Votes after the deadline

One process with elections in its own memory, and calls at instants.  Nobody watches the deadline:
`get_result` marks an election as expired when it happens to look, and `cast_vote` does not look
at all.  So between the deadline and the first `get_result` after it, votes still count.

In memory a call to one election is a function of that election: `ElectionData.cast` for
`cast_vote`, and nothing but the mark for `get_result`.  `TimedRun.deny_iff` follows an open
election through the calls after its deadline.
-/

namespace EnhancedAgentBus.Deliberation

open Async Async.Prog

/-! ## Calls at instants -/

/-- One operation at an instant: the clock reads that instant. -/
def Stores.performAt (t : Time) (s : Stores) : (o : Op) → Answer → Option (o.Resp × Stores)
  | .now, .time u => if u = t then s.perform .now (.time u) else none
  | o, a => s.perform o a

def StepAt (t : Time) (s : Stores) (o : Op) (r : o.Resp) (s' : Stores) : Prop :=
  ∃ a, s.performAt t o a = some (r, s')

theorem StepAt.step {t : Time} {s s' : Stores} {o : Op} {r : o.Resp} (h : StepAt t s o r s') :
    Step s o r s' := by
  obtain ⟨a, ha⟩ := h
  unfold Stores.performAt at ha
  split at ha
  · split at ha
    · exact ⟨_, ha⟩
    · cases ha
  · exact ⟨_, ha⟩

theorem StepAt.now {t u : Time} {s s' : Stores} (h : StepAt t s .now u s') : u = t := by
  obtain ⟨a, ha⟩ := h
  cases a with
  | time v =>
    simp only [Stores.performAt] at ha
    split at ha
    · rename_i hv
      have hread : Step s .now u s' := ⟨.time v, ha⟩
      have hsome : (if s.clock ≤ v then some (v, { s with clock := v }) else none) =
          some (u, s') := ha
      rw [Option.ite_none_right_eq_some, some_eq_answer] at hsome
      exact hsome.2.1.trans hv
    · cases ha
  | _ => exact absurd ha nofun

/-- A call that was made, when, and what it returned. -/
structure TimedCall where
  time : Time
  call : Call
  returned : Returned

/-- Calls of `cast_vote` and `get_result` of one service, one after another. -/
inductive TimedRun (S : VotingService) : Stores → List TimedCall → Stores → Prop
  | nil (s : Stores) : TimedRun S s [] s
  | cons {s s' s'' : Stores} {c : TimedCall} {rest : List TimedCall}
      (hcall : (∃ electionId vote, c.call = .cast S electionId vote) ∨
        ∃ electionId, c.call = .result S electionId)
      (hexec : Exec (StepAt c.time) c.call.code s (.returned c.returned) s')
      (hrest : TimedRun S s' rest s'') : TimedRun S s (c :: rest) s''

/-! ## What a call does to an election in memory -/

/-- `cast_vote` on an election in memory. -/
def ElectionData.cast (defaultStrategy : VotingStrategy) (v : Vote) (e : ElectionData) :
    Bool × ElectionData :=
  if e.status = .open ∧ v.agentId ∈ e.participants then
    match (e.storeVote v).resolution defaultStrategy with
    | (true, decision) => (true, VotingService.close decision (e.storeVote v))
    | (false, _) => (true, e.storeVote v)
  else (false, e)

/-- `get_result` on an election in memory that has a result if it is closed. -/
def ElectionData.poll (now : Time) (e : ElectionData) : Option String × ElectionData :=
  match e.status, e.expiresAt with
  | .expired, _ => (some "DENY", e)
  | .closed, _ => (e.result, e)
  | .open, some expiresAt =>
    if now > expiresAt then (some "DENY", { e with status := .expired }) else (none, e)
  | .open, none => (none, e)

def ElectionData.Settled (e : ElectionData) : Prop :=
  e.status = .closed → ∃ decision, e.result = some decision ∧ decision ≠ ""

/-- A process has an election in its memory after a call, and the others as before. -/
def Stores.Holds (process : ℕ) (electionId : String) (e : ElectionData) (s s' : Stores) : Prop :=
  s'.memory process = Function.update (s.memory process) electionId (some e)

section InMemory

variable {S : VotingService} {t : Time} {s s' : Stores} {electionId : String} {e : ElectionData}

theorem Stores.Holds.refl (h : s.memory S.process electionId = some e) :
    Stores.Holds S.process electionId e s s := by
  rw [Stores.Holds, ← h, Function.update_eq_self]

theorem Stores.Holds.here (h : Stores.Holds S.process electionId e s s') :
    s'.memory S.process electionId = some e := by
  rw [h, Function.update_self]

theorem Stores.Holds.assign (h : Stores.Holds S.process electionId e s s')
    (set : ElectionData → ElectionData) :
    Stores.Holds S.process electionId (set e) s (s'.assignMemory S.process electionId set) := by
  unfold Stores.Holds Stores.assignMemory
  rw [h.here]
  simp only [Stores.setMemory, Function.update_self]
  rw [h, Function.update_idem]

theorem getElectionData_inMemory (hmem : S.electionStore = false) {pre : Stores → Op → Prop}
    {Q : Option Found → Stores → Prop} {E : RedisError → Stores → Prop}
    (hpre : pre s (.memoryGet S.process electionId))
    (h : Q ((s.memory S.process electionId).map fun data => ⟨data, true⟩) s) :
    Safe (StepAt t) pre (S.getElectionData electionId) s Q E := by
  simp only [VotingService.getElectionData, hmem, Bool.false_eq_true, if_false, safe_bind,
    safe_pure, safe_perform]
  refine ⟨hpre, ?_⟩
  rintro r s' hstep
  obtain ⟨rfl, rfl⟩ := step_memoryGet.mp hstep.step
  exact h

theorem castVote_inMemory (hmem : S.electionStore = false) {v : Vote}
    (he : s.memory S.process electionId = some e) :
    Safe (StepAt t) (fun _ _ => True) (S.castVote electionId v) s
      (fun r s' => r = (e.cast S.defaultStrategy v).1 ∧
        Stores.Holds S.process electionId (e.cast S.defaultStrategy v).2 s s')
      (fun _ _ => False) := by
  simp only [VotingService.castVote, VotingService.validateVoteEligibility, safe_bind]
  refine getElectionData_inMemory hmem trivial ?_
  simp only [he, Option.map_some, safe_pure]
  by_cases heligible : e.status = .open ∧ v.agentId ∈ e.participants
  · simp only [heligible, and_self, decide_true, if_true, VotingService.storeVote, hmem,
      Bool.false_eq_true, if_false, safe_bind, safe_pure, safe_perform, ElectionData.cast]
    refine ⟨trivial, ?_⟩
    rintro _ s₁ hstep
    obtain rfl := step_assign.mp hstep.step
    have hstored := (Stores.Holds.refl he).assign fun data => data.storeVote v
    simp only [VotingService.checkResolution, safe_bind]
    refine getElectionData_inMemory hmem trivial ?_
    simp only [hstored.here, Option.map_some]
    cases hres : (e.storeVote v).resolution S.defaultStrategy with
    | mk resolved decision =>
      rcases resolved with _ | _
      · exact ⟨rfl, hstored⟩
      · simp only [VotingService.finalizeElectionResult, hmem, if_true, Bool.false_eq_true,
          if_false, safe_bind, safe_perform, safe_pure]
        refine ⟨trivial, ?_⟩
        rintro _ s₂ hstep
        obtain rfl := step_assign.mp hstep.step
        exact ⟨trivial, hstored.assign _⟩
  · simp only [heligible, decide_false, Bool.false_eq_true, if_false, safe_pure, ElectionData.cast]
    exact ⟨trivial, .refl he⟩

theorem getResult_inMemory (hmem : S.electionStore = false)
    (he : s.memory S.process electionId = some e) (hsettled : e.Settled) :
    Safe (StepAt t) (fun _ _ => True) (S.getResult electionId) s
      (fun r s' => r = (e.poll t).1 ∧ Stores.Holds S.process electionId (e.poll t).2 s s')
      (fun _ _ => False) := by
  simp only [VotingService.getResult, safe_bind]
  refine getElectionData_inMemory hmem trivial ?_
  simp only [he, Option.map_some, VotingService.checkAndUpdateExpiration, ElectionData.poll,
    safe_bind]
  cases hstatus : e.status with
  | expired => exact ⟨rfl, .refl he⟩
  | closed =>
    obtain ⟨decision, hresult, hne⟩ := hsettled hstatus
    have hfilter : e.result.filter (· ≠ "") = some decision := by simp [hresult, hne]
    simp only [safe_pure, VotingService.getClosedElectionResult, hfilter]
    exact ⟨hresult.symm, .refl he⟩
  | «open» =>
    rcases hexpires : e.expiresAt with _ | expiresAt
    · exact ⟨rfl, .refl he⟩
    · simp only [safe_bind, safe_perform]
      refine ⟨trivial, ?_⟩
      rintro now s₁ hstep
      obtain rfl := hstep.now
      obtain ⟨_, rfl⟩ := step_now.mp hstep.step
      have hheld : Stores.Holds S.process electionId e s { s with clock := now } := .refl he
      by_cases hlate : now > expiresAt
      · simp only [hlate, if_true, VotingService.markElectionExpired, hmem, Bool.false_eq_true,
          if_false, safe_bind, safe_perform, safe_pure]
        refine ⟨trivial, ?_⟩
        rintro _ s₂ hstep₂
        obtain rfl := step_assign.mp hstep₂.step
        rw [← hexpires]
        exact ⟨trivial, hheld.assign fun data => { data with status := .expired }⟩
      · simp only [hlate, if_false, safe_pure]
        exact ⟨trivial, hheld⟩

end InMemory

/-! ## One call -/

def Call.electionId : Call → Option String
  | .create _ _ _ _ _ => none
  | .cast _ electionId _ => some electionId
  | .result _ electionId => some electionId

section Call

variable {S : VotingService} {t : Time} {s s' : Stores} {electionId : String} {e : ElectionData}

/-- An operation that changes no election in memory but one. -/
def OwnElection (process : ℕ) (electionId : String) : Op → Prop
  | .assign process' electionId' _ => process' = process ∧ electionId' = electionId
  | .remember _ _ _ => False
  | _ => True

theorem OwnElection.frame {o : Op} {r : o.Resp} {other : String}
    (hown : OwnElection S.process electionId o) (hother : electionId ≠ other)
    (hstep : Step s o r s') : s'.memory S.process other = s.memory S.process other := by
  cases o with
  | assign process' electionId' set =>
    obtain rfl := step_assign.mp hstep
    obtain ⟨rfl, rfl⟩ := hown
    unfold Stores.assignMemory
    rcases s.memory S.process electionId' with _ | data
    · rfl
    · simp [Stores.setMemory, hother.symm]
  | remember process' electionId' data => exact hown.elim
  | uuid4 => obtain ⟨_, rfl⟩ := step_uuid4.mp hstep; rfl
  | now => obtain ⟨_, rfl⟩ := step_now.mp hstep; rfl
  | get service write electionId' => obtain ⟨_, rfl⟩ := step_get.mp hstep; rfl
  | ttl write electionId' => obtain rfl := step_ttl.mp hstep; rfl
  | setex write electionId' ttl basis data =>
    rcases step_setex.mp hstep with rfl | ⟨rfl, _⟩
    · rfl
    · rfl
  | memoryGet service electionId' => obtain ⟨_, rfl⟩ := step_memoryGet.mp hstep; rfl

theorem checkResolution_own (hmem : S.electionStore = false) :
    Safe (StepAt t) (fun _ => OwnElection S.process electionId) (S.checkResolution electionId) s
      (fun _ _ => True) (fun _ _ => True) := by
  simp only [VotingService.checkResolution, safe_bind]
  refine getElectionData_inMemory hmem trivial ?_
  rcases s.memory S.process electionId with _ | data
  · trivial
  · simp only [Option.map_some]
    split
    · simp only [VotingService.finalizeElectionResult, hmem, if_true, Bool.false_eq_true,
        if_false, safe_bind, safe_perform, safe_pure]
      exact ⟨⟨rfl, rfl⟩, fun _ _ _ => trivial⟩
    · trivial

theorem Call.own (hmem : S.electionStore = false) {c : Call}
    (hcall : (∃ electionId vote, c = .cast S electionId vote) ∨
      ∃ electionId, c = .result S electionId) (helection : c.electionId = some electionId) :
    Safe (StepAt t) (fun _ => OwnElection S.process electionId) c.code s
      (fun _ _ => True) (fun _ _ => True) := by
  rcases hcall with ⟨electionId', vote, rfl⟩ | ⟨electionId', rfl⟩
  · obtain rfl := Option.some_inj.mp helection
    simp only [Call.code, VotingService.castVote, VotingService.validateVoteEligibility, safe_bind]
    refine getElectionData_inMemory hmem trivial ?_
    rcases s.memory S.process electionId' with _ | data
    · simp
    · simp only [Option.map_some, safe_pure]
      split
      · simp only [VotingService.storeVote, hmem, Bool.false_eq_true, if_false, safe_bind,
          safe_pure, safe_perform]
        exact ⟨⟨rfl, rfl⟩, fun _ _ _ => checkResolution_own hmem⟩
      · trivial
  · obtain rfl := Option.some_inj.mp helection
    simp only [Call.code, VotingService.getResult, safe_bind]
    refine getElectionData_inMemory hmem trivial ?_
    rcases s.memory S.process electionId' with _ | data
    · trivial
    · have hclosed (s' : Stores) : Safe (StepAt t) (fun _ => OwnElection S.process electionId')
          (S.getClosedElectionResult electionId' data) s' (fun _ _ => True)
          (fun _ _ => True) := by
        simp only [VotingService.getClosedElectionResult]
        split
        · trivial
        · simp only [safe_bind]
          refine (checkResolution_own hmem).mono (fun _ _ _ => ?_) (fun _ _ _ => trivial)
          exact getElectionData_inMemory hmem trivial trivial
      simp only [Option.map_some, VotingService.checkAndUpdateExpiration, safe_bind, safe_pure]
      split
      · simp only [safe_bind, safe_perform]
        refine ⟨trivial, fun now s₁ _ => ?_⟩
        split
        · simp only [VotingService.markElectionExpired, hmem, if_true, Bool.false_eq_true,
            if_false, safe_bind, safe_perform, safe_pure]
          exact ⟨⟨rfl, rfl⟩, fun _ s₂ _ => trivial⟩
        · trivial
      · cases data.status with
        | expired => trivial
        | «open» => trivial
        | closed => exact hclosed s

theorem call_frame (hmem : S.electionStore = false) {c : Call} {r : Returned} {other : String}
    (hcall : (∃ electionId vote, c = .cast S electionId vote) ∨
      ∃ electionId, c = .result S electionId)
    (hexec : Exec (StepAt t) c.code s (.returned r) s') (hother : c.electionId ≠ some other) :
    s'.memory S.process other = s.memory S.process other := by
  obtain ⟨electionId, helection⟩ : ∃ electionId, c.electionId = some electionId := by
    rcases hcall with ⟨electionId, vote, rfl⟩ | ⟨electionId, rfl⟩
    · exact ⟨electionId, rfl⟩
    · exact ⟨electionId, rfl⟩
  have hne : electionId ≠ other := fun heq => hother (heq ▸ helection)
  exact hexec.invariant (I := fun s' => s'.memory S.process other = s.memory S.process other)
    (fun _ _ _ _ hI hown hstep => (hown.frame hne hstep.step).trans hI) rfl
    (Call.own hmem hcall helection)

end Call

/-! ## Runs -/

structure ElectionData.Over (e : ElectionData) (decision : String) : Prop where
  notOpen : e.status ≠ .open
  expired : e.status = .expired → decision = "DENY"
  closed : e.status = .closed → e.result = some decision ∧ decision ≠ ""

namespace ElectionData.Over

variable {e : ElectionData} {decision : String}

theorem settled (h : e.Over decision) : e.Settled :=
  fun hclosed => ⟨decision, h.closed hclosed⟩

theorem poll_eq (h : e.Over decision) (t : Time) : e.poll t = (some decision, e) := by
  unfold ElectionData.poll
  cases hstatus : e.status with
  | «open» => exact absurd hstatus h.notOpen
  | expired => rw [h.expired hstatus]
  | closed => simp only [(h.closed hstatus).1]

theorem cast_eq (h : e.Over decision) (defaultStrategy : VotingStrategy) (v : Vote) :
    e.cast defaultStrategy v = (false, e) := by
  rw [ElectionData.cast, if_neg fun hopen => h.notOpen hopen.1]

end ElectionData.Over

/-- The decision a list of votes closes an open election with, one vote after another. -/
def ElectionData.firstResolution (defaultStrategy : VotingStrategy) :
    ElectionData → List Vote → Option String
  | _, [] => none
  | e, v :: votes =>
    if v.agentId ∈ e.participants then
      match (e.storeVote v).resolution defaultStrategy with
      | (true, decision) => some decision
      | (false, _) => firstResolution defaultStrategy (e.storeVote v) votes
    else firstResolution defaultStrategy e votes

/-- The votes that are cast in an election before its result is first asked for, if it is. -/
def votesBeforeResult (electionId : String) : List TimedCall → Option (List Vote)
  | [] => none
  | c :: rest =>
    match c.call with
    | .result _ electionId' =>
      if electionId' = electionId then some [] else votesBeforeResult electionId rest
    | .cast _ electionId' v =>
      if electionId' = electionId then (votesBeforeResult electionId rest).map (v :: ·)
      else votesBeforeResult electionId rest
    | .create _ _ _ _ _ => votesBeforeResult electionId rest

theorem evaluateStrategyResolution_decision (strategy : VotingStrategy) (weightInfo : ℚ × ℚ × ℚ)
    (required : Option ℚ) :
    (evaluateStrategyResolution strategy weightInfo required).2 = "APPROVE" ∨
      (evaluateStrategyResolution strategy weightInfo required).2 = "DENY" := by
  cases strategy with
  | quorum =>
    simp only [evaluateStrategyResolution, checkQuorumResolution]
    split_ifs <;> simp
  | unanimous =>
    simp only [evaluateStrategyResolution, checkUnanimousResolution]
    split_ifs <;> simp
  | superMajority =>
    simp only [evaluateStrategyResolution, checkSuperMajorityResolution]
    split_ifs <;> simp

theorem ElectionData.resolution_decision {defaultStrategy : VotingStrategy} {e : ElectionData}
    {decision : String} (h : e.resolution defaultStrategy = (true, decision)) :
    decision = "APPROVE" ∨ decision = "DENY" := by
  have hdecision := evaluateStrategyResolution_decision (e.votingStrategy defaultStrategy)
    e.calculateVoteWeights e.requiredApprovalWeight
  rwa [← ElectionData.resolution, h] at hdecision

/-- Every result that is asked of an election in a list of calls is a decision. -/
def AllDecide (S : VotingService) (electionId decision : String) (calls : List TimedCall) : Prop :=
  ∀ c ∈ calls, c.call = .result S electionId → c.returned = .decided (some decision)

section Run

variable {S : VotingService} {electionId : String} {e : ElectionData}

theorem cast_returned (hmem : S.electionStore = false) {t : Time} {s s' : Stores} {v : Vote}
    {r : Returned} (he : s.memory S.process electionId = some e)
    (hexec : Exec (StepAt t) (Call.cast S electionId v).code s (.returned r) s') :
    s'.memory S.process electionId = some (e.cast S.defaultStrategy v).2 := by
  have hsafe : Safe (StepAt t) (fun _ _ => True) (Call.cast S electionId v).code s
      (fun _ s' => s'.memory S.process electionId = some (e.cast S.defaultStrategy v).2)
      (fun _ _ => False) := by
    simp only [Call.code, safe_bind, safe_pure]
    exact (castVote_inMemory hmem he).mono (fun _ _ h => h.2.here) (fun _ _ h => h)
  exact hexec.returned hsafe

theorem result_returned (hmem : S.electionStore = false) {t : Time} {s s' : Stores} {r : Returned}
    (he : s.memory S.process electionId = some e) (hsettled : e.Settled)
    (hexec : Exec (StepAt t) (Call.result S electionId).code s (.returned r) s') :
    r = .decided (e.poll t).1 ∧ s'.memory S.process electionId = some (e.poll t).2 := by
  have hsafe : Safe (StepAt t) (fun _ _ => True) (Call.result S electionId).code s
      (fun r s' => r = .decided (e.poll t).1 ∧
        s'.memory S.process electionId = some (e.poll t).2)
      (fun _ _ => False) := by
    simp only [Call.code, safe_bind, safe_pure]
    exact (getResult_inMemory hmem he hsettled).mono (fun _ _ h => ⟨h.1 ▸ rfl, h.2.here⟩)
      (fun _ _ h => h)
  exact hexec.returned hsafe

theorem TimedRun.over (hmem : S.electionStore = false) {decision : String} {s s' : Stores}
    {calls : List TimedCall} (hrun : TimedRun S s calls s')
    (he : s.memory S.process electionId = some e) (hover : e.Over decision) :
    AllDecide S electionId decision calls := by
  induction hrun with
  | nil => exact fun _ hc => absurd hc List.not_mem_nil
  | @cons s s' s'' c rest hcall hexec _ ih =>
    by_cases hthis : c.call.electionId = some electionId
    · rcases hcall with ⟨electionId', v, hc⟩ | ⟨electionId', hc⟩
      · rw [hc] at hthis hexec
        obtain rfl := Option.some_inj.mp hthis
        have he' := cast_returned hmem he hexec
        rw [hover.cast_eq] at he'
        intro c' hc' hresult
        rcases List.mem_cons.mp hc' with rfl | hc'
        · rw [hc] at hresult
          cases hresult
        · exact ih he' c' hc' hresult
      · rw [hc] at hthis hexec
        obtain rfl := Option.some_inj.mp hthis
        obtain ⟨hreturned, he'⟩ := result_returned hmem he hover.settled hexec
        rw [hover.poll_eq] at hreturned he'
        intro c' hc' hresult
        rcases List.mem_cons.mp hc' with rfl | hc'
        · exact hreturned
        · exact ih he' c' hc' hresult
    · have he' := (call_frame hmem hcall hexec hthis).trans he
      intro c' hc' hresult
      rcases List.mem_cons.mp hc' with rfl | hc'
      · rw [hresult] at hthis
        exact absurd rfl hthis
      · exact ih he' c' hc' hresult

theorem over_close {decision : String} {e' : ElectionData}
    (h : e'.resolution S.defaultStrategy = (true, decision)) :
    (VotingService.close decision e').Over decision := by
  refine ⟨by simp [VotingService.close], by simp [VotingService.close], fun _ => ⟨rfl, ?_⟩⟩
  rcases ElectionData.resolution_decision h with rfl | rfl
  · decide
  · decide

theorem allDecide_deny_iff {decision : String} {calls : List TimedCall}
    (h : AllDecide S electionId decision calls) :
    AllDecide S electionId "DENY" calls ↔
      decision = "DENY" ∨ ∀ c ∈ calls, c.call ≠ .result S electionId := by
  constructor
  · intro hdeny
    by_cases hasked : ∃ c ∈ calls, c.call = .result S electionId
    · obtain ⟨c, hc, hresult⟩ := hasked
      have heq := (h c hc hresult).symm.trans (hdeny c hc hresult)
      exact .inl (Option.some_inj.mp (Returned.decided.inj heq))
    · exact .inr fun c hc hresult => hasked ⟨c, hc, hresult⟩
  · rintro (rfl | hnone)
    · exact h
    · exact fun c hc hresult => absurd hresult (hnone c hc)

theorem over_poll {t : Time} {decision : String} (hsettled : e.Settled)
    (hpoll : (e.poll t).1 = some decision) : (e.poll t).2.Over decision := by
  unfold ElectionData.poll at hpoll ⊢
  split at hpoll
  · rename_i hstatus
    obtain rfl := Option.some_inj.mp hpoll
    exact ⟨by simp [hstatus], fun _ => rfl, fun h => by simp [hstatus] at h⟩
  · rename_i hstatus
    obtain ⟨decision', hresult, hne⟩ := hsettled hstatus
    obtain rfl := Option.some_inj.mp (hresult.symm.trans hpoll)
    exact ⟨by simp [hstatus], fun h => by simp [hstatus] at h, fun _ => ⟨hresult, hne⟩⟩
  · split at hpoll
    · rename_i hlate
      obtain rfl := Option.some_inj.mp hpoll
      simp only [hlate, if_true]
      exact ⟨nofun, fun _ => rfl, nofun⟩
    · cases hpoll
  · cases hpoll

/-- **A decision that is announced stands**, whatever is voted and asked after it. -/
theorem TimedRun.announced (hmem : S.electionStore = false) {s s' : Stores} {c : TimedCall}
    {calls : List TimedCall} (hrun : TimedRun S s (c :: calls) s')
    (he : s.memory S.process electionId = some e) (hsettled : e.Settled)
    (hresult : c.call = .result S electionId) {decision : String}
    (hdecided : c.returned = .decided (some decision)) :
    AllDecide S electionId decision calls := by
  obtain _ | ⟨-, hexec, hrest⟩ := hrun
  rw [hresult] at hexec
  obtain ⟨hreturned, he'⟩ := result_returned hmem he hsettled hexec
  have hpoll := Returned.decided.inj (hreturned.symm.trans hdecided)
  exact hrest.over hmem he' (over_poll hsettled hpoll)

theorem TimedRun.votesBeforeResult_isSome {s s' : Stores} {calls : List TimedCall}
    (hrun : TimedRun S s calls s') (electionId : String) :
    (∃ votes, votesBeforeResult electionId calls = some votes) ↔
      ∃ c ∈ calls, c.call = .result S electionId := by
  induction hrun with
  | nil => simp [votesBeforeResult]
  | @cons s s' s'' c rest hcall _ _ ih =>
    rcases hcall with ⟨electionId', v, hc⟩ | ⟨electionId', hc⟩
    · by_cases heq : electionId' = electionId
      · simpa [votesBeforeResult, hc, heq] using ih
      · simpa [votesBeforeResult, hc, heq] using ih
    · by_cases heq : electionId' = electionId
      · simp [votesBeforeResult, hc, heq]
      · simpa [votesBeforeResult, hc, heq] using ih

/-- **After the deadline.**  Every result is DENY, if and only if the votes that are cast before
the first result do not close the election with APPROVE. -/
theorem TimedRun.deny_iff (hmem : S.electionStore = false) {expiresAt : Time} {s s' : Stores}
    {calls : List TimedCall} (hrun : TimedRun S s calls s')
    (hlate : ∀ c ∈ calls, expiresAt < c.time) (he : s.memory S.process electionId = some e)
    (hopen : e.status = .open) (hexpires : e.expiresAt = some expiresAt) :
    AllDecide S electionId "DENY" calls ↔ ∀ votes, votesBeforeResult electionId calls = some votes →
      e.firstResolution S.defaultStrategy votes ≠ some "APPROVE" := by
  induction hrun generalizing e with
  | nil => simp [AllDecide, votesBeforeResult]
  | @cons s s' s'' c rest hcall hexec hrest ih =>
    have hrestLate : ∀ c ∈ rest, expiresAt < c.time :=
      fun c' hc' => hlate c' (List.mem_cons_of_mem _ hc')
    by_cases hthis : c.call.electionId = some electionId
    · rcases hcall with ⟨electionId', v, hc⟩ | ⟨electionId', hc⟩
      · -- A late vote, which the election still takes
        rw [hc] at hthis hexec
        obtain rfl := Option.some_inj.mp hthis
        have he' := cast_returned hmem he hexec
        have hdrop : AllDecide S electionId' "DENY" (c :: rest) ↔
            AllDecide S electionId' "DENY" rest := by
          simp [AllDecide, hc]
        have hvotes : votesBeforeResult electionId' (c :: rest) =
            (votesBeforeResult electionId' rest).map (v :: ·) := by
          simp [votesBeforeResult, hc]
        rw [hdrop, hvotes]
        simp only [Option.map_eq_some_iff, forall_exists_index, and_imp,
          forall_apply_eq_imp_iff₂, ElectionData.firstResolution]
        by_cases hpart : v.agentId ∈ e.participants
        · simp only [ElectionData.cast, hopen, hpart, and_self, if_true] at he' ⊢
          cases hres : (e.storeVote v).resolution S.defaultStrategy with
          | mk resolved decision =>
            rcases resolved with _ | _
            · simp only [hres] at he' ⊢
              exact ih hrestLate he' hopen hexpires
            · simp only [hres] at he' ⊢
              rw [allDecide_deny_iff (hrest.over hmem he' (over_close hres))]
              rcases ElectionData.resolution_decision hres with rfl | rfl
              · have hasked := hrest.votesBeforeResult_isSome electionId'
                simp only [String.reduceEq, false_or, ne_eq, not_true_eq_false]
                constructor
                · intro hnone votes hsome
                  obtain ⟨c', hc', hresult⟩ := hasked.mp ⟨votes, hsome⟩
                  exact hnone c' hc' hresult
                · intro hnone c' hc' hresult
                  obtain ⟨votes, hsome⟩ := hasked.mpr ⟨c', hc', hresult⟩
                  exact hnone votes hsome
              · simp
        · rw [ElectionData.cast, if_neg fun h => hpart h.2] at he'
          simp only [hpart, if_false]
          exact ih hrestLate he' hopen hexpires
      · -- The first result, which finds the election expired
        rw [hc] at hthis hexec
        obtain rfl := Option.some_inj.mp hthis
        have hsettled : e.Settled := fun hclosed => by rw [hopen] at hclosed; cases hclosed
        obtain ⟨hreturned, he'⟩ := result_returned hmem he hsettled hexec
        have hexpired : e.poll c.time = (some "DENY", { e with status := .expired }) := by
          simp only [ElectionData.poll, hopen, hexpires]
          rw [if_pos (hlate c (List.mem_cons_self ..))]
        rw [hexpired] at hreturned he'
        have hover : ({ e with status := .expired } : ElectionData).Over "DENY" :=
          ⟨by simp, fun _ => rfl, by simp⟩
        refine iff_of_true (fun c' hc' hresult => ?_) ?_
        · rcases List.mem_cons.mp hc' with rfl | hc'
          · exact hreturned
          · exact hrest.over hmem he' hover c' hc' hresult
        · simp [votesBeforeResult, hc, ElectionData.firstResolution]
    · -- A call about another election
      have he' := (call_frame hmem hcall hexec hthis).trans he
      have hdrop : AllDecide S electionId "DENY" (c :: rest) ↔
          AllDecide S electionId "DENY" rest := by
        have hne : c.call ≠ .result S electionId := fun hc => hthis (by rw [hc]; rfl)
        simp [AllDecide, hne]
      have hvotes : votesBeforeResult electionId (c :: rest) =
          votesBeforeResult electionId rest := by
        rcases hcall with ⟨electionId', v, hc⟩ | ⟨electionId', hc⟩
        · have hne : electionId' ≠ electionId := fun heq => hthis (by rw [hc, heq]; rfl)
          simp [votesBeforeResult, hc, hne]
        · have hne : electionId' ≠ electionId := fun heq => hthis (by rw [hc, heq]; rfl)
          simp [votesBeforeResult, hc, hne]
      rw [hdrop, hvotes]
      exact ih hrestLate he' hopen hexpires

theorem TimedRun.keeps (hmem : S.electionStore = false) {s s' : Stores} {calls : List TimedCall}
    (hrun : TimedRun S s calls s') (he : s.memory S.process electionId = some e)
    (hsettled : e.Settled) :
    ∃ e', s'.memory S.process electionId = some e' ∧ e'.expiresAt = e.expiresAt := by
  induction hrun generalizing e with
  | nil => exact ⟨e, he, rfl⟩
  | @cons s s' s'' c rest hcall hexec _ ih =>
    by_cases hthis : c.call.electionId = some electionId
    · rcases hcall with ⟨electionId', v, hc⟩ | ⟨electionId', hc⟩
      · rw [hc] at hthis hexec
        obtain rfl := Option.some_inj.mp hthis
        have he' := cast_returned hmem he hexec
        have hkeeps : (e.cast S.defaultStrategy v).2.Settled ∧
            (e.cast S.defaultStrategy v).2.expiresAt = e.expiresAt := by
          unfold ElectionData.cast
          split
          · split
            · rename_i hres
              exact ⟨(over_close hres).settled, rfl⟩
            · exact ⟨hsettled, rfl⟩
          · exact ⟨hsettled, rfl⟩
        obtain ⟨e', hstored, hexpires⟩ := ih he' hkeeps.1
        exact ⟨e', hstored, hexpires.trans hkeeps.2⟩
      · rw [hc] at hthis hexec
        obtain rfl := Option.some_inj.mp hthis
        obtain ⟨_, he'⟩ := result_returned hmem he hsettled hexec
        have hkeeps : (e.poll c.time).2.Settled ∧ (e.poll c.time).2.expiresAt = e.expiresAt := by
          unfold ElectionData.poll
          split
          · exact ⟨hsettled, rfl⟩
          · exact ⟨hsettled, rfl⟩
          · split
            · exact ⟨fun h => (by cases h), rfl⟩
            · exact ⟨hsettled, rfl⟩
          · exact ⟨hsettled, rfl⟩
        obtain ⟨e', hstored, hexpires⟩ := ih he' hkeeps.1
        exact ⟨e', hstored, hexpires.trans hkeeps.2⟩
    · exact ih ((call_frame hmem hcall hexec hthis).trans he) hsettled

end Run

/-! ## A late vote -/

def memoryService : VotingService := { process := 0, electionStore := false }

/-- Make calls at instants, and keep what they returned; a call that does not return is not
kept. -/
def runTimed : List (Time × Call) → Stores → List TimedCall × Stores
  | [], s => ([], s)
  | (t, c) :: rest, s =>
    match replay (Stores.performAt t) (fun _ o => some (match o with
      | .now => .time t
      | _ => .plain)) c.code (s, []) with
    | (.returned r, s', _) => ((⟨t, c, r⟩ :: (runTimed rest s').1), (runTimed rest s').2)
    | _ => ([], s)

theorem TimedRun.runTimed {S : VotingService} {calls : List (Time × Call)}
    (hcalls : ∀ c ∈ calls, (∃ electionId vote, c.2 = .cast S electionId vote) ∨
      ∃ electionId, c.2 = .result S electionId) (s : Stores) :
    TimedRun S s (runTimed calls s).1 (runTimed calls s).2 := by
  induction calls generalizing s with
  | nil => exact .nil s
  | cons c rest ih =>
    obtain ⟨t, c⟩ := c
    have hsound := (replay_sound (Stores.performAt t) (fun _ o => some (match o with
      | .now => .time t
      | _ => .plain)) c.code (s, [])).untraced
    unfold Deliberation.runTimed
    split
    · rename_i r s' log hreplay
      rw [hreplay] at hsound
      refine .cons (hcalls _ (List.mem_cons_self ..)) hsound ?_
      exact ih (fun c' hc' => hcalls c' (List.mem_cons_of_mem _ hc')) s'
    · exact .nil s

/-- An election of one participant until the instant 10, just created. -/
def oneVoter : Stores :=
  Stores.setMemory 0 "e1" (newElection .quorum ["ann"] .empty none 10) {}

/-- Ann approves at 11, and the result is asked for at 12. -/
def lateApproval : List (Time × Call) :=
  [(11, .cast memoryService "e1" ⟨"ann", "APPROVE", none, 11⟩), (12, .result memoryService "e1")]

theorem lateApproval_calls : ∀ c ∈ lateApproval,
    (∃ electionId vote, c.2 = Call.cast memoryService electionId vote) ∨
      ∃ electionId, c.2 = Call.result memoryService electionId := by
  intro c hc
  rcases List.mem_cons.mp hc with rfl | hc
  · exact .inl ⟨_, _, rfl⟩
  · rw [List.mem_singleton.mp hc]
    exact .inr ⟨_, rfl⟩

/-- Nobody votes up to the deadline, and a vote after it has the election approved. -/
theorem late_vote_approves :
    ∃ late s, TimedRun memoryService oneVoter late s ∧ (∀ c ∈ late, 10 < c.time) ∧
      oneVoter.memory 0 "e1" = some (newElection .quorum ["ann"] .empty none 10) ∧
      ¬ AllDecide memoryService "e1" "DENY" late := by
  have hrun := TimedRun.runTimed lateApproval_calls oneVoter
  have hlate : ∀ c ∈ (runTimed lateApproval oneVoter).1, 10 < c.time := by decide +kernel
  refine ⟨_, _, hrun, hlate, rfl, fun hdeny => ?_⟩
  exact (hrun.deny_iff rfl hlate (rfl : oneVoter.memory 0 "e1" = some _) rfl rfl).mp hdeny
    [⟨"ann", "APPROVE", none, 11⟩] (by decide +kernel) (by decide +kernel)

/-- Asked before the late approval, the election is denied for good. -/
theorem announced_asked : AllDecide memoryService "e1" "DENY"
    (runTimed ((11, .result memoryService "e1") :: lateApproval) oneVoter).1.tail := by
  have hrun : TimedRun memoryService oneVoter
    (runTimed ((11, .result memoryService "e1") :: lateApproval) oneVoter).1 _ :=
    .runTimed (List.forall_mem_cons.mpr ⟨.inr ⟨_, rfl⟩, lateApproval_calls⟩) oneVoter
  exact hrun.announced rfl rfl (fun h => by cases h) rfl rfl

/-- **The deadline, exactly.**  For an election in memory that the calls up to its deadline, or
any calls, leave open, every later result is DENY if and only if the votes that are cast between the deadline and
the first later result do not close it with APPROVE. -/
theorem late_votes_deny_iff (S : VotingService) (hmem : S.electionStore = false)
    (electionId : String) (participants : List String) (participantWeights : Dict String ℚ)
    (requiredVotes : Option ℚ) (expiresAt : Time) (s₀ s₁ s₂ : Stores)
    (hcreated : s₀.memory S.process electionId = some
      (newElection S.defaultStrategy participants participantWeights requiredVotes expiresAt))
    (early late : List TimedCall) (hearly : TimedRun S s₀ early s₁)
    (e : ElectionData)
    (hunresolved : s₁.memory S.process electionId = some e) (hopen : e.status = .open)
    (hlate : TimedRun S s₁ late s₂) (hafter : ∀ c ∈ late, expiresAt < c.time) :
    AllDecide S electionId "DENY" late ↔
      ∀ votes, votesBeforeResult electionId late = some votes →
        e.firstResolution S.defaultStrategy votes ≠ some "APPROVE" := by
  obtain ⟨e', he', hexpires⟩ := hearly.keeps hmem hcreated fun h => by cases h
  obtain rfl := Option.some_inj.mp (he'.symm.trans hunresolved)
  exact hlate.deny_iff hmem hafter hunresolved hopen hexpires

/-- The theorem for the late approval. -/
theorem late_votes_deny_iff_oneVoter :
    AllDecide memoryService "e1" "DENY" (runTimed lateApproval oneVoter).1 ↔
      ∀ votes, votesBeforeResult "e1" (runTimed lateApproval oneVoter).1 = some votes →
        (newElection .quorum ["ann"] .empty none 10).firstResolution .quorum votes ≠
          some "APPROVE" :=
  late_votes_deny_iff memoryService rfl "e1" ["ann"] .empty none 10 oneVoter oneVoter _ rfl [] _
    (.nil _) _ rfl rfl (TimedRun.runTimed lateApproval_calls oneVoter)
    (by decide +kernel)

end EnhancedAgentBus.Deliberation
