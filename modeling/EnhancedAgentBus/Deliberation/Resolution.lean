import EnhancedAgentBus.Lib.Dict
import Mathlib.Algebra.Order.BigOperators.Group.List
import Mathlib.Data.List.Dedup
import Mathlib.Tactic.Linarith

/-!
# Elections and their early resolution

An election, the weights its ballot adds up to, and the test after every vote whether the
election can be closed early.  Weights are rational numbers: the code's floats, without their
rounding.

Closing early is *sound* when no way in which the others could still vote changes the outcome
(`ResolvesSoundly`).  Two numbers decide that: the approving weight, and the approving weight if
everybody who has not voted approves (`reachable`).  The three strategies keep the denying weight
and the reachable weight apart, since together they never exceed the total
(`denials_add_reachable_le`).

### What is load-bearing

A required approval weight replaces the threshold of the approving side and of the first denying
test, but not of the second one, which still denies at half of the total weight.  That test is
sound only while the required weight is out of reach (`resolvesSoundly_iff`).
-/

namespace EnhancedAgentBus.Deliberation

abbrev Time := ℤ

inductive VotingStrategy where
  /-- 50% + 1 -/
  | quorum
  /-- 100% -/
  | unanimous
  /-- 2/3 -/
  | superMajority
  deriving DecidableEq

def VotingStrategy.value : VotingStrategy → String
  | .quorum => "quorum"
  | .unanimous => "unanimous"
  | .superMajority => "super-majority"

/-- `VotingStrategy(value)`, where that raises no `ValueError`. -/
def VotingStrategy.ofValue : String → Option VotingStrategy
  | "quorum" => some .quorum
  | "unanimous" => some .unanimous
  | "super-majority" => some .superMajority
  | _ => none

@[simp] theorem VotingStrategy.ofValue_value (s : VotingStrategy) : ofValue s.value = some s := by
  cases s <;> rfl

/-- A vote.  The decision is any text; only "APPROVE" and "DENY" are counted. -/
structure Vote where
  agentId : String
  decision : String
  reason : Option String := none
  timestamp : Time := 0
  deriving DecidableEq

inductive ElectionStatus where
  | open
  | closed
  | expired
  deriving DecidableEq

structure ElectionData where
  strategy : String
  participants : List String
  participantWeights : Dict String ℚ
  votes : Dict String Vote := .empty
  status : ElectionStatus := .open
  expiresAt : Option Time
  requiredApprovalWeight : Option ℚ := none
  result : Option String := none

namespace ElectionData

/-! ## What a ballot adds up to -/

/-- `participant_weights.get(pid, 1.0)` -/
def weightOf (e : ElectionData) (pid : String) : ℚ := (e.participantWeights.get pid).getD 1

def decisionWeight (e : ElectionData) (decision : String) : ℚ :=
  ((e.votes.values.filter (·.decision = decision)).map fun v => e.weightOf v.agentId).sum

def totalWeight (e : ElectionData) : ℚ := (e.participants.map e.weightOf).sum

/-- `_calculate_vote_weights`: the approving, the denying and the total weight. -/
def calculateVoteWeights (e : ElectionData) : ℚ × ℚ × ℚ :=
  (e.decisionWeight "APPROVE", e.decisionWeight "DENY", e.totalWeight)

end ElectionData

/-! ## The tests -/

/-- `_check_quorum_resolution`: 50% + 1. -/
def checkQuorumResolution (approvals denials total : ℚ) (requiredApprovalWeight : Option ℚ) :
    Bool × String :=
  let approvalThreshold := requiredApprovalWeight.getD (total / 2)
  if approvals > total / 2 ∧ requiredApprovalWeight = none then (true, "APPROVE")
  else if requiredApprovalWeight ≠ none ∧ approvals ≥ approvalThreshold then (true, "APPROVE")
  else if requiredApprovalWeight ≠ none ∧ total - denials < approvalThreshold then (true, "DENY")
  else if denials ≥ total / 2 then (true, "DENY")
  else (false, "DENY")

def checkUnanimousResolution (approvals denials total : ℚ) : Bool × String :=
  if approvals ≥ total then (true, "APPROVE")
  else if denials > 0 then (true, "DENY")
  else (false, "DENY")

/-- `_check_super_majority_resolution`: 2/3. -/
def checkSuperMajorityResolution (approvals denials total : ℚ) : Bool × String :=
  if approvals ≥ total * 2 / 3 then (true, "APPROVE")
  else if denials > total / 3 then (true, "DENY")
  else (false, "DENY")

def evaluateStrategyResolution (strategy : VotingStrategy) (weightInfo : ℚ × ℚ × ℚ)
    (requiredApprovalWeight : Option ℚ) : Bool × String :=
  let (approvals, denials, total) := weightInfo
  match strategy with
  | .quorum => checkQuorumResolution approvals denials total requiredApprovalWeight
  | .unanimous => checkUnanimousResolution approvals denials total
  | .superMajority => checkSuperMajorityResolution approvals denials total

namespace ElectionData

/-- `_get_voting_strategy`, for a service with a default strategy. -/
def votingStrategy (defaultStrategy : VotingStrategy) (e : ElectionData) : VotingStrategy :=
  (VotingStrategy.ofValue e.strategy).getD defaultStrategy

/-- The test of `_check_resolution`: whether the election is resolved, and how. -/
def resolution (defaultStrategy : VotingStrategy) (e : ElectionData) : Bool × String :=
  evaluateStrategyResolution (e.votingStrategy defaultStrategy) e.calculateVoteWeights
    e.requiredApprovalWeight

/-- `votes[agent_id] = vote` -/
def storeVote (e : ElectionData) (v : Vote) : ElectionData :=
  { e with votes := e.votes.set v.agentId v }

def storeVotes (e : ElectionData) (votes : List Vote) : ElectionData := votes.foldl storeVote e

end ElectionData

def newElection (defaultStrategy : VotingStrategy) (participants : List String)
    (participantWeights : Dict String ℚ) (requiredVotes : Option ℚ) (expiresAt : Time) :
    ElectionData where
  strategy := defaultStrategy.value
  -- `{pid: weights.get(pid, 1.0) for pid in participants}`
  participantWeights := participants.foldl
    (fun d pid => d.set pid ((participantWeights.get pid).getD 1)) .empty
  participants := participants
  expiresAt := some expiresAt
  requiredApprovalWeight := requiredVotes

/-! ## Soundness of closing early -/

def ApprovalMet (strategy : VotingStrategy) (requiredApprovalWeight : Option ℚ)
    (approvals total : ℚ) : Prop :=
  match strategy, requiredApprovalWeight with
  | .quorum, none => total / 2 < approvals
  | .quorum, some required => required ≤ approvals
  | .unanimous, _ => total ≤ approvals
  | .superMajority, _ => total * 2 / 3 ≤ approvals

namespace ElectionData

def Approved (defaultStrategy : VotingStrategy) (e : ElectionData) : Prop :=
  ApprovalMet (e.votingStrategy defaultStrategy) e.requiredApprovalWeight
    (e.decisionWeight "APPROVE") e.totalWeight

/-- How the election may go on: some of those who have not voted do. -/
def Continues (e e' : ElectionData) : Prop :=
  ∃ rest : List Vote, (rest.map (·.agentId)).Nodup ∧
    (∀ v ∈ rest, v.agentId ∈ e.participants ∧ v.agentId ∉ e.votes.keys ∧
      (v.decision = "APPROVE" ∨ v.decision = "DENY" ∨ v.decision = "ABSTAIN")) ∧
    e' = e.storeVotes rest

/-- **Closing early is sound**: where the election is resolved, it is approved exactly if the
approval condition holds however the others vote. -/
def ResolvesSoundly (defaultStrategy : VotingStrategy) (e : ElectionData) : Prop :=
  ∀ decision, e.resolution defaultStrategy = (true, decision) →
    ∀ e', e.Continues e' → (e'.Approved defaultStrategy ↔ decision = "APPROVE")

def outstanding (e : ElectionData) : List String :=
  e.participants.dedup.filter (· ∉ e.votes.keys)

/-- The approving weight, if everybody who has not voted approves. -/
def reachable (e : ElectionData) : ℚ :=
  e.decisionWeight "APPROVE" + (e.outstanding.map e.weightOf).sum

/-- A ballot: the votes of distinct participants, each under its agent, with weights that are not
negative. -/
structure Ballot (e : ElectionData) : Prop where
  weights : ∀ pid ∈ e.participants, 0 ≤ e.weightOf pid
  agents : ∀ entry ∈ e.votes.entries, entry.1 = entry.2.agentId
  eligible : ∀ pid ∈ e.votes.keys, pid ∈ e.participants

/-! ## Storing votes -/

section StoreVotes

variable {e : ElectionData} {rest : List Vote}

theorem storeVotes_nil (e : ElectionData) : e.storeVotes [] = e := rfl

theorem storeVotes_cons (e : ElectionData) (v : Vote) (rest : List Vote) :
    e.storeVotes (v :: rest) = (e.storeVote v).storeVotes rest := rfl

theorem storeVotes_eq (e : ElectionData) (rest : List Vote) :
    ∃ votes, e.storeVotes rest = { e with votes := votes } := by
  induction rest generalizing e with
  | nil => exact ⟨e.votes, rfl⟩
  | cons v rest ih =>
    obtain ⟨votes, hvotes⟩ := ih (e.storeVote v)
    exact ⟨votes, hvotes⟩

theorem entries_storeVotes (hdistinct : (rest.map (·.agentId)).Nodup)
    (hnew : ∀ v ∈ rest, v.agentId ∉ e.votes.keys) :
    (e.storeVotes rest).votes.entries = e.votes.entries ++ rest.map fun v => (v.agentId, v) := by
  induction rest generalizing e with
  | nil => rw [storeVotes_nil, List.map_nil, List.append_nil]
  | cons v rest ih =>
    have hv : v.agentId ∉ e.votes.keys := hnew v (List.mem_cons_self ..)
    rw [List.map_cons, List.nodup_cons] at hdistinct
    rw [storeVotes_cons, ih hdistinct.2 fun u hu => ?_]
    · simp only [storeVote, Dict.entries_set_of_new hv, List.append_assoc, List.map_cons,
        List.singleton_append]
    · simp only [storeVote, Dict.keys_set_of_new hv, List.mem_append, List.mem_singleton, not_or]
      refine ⟨hnew u (List.mem_cons_of_mem _ hu), fun heq => hdistinct.1 ?_⟩
      exact heq ▸ List.mem_map_of_mem hu

theorem decisionWeight_storeVotes (hdistinct : (rest.map (·.agentId)).Nodup)
    (hnew : ∀ v ∈ rest, v.agentId ∉ e.votes.keys) (decision : String) :
    (e.storeVotes rest).decisionWeight decision = e.decisionWeight decision +
      ((rest.filter (·.decision = decision)).map fun v => e.weightOf v.agentId).sum := by
  have hweight : (e.storeVotes rest).weightOf = e.weightOf := by
    obtain ⟨votes, hvotes⟩ := storeVotes_eq e rest
    rw [hvotes]
    rfl
  have hvalues : (e.storeVotes rest).votes.values = e.votes.values ++ rest := by
    rw [Dict.values, entries_storeVotes hdistinct hnew, List.map_append, List.map_map]
    exact congrArg _ (List.map_id rest)
  rw [decisionWeight, decisionWeight, hvalues, hweight, List.filter_append, List.map_append,
    List.sum_append]

theorem approved_storeVotes {defaultStrategy : VotingStrategy} :
    (e.storeVotes rest).Approved defaultStrategy ↔
      ApprovalMet (e.votingStrategy defaultStrategy) e.requiredApprovalWeight
        ((e.storeVotes rest).decisionWeight "APPROVE") e.totalWeight := by
  obtain ⟨votes, hvotes⟩ := storeVotes_eq e rest
  rw [hvotes]
  rfl

end StoreVotes

/-! ## What the others can still add -/

theorem sum_map_le_of_subset {w : String → ℚ} {l m : List String} (hl : l.Nodup) (hsub : l ⊆ m)
    (hw : ∀ a ∈ m, 0 ≤ w a) : (l.map w).sum ≤ (m.map w).sum := by
  obtain ⟨l', hperm, hsublist⟩ := List.subperm_of_subset hl hsub
  rw [← (hperm.map w).sum_eq]
  refine (hsublist.map w).sum_le_sum fun x hx => ?_
  obtain ⟨a, ha, rfl⟩ := List.mem_map.mp hx
  exact hw a ha

def agentsFor (e : ElectionData) (decision : String) : List String :=
  (e.votes.entries.filter (·.2.decision = decision)).map Prod.fst

theorem ballot_storeVotes {e : ElectionData} {votes : List Vote} (hnone : e.votes.entries = [])
    (hweights : ∀ pid ∈ e.participants, 0 ≤ e.weightOf pid)
    (hdistinct : (votes.map (·.agentId)).Nodup)
    (heligible : ∀ v ∈ votes, v.agentId ∈ e.participants) : (e.storeVotes votes).Ballot := by
  have hentries : (e.storeVotes votes).votes.entries = votes.map fun v => (v.agentId, v) := by
    rw [entries_storeVotes hdistinct fun v _ => by simp [Dict.keys, hnone], hnone, List.nil_append]
  obtain ⟨dict, hdict⟩ := storeVotes_eq e votes
  rw [hdict] at hentries ⊢
  refine ⟨hweights, fun entry hentry => ?_, fun pid hpid => ?_⟩
  · rw [hentries] at hentry
    obtain ⟨v, _, rfl⟩ := List.mem_map.mp hentry
    rfl
  · rw [Dict.keys, hentries] at hpid
    obtain ⟨entry, hentry, rfl⟩ := List.mem_map.mp hpid
    obtain ⟨v, hv, rfl⟩ := List.mem_map.mp hentry
    exact heligible v hv

namespace Ballot

variable {e : ElectionData} (h : e.Ballot)

include h

theorem decisionWeight_eq (decision : String) :
    e.decisionWeight decision = ((e.agentsFor decision).map e.weightOf).sum := by
  rw [decisionWeight, agentsFor, Dict.values, List.filter_map, List.map_map, List.map_map]
  congr 1
  refine List.map_congr_left fun entry hentry => ?_
  simp only [Function.comp_apply]
  rw [h.agents entry (List.mem_of_mem_filter hentry)]

omit h in
theorem agentsFor_nodup (decision : String) : (e.agentsFor decision).Nodup :=
  e.votes.nodup.sublist (List.filter_sublist.map _)

omit h in
theorem mem_keys_of_agentsFor {decision pid : String} (hpid : pid ∈ e.agentsFor decision) :
    pid ∈ e.votes.keys :=
  (List.filter_sublist.map Prod.fst).subset hpid

omit h in
theorem agentsFor_disjoint {d d' : String} (hne : d ≠ d') :
    List.Disjoint (e.agentsFor d) (e.agentsFor d') := by
  intro pid hd hd'
  obtain ⟨x, hx, rfl⟩ := List.mem_map.mp hd
  obtain ⟨y, hy, heq⟩ := List.mem_map.mp hd'
  obtain ⟨hx, hxd⟩ := List.mem_filter.mp hx
  obtain ⟨hy, hyd⟩ := List.mem_filter.mp hy
  have hxy := List.inj_on_of_nodup_map e.votes.nodup hy hx heq
  simp only [decide_eq_true_eq] at hxd hyd
  exact hne (hxd.symm.trans (hxy ▸ hyd))

omit h in
theorem mem_outstanding {pid : String} :
    pid ∈ e.outstanding ↔ pid ∈ e.participants ∧ pid ∉ e.votes.keys := by
  simp [outstanding]

omit h in
theorem outstanding_nodup : e.outstanding.Nodup := (List.nodup_dedup _).filter _

/-- **The denying and the reachable weight never exceed the total.** -/
theorem denials_add_reachable_le :
    e.decisionWeight "DENY" + e.reachable ≤ e.totalWeight := by
  have hnodup : (e.agentsFor "DENY" ++ (e.agentsFor "APPROVE" ++ e.outstanding)).Nodup := by
    refine (agentsFor_nodup _).append ((agentsFor_nodup _).append outstanding_nodup ?_) ?_
    · exact fun pid hvoted hout => (mem_outstanding.mp hout).2 (mem_keys_of_agentsFor hvoted)
    · refine List.disjoint_append_right.mpr ⟨agentsFor_disjoint (by decide), ?_⟩
      exact fun pid hvoted hout => (mem_outstanding.mp hout).2 (mem_keys_of_agentsFor hvoted)
  have hsub : e.agentsFor "DENY" ++ (e.agentsFor "APPROVE" ++ e.outstanding) ⊆
      e.participants := by
    intro pid hpid
    rcases List.mem_append.mp hpid with hpid | hpid
    · exact h.eligible pid (mem_keys_of_agentsFor hpid)
    · rcases List.mem_append.mp hpid with hpid | hpid
      · exact h.eligible pid (mem_keys_of_agentsFor hpid)
      · exact (mem_outstanding.mp hpid).1
  have hsum := sum_map_le_of_subset hnodup hsub h.weights
  rwa [List.map_append, List.map_append, List.sum_append, List.sum_append,
    ← h.decisionWeight_eq, ← h.decisionWeight_eq] at hsum

theorem decisionWeight_bounds {rest : List Vote} (hdistinct : (rest.map (·.agentId)).Nodup)
    (hrest : ∀ v ∈ rest, v.agentId ∈ e.participants ∧ v.agentId ∉ e.votes.keys) :
    e.decisionWeight "APPROVE" ≤ (e.storeVotes rest).decisionWeight "APPROVE" ∧
      (e.storeVotes rest).decisionWeight "APPROVE" ≤ e.reachable := by
  rw [decisionWeight_storeVotes hdistinct fun v hv => (hrest v hv).2]
  constructor
  · refine le_add_of_nonneg_right (List.sum_nonneg fun x hx => ?_)
    obtain ⟨v, hv, rfl⟩ := List.mem_map.mp hx
    exact h.weights _ (hrest v (List.mem_of_mem_filter hv)).1
  · refine add_le_add_right ?_ _
    have hmap : ((rest.filter (·.decision = "APPROVE")).map fun v => e.weightOf v.agentId) =
        ((rest.filter (·.decision = "APPROVE")).map (·.agentId)).map e.weightOf := by
      rw [List.map_map]
      rfl
    rw [hmap]
    refine sum_map_le_of_subset (hdistinct.sublist (List.filter_sublist.map _)) ?_ ?_
    · intro pid hpid
      obtain ⟨v, hv, rfl⟩ := List.mem_map.mp hpid
      exact mem_outstanding.mpr (hrest v (List.mem_of_mem_filter hv))
    · exact fun pid hpid => h.weights pid (mem_outstanding.mp hpid).1

omit h in
theorem exists_continues_reachable :
    ∃ rest, e.Continues (e.storeVotes rest) ∧
      (e.storeVotes rest).decisionWeight "APPROVE" = e.reachable := by
  have hagents : (e.outstanding.map fun pid => (⟨pid, "APPROVE", none, 0⟩ : Vote)).map
      (·.agentId) = e.outstanding := by
    rw [List.map_map]
    exact List.map_id _
  have hdistinct := hagents.symm ▸ outstanding_nodup (e := e)
  refine ⟨e.outstanding.map fun pid => ⟨pid, "APPROVE", none, 0⟩,
    ⟨_, hdistinct, fun v hv => ?_, rfl⟩, ?_⟩
  · obtain ⟨pid, hpid, rfl⟩ := List.mem_map.mp hv
    exact ⟨(mem_outstanding.mp hpid).1, (mem_outstanding.mp hpid).2, .inl rfl⟩
  · rw [decisionWeight_storeVotes hdistinct fun v hv => ?_, reachable]
    · rw [List.filter_eq_self.mpr, List.map_map]
      · rfl
      · intro v hv
        obtain ⟨pid, _, rfl⟩ := List.mem_map.mp hv
        rfl
    · obtain ⟨pid, hpid, rfl⟩ := List.mem_map.mp hv
      exact (mem_outstanding.mp hpid).2

end Ballot

/-! ## When closing early is sound -/

section Sound

variable {e : ElectionData} {defaultStrategy : VotingStrategy}

theorem approvalMet_mono {strategy : VotingStrategy} {required : Option ℚ} {a a' total : ℚ}
    (hle : a ≤ a') (h : ApprovalMet strategy required a total) :
    ApprovalMet strategy required a' total := by
  cases strategy with
  | quorum =>
    rcases required with _ | required
    · exact lt_of_lt_of_le h hle
    · exact le_trans h hle
  | unanimous => exact le_trans h hle
  | superMajority => exact le_trans h hle

theorem Ballot.resolvesSoundly_iff_met (h : e.Ballot) :
    e.ResolvesSoundly defaultStrategy ↔ ∀ decision,
      e.resolution defaultStrategy = (true, decision) →
        if decision = "APPROVE" then e.Approved defaultStrategy
        else ¬ ApprovalMet (e.votingStrategy defaultStrategy) e.requiredApprovalWeight
          e.reachable e.totalWeight := by
  refine forall_congr' fun decision => forall_congr' fun _ => ?_
  constructor
  · intro hall
    split
    · rename_i happrove
      exact (hall e ⟨[], List.nodup_nil, by simp, rfl⟩).mpr happrove
    · rename_i hdeny
      obtain ⟨rest, hcont, hreach⟩ := Ballot.exists_continues_reachable (e := e)
      intro hmet
      refine hdeny ((hall _ hcont).mp ?_)
      rwa [approved_storeVotes, hreach]
  · rintro hdecided _ ⟨rest, hdistinct, hrest, rfl⟩
    obtain ⟨hgrows, hbound⟩ :=
      h.decisionWeight_bounds hdistinct fun v hv => ⟨(hrest v hv).1, (hrest v hv).2.1⟩
    rw [approved_storeVotes]
    split at hdecided
    · rename_i happrove
      exact iff_of_true (approvalMet_mono hgrows hdecided) happrove
    · rename_i hdeny
      exact iff_of_false (fun hmet => hdecided (approvalMet_mono hbound hmet)) hdeny

/-- An election that a majority of the weight denies, although a required approval weight is not
reached yet and still within reach. -/
def DeniesWithinReach (defaultStrategy : VotingStrategy) (e : ElectionData) : Prop :=
  e.votingStrategy defaultStrategy = .quorum ∧ ∃ required,
    e.requiredApprovalWeight = some required ∧ e.totalWeight / 2 ≤ e.decisionWeight "DENY" ∧
      e.decisionWeight "APPROVE" < required ∧ required ≤ e.reachable

theorem checkUnanimousResolution_sound {approvals denials total reachable : ℚ}
    {required : Option ℚ} {decision : String} (hle : denials + reachable ≤ total)
    (hres : checkUnanimousResolution approvals denials total = (true, decision)) :
    if decision = "APPROVE" then ApprovalMet .unanimous required approvals total
    else ¬ ApprovalMet .unanimous required reachable total := by
  simp only [ApprovalMet]
  unfold checkUnanimousResolution at hres
  split at hres
  · rename_i happrove
    cases hres
    rwa [if_pos rfl]
  · split at hres
    · rename_i hdeny
      cases hres
      rw [if_neg (by decide)]
      linarith
    · cases hres

theorem checkSuperMajorityResolution_sound {approvals denials total reachable : ℚ}
    {required : Option ℚ} {decision : String} (hle : denials + reachable ≤ total)
    (hres : checkSuperMajorityResolution approvals denials total = (true, decision)) :
    if decision = "APPROVE" then ApprovalMet .superMajority required approvals total
    else ¬ ApprovalMet .superMajority required reachable total := by
  simp only [ApprovalMet]
  unfold checkSuperMajorityResolution at hres
  split at hres
  · rename_i happrove
    cases hres
    rwa [if_pos rfl]
  · split at hres
    · rename_i hdeny
      cases hres
      rw [if_neg (by decide)]
      linarith
    · cases hres

theorem checkQuorumResolution_sound_none {approvals denials total reachable : ℚ}
    {decision : String} (hle : denials + reachable ≤ total)
    (hres : checkQuorumResolution approvals denials total none = (true, decision)) :
    if decision = "APPROVE" then ApprovalMet .quorum none approvals total
    else ¬ ApprovalMet .quorum none reachable total := by
  simp only [checkQuorumResolution, ApprovalMet, ne_eq, not_true_eq_false, false_and, if_false,
    and_true] at hres ⊢
  split at hres
  · rename_i happrove
    cases hres
    rwa [if_pos rfl]
  · split at hres
    · rename_i hdeny
      cases hres
      rw [if_neg (by decide)]
      linarith
    · cases hres

theorem checkQuorumResolution_sound_some_iff {approvals denials total reachable required : ℚ}
    (hle : denials + reachable ≤ total) :
    (∀ decision, checkQuorumResolution approvals denials total (some required) =
        (true, decision) →
      if decision = "APPROVE" then ApprovalMet .quorum (some required) approvals total
      else ¬ ApprovalMet .quorum (some required) reachable total) ↔
    ¬ (total / 2 ≤ denials ∧ approvals < required ∧ required ≤ reachable) := by
  simp only [checkQuorumResolution, ApprovalMet, ne_eq, reduceCtorEq, and_false, if_false,
    not_false_eq_true, true_and, Option.getD_some]
  constructor
  · rintro hall ⟨hdeny, hopen, hreach⟩
    have hdecide := hall "DENY"
    rw [if_neg (not_le.mpr hopen), if_neg (by linarith), if_pos hdeny, if_neg (by decide)] at hdecide
    exact hdecide rfl hreach
  · intro hexcluded decision hres
    split at hres
    · rename_i happrove
      cases hres
      rwa [if_pos rfl]
    · rename_i hopen
      split at hres
      · rename_i hout
        cases hres
        rw [if_neg (by decide)]
        linarith
      · split at hres
        · rename_i hdeny
          cases hres
          rw [if_neg (by decide)]
          exact fun hreach => hexcluded ⟨hdeny, not_le.mp hopen, hreach⟩
        · cases hres

theorem Ballot.resolvesSoundly_iff (h : e.Ballot) :
    e.ResolvesSoundly defaultStrategy ↔ ¬ e.DeniesWithinReach defaultStrategy := by
  rw [h.resolvesSoundly_iff_met]
  have hle := h.denials_add_reachable_le
  simp only [resolution, Approved, DeniesWithinReach, calculateVoteWeights,
    evaluateStrategyResolution]
  cases e.votingStrategy defaultStrategy with
  | unanimous =>
    exact iff_of_true (fun decision hres => checkUnanimousResolution_sound hle hres) (by simp)
  | superMajority =>
    exact iff_of_true (fun decision hres => checkSuperMajorityResolution_sound hle hres)
      (by simp)
  | quorum =>
    rcases e.requiredApprovalWeight with _ | required
    · exact iff_of_true (fun decision hres => checkQuorumResolution_sound_none hle hres)
        (by simp)
    · rw [checkQuorumResolution_sound_some_iff hle]
      simp

end Sound

end ElectionData

/-! ## New elections -/

section NewElection

variable {defaultStrategy : VotingStrategy} {participants : List String}
variable {participantWeights : Dict String ℚ} {requiredVotes : Option ℚ} {expiresAt : Time}
variable {votes : List Vote}

theorem weightOf_newElection {pid : String} (hpid : pid ∈ participants) :
    (newElection defaultStrategy participants participantWeights requiredVotes expiresAt).weightOf
      pid = (participantWeights.get pid).getD 1 := by
  have hfold (l : List String) (d : Dict String ℚ)
      (hd : pid ∈ l ∨ d.get pid = some ((participantWeights.get pid).getD 1)) :
      (l.foldl (fun d p => d.set p ((participantWeights.get p).getD 1)) d).get pid =
        some ((participantWeights.get pid).getD 1) := by
    induction l generalizing d with
    | nil => exact hd.resolve_left List.not_mem_nil
    | cons p l ih =>
      refine ih _ ?_
      rw [Dict.get_set]
      by_cases hp : pid = p
      · exact .inr (by rw [if_pos hp, hp])
      · rw [if_neg hp]
        exact hd.imp_left fun hmem => (List.mem_cons.mp hmem).resolve_left hp
  rw [ElectionData.weightOf, newElection, hfold participants .empty (.inl hpid)]
  rfl

theorem ballot_newElection
    (hweights : ∀ pid ∈ participants, 0 ≤ (participantWeights.get pid).getD 1)
    (hdistinct : (votes.map (·.agentId)).Nodup)
    (heligible : ∀ v ∈ votes, v.agentId ∈ participants) :
    ((newElection defaultStrategy participants participantWeights requiredVotes
      expiresAt).storeVotes votes).Ballot := by
  refine ElectionData.ballot_storeVotes rfl ?_ hdistinct heligible
  intro pid (hpid : pid ∈ participants)
  rw [weightOf_newElection hpid]
  exact hweights pid hpid

end NewElection

/-- Three members of weight 1, of whom two deny, where the weight of one approval is required:
the election is denied, although the third could still have it approved. -/
theorem council_denied_within_reach :
    ¬ ((newElection .quorum ["ann", "bob", "eve"] .empty (some 1) 0).storeVotes
      [⟨"ann", "DENY", none, 0⟩, ⟨"bob", "DENY", none, 0⟩]).ResolvesSoundly .quorum := by
  intro hsound
  have happroved := hsound "DENY" (by decide +kernel)
    ((newElection .quorum ["ann", "bob", "eve"] .empty (some 1) 0).storeVotes
      [⟨"ann", "DENY", none, 0⟩, ⟨"bob", "DENY", none, 0⟩, ⟨"eve", "APPROVE", none, 0⟩])
    ⟨[⟨"eve", "APPROVE", none, 0⟩], by decide, by decide +kernel, rfl⟩
  refine absurd (happroved.mp ?_) (by decide)
  change (1 : ℚ) ≤ _
  decide +kernel

/-- **Early resolution, exactly.**  For votes of distinct participants in a new election, closing
the election early agrees with every way in which the others could vote, if and only if not: the
strategy is the quorum, the denying weight is at least half of the total, and the required
approval weight is not reached but within reach. -/
theorem early_resolution_sound_iff (defaultStrategy : VotingStrategy)
    (participants : List String) (participantWeights : Dict String ℚ)
    (requiredVotes : Option ℚ) (expiresAt : Time) (votes : List Vote)
    (hweights : ∀ pid ∈ participants, 0 ≤ (participantWeights.get pid).getD 1)
    (hdistinct : (votes.map (·.agentId)).Nodup)
    (heligible : ∀ v ∈ votes, v.agentId ∈ participants) :
    ((newElection defaultStrategy participants participantWeights requiredVotes
      expiresAt).storeVotes votes).ResolvesSoundly defaultStrategy ↔
    ¬ ((newElection defaultStrategy participants participantWeights requiredVotes
      expiresAt).storeVotes votes).DeniesWithinReach defaultStrategy :=
  (ballot_newElection hweights hdistinct heligible).resolvesSoundly_iff

/-- The theorem where no weight is required: one of three denied. -/
theorem early_resolution_sound_iff_council :
    ((newElection .superMajority ["ann", "bob", "eve"] .empty none 0).storeVotes
      [⟨"ann", "DENY", none, 0⟩]).ResolvesSoundly .superMajority ↔
    ¬ ((newElection .superMajority ["ann", "bob", "eve"] .empty none 0).storeVotes
      [⟨"ann", "DENY", none, 0⟩]).DeniesWithinReach .superMajority :=
  early_resolution_sound_iff .superMajority ["ann", "bob", "eve"] .empty none 0
    [⟨"ann", "DENY", none, 0⟩] (fun _ _ => zero_le_one) (by decide) (by decide)

end EnhancedAgentBus.Deliberation
