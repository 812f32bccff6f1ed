import EnhancedAgentBus.Lib.Dict
import EnhancedAgentBus.Lib.Machine
import Mathlib.Algebra.Order.Floor.Semifield
import Mathlib.Data.Rat.Floor

/-!
# The consensus mechanism of the swarm

Proposals, the votes on them, and the decision that `check_consensus` computes from the votes
whenever it is called.  Nothing closes a proposal: votes are accepted until the deadline, and a
decision is overwritten by the next one.

That a decision stays all the same rests on the count of the votes.  Nobody changes a vote, so the
approvals that have decided a proposal stay enough, and rejections that leave too few voters leave
too few for good (`Settled`).  What the count does not cover is `force_resolve`.

The requirement itself is one formula for the four types, `int(total * threshold) + 1`.  It says
*more than* a share, so it is right for a majority, one too many for "at least" and for "all", and
for a third it is as good as the two digits of the threshold (`Attained`).
-/

namespace EnhancedAgentBus.Swarm

abbrev Time := ℤ

inductive ConsensusType where
  /-- Simple majority (>50%) -/
  | majority
  /-- 2/3 majority -/
  | supermajority
  /-- All agents agree -/
  | unanimous
  /-- Minimum threshold met -/
  | quorum
  deriving DecidableEq

structure ConsensusProposal where
  votes : Dict String Bool := .empty
  requiredType : ConsensusType := .majority
  deadline : Time
  result : Option Bool := none
  completedAt : Option Time := none

structure ConsensusMechanism where
  proposals : Dict String ConsensusProposal := .empty
  /-- the proposals on which a voter has tried to change a vote -/
  faultyVoters : Dict String (List String) := .empty
  completedProposals : Dict String Time := .empty
  maxFaultyVoters : ℕ := 1000
  maxCompletedProposals : ℕ := 10000

/-- `_thresholds`: the code's floats, without their rounding. -/
def ConsensusType.threshold : ConsensusType → ℚ
  | majority => 0.5
  | supermajority => 0.67
  | unanimous => 1.0
  | quorum => 0.33

/-- `int(total_voters * threshold) + 1` -/
def ConsensusType.requiredVotes (type : ConsensusType) (totalVoters : ℕ) : ℕ :=
  ⌊totalVoters * type.threshold⌋₊ + 1

namespace ConsensusProposal

def approvals (q : ConsensusProposal) : ℕ := q.votes.values.countP id

/-- `votes_cast - approvals` -/
def rejections (q : ConsensusProposal) : ℕ := q.votes.values.length - q.approvals

end ConsensusProposal

namespace ConsensusMechanism

def trimFaultyVoters (M : ConsensusMechanism) : ConsensusMechanism :=
  { M with faultyVoters := M.faultyVoters.drop (M.faultyVoters.keys.length - M.maxFaultyVoters) }

def trimCompletedProposals (M : ConsensusMechanism) : ConsensusMechanism :=
  { M with
    completedProposals :=
      M.completedProposals.drop (M.completedProposals.keys.length - M.maxCompletedProposals) }

def noteFault (M : ConsensusMechanism) (proposalId voterId : String) : ConsensusMechanism :=
  let noted := (M.faultyVoters.get voterId).getD []
  if proposalId ∈ noted then M
  else
    { M with
      faultyVoters := M.faultyVoters.set voterId (noted ++ [proposalId]) }.trimFaultyVoters

def vote (M : ConsensusMechanism) (proposalId voterId : String) (approve : Bool)
    (currentTime : Time) : Bool × ConsensusMechanism :=
  match M.proposals.get proposalId with
  | none => (false, M)
  | some q =>
    if q.deadline < currentTime then (false, M)
    else if q.votes.get voterId = some !approve then (false, M.noteFault proposalId voterId)
    else
      (true, { M with
        proposals := M.proposals.set proposalId
          { q with votes := q.votes.set voterId approve } })

/-- A decision, as `check_consensus` and `force_resolve` enter it. -/
def complete (M : ConsensusMechanism) (proposalId : String) (q : ConsensusProposal) (result : Bool)
    (currentTime : Time) : ConsensusMechanism :=
  { M with
    proposals := M.proposals.set proposalId
      { q with result := some result, completedAt := some currentTime }
    completedProposals := M.completedProposals.set proposalId currentTime
  }.trimCompletedProposals

/-- The decision that `check_consensus` comes to. -/
def decision (q : ConsensusProposal) (totalVoters : ℕ) (timeoutRecovery : Bool)
    (currentTime : Time) : Option Bool :=
  let requiredVotes := q.requiredType.requiredVotes totalVoters
  if requiredVotes ≤ q.approvals then some true
  -- no consensus is possible any more; for more required votes than voters this is not positive
  else if (totalVoters : ℤ) - requiredVotes + 1 ≤ q.rejections then some false
  else if q.deadline < currentTime ∧ timeoutRecovery = true then some false
  else none

/-- `check_consensus`: whether there is a decision, and which. -/
def checkConsensus (M : ConsensusMechanism) (proposalId : String) (totalVoters : ℕ)
    (timeoutRecovery : Bool) (currentTime : Time) : (Bool × Option Bool) × ConsensusMechanism :=
  match M.proposals.get proposalId with
  | none => ((false, none), M)
  | some q =>
    if totalVoters = 0 then ((false, none), M)
    else match decision q totalVoters timeoutRecovery currentTime with
      | some result => ((true, some result), M.complete proposalId q result currentTime)
      | none => ((false, none), M)

def forceResolve (M : ConsensusMechanism) (proposalId : String) (defaultResult : Bool)
    (currentTime : Time) : Option Bool × ConsensusMechanism :=
  match M.proposals.get proposalId with
  | none => (none, M)
  | some q => (some defaultResult, M.complete proposalId q defaultResult currentTime)

end ConsensusMechanism

/-! ## Runs -/

inductive ConsensusCall where
  | vote (proposalId voterId : String) (approve : Bool)
  | check (proposalId : String) (timeoutRecovery : Bool)
  | force (proposalId : String) (defaultResult : Bool)

structure ConsensusEvent where
  elapsed : ℕ
  call : ConsensusCall

structure ConsensusState where
  mechanism : ConsensusMechanism
  now : Time

namespace ConsensusState

def instant (s : ConsensusState) (e : ConsensusEvent) : Time := s.now + e.elapsed

def step (totalVoters : ℕ) (s : ConsensusState) (e : ConsensusEvent) : ConsensusState where
  mechanism := match e.call with
    | .vote proposalId voterId approve => (s.mechanism.vote proposalId voterId approve (s.instant e)).2
    | .check proposalId timeoutRecovery =>
      (s.mechanism.checkConsensus proposalId totalVoters timeoutRecovery (s.instant e)).2
    | .force proposalId defaultResult =>
      (s.mechanism.forceResolve proposalId defaultResult (s.instant e)).2
  now := s.instant e

end ConsensusState

/-! ## The formula -/

namespace ConsensusType

/-- What a type of consensus asks of the approvals among `n` voters. -/
def Met : ConsensusType → ℕ → ℕ → Prop
  | majority, n, approvals => n < 2 * approvals
  | supermajority, n, approvals => 67 * n ≤ 100 * approvals
  | unanimous, n, approvals => n ≤ approvals
  | quorum, n, approvals => n < 3 * approvals

def Attained : ConsensusType → ℕ → Prop
  | majority, _ => True
  | supermajority, n => ¬ 100 ∣ n
  | unanimous, _ => False
  | quorum, n => 100 * (n / 3) ≤ 33 * n

theorem requiredVotes_eq (type : ConsensusType) (n : ℕ) :
    type.requiredVotes n = match type with
      | majority => n / 2 + 1
      | supermajority => 67 * n / 100 + 1
      | unanimous => n + 1
      | quorum => 33 * n / 100 + 1 := by
  have hshare : ∀ (θ : ℚ) (a b : ℕ), (n : ℚ) * θ = (a : ℚ) / b → ⌊(n : ℚ) * θ⌋₊ = a / b := by
    intro θ a b h
    rw [h, Nat.floor_div_eq_div]
  cases type with
  | majority => exact congrArg (· + 1) (hshare _ n 2 (by norm_num [threshold]; ring))
  | supermajority =>
    exact congrArg (· + 1) (hshare _ (67 * n) 100 (by norm_num [threshold]; ring))
  | unanimous =>
    exact congrArg (· + 1) ((hshare _ n 1 (by norm_num [threshold])).trans (Nat.div_one n))
  | quorum => exact congrArg (· + 1) (hshare _ (33 * n) 100 (by norm_num [threshold]; ring))

theorem attained_iff (type : ConsensusType) (n : ℕ) :
    type.Attained n ↔ ∀ a ≤ n, type.requiredVotes n ≤ a ↔ type.Met n a := by
  rw [requiredVotes_eq]
  cases type with
  | majority =>
    simp only [Attained, Met, true_iff]
    intro a _
    omega
  | supermajority =>
    simp only [Attained, Met]
    constructor
    · intro h a _
      omega
    · rintro h ⟨k, rfl⟩
      have := h (67 * k) (by omega)
      omega
  | unanimous =>
    simp only [Attained, Met, false_iff, not_forall]
    exact ⟨n, le_rfl, by omega⟩
  | quorum =>
    simp only [Attained, Met]
    constructor
    · intro h a _
      have hthird : n < 3 * a ↔ n / 3 < a := by omega
      omega
    · intro h
      have := h (n / 3) (by omega)
      omega

end ConsensusType

/-! ## What a call does to a proposal -/

namespace ConsensusProposal

theorem approvals_add_rejections (q : ConsensusProposal) :
    q.approvals + q.rejections = q.votes.values.length :=
  Nat.add_sub_cancel' List.countP_le_length

theorem length_values (q : ConsensusProposal) : q.votes.values.length = q.votes.keys.length := by
  rw [Dict.values, Dict.keys, List.length_map, List.length_map]

theorem length_votes_le {q : ConsensusProposal} {agents : List String}
    (h : q.votes.keys ⊆ agents) : q.votes.values.length ≤ agents.length := by
  rw [length_values]
  exact (List.subperm_of_subset q.votes.nodup h).length_le

theorem approvals_set {q : ConsensusProposal} {voterId : String} {approve : Bool}
    (h : voterId ∉ q.votes.keys) :
    { q with votes := q.votes.set voterId approve }.approvals = q.approvals + approve.toNat := by
  simp only [approvals, Dict.values_set_of_new h, List.countP_append]
  cases approve <;> rfl

theorem rejections_le_set (q : ConsensusProposal) {voterId : String} (approve : Bool)
    (h : voterId ∉ q.votes.keys) :
    q.rejections ≤ { q with votes := q.votes.set voterId approve }.rejections := by
  have hbefore := q.approvals_add_rejections
  have hafter := approvals_add_rejections { q with votes := q.votes.set voterId approve }
  have hone := Bool.toNat_le approve
  simp only [approvals_set h, Dict.values_set_of_new h, List.length_append,
    List.length_singleton] at hafter
  omega

end ConsensusProposal

namespace ConsensusMechanism

theorem get_complete (M : ConsensusMechanism) (p p' : String) (q : ConsensusProposal) (r : Bool)
    (t : Time) : (M.complete p q r t).proposals.get p' =
      if p' = p then some { q with result := some r, completedAt := some t }
      else M.proposals.get p' :=
  Dict.get_set ..

theorem proposals_noteFault (M : ConsensusMechanism) (p voterId : String) :
    (M.noteFault p voterId).proposals = M.proposals := by
  simp only [noteFault]
  split <;> rfl

theorem decision_true_iff {q : ConsensusProposal} {n : ℕ} {timeoutRecovery : Bool} {t : Time} :
    decision q n timeoutRecovery t = some true ↔ q.requiredType.requiredVotes n ≤ q.approvals := by
  unfold decision
  split_ifs <;> simp_all

theorem decision_false {q : ConsensusProposal} {n : ℕ} {timeoutRecovery : Bool} {t : Time}
    (h : decision q n timeoutRecovery t = some false) :
    q.approvals < q.requiredType.requiredVotes n ∧
      ((n : ℤ) - q.requiredType.requiredVotes n + 1 ≤ q.rejections ∨ q.deadline < t) := by
  simp only [decision] at h
  split at h
  · cases h
  · rename_i hfew
    refine ⟨not_le.mp hfew, ?_⟩
    split at h
    · next himpossible => exact .inl himpossible
    · split at h
      · next hlate => exact .inr hlate.1
      · cases h

theorem checkConsensus_eq_iff {M : ConsensusMechanism} {p : String} {q : ConsensusProposal}
    {n : ℕ} {timeoutRecovery r : Bool} {t : Time} (hn : 1 ≤ n) (hq : M.proposals.get p = some q) :
    (M.checkConsensus p n timeoutRecovery t).1 = (true, some r) ↔
      decision q n timeoutRecovery t = some r := by
  simp only [checkConsensus, hq, if_neg (Nat.one_le_iff_ne_zero.mp hn)]
  cases decision q n timeoutRecovery t <;> simp

end ConsensusMechanism

namespace ConsensusState

variable {n : ℕ} {p : String} {s : ConsensusState} {e : ConsensusEvent} {q q' : ConsensusProposal}

/-- What an event does to the proposal `p`. -/
inductive Moved (n : ℕ) (p : String) (s : ConsensusState) (e : ConsensusEvent)
    (q : ConsensusProposal) : ConsensusProposal → Prop
  | same : Moved n p s e q q
  | voted {voterId : String} {approve : Bool} (hcall : e.call = .vote p voterId approve)
      (hopen : s.instant e ≤ q.deadline) (hnew : voterId ∉ q.votes.keys) :
      Moved n p s e q { q with votes := q.votes.set voterId approve }
  | decided {timeoutRecovery result : Bool} (hcall : e.call = .check p timeoutRecovery)
      (hdecision : ConsensusMechanism.decision q n timeoutRecovery (s.instant e) = some result) :
      Moved n p s e q { q with result := some result, completedAt := some (s.instant e) }
  | forced {result : Bool} (hcall : e.call = .force p result) :
      Moved n p s e q { q with result := some result, completedAt := some (s.instant e) }

/-- **One event**: the proposal is kept, voted on, decided or resolved by force. -/
theorem step_moved (hq : s.mechanism.proposals.get p = some q) :
    ∃ q', (s.step n e).mechanism.proposals.get p = some q' ∧ Moved n p s e q q' := by
  unfold step
  cases hcall : e.call with
  | vote p' voterId approve =>
    simp only [ConsensusMechanism.vote]
    rcases hq' : s.mechanism.proposals.get p' with _ | q₁
    · exact ⟨q, hq, .same⟩
    · simp only
      split
      · exact ⟨q, hq, .same⟩
      · rename_i hopen
        split
        · exact ⟨q, (ConsensusMechanism.proposals_noteFault ..).symm ▸ hq, .same⟩
        · rename_i hchanged
          by_cases hp : p = p'
          · subst hp
            obtain rfl := Option.some_inj.mp (hq'.symm.trans hq)
            refine ⟨_, (Dict.get_set ..).trans (if_pos rfl), ?_⟩
            by_cases hnew : voterId ∈ q₁.votes.keys
            · -- the same vote again
              obtain ⟨v, hv⟩ := Dict.mem_keys_iff.mp hnew
              obtain rfl : v = approve := by
                rw [hv, Option.some_inj] at hchanged
                revert hchanged
                cases v <;> cases approve <;> simp
              rw [Dict.set_of_get hv]
              exact .same
            · exact .voted hcall (not_lt.mp hopen) hnew
          · exact ⟨q, ((Dict.get_set ..).trans (if_neg hp)).trans hq, .same⟩
  | check p' timeoutRecovery =>
    simp only [ConsensusMechanism.checkConsensus]
    rcases hq' : s.mechanism.proposals.get p' with _ | q₁
    · exact ⟨q, hq, .same⟩
    · simp only
      split
      · exact ⟨q, hq, .same⟩
      · split
        · rename_i result hdecision
          rw [ConsensusMechanism.get_complete]
          by_cases hp : p = p'
          · subst hp
            obtain rfl := Option.some_inj.mp (hq'.symm.trans hq)
            exact ⟨_, if_pos rfl, .decided hcall hdecision⟩
          · exact ⟨q, (if_neg hp).trans hq, .same⟩
        · exact ⟨q, hq, .same⟩
  | force p' result =>
    simp only [ConsensusMechanism.forceResolve]
    rcases hq' : s.mechanism.proposals.get p' with _ | q₁
    · exact ⟨q, hq, .same⟩
    · rw [ConsensusMechanism.get_complete]
      by_cases hp : p = p'
      · subst hp
        obtain rfl := Option.some_inj.mp (hq'.symm.trans hq)
        exact ⟨_, if_pos rfl, .forced hcall⟩
      · exact ⟨q, (if_neg hp).trans hq, .same⟩

/-! ## A decision stays -/

def Registered (p : String) (agents : List String) (e : ConsensusEvent) : Prop :=
  ∀ voterId approve, e.call = .vote p voterId approve → voterId ∈ agents

def Unforced (p : String) (s : ConsensusState) (e : ConsensusEvent) : Prop :=
  ∀ result, e.call = .force p result → ∀ q, s.mechanism.proposals.get p = some q →
    q.result = none ∨ q.result = some result

structure Open (p : String) (agents : List String) (type : ConsensusType) (s : ConsensusState)
    (q : ConsensusProposal) : Prop where
  get : s.mechanism.proposals.get p = some q
  voters : q.votes.keys ⊆ agents
  requiredType : q.requiredType = type

variable {agents : List String} {type : ConsensusType} {r : Bool}

theorem Moved.keys_subset (h : Moved n p s e q q') (hreg : Registered p agents e)
    (hvoters : q.votes.keys ⊆ agents) : q'.votes.keys ⊆ agents := by
  cases h with
  | same | decided | forced => exact hvoters
  | voted hcall hopen hnew =>
    intro voterId hmem
    simp only [Dict.keys_set_of_new hnew, List.mem_append, List.mem_singleton] at hmem
    rcases hmem with hmem | rfl
    · exact hvoters hmem
    · exact hreg _ _ hcall

theorem Moved.requiredType_eq (h : Moved n p s e q q') : q'.requiredType = q.requiredType := by
  cases h <;> rfl

theorem Open.step (h : Open p agents type s q) (hreg : Registered p agents e) :
    ∃ q', Open p agents type (s.step n e) q' ∧ Moved n p s e q q' := by
  obtain ⟨q', hq', hmoved⟩ := step_moved (n := n) (e := e) h.get
  exact ⟨q', ⟨hq', hmoved.keys_subset hreg h.voters,
    hmoved.requiredType_eq.trans h.requiredType⟩, hmoved⟩

/-- A proposal that is decided for good: by approvals that are enough, by rejections that leave too
few, or because it is too late. -/
structure Settled (n : ℕ) (p : String) (agents : List String) (type : ConsensusType) (r : Bool)
    (s : ConsensusState) (q : ConsensusProposal) : Prop extends Open p agents type s q where
  result : q.result = some r
  approved : r = true → type.requiredVotes n ≤ q.approvals
  rejected : r = false → q.approvals < type.requiredVotes n ∧
    ((n : ℤ) - type.requiredVotes n + 1 ≤ q.rejections ∨ q.deadline < s.now)

/-- **A decision is not changed** by an event that forces no other one. -/
theorem Settled.step (h : Settled n p agents type r s q) (hlength : agents.length = n)
    (hreg : Registered p agents e) (hforce : Unforced p s e) :
    ∃ q', Settled n p agents type r (s.step n e) q' := by
  obtain ⟨q', hopen', hmoved⟩ := h.toOpen.step (n := n) hreg
  have hnow : s.now ≤ (s.step n e).now := by
    show s.now ≤ s.now + (e.elapsed : ℤ)
    exact le_add_of_nonneg_right (Int.natCast_nonneg _)
  have hrejected : r = false → q.approvals < type.requiredVotes n ∧
      ((n : ℤ) - type.requiredVotes n + 1 ≤ q.rejections ∨ q.deadline < (s.step n e).now) :=
    fun hr => ⟨(h.rejected hr).1, (h.rejected hr).2.imp_right fun hlate => hlate.trans_le hnow⟩
  cases hmoved with
  | same => exact ⟨q, hopen', h.result, h.approved, hrejected⟩
  | @voted voterId approve hcall hopen hnew =>
    refine ⟨_, hopen', h.result, fun hr => ?_, fun hr => ?_⟩
    · rw [ConsensusProposal.approvals_set hnew]
      exact (h.approved hr).trans (Nat.le_add_right ..)
    · obtain ⟨hfew, himpossible | hclosed⟩ := h.rejected hr
      · have hvotes := ConsensusProposal.length_votes_le hopen'.voters
        have hsum := ConsensusProposal.approvals_add_rejections
          { q with votes := q.votes.set voterId approve }
        have hrejections := q.rejections_le_set approve hnew
        refine ⟨?_, .inl ?_⟩ <;> omega
      · -- votes are closed
        exact absurd (hclosed.trans_le hnow) (not_lt.mpr hopen)
  | @decided timeoutRecovery result hcall hdecision =>
    have htype := h.requiredType
    obtain rfl : result = r := by
      cases r with
      | true =>
        have happroved : ConsensusMechanism.decision q n timeoutRecovery (s.instant e) =
            some true := ConsensusMechanism.decision_true_iff.mpr (htype ▸ h.approved rfl)
        exact Option.some_inj.mp (hdecision.symm.trans happroved)
      | false =>
        rcases result with _ | _
        · rfl
        · have := ConsensusMechanism.decision_true_iff.mp hdecision
          exact absurd (h.rejected rfl).1 (not_lt.mpr (htype ▸ this))
    exact ⟨_, hopen', rfl, h.approved, hrejected⟩
  | @forced result hcall =>
    obtain hnone | hresult := hforce _ hcall q h.get
    · exact absurd (hnone.symm.trans h.result) (by simp)
    · obtain rfl := Option.some_inj.mp (hresult.symm.trans h.result)
      exact ⟨_, hopen', rfl, h.approved, hrejected⟩

theorem Open.settled (h : Open p agents type s q) (hn : 1 ≤ n) {timeoutRecovery : Bool}
    (hcall : e.call = .check p timeoutRecovery)
    (hdecision : ConsensusMechanism.decision q n timeoutRecovery (s.instant e) = some r) :
    Settled n p agents type r (s.step n e)
      { q with result := some r, completedAt := some (s.instant e) } where
  get := by
    simp only [ConsensusState.step, hcall, ConsensusMechanism.checkConsensus, h.get,
      if_neg (Nat.one_le_iff_ne_zero.mp hn), hdecision, ConsensusMechanism.get_complete, if_true]
  voters := h.voters
  requiredType := h.requiredType
  result := rfl
  approved := by
    rintro rfl
    exact h.requiredType ▸ ConsensusMechanism.decision_true_iff.mp hdecision
  rejected := by
    rintro rfl
    exact h.requiredType ▸ ConsensusMechanism.decision_false hdecision

/-! ## Decisions are justified and final -/

/-- What `check_consensus` answers on the proposal `p`. -/
def answer (n : ℕ) (p : String) (timeoutRecovery : Bool) (s : ConsensusState) (e : ConsensusEvent) :
    Bool × Option Bool :=
  (s.mechanism.checkConsensus p n timeoutRecovery (s.instant e)).1

/-- What is said of one check, in the state `s`, of the proposal `q`. -/
structure JustifiedAt (n : ℕ) (p : String) (timeoutRecovery : Bool) (s : ConsensusState)
    (e : ConsensusEvent) (q : ConsensusProposal) (later : List ConsensusEvent) : Prop where
  /-- it reports an approval as soon as and only if the approvals are enough -/
  approved : answer n p timeoutRecovery s e = (true, some true) ↔
    q.requiredType.Met n q.approvals
  /-- it reports a rejection before the deadline only if the others are too few -/
  rejected : s.instant e ≤ q.deadline → answer n p timeoutRecovery s e = (true, some false) →
    ∀ more, q.votes.values.length + more ≤ n → ¬ q.requiredType.Met n (q.approvals + more)
  /-- what it reports stays -/
  final : ∀ r, answer n p timeoutRecovery s e = (true, some r) → ∀ es, es <+: later →
    ∃ q', (Machine.run (step n) s (e :: es)).mechanism.proposals.get p = some q' ∧
      q'.result = some r

def Justified (n : ℕ) (p : String) (s : ConsensusState) (es : List ConsensusEvent) : Prop :=
  ∀ earlier e later timeoutRecovery, es = earlier ++ e :: later →
    e.call = .check p timeoutRecovery →
      ∃ q, (Machine.run (step n) s earlier).mechanism.proposals.get p = some q ∧
        JustifiedAt n p timeoutRecovery (Machine.run (step n) s earlier) e q later

theorem Open.justifiedAt (h : Open p agents type s q) (hn : 1 ≤ n) (hlength : agents.length = n)
    (hattained : type.Attained n) {timeoutRecovery : Bool}
    (hcall : e.call = .check p timeoutRecovery) {later : List ConsensusEvent}
    (hlater : Machine.Along (ConsensusState.step n)
      (fun s e => Unforced p s e ∧ Registered p agents e) (s.step n e) later) : JustifiedAt n p timeoutRecovery s e q later := by
  have hvotes := hlength ▸ ConsensusProposal.length_votes_le h.voters
  have hsum := q.approvals_add_rejections
  have hmet := (type.attained_iff n).mp hattained
  obtain rfl := h.requiredType
  refine ⟨?_, fun hopen hrejected more hmore => ?_, fun r hr es hes => ?_⟩
  · rw [answer, ConsensusMechanism.checkConsensus_eq_iff hn h.get,
      ConsensusMechanism.decision_true_iff]
    exact hmet _ (by omega)
  · rw [answer, ConsensusMechanism.checkConsensus_eq_iff hn h.get] at hrejected
    obtain ⟨hfew, himpossible | hlate⟩ := ConsensusMechanism.decision_false hrejected
    · rw [← hmet _ (by omega)]
      omega
    · exact absurd hlate (not_lt.mpr hopen)
  · rw [answer, ConsensusMechanism.checkConsensus_eq_iff hn h.get] at hr
    obtain ⟨rest, rfl⟩ := hes
    have hsettled := (Machine.along_append.mp hlater).1.invariant
      (fun s => ∃ q', Settled n p agents q.requiredType r s q')
      ⟨_, h.settled hn hcall hr⟩ fun s e ⟨q', hq'⟩ hcond => hq'.step hlength hcond.2 hcond.1
    obtain ⟨q', hq'⟩ := hsettled
    exact ⟨q', hq'.get, hq'.result⟩

/-- **Decisions of the swarm are justified and final** for every type and number of agents for which
the formula asks what the type asks, in every run of votes by the agents, checks and forced
resolutions that force no other result on a proposal that has one. -/
theorem justified_of_attained (agents : List String) (hn : 1 ≤ n) (hlength : agents.length = n)
    (hq : s.mechanism.proposals.get p = some q) (hfresh : q.votes = .empty)
    (hattained : q.requiredType.Attained n) {es : List ConsensusEvent}
    (hreg : ∀ e ∈ es, Registered p agents e)
    (hforce : Machine.Along (step n) (Unforced p) s es) : Justified n p s es := by
  intro earlier e later timeoutRecovery hes hcall
  subst hes
  have hinit : Open p agents q.requiredType s q :=
    ⟨hq, by simp [hfresh, Dict.keys, Dict.empty], rfl⟩
  obtain ⟨hearlier, hrest⟩ := Machine.along_append.mp (hforce.and_forall hreg)
  have hopen := hearlier.invariant
    (fun s => ∃ q', Open p agents q.requiredType s q') ⟨q, hinit⟩
    fun s e hopen hcond => hopen.elim fun _ hq' => (hq'.step hcond.2).imp fun _ h => h.1
  obtain ⟨q', hq'⟩ := hopen
  exact ⟨q', hq'.get, hq'.justifiedAt hn hlength hattained hcall hrest.2⟩

/-! ## Two agents -/

def proposed (type : ConsensusType) : ConsensusState :=
  ⟨{ proposals := Dict.empty.set "merge" { requiredType := type, deadline := 30 } }, 0⟩

def bothApprove : List ConsensusEvent :=
  [⟨1, .vote "merge" "ann" true⟩, ⟨1, .check "merge" true⟩, ⟨1, .vote "merge" "bob" true⟩,
    ⟨1, .check "merge" true⟩]

theorem bothApprove_registered :
    ∀ e ∈ bothApprove, Registered "merge" ["ann", "bob"] e := by
  intro e he voterId approve hcall
  simp only [bothApprove, List.mem_cons, List.not_mem_nil, or_false] at he
  rcases he with rfl | rfl | rfl | rfl <;> cases hcall <;> decide

theorem bothApprove_unforced (s : ConsensusState) :
    Machine.Along (step 2) (Unforced "merge") s bothApprove := by
  refine ⟨?_, ?_, ?_, ?_, trivial⟩ <;> exact fun _ h => by cases h

/-- All agents approve, and the unanimous proposal is rejected. -/
theorem unanimous_rejected : (∀ e ∈ bothApprove, Registered "merge" ["ann", "bob"] e) ∧
    Machine.Along (step 2) (Unforced "merge") (proposed .unanimous) bothApprove ∧
      ¬ Justified 2 "merge" (proposed .unanimous) bothApprove := by
  refine ⟨bothApprove_registered, bothApprove_unforced _, fun h => ?_⟩
  obtain ⟨q, hq, hjustified⟩ := h (bothApprove.take 3) _ [] true rfl rfl
  have hvotes : ((Machine.run (step 2) (proposed .unanimous)
      (bothApprove.take 3)).mechanism.proposals.get "merge").map
        (fun q => (q.requiredType, q.approvals)) = some (.unanimous, 2) := by
    decide +kernel
  rw [hq, Option.map_some, Option.some_inj, Prod.mk.injEq] at hvotes
  have hmet : q.requiredType.Met 2 q.approvals := by
    rw [hvotes.1, hvotes.2]
    exact le_rfl
  have hanswer : answer 2 "merge" true
      (Machine.run (step 2) (proposed .unanimous) (bothApprove.take 3)) ⟨1, .check "merge" true⟩ =
        (true, some false) := by
    decide +kernel
  exact absurd (hanswer.symm.trans (hjustified.approved.mpr hmet)) (by decide)

theorem majority_justified : Justified 2 "merge" (proposed .majority) bothApprove :=
  justified_of_attained (q := { deadline := 30 }) ["ann", "bob"] (by decide) rfl rfl rfl trivial
    bothApprove_registered (bothApprove_unforced _)

end ConsensusState

end EnhancedAgentBus.Swarm
