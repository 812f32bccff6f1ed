import EnhancedAgentBus.Deliberation.VotingService

/-!
# Processes that share an election store

Any number of processes, their calls interleaved at the Redis commands.  Every change of a stored
election is a read of the whole document and, later, an overwrite, and nothing holds the two
together.

The property is about all reachable pools (`VotesKept`), and so is the condition (`Undisturbed`):
no write overwrites a document other than the one it was computed from, no command of `add_vote`
fails in a way that leaves the vote unstored, and no result is computed for an election whose
votes no longer have its result.

### What is load-bearing

`Changes` is all that an undisturbed operation does to a stored election, as seen by nobody in
particular: it relates the document before and after, whoever wrote it and whatever it had read.
The invariant is about such changes only.
-/

namespace EnhancedAgentBus.Deliberation

open Async Async.Prog

def Call.service : Call → VotingService
  | create S _ _ _ _ | cast S _ _ | result S _ => S

abbrev Performed := Call × Entry Stores Op Op.Resp

/-- A call of a service with an election store may start at any time. -/
def Starts (_ : Stores) (c : Call) (p : Code Returned) : Prop :=
  c.service.electionStore = true ∧ p = c.code

/-- Calls in flight, and what they performed so far, latest first. -/
abbrev Calls := Pool Call Op Op.Resp RedisError Returned Stores

abbrev Interleaved (init : Stores) (P : Calls) : Prop := Pool.Reach Step Starts [] init P

/-! ## Votes that are kept -/

def Op.WritesVote (electionId : String) (v : Vote) : Op → Prop
  | .setex (.vote v') electionId' _ _ _ => v' = v ∧ electionId' = electionId
  | _ => False

/-- The write of a vote in an election, answered, or with an error that is caught. -/
def Op.StoresVote (electionId : String) (v : Vote) : (o : Op) → o.Resp → Prop
  | .setex (.vote v') electionId' _ _ _, r =>
    v' = v ∧ electionId' = electionId ∧ r ≠ .error .uncaught
  | _, _ => False

theorem Op.StoresVote.inv {electionId : String} {v : Vote} {o : Op} {r : o.Resp}
    (h : o.StoresVote electionId v r) :
    ∃ ttl basis data, o = .setex (.vote v) electionId ttl basis data := by
  cases o with
  | setex write electionId' ttl basis data =>
    cases write with
    | vote v' =>
      obtain ⟨rfl, rfl, _⟩ := h
      exact ⟨ttl, basis, data, rfl⟩
    | _ => exact h.elim
  | _ => exact h.elim

/-- An election has the vote of an agent, or one that was written later. -/
def Stands (electionId : String) (later : List Performed) (v : Vote) (d : ElectionData) : Prop :=
  ∃ v', d.votes.get v.agentId = some v' ∧ v'.agentId = v.agentId ∧
    (v' = v ∨ ∃ p ∈ later, p.2.op.WritesVote electionId v')

/-- The read of an election whose votes are then counted: what `_get_election_data` found. -/
def Op.Finds (electionId : String) (found : ElectionData) : (o : Op) → o.Resp → Prop
  | .get _ none electionId', r => electionId' = electionId ∧ r = .ok (some found)
  | .memoryGet _ electionId', r => electionId' = electionId ∧ r = some found
  | _, _ => False

def ElectionData.OverWith (decision : String) (d : ElectionData) : Prop :=
  d.status ≠ .open ∧ d.result = some decision

/-- The commands of `add_vote` before its write find the election, or raise. -/
def Op.Heard : (o : Op) → o.Resp → Prop
  | .get _ (some (.vote v)) _, r =>
    (v.agentId ≠ "" ∧ ∃ d, r = .ok (some d)) ∨ r = .error .uncaught
  | .ttl (.vote _) _, r => r ≠ .error .caught
  | _, _ => True

/-- What is written was computed from what is stored. -/
def Op.Fresh (strategy : VotingStrategy) (s s' : Stores) : (o : Op) → o.Resp → Prop
  -- a write whose error is caught was applied
  | .setex (.vote _) electionId _ basis data, r =>
    (s' = s ∨ s.redis electionId = basis) ∧
      (r = .error .caught → s' = s.setRedis electionId data)
  -- a result that is there is the one of the votes that are there
  | .setex .result electionId _ basis _, _ =>
    s' = s ∨ (s.redis electionId = basis ∧ ∀ d decision, s.redis electionId = some d →
      d.result = some decision → d.resolution strategy = (true, decision))
  | .setex _ electionId _ basis _, _ => s' = s ∨ s.redis electionId = basis
  -- a process falls back on its memory for elections that are not in Redis
  | .memoryGet service electionId, _ =>
    s.memory service electionId = none ∨ s.redis electionId = none
  | _, _ => True

def Undisturbed (_ : List Performed) (p : Performed) (s' : Stores) : Prop :=
  p.2.op.Heard p.2.resp ∧ p.2.op.Fresh p.1.service.defaultStrategy p.2.before s' p.2.resp

/-! ## What the calls write -/

def Op.WrittenBy (c : Call) : Op → Prop
  | .setex .create _ _ basis _ => basis = none
  | .setex (.vote v) electionId _ basis data =>
    (∃ S, c = .cast S electionId v) ∧ ∃ d, basis = some d ∧ data = d.storeVote v
  | .setex .status _ _ basis data =>
    ∃ d status, basis = some d ∧ data = { d with status } ∧ status ≠ .open
  | .setex .result _ _ basis data =>
    ∃ d decision, basis = some { d with status := .closed } ∧
      data = VotingService.close decision d ∧
      d.resolution c.service.defaultStrategy = (true, decision)
  | _ => True

/-- A vote was written before, or by this operation. -/
def Hears (written : Prop) (o : Op) (r : o.Resp) (written' : Prop) : Prop :=
  o.Heard r ∧ written' = (written ∨ ∃ electionId v, o.StoresVote electionId v r)

theorem Hears.mono {written written' : Prop} {o : Op} {r : o.Resp}
    (h : Hears written o r written') (hw : written) : written' :=
  h.2 ▸ .inl hw

section Calls

variable {c : Call} {S : VotingService} {electionId : String} {written : Prop}

/-- A call writes as it should, and ends with a vote written wherever one was. -/
abbrev WritesOwn {α : Type} (c : Call) (p : Code α) (written : Prop) : Prop :=
  Safe Hears (fun _ => Op.WrittenBy c) p written (fun _ written' => written → written')
    fun _ _ => True

theorem WritesOwn.bind {α β : Type} {p : Code α} {f : α → Code β} (hp : WritesOwn c p written)
    (hf : ∀ a written', WritesOwn c (f a) written') : WritesOwn c (p >>= f) written := by
  rw [WritesOwn, safe_bind]
  refine hp.mono (fun a written' hmono => ?_) fun _ _ => id
  exact (hf a written').mono (fun _ _ hmono' hw => hmono' (hmono hw)) fun _ _ => id

theorem WritesOwn.pure {α : Type} (a : α) : WritesOwn c (pure a : Code α) written := id

theorem WritesOwn.ask {o : Op} (ho : o.WrittenBy c) : WritesOwn c (ask o) written :=
  ⟨ho, fun _ _ hstep hw => hstep.mono hw⟩

end Calls

/-! ## What an operation changes -/

/-- What an undisturbed operation does to a stored election. -/
inductive Changes (electionId : String) (o : Op) :
    Option ElectionData → Option ElectionData → Prop
  | same (d : Option ElectionData) : Changes electionId o d d
  | created (d : ElectionData) : Changes electionId o none (some d)
  | voted (d : ElectionData) (v : Vote) (hwrites : o.WritesVote electionId v) :
      Changes electionId o (some d) (some (d.storeVote v))
  | status (d : ElectionData) (status : ElectionStatus) (hover : status ≠ .open) :
      Changes electionId o (some d) (some { d with status })
  | result (d : ElectionData) (decision : String)
      (hsame : ∀ decision', d.result = some decision' → decision = decision') :
      Changes electionId o (some d) (some (VotingService.close decision d))

section Step

variable {c : Call} {s s' : Stores} {o : Op} {r : o.Resp}

theorem changes_setex {write : Write} {electionId : String} {ttl : ℤ}
    {basis : Option ElectionData} {data : ElectionData} (hstored : s.redis electionId = basis)
    (hown : Op.WrittenBy c (.setex write electionId ttl basis data))
    (hfresh : write = .result → ∀ d decision, s.redis electionId = some d →
      d.result = some decision → d.resolution c.service.defaultStrategy = (true, decision)) :
    Changes electionId (.setex write electionId ttl basis data) basis (some data) := by
  cases write with
  | create =>
    obtain rfl := hown
    exact .created data
  | vote v =>
    obtain ⟨_, d, rfl, rfl⟩ := hown
    exact .voted d v ⟨rfl, rfl⟩
  | status =>
    obtain ⟨d, status, rfl, rfl, hover⟩ := hown
    exact .status d status hover
  | result =>
    obtain ⟨d, decision, rfl, rfl, hres⟩ := hown
    refine .result { d with status := .closed } decision fun decision' hdecision => ?_
    have hstays := hfresh rfl _ _ hstored hdecision
    exact (Prod.ext_iff.mp (hres.symm.trans hstays)).2

theorem Step.changes (hstep : Step s o r s') (hown : o.WrittenBy c)
    (hfresh : o.Fresh c.service.defaultStrategy s s' r) (electionId : String) :
    Changes electionId o (s.redis electionId) (s'.redis electionId) := by
  cases o with
  | uuid4 => obtain ⟨_, rfl⟩ := step_uuid4.mp hstep; exact .same _
  | now => obtain ⟨_, rfl⟩ := step_now.mp hstep; exact .same _
  | get service write electionId' => obtain ⟨_, rfl⟩ := step_get.mp hstep; exact .same _
  | ttl write electionId' => obtain rfl := step_ttl.mp hstep; exact .same _
  | memoryGet service electionId' => obtain ⟨_, rfl⟩ := step_memoryGet.mp hstep; exact .same _
  | remember service electionId' data => obtain rfl := step_remember.mp hstep; exact .same _
  | assign service electionId' set =>
    obtain rfl := step_assign.mp hstep
    unfold Stores.assignMemory
    split <;> exact .same _
  | setex write electionId' ttl basis data =>
    rcases step_setex.mp hstep with hset | ⟨rfl, _⟩
    · by_cases hsame : s' = s
      · exact hsame ▸ .same _
      · have hstored : s.redis electionId' = basis := by
          cases write with
          | create => exact hfresh.resolve_left hsame
          | vote v => exact hfresh.1.resolve_left hsame
          | status => exact hfresh.resolve_left hsame
          | result => exact (hfresh.resolve_left hsame).1
        subst hset
        by_cases hid : electionId = electionId'
        · subst hid
          have hchange := changes_setex hstored hown (by
            rintro rfl
            exact (hfresh.resolve_left hsame).2)
          rw [hstored]
          simpa [Stores.setRedis] using hchange
        · simpa [Stores.setRedis, hid] using Changes.same _
    · exact .same _

end Step

/-! ## Whole runs -/

section Changes

variable {electionId : String} {d : ElectionData} {x : Option ElectionData}

theorem Changes.stands {p : Performed} {later : List Performed} {v : Vote}
    (h : Changes electionId p.2.op (some d) x) (hstands : Stands electionId later v d) :
    ∃ d', x = some d' ∧ Stands electionId (p :: later) v d' := by
  obtain ⟨v', hget, hagent, hv'⟩ := hstands
  have hkept : v' = v ∨ ∃ q ∈ p :: later, q.2.op.WritesVote electionId v' :=
    hv'.imp id fun ⟨q, hq, hwrites⟩ => ⟨q, List.mem_cons_of_mem _ hq, hwrites⟩
  cases h with
  | same => exact ⟨d, rfl, v', hget, hagent, hkept⟩
  | voted _ u hwrites =>
    refine ⟨d.storeVote u, rfl, ?_⟩
    by_cases hsame : v.agentId = u.agentId
    · exact ⟨u, by rw [ElectionData.storeVote, Dict.get_set, if_pos hsame], hsame.symm,
        .inr ⟨p, List.mem_cons_self .., hwrites⟩⟩
    · exact ⟨v', by rw [ElectionData.storeVote, Dict.get_set, if_neg hsame, hget], hagent,
        hkept⟩
  | status => exact ⟨_, rfl, v', hget, hagent, hkept⟩
  | result => exact ⟨_, rfl, v', hget, hagent, hkept⟩

theorem Changes.overWith {o : Op} {decision : String} (h : Changes electionId o (some d) x)
    (hover : d.OverWith decision) : ∃ d', x = some d' ∧ d'.OverWith decision := by
  cases h with
  | same => exact ⟨d, rfl, hover⟩
  | voted _ u => exact ⟨_, rfl, hover⟩
  | status _ status hstatus => exact ⟨_, rfl, hstatus, hover.2⟩
  | result _ decision' hsame => exact ⟨_, rfl, nofun, congrArg some (hsame _ hover.2)⟩

end Changes

/-- What an undisturbed run keeps in the store. -/
structure StoreKept (s : Stores) (log : List Performed) : Prop where
  votes : ∀ later p earlier electionId v, log = later ++ p :: earlier →
    p.2.op.StoresVote electionId v p.2.resp →
      ∃ d, s.redis electionId = some d ∧ Stands electionId later v d
  closed : ∀ p ∈ log, ∀ electionId d decision, p.2.before.redis electionId = some d →
    d.status = .closed → d.result = some decision →
      ∃ d', s.redis electionId = some d' ∧ d'.OverWith decision

section Step

variable {c : Call} {s s' : Stores} {o : Op} {r : o.Resp} {log : List Performed}

theorem Step.storesVote {electionId : String} {v : Vote} (hstep : Step s o r s')
    (hown : o.WrittenBy c) (hfresh : o.Fresh c.service.defaultStrategy s s' r)
    (hstores : o.StoresVote electionId v r) :
    ∃ d, s'.redis electionId = some d ∧ d.votes.get v.agentId = some v := by
  obtain ⟨ttl, basis, data, rfl⟩ := hstores.inv
  obtain ⟨_, _, hr⟩ := hstores
  obtain ⟨_, d, rfl, rfl⟩ := hown
  have hset : s' = s.setRedis electionId (d.storeVote v) := by
    rcases step_setex.mp hstep with hset | ⟨_, e, hanswer⟩
    · exact hset
    · cases e with
      | caught => exact hfresh.2 hanswer
      | uncaught => exact absurd hanswer hr
  refine ⟨d.storeVote v, by simp [hset, Stores.setRedis], ?_⟩
  rw [ElectionData.storeVote, Dict.get_set, if_pos rfl]

theorem StoreKept.step (h : StoreKept s log) (hstep : Step s o r s') (hown : o.WrittenBy c)
    (hfresh : o.Fresh c.service.defaultStrategy s s' r) :
    StoreKept s' ((c, ⟨s, o, r⟩) :: log) := by
  have hchanges := hstep.changes hown hfresh
  constructor
  · intro later p earlier electionId v hlog hstores
    rcases later with _ | ⟨q, later⟩
    · obtain ⟨rfl, rfl⟩ := List.cons_eq_cons.mp hlog
      obtain ⟨d, hd, hget⟩ := hstep.storesVote hown hfresh hstores
      exact ⟨d, hd, v, hget, rfl, .inl rfl⟩
    · obtain ⟨rfl, rfl⟩ := List.cons_eq_cons.mp hlog
      obtain ⟨d, hd, hstands⟩ := h.votes later p earlier electionId v rfl hstores
      have hchange := hchanges electionId
      rw [hd] at hchange
      exact Changes.stands (p := (c, ⟨s, o, r⟩)) hchange hstands
  · intro p hp electionId d decision hd hclosed hresult
    have hbefore : ∃ d', s.redis electionId = some d' ∧ d'.OverWith decision := by
      rcases List.mem_cons.mp hp with rfl | hp
      · exact ⟨d, hd, by simp [hclosed], hresult⟩
      · exact h.closed p hp electionId d decision hd hclosed hresult
    obtain ⟨d', hd', hover⟩ := hbefore
    have hchange := hchanges electionId
    rw [hd'] at hchange
    exact hchange.overWith hover

end Step

/-- A call that is still to write what it should, and has written its vote where it ends with
one accepted. -/
def InHand (log : List Performed) (c : Call) (p : Code Returned) : Prop :=
  ∃ written : Prop,
    (written → ∃ e electionId v, (∃ S, c = .cast S electionId v) ∧ (c, e) ∈ log ∧
      e.op.StoresVote electionId v e.resp) ∧
    Safe Hears (fun _ => Op.WrittenBy c) p written
      (fun r written' => r = .accepted true → (∃ S electionId v, c = .cast S electionId v) →
        written') fun _ _ => True

theorem InHand.mono {log : List Performed} {c : Call} {p : Code Returned} (h : InHand log c p)
    (q : Performed) : InHand (q :: log) c p := by
  obtain ⟨written, hlog, hsafe⟩ := h
  refine ⟨written, fun hw => ?_, hsafe⟩
  obtain ⟨e, electionId, v, hc, he, hstores⟩ := hlog hw
  exact ⟨e, electionId, v, hc, List.mem_cons_of_mem _ he, hstores⟩

theorem InHand.step {s : Stores} {log : List Performed} {c : Call} {o : Op} {r : o.Resp}
    {k : o.Resp → Code Returned} (h : InHand log c (.await o k)) (hheard : o.Heard r) :
    o.WrittenBy c ∧ InHand ((c, ⟨s, o, r⟩) :: log) c (k r) := by
  obtain ⟨written, hlog, hown, hsafe⟩ := h
  refine ⟨hown, _, ?_, hsafe r _ ⟨hheard, rfl⟩⟩
  rintro (hw | ⟨electionId, v, hstores⟩)
  · obtain ⟨e, electionId, v, hc, he, hstores⟩ := hlog hw
    exact ⟨e, electionId, v, hc, List.mem_cons_of_mem _ he, hstores⟩
  · have hc : ∃ S, c = .cast S electionId v := by
      obtain ⟨ttl, basis, data, rfl⟩ := hstores.inv
      exact hown.1
    exact ⟨⟨s, o, r⟩, electionId, v, hc, List.mem_cons_self .., hstores⟩

section Run

variable {init : Stores} {P : Calls}

/-- The calls draw the identifier "e1" at the instant 0, and no command fails. -/
def calmly (_ : Call) (_ : Stores) : Op → Option Answer
  | .uuid4 => some (.id "e1")
  | .now => some (.time 0)
  | .ttl _ _ => some (.remaining 300)
  | _ => some .plain

def Calls.go (P : Calls) (i n : ℕ) : Calls := P.ticks Stores.perform calmly i n

def sharing (process : ℕ) : VotingService := { process, electionStore := true }

def Calls.start (P : Calls) (c : Call) : Calls := P.add c c.code

/-- An agent approves of the election "e1" at a process. -/
def approves (process : ℕ) (agentId : String) : Call :=
  .cast (sharing process) "e1" ⟨agentId, "APPROVE", none, 0⟩

def opened : Calls :=
  Calls.go (Calls.start ⟨[], {}, []⟩
    (.create (sharing 0) ["ann", "bob", "eve"] .empty none none)) 0 3

/-- Ann's vote is about to be added to what was read; Bob votes; Ann's vote is written. -/
def overtaken : Calls :=
  ((((opened.start (approves 0 "ann")).go 0 2).start (approves 1 "bob")).go 0 6).go 1 6

theorem Interleaved.go {init : Stores} {P : Calls} (h : Interleaved init P) (i n : ℕ) :
    Interleaved init (P.go i n) :=
  Pool.Reach.ticks n h

theorem Interleaved.start {init : Stores} {P : Calls} (h : Interleaved init P) {c : Call}
    (hstore : c.service.electionStore = true) : Interleaved init (P.start c) :=
  Pool.Reach.add h ⟨hstore, rfl⟩

def alone : Calls := (opened.start (approves 0 "ann")).go 0 5

end Run

end EnhancedAgentBus.Deliberation
