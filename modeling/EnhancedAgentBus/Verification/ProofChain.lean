import EnhancedAgentBus.Verification.Transition
import EnhancedAgentBus.Lib.HashChain
import EnhancedAgentBus.Lib.Machine
import Std.Data.String.ToInt

/-!
# What the verification of a proof chain accepts

A new proof is linked to the last proof of the *manager*, whichever transition that was for, and
`verify_proof_chain` walks the proofs of *one* transition.  So the proofs of a transition verify
exactly when no other transition got a proof in between (`verifyProofChain_exact`).

On a list that has been tampered with, the verification sees what enters the hash and whether
neighbours are linked.  It does not see where a list begins and ends, who signed a proof, or that a
proof belongs to another transition.
-/

namespace EnhancedAgentBus.Verification

open HashChain

/-- What is relied on of the digest: it is injective, and its values are texts of digits and letters,
not the empty text. -/
structure Collisionless (digest : String → String) : Prop where
  injective : Function.Injective digest
  nonempty : ∀ s, digest s ≠ ""
  plain : ∀ s, ':' ∉ (digest s).toList

/-! ## Runs -/

/-- What happens to a manager: its methods are made of these, and while a callback is awaited those
of other calls come in. -/
inductive Event where
  | create (uuid : { t : String // Uuid.text t = some t }) (stateData : String) (draws : Draws)
  | transitionTo (i : ℕ) (toState : TransitionState) (actorId : String) (reason : Option String)
      (executionResult : Option Json) (draws : Draws)
  | setStateData (i : ℕ) (stateData : String)
  | setRollbackData (i : ℕ) (rollbackData : RollbackData)

namespace StateTransitionManager

variable (digest : String → String)

/-- `transition.rollback_data = …` -/
def setRollbackData (M : StateTransitionManager) (i : ℕ) (rollbackData : RollbackData) :
    StateTransitionManager :=
  match M.transitions[i]? with
  | none => M
  | some t => M.put i { t with rollbackData := some rollbackData }

def step (M : StateTransitionManager) : Event → StateTransitionManager
  | .create uuid stateData draws => M.createTransition digest uuid.1 stateData draws
  | .transitionTo i toState actorId reason executionResult draws =>
    (M.transitionTo digest i toState actorId reason executionResult draws).2
  | .setStateData i stateData => M.setStateData i stateData
  | .setRollbackData i rollbackData => M.setRollbackData i rollbackData

abbrev after (es : List Event) : StateTransitionManager := Machine.run (step digest) {} es

/-! ## The operations as runs -/

def Leads (M M' : StateTransitionManager) : Prop := ∃ es, M' = Machine.run (step digest) M es

variable {digest} {M M' M'' : StateTransitionManager}

theorem Leads.refl (M : StateTransitionManager) : Leads digest M M := ⟨[], rfl⟩

theorem Leads.trans (h : Leads digest M M') (h' : Leads digest M' M'') : Leads digest M M'' := by
  obtain ⟨es, rfl⟩ := h
  obtain ⟨es', rfl⟩ := h'
  exact ⟨es ++ es', (Machine.run_append M es es').symm⟩

theorem leads_transitionTo (M : StateTransitionManager) (i : ℕ) (toState : TransitionState)
    (actorId : String) (reason : Option String) (executionResult : Option Json) (draws : Draws) :
    Leads digest M (M.transitionTo digest i toState actorId reason executionResult draws).2 :=
  ⟨[.transitionTo i toState actorId reason executionResult draws], rfl⟩

theorem leads_setStateData (M : StateTransitionManager) (i : ℕ) (stateData : String) :
    Leads digest M (M.setStateData i stateData) := ⟨[.setStateData i stateData], rfl⟩

theorem leads_validateTransition (M : StateTransitionManager) (i : ℕ) (validatorId : String)
    (draws : ℕ → Draws) :
    Leads digest M (M.validateTransition digest i validatorId draws).manager := by
  unfold validateTransition
  extract_lets first
  have hfirst : Leads digest M first.2 := leads_transitionTo ..
  split
  · exact hfirst.trans (leads_transitionTo ..)
  · exact hfirst

theorem leads_approveTransition (M : StateTransitionManager) (i : ℕ) (approverId : String)
    (reason : Option String) (draws : ℕ → Draws) :
    Leads digest M (M.approveTransition digest i approverId reason draws).manager := by
  rw [approveTransition_eq]
  exact leads_transitionTo ..

theorem leads_executeTransition (M : StateTransitionManager) (i : ℕ) (executorId : String)
    (executeFunc : Option (String → Effect)) (draws : ℕ → Draws) :
    Leads digest M (M.executeTransition digest i executorId executeFunc draws).manager := by
  unfold executeTransition
  split
  · exact .refl M
  · extract_lets first M₁
    have hfirst : Leads digest M M₁ := leads_transitionTo ..
    split
    · exact hfirst
    · split
      · rename_i run t _ _
        extract_lets effect M₂
        have hsecond : Leads digest M M₂ := hfirst.trans (leads_setStateData ..)
        split
        · exact hsecond.trans (leads_transitionTo ..)
        · exact hsecond.trans (leads_transitionTo ..)
        · exact hsecond.trans (leads_transitionTo ..)
        · exact hsecond
      · exact hfirst.trans (leads_transitionTo ..)

theorem leads_rollbackTransition (M : StateTransitionManager) (i : ℕ) (actorId reason : String)
    (rollbackFunc : Option (String → Effect)) (now : String) (draws : ℕ → Draws) :
    Leads digest M
      (M.rollbackTransition digest i actorId reason rollbackFunc now draws).manager := by
  unfold rollbackTransition
  split
  · exact .refl M
  · rename_i t ht
    split
    · exact .refl M
    · rename_i lastCheckpoint _
      extract_lets M₁ move
      have hfirst : Leads digest M M₁ := by
        refine ⟨[.setRollbackData i ⟨t.currentState, lastCheckpoint.checkpointId, reason,
          actorId, now⟩], ?_⟩
        simp only [Machine.run_cons, Machine.run_nil, step, setRollbackData, ht, M₁]
      split
      · exact hfirst.trans (leads_transitionTo ..)
      · rename_i run
        extract_lets effect M₂
        have hsecond : Leads digest M M₂ := hfirst.trans (leads_setStateData ..)
        split
        · exact hsecond.trans (leads_transitionTo ..)
        · exact hsecond.trans (leads_transitionTo ..)
        · exact hsecond
        · exact hsecond

theorem leads_completeTransition (M : StateTransitionManager) (i : ℕ) (actorId : String)
    (draws : ℕ → Draws) :
    Leads digest M (M.completeTransition digest i actorId draws).manager := by
  unfold completeTransition
  split
  · exact leads_transitionTo ..
  · split
    · extract_lets first second
      have hfirst : Leads digest M first.2 := leads_transitionTo ..
      have hsecond : Leads digest M second.2 := hfirst.trans (leads_transitionTo ..)
      split
      · split
        · exact hsecond.trans (leads_transitionTo ..)
        · exact hsecond
      · exact hfirst
    · exact .refl M

end StateTransitionManager

/-! ## What is hashed -/

abbrev Plain (text : String) : Prop := ':' ∉ text.toList

theorem plain_value (state : TransitionState) : Plain state.value := by
  cases state <;> decide

theorem plain_repr (n : ℤ) : Plain n.repr := by
  have hnat : ∀ k : ℕ, ':' ∉ k.repr.toList := by
    intro k hk
    rw [Nat.toList_repr] at hk
    have hdigit := Nat.isDigit_of_mem_toDigits (by decide) (by decide) hk
    exact absurd hdigit (by decide)
  unfold Plain
  rw [Int.repr_eq_if]
  split
  · exact hnat _
  · rw [String.toList_append, List.mem_append, not_or]
    exact ⟨by decide, hnat _⟩

structure Honest (digest : String → String) (p : TransitionProof) : Prop where
  proofHash : p.proofHash = digest p.content
  constitutionalHash : p.constitutionalHash = Verification.constitutionalHash
  transitionId : Plain p.transitionId
  stateHashBefore : Plain p.stateHashBefore
  stateHashAfter : Plain p.stateHashAfter

variable {digest : String → String}

theorem chainPosition_of_content {p q : TransitionProof} (hp : Honest digest p)
    (hq : Honest digest q) (h : p.content = q.content) : p.chainPosition = q.chainPosition := by
  have hid := join_inj (c := ':') hp.transitionId hq.transitionId h
  have hfrom := join_inj (c := ':') (plain_value _) (plain_value _) hid.2
  have hto := join_inj (c := ':') (plain_value _) (plain_value _) hfrom.2
  have hbefore := join_inj (c := ':') hp.stateHashBefore hq.stateHashBefore hto.2
  have hafter := join_inj (c := ':') hp.stateHashAfter hq.stateHashAfter hbefore.2
  have hposition := join_inj (c := ':') (plain_repr _) (plain_repr _) hafter.2
  exact Int.repr_injective hposition.1

theorem plain_computeStateHash (hdigest : Collisionless digest) (t : ConstitutionalTransition) :
    Plain (t.computeStateHash digest) := by
  intro hmem
  rw [ConstitutionalTransition.computeStateHash, String.toList_ofList] at hmem
  exact hdigest.plain _ (List.mem_of_mem_take hmem)

/-! ## The manager's chain -/

/-- The proofs of a manager form one chain, and its transitions have proofs of that chain. -/
structure Recorded (digest : String → String) (M : StateTransitionManager) : Prop where
  grown : Grown TransitionProof.proofHash TransitionProof.previousProofHash
    TransitionProof.chainPosition "" M.proofChain
  position : M.chainPosition = M.proofChain.length
  honest : ∀ p ∈ M.proofChain, Honest digest p
  plain : ∀ t ∈ M.transitions, Plain t.transitionId
  own : ∀ t ∈ M.transitions, ∀ p ∈ t.proofs, p ∈ M.proofChain

namespace Recorded

variable {M : StateTransitionManager}

theorem linked_iff_consecutive (h : Recorded digest M) (hdigest : Collisionless digest)
    {ps : List TransitionProof} (hps : ∀ p ∈ ps, p ∈ M.proofChain) :
    Linked TransitionProof.proofHash TransitionProof.previousProofHash ps ↔
      Consecutive TransitionProof.chainPosition ps := by
  refine h.grown.linked_iff_consecutive (fun p hp => ?_) (fun p hp q hq heq => ?_) hps
  · rw [(h.honest p hp).proofHash]
    exact hdigest.nonempty _
  · rw [(h.honest p hp).proofHash, (h.honest q hq).proofHash] at heq
    exact chainPosition_of_content (h.honest p hp) (h.honest q hq) (hdigest.injective heq)

theorem congr (h : Recorded digest M) {M' : StateTransitionManager}
    (htransitions : M'.transitions = M.transitions) (hproofChain : M'.proofChain = M.proofChain)
    (hposition : M'.chainPosition = M.chainPosition) : Recorded digest M' where
  grown := hproofChain ▸ h.grown
  position := by rw [hposition, hproofChain, h.position]
  honest := hproofChain ▸ h.honest
  plain := htransitions ▸ h.plain
  own := by
    rw [htransitions, hproofChain]
    exact h.own

theorem put (h : Recorded digest M) (i : ℕ) {t : ConstitutionalTransition}
    (hplain : Plain t.transitionId) (hown : ∀ p ∈ t.proofs, p ∈ M.proofChain) :
    Recorded digest (M.put i t) where
  grown := h.grown
  position := h.position
  honest := h.honest
  plain := by
    intro t' ht'
    rcases List.mem_or_eq_of_mem_set ht' with hmem | rfl
    · exact h.plain t' hmem
    · exact hplain
  own := by
    intro t' ht'
    rcases List.mem_or_eq_of_mem_set ht' with hmem | rfl
    · exact h.own t' hmem
    · exact hown

theorem createTransitionProof (h : Recorded digest M) (hdigest : Collisionless digest) (i : ℕ)
    {t : ConstitutionalTransition} (hplain : Plain t.transitionId)
    (hown : ∀ p ∈ t.proofs, p ∈ M.proofChain) (fromState toState : TransitionState)
    {stateHashBefore stateHashAfter : String} (hbefore : Plain stateHashBefore)
    (hafter : Plain stateHashAfter) (signerId : Option String) (now : String) :
    Recorded digest (M.createTransitionProof digest i t fromState toState stateHashBefore
      stateHashAfter signerId now).2 := by
  have hdefault : ∀ stateHash, Plain stateHash →
      Plain (if stateHash = "" then t.computeStateHash digest else stateHash) := by
    intro stateHash hstateHash
    split
    · exact plain_computeStateHash hdigest t
    · exact hstateHash
  simp only [StateTransitionManager.createTransitionProof]
  generalize hproof : TransitionProof.postInit digest _ = proof
  have hhonest : Honest digest proof := by
    rw [← hproof]
    exact ⟨rfl, rfl, hplain, hdefault _ hbefore, hdefault _ hafter⟩
  have hchainPosition : proof.chainPosition = M.proofChain.length + 1 := by
    rw [← hproof, ← h.position]
    rfl
  have hprevious : proof.previousProofHash =
      (M.proofChain.getLast?.map TransitionProof.proofHash).getD "" := by
    rw [← hproof]
    rfl
  have hmem : ∀ t' : ConstitutionalTransition, (∀ p ∈ t'.proofs, p ∈ M.proofChain) →
      ∀ p ∈ t'.proofs, p ∈ M.proofChain ++ [proof] :=
    fun t' ht' p hp => List.mem_append_left _ (ht' p hp)
  constructor
  · exact h.grown.append hchainPosition hprevious
  · rw [List.length_append, List.length_singleton, h.position]
    rfl
  · intro p hp
    rcases List.mem_append.mp hp with hp | hp
    · exact h.honest p hp
    · rw [List.mem_singleton.mp hp]
      exact hhonest
  · intro t' ht'
    rcases List.mem_or_eq_of_mem_set ht' with ht' | rfl
    · exact h.plain t' ht'
    · exact hplain
  · intro t' ht' p hp
    rcases List.mem_or_eq_of_mem_set ht' with ht' | rfl
    · exact hmem t' (h.own t' ht') p hp
    · rcases List.mem_append.mp hp with hp | hp
      · exact hmem t hown p hp
      · exact List.mem_append_right _ hp

theorem createTransition (h : Recorded digest M) (hdigest : Collisionless digest) {uuid : String}
    (huuid : Plain uuid) (stateData : String) (draws : Draws) :
    Recorded digest (M.createTransition digest uuid stateData draws) := by
  have hnil : ∀ p ∈ ([] : List TransitionProof), p ∈ M.proofChain := fun p hp => by cases hp
  refine createTransitionProof ?_ hdigest _ huuid hnil _ _ (by decide) (by decide) _ _
  refine ⟨h.grown, h.position, h.honest, fun t ht => ?_, fun t ht => ?_⟩
  · rcases List.mem_append.mp ht with ht | ht
    · exact h.plain t ht
    · rw [List.mem_singleton.mp ht]
      exact huuid
  · rcases List.mem_append.mp ht with ht | ht
    · exact h.own t ht
    · rw [List.mem_singleton.mp ht]
      exact hnil

theorem transitionTo (h : Recorded digest M) (hdigest : Collisionless digest) (i : ℕ)
    (toState : TransitionState) (actorId : String) (reason : Option String)
    (executionResult : Option Json) (draws : Draws) :
    Recorded digest
      (M.transitionTo digest i toState actorId reason executionResult draws).2 := by
  obtain ⟨heq, -⟩ | ⟨t, proof, made, ht, -, hmade, heq⟩ :=
    M.transitionTo_cases digest i toState actorId reason executionResult draws
  · rw [heq]
    exact h
  · rw [heq]
    have hmem := List.mem_of_getElem? ht
    generalize hmoved : t.moved digest toState actorId reason executionResult draws = moved at hmade
    have hplain : Plain moved.transitionId := by
      rw [← hmoved, ConstitutionalTransition.moved_transitionId]
      exact h.plain t hmem
    have hown : ∀ p ∈ moved.proofs, p ∈ M.proofChain := by
      rw [← hmoved, ConstitutionalTransition.moved_proofs]
      exact h.own t hmem
    have hkept := h.createTransitionProof hdigest i hplain hown t.currentState toState
      (plain_computeStateHash hdigest t) (plain_computeStateHash hdigest moved) (some actorId)
      draws.proofAt
    rw [hmade] at hkept
    exact hkept.congr (by simp) (by simp) (by simp)

theorem step (h : Recorded digest M) (hdigest : Collisionless digest) (e : Event) :
    Recorded digest (M.step digest e) := by
  cases e with
  | create uuid stateData draws =>
    refine h.createTransition hdigest ?_ stateData draws
    intro hmem
    rcases Uuid.mem_of_text uuid.2 hmem with hdigit | hhyphen
    · exact absurd hdigit (by decide)
    · exact absurd hhyphen (by decide)
  | transitionTo i toState actorId reason executionResult draws =>
    exact h.transitionTo hdigest i toState actorId reason executionResult draws
  | setStateData i stateData =>
    simp only [StateTransitionManager.step, StateTransitionManager.setStateData]
    split
    · exact h
    · rename_i t ht
      have hmem := List.mem_of_getElem? ht
      exact h.put i (h.plain t hmem) (h.own t hmem)
  | setRollbackData i rollbackData =>
    simp only [StateTransitionManager.step, StateTransitionManager.setRollbackData]
    split
    · exact h
    · rename_i t ht
      have hmem := List.mem_of_getElem? ht
      exact h.put i (h.plain t hmem) (h.own t hmem)

theorem run (h : Recorded digest M) (hdigest : Collisionless digest) (es : List Event) :
    Recorded digest (Machine.run (StateTransitionManager.step digest) M es) := by
  induction es generalizing M with
  | nil => exact h
  | cons e es ih => exact ih (h.step hdigest e)

end Recorded

theorem recorded_new : Recorded digest {} where
  grown := grown_nil ""
  position := rfl
  honest := fun p hp => by cases hp
  plain := fun t ht => by cases ht
  own := fun t ht => by cases ht

/-! ## What is accepted -/

open StateTransitionManager

/-- A proof is as it was sealed, under the constitution of the manager. -/
def Sealed (digest : String → String) (p : TransitionProof) : Prop :=
  p.proofHash = digest p.content ∧ p.constitutionalHash = Verification.constitutionalHash

theorem proofErrors_eq_nil_iff (i : ℕ) (previous : Option TransitionProof) (p : TransitionProof) :
    proofErrors digest i previous p = [] ↔
      Sealed digest p ∧ ∀ q ∈ previous, p.previousProofHash = q.proofHash := by
  have hsealed : (if p.verify digest then [] else
      ["Proof " ++ i.repr ++ " hash verification failed"]) = [] ↔
      p.proofHash = digest p.content := by
    split
    · next hverify => exact iff_of_true rfl (of_decide_eq_true hverify)
    · rename_i hverify
      exact iff_of_false (List.cons_ne_nil _ _) fun heq => hverify (decide_eq_true heq)
  have hlinked : (if previous.any fun q => p.previousProofHash ≠ q.proofHash then
      ["Proof " ++ i.repr ++ " chain continuity broken"] else []) = [] ↔
      ∀ q ∈ previous, p.previousProofHash = q.proofHash := by
    cases previous <;> simp
  have hconstitutional : (if p.constitutionalHash ≠ Verification.constitutionalHash then
      ["Proof " ++ i.repr ++ " constitutional hash mismatch"] else []) = [] ↔
      p.constitutionalHash = Verification.constitutionalHash := by
    simp
  rw [proofErrors, List.append_eq_nil_iff, List.append_eq_nil_iff, hsealed, hlinked,
    hconstitutional, Sealed, and_right_comm]

theorem chainErrors_eq_nil_iff (i : ℕ) (previous : Option TransitionProof)
    (proofs : List TransitionProof) :
    chainErrors digest i previous proofs = [] ↔ (∀ p ∈ proofs, Sealed digest p) ∧
      Linked TransitionProof.proofHash TransitionProof.previousProofHash
        (previous.toList ++ proofs) := by
  induction proofs generalizing i previous with
  | nil =>
    refine iff_of_true rfl ⟨(fun p hp => by cases hp), ?_⟩
    rcases previous with _ | q
    · exact .nil
    · exact .singleton q
  | cons p rest ih =>
    have hlinked : Linked TransitionProof.proofHash TransitionProof.previousProofHash
        (previous.toList ++ p :: rest) ↔ (∀ q ∈ previous, p.previousProofHash = q.proofHash) ∧
        Linked TransitionProof.proofHash TransitionProof.previousProofHash (p :: rest) := by
      rcases previous with _ | q
      · simp
      · simp [Linked]
    rw [chainErrors, List.append_eq_nil_iff, proofErrors_eq_nil_iff, ih, hlinked,
      List.forall_mem_cons]
    simp only [Option.toList_some, List.singleton_append]
    tauto

theorem verifyProofChain_iff (proofs : List TransitionProof) :
    (verifyProofChain digest proofs).1 = true ↔ (∀ p ∈ proofs, Sealed digest p) ∧
      Linked TransitionProof.proofHash TransitionProof.previousProofHash proofs := by
  rw [verifyProofChain, List.isEmpty_iff, chainErrors_eq_nil_iff]
  rfl

theorem verifyProofChain_of_append (front kept back : List TransitionProof)
    (h : (verifyProofChain digest (front ++ kept ++ back)).1 = true) :
    (verifyProofChain digest kept).1 = true := by
  rw [verifyProofChain_iff] at h ⊢
  refine ⟨fun p hp => h.1 p ?_, h.2.left_of_append.right_of_append⟩
  exact List.mem_append_left _ (List.mem_append_right _ hp)

/-! ## Tampering -/

/-- New values for the fields of a proof, other than its hashes. -/
structure Edit where
  fromState : TransitionState
  toState : TransitionState
  stateHashBefore : String
  stateHashAfter : String
  chainPosition : ℤ
  signerId : Option String
  createdAt : String

def Edit.apply (edit : Edit) (p : TransitionProof) : TransitionProof :=
  { p with
    fromState := edit.fromState
    toState := edit.toState
    stateHashBefore := edit.stateHashBefore
    stateHashAfter := edit.stateHashAfter
    chainPosition := edit.chainPosition
    signerId := edit.signerId
    createdAt := edit.createdAt }

def Edit.keep (p : TransitionProof) : Edit :=
  ⟨p.fromState, p.toState, p.stateHashBefore, p.stateHashAfter, p.chainPosition, p.signerId,
    p.createdAt⟩

/-- The list that comes of proofs and what is made of each. -/
def tampered (edits : List (TransitionProof × Edit)) : List TransitionProof :=
  edits.map fun e => e.2.apply e.1

theorem linked_tampered (edits : List (TransitionProof × Edit)) :
    Linked TransitionProof.proofHash TransitionProof.previousProofHash (tampered edits) ↔
      Linked TransitionProof.proofHash TransitionProof.previousProofHash
        (edits.map Prod.fst) := by
  rw [Linked, Linked, tampered, List.isChain_map, List.isChain_map]
  rfl

theorem sealed_apply_iff (hdigest : Collisionless digest) {p : TransitionProof}
    (hp : Honest digest p) (edit : Edit) :
    Sealed digest (edit.apply p) ↔ (edit.apply p).content = p.content := by
  have hproofHash : (edit.apply p).proofHash = digest p.content := hp.proofHash
  have hconstitutionalHash : (edit.apply p).constitutionalHash = Verification.constitutionalHash :=
    hp.constitutionalHash
  rw [Sealed, hproofHash, hdigest.injective.eq_iff]
  exact ⟨fun h => h.1.symm, fun h => ⟨h.symm, hconstitutionalHash⟩⟩

theorem content_apply_iff {p : TransitionProof} (hp : Honest digest p) {edit : Edit}
    (hbefore : Plain edit.stateHashBefore) (hafter : Plain edit.stateHashAfter) :
    (edit.apply p).content = p.content ↔ edit = { Edit.keep p with signerId := edit.signerId } := by
  constructor
  · intro h
    have hid := join_inj (c := ':') hp.transitionId hp.transitionId h
    have hfrom := join_inj (c := ':') (plain_value _) (plain_value _) hid.2
    have hto := join_inj (c := ':') (plain_value _) (plain_value _) hfrom.2
    have hstateHashBefore := join_inj (c := ':') hbefore hp.stateHashBefore hto.2
    have hstateHashAfter := join_inj (c := ':') hafter hp.stateHashAfter hstateHashBefore.2
    have hposition := join_inj (c := ':') (plain_repr _) (plain_repr _) hstateHashAfter.2
    have hcreatedAt : edit.createdAt = p.createdAt := by
      have hrest := congrArg String.toList hposition.2
      simpa [String.intercalate_cons_cons, Edit.apply, String.toList_inj] using hrest
    have hvalue : Function.Injective TransitionState.value := by
      intro state state' hstate
      cases state <;> cases state' <;> first | rfl | exact absurd hstate (by decide)
    have hfromState : edit.fromState = p.fromState := hvalue hfrom.1
    have htoState : edit.toState = p.toState := hvalue hto.1
    have hchainPosition : edit.chainPosition = p.chainPosition := Int.repr_injective hposition.1
    cases edit
    simp only [Edit.keep, Edit.mk.injEq, true_and]
    exact ⟨hfromState, htoState, hstateHashBefore.1, hstateHashAfter.1, hchainPosition, hcreatedAt⟩
  · intro h
    rw [h]
    rfl

/-- Proofs of the manager, picked, repeated, put in any order and edited, are accepted exactly when
they were a stretch of the manager's chain and no edit is of what is hashed. -/
theorem Recorded.verify_tampered_iff {M : StateTransitionManager} (h : Recorded digest M)
    (hdigest : Collisionless digest) {edits : List (TransitionProof × Edit)}
    (hedits : ∀ e ∈ edits, e.1 ∈ M.proofChain) :
    (verifyProofChain digest (tampered edits)).1 = true ↔
      Consecutive TransitionProof.chainPosition (edits.map Prod.fst) ∧
      ∀ e ∈ edits, (e.2.apply e.1).content = e.1.content := by
  have hpicked : ∀ p ∈ edits.map Prod.fst, p ∈ M.proofChain := by
    intro p hp
    obtain ⟨e, he, rfl⟩ := List.mem_map.mp hp
    exact hedits e he
  have hsealed : (∀ p ∈ tampered edits, Sealed digest p) ↔
      ∀ e ∈ edits, (e.2.apply e.1).content = e.1.content := by
    rw [tampered, List.forall_mem_map]
    exact forall₂_congr fun e he => sealed_apply_iff hdigest (h.honest _ (hedits e he)) e.2
  rw [verifyProofChain_iff, linked_tampered, h.linked_iff_consecutive hdigest hpicked, hsealed,
    and_comm]

theorem Recorded.verify_own_iff {M : StateTransitionManager} (h : Recorded digest M)
    (hdigest : Collisionless digest) {t : ConstitutionalTransition} (ht : t ∈ M.transitions) :
    (verifyProofChain digest t.proofs).1 = true ↔
      Consecutive TransitionProof.chainPosition t.proofs := by
  have hsealed : ∀ p ∈ t.proofs, Sealed digest p := by
    intro p hp
    have hhonest := h.honest p (h.own t ht p hp)
    exact ⟨hhonest.proofHash, hhonest.constitutionalHash⟩
  rw [verifyProofChain_iff, h.linked_iff_consecutive hdigest (h.own t ht)]
  exact and_iff_right hsealed

/-- **What the verification accepts**, after every run: the proofs of a transition when no other
proof was made between two of them; proofs of the manager, in any selection and order and with any
fields edited, when they are a stretch of the chain and the hashed texts are what they were, which
for hashes as the digest makes them leaves only the signer to edit; and a list of any proofs at all
when they are sealed and linked. -/
theorem verifyProofChain_exact (hdigest : Collisionless digest) (es : List Event) :
    (∀ t ∈ (after digest es).transitions, (verifyProofChain digest t.proofs).1 = true ↔
      Consecutive TransitionProof.chainPosition t.proofs) ∧
    (∀ edits : List (TransitionProof × Edit),
      (∀ e ∈ edits, e.1 ∈ (after digest es).proofChain) →
      ((verifyProofChain digest (tampered edits)).1 = true ↔
        Consecutive TransitionProof.chainPosition (edits.map Prod.fst) ∧
        ∀ e ∈ edits, (e.2.apply e.1).content = e.1.content)) ∧
    (∀ p ∈ (after digest es).proofChain, ∀ edit : Edit, Plain edit.stateHashBefore →
      Plain edit.stateHashAfter → ((edit.apply p).content = p.content ↔
        edit = { Edit.keep p with signerId := edit.signerId })) ∧
    ∀ proofs, (verifyProofChain digest proofs).1 = true ↔ (∀ p ∈ proofs, Sealed digest p) ∧
      Linked TransitionProof.proofHash TransitionProof.previousProofHash proofs := by
  have hrecorded : Recorded digest (after digest es) := recorded_new.run hdigest es
  refine ⟨fun t ht => ?_, fun edits hedits => ?_, fun p hp edit hbefore hafter => ?_,
    verifyProofChain_iff⟩
  · exact hrecorded.verify_own_iff hdigest ht
  · exact hrecorded.verify_tampered_iff hdigest hedits
  · exact content_apply_iff (hrecorded.honest p hp) hbefore hafter

/-- **The manager's own chain** is accepted after every run, and so is each stretch of it. -/
theorem verifyProofChain_of_infix (hdigest : Collisionless digest) (es : List Event)
    {proofs : List TransitionProof} (hproofs : proofs <:+: (after digest es).proofChain) :
    (verifyProofChain digest proofs).1 = true := by
  have hrecorded : Recorded digest (after digest es) := recorded_new.run hdigest es
  obtain ⟨front, back, heq⟩ := hproofs
  refine verifyProofChain_of_append front proofs back ?_
  rw [heq, verifyProofChain_iff]
  refine ⟨fun p hp => ?_, List.isChain_iff_getElem.mpr hrecorded.grown.next⟩
  exact ⟨(hrecorded.honest p hp).proofHash, (hrecorded.honest p hp).constitutionalHash⟩

/-! ## A digest without collisions -/

/-- The separator, and the letter that stands before what is written for it, written with two
letters each. -/
def escape : List Char → List Char
  | [] => []
  | c :: cs =>
    if c = ':' then '%' :: 'c' :: escape cs
    else if c = '%' then '%' :: 'p' :: escape cs
    else c :: escape cs

def escapedText (s : String) : String := String.ofList ('#' :: escape s.toList)

theorem escape_injective : Function.Injective escape := by
  intro a
  induction a with
  | nil =>
    intro b h
    rcases b with _ | ⟨d, ds⟩
    · rfl
    · rw [escape, escape] at h
      split_ifs at h
  | cons c cs ih =>
    intro b h
    rcases b with _ | ⟨d, ds⟩
    · rw [escape, escape] at h
      split_ifs at h
    · rw [escape, escape] at h
      split_ifs at h <;> grind

theorem separator_notMem_escape (cs : List Char) : ':' ∉ escape cs := by
  induction cs with
  | nil => exact List.not_mem_nil
  | cons c cs ih =>
    rw [escape]
    split_ifs with hseparator hpercent
    · simpa using ih
    · simpa using ih
    · simpa [eq_comm, hseparator] using ih

theorem collisionless_escapedText : Collisionless escapedText where
  injective := by
    intro s s' h
    have hlist := congrArg String.toList h
    rw [escapedText, escapedText, String.toList_ofList, String.toList_ofList] at hlist
    exact String.toList_inj.mp (escape_injective (List.cons.inj hlist).2)
  nonempty := by
    intro s h
    have hlist := congrArg String.toList h
    rw [escapedText, String.toList_ofList] at hlist
    cases hlist
  plain := by
    intro s
    rw [escapedText, String.toList_ofList, List.mem_cons, not_or]
    exact ⟨by decide, separator_notMem_escape _⟩

def someDraws : Draws :=
  ⟨"2025-03-01T10:00:00+00:00", "2025-03-01T10:00:00+00:00", "checkpoint",
    "2025-03-01T10:00:00+00:00", "2025-03-01T10:00:00+00:00"⟩

def someUuid : { t : String // Uuid.text t = some t } :=
  ⟨"7d444840-9dc0-11d1-b245-5ffdce74fad2", by decide +kernel⟩

def alone : List Event :=
  [.create someUuid "policy" someDraws,
    .transitionTo 0 .pendingValidation "alice" none none someDraws]

/-- Another transition is created before the move. -/
def interleaved : List Event :=
  [.create someUuid "policy" someDraws, .create someUuid "grant" someDraws,
    .transitionTo 0 .pendingValidation "alice" none none someDraws]

def resigned (proofs : List TransitionProof) : List TransitionProof :=
  tampered (proofs.map fun p => (p, { Edit.keep p with signerId := some "mallory" }))

theorem resigned_accepted {M : StateTransitionManager} (h : Recorded digest M)
    (hdigest : Collisionless digest) {t : ConstitutionalTransition} (ht : t ∈ M.transitions)
    (haccepted : (verifyProofChain digest t.proofs).1 = true) :
    (verifyProofChain digest (resigned t.proofs)).1 = true := by
  have hfst : (t.proofs.map fun p => (p, { Edit.keep p with signerId := some "mallory" })).map
      Prod.fst = t.proofs := by
    rw [List.map_map]
    exact List.map_id _
  rw [resigned, h.verify_tampered_iff hdigest, hfst]
  · refine ⟨(h.verify_own_iff hdigest ht).mp haccepted, ?_⟩
    rw [List.forall_mem_map]
    exact fun _ _ => rfl
  · rw [List.forall_mem_map]
    exact h.own t ht

theorem verifyProofChain_of_infix_interleaved :
    (verifyProofChain escapedText (after escapedText interleaved).proofChain).1 = true :=
  verifyProofChain_of_infix collisionless_escapedText interleaved List.infix_rfl

theorem verifyProofChain_exact_interleaved : Collisionless escapedText ∧
    ∀ t ∈ (after escapedText interleaved).transitions,
      (verifyProofChain escapedText t.proofs).1 = true ↔
      Consecutive TransitionProof.chainPosition t.proofs :=
  ⟨collisionless_escapedText, (verifyProofChain_exact collisionless_escapedText interleaved).1⟩

/-- The honest proofs of an interleaved transition are refused; and where honest proofs are accepted,
so are they with other signers, and without the last of them. -/
theorem not_exact_on_honest_history : Collisionless escapedText ∧
    (∃ t ∈ (after escapedText interleaved).transitions,
      (verifyProofChain escapedText t.proofs).1 = false) ∧
    ∃ t ∈ (after escapedText alone).transitions,
      (verifyProofChain escapedText t.proofs).1 = true ∧
      (resigned t.proofs).map TransitionProof.signerId ≠
        t.proofs.map TransitionProof.signerId ∧
      (verifyProofChain escapedText (resigned t.proofs)).1 = true ∧
      t.proofs.dropLast.length < t.proofs.length ∧
      (verifyProofChain escapedText t.proofs.dropLast).1 = true := by
  have hrecorded (es : List Event) : Recorded escapedText (after escapedText es) :=
    recorded_new.run collisionless_escapedText es
  refine ⟨collisionless_escapedText, ?_, ?_⟩
  · have hpositions : ∃ t ∈ (after escapedText interleaved).transitions,
        t.proofs.map TransitionProof.chainPosition = [1, 3] := by decide +kernel
    obtain ⟨t, ht, hpositions⟩ := hpositions
    refine ⟨t, ht, ?_⟩
    rw [Bool.eq_false_iff, ne_eq, (hrecorded _).verify_own_iff collisionless_escapedText ht,
      consecutive_iff_map, hpositions]
    decide
  · have hproofs : ∃ t ∈ (after escapedText alone).transitions,
        t.proofs.map TransitionProof.chainPosition = [1, 2] ∧
        t.proofs.map TransitionProof.signerId = [none, some "alice"] := by decide +kernel
    obtain ⟨t, ht, hpositions, hsigners⟩ := hproofs
    have haccepted : (verifyProofChain escapedText t.proofs).1 = true := by
      rw [(hrecorded _).verify_own_iff collisionless_escapedText ht, consecutive_iff_map,
        hpositions]
      decide
    have hlength : t.proofs.length = 2 := by
      rw [← List.length_map TransitionProof.chainPosition, hpositions]
      rfl
    have hne : t.proofs ≠ [] := by
      intro hnil
      rw [hnil] at hlength
      cases hlength
    refine ⟨t, ht, haccepted, fun heq => ?_,
      resigned_accepted (hrecorded _) collisionless_escapedText ht haccepted, ?_,
      verifyProofChain_of_append [] t.proofs.dropLast [t.proofs.getLast hne] ?_⟩
    · have hmallory : (resigned t.proofs).map TransitionProof.signerId =
          t.proofs.map fun _ => some "mallory" := by
        rw [resigned, tampered, List.map_map, List.map_map]
        rfl
      rw [hmallory, hsigners, List.map_const', hlength] at heq
      exact absurd heq (by decide)
    · rw [List.length_dropLast, hlength]
      decide
    · rwa [List.nil_append, List.dropLast_concat_getLast]

end EnhancedAgentBus.Verification
