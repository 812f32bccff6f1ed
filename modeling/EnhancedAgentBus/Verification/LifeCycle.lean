import EnhancedAgentBus.Verification.ProofChain

/-!
# The life cycle of a transition

The six operations make the moves of `VALID_TRANSITIONS` and record each of them (`Spells`), and one
that answers `(False, None)` has changed nothing.  But the operations do not reach past `VALIDATED`:
`approve_transition` would make a validated transition pending approval, under a test that it is
*not* validated, and then asks for a move from `VALIDATED` to `APPROVED`, which is not a valid one
(`approveTransition_eq`).  So a transition that is validated can only be rejected
(`Early`), and the last part of the life cycle holds exactly where none is validated.
-/

namespace EnhancedAgentBus.Verification

variable {digest : String → String}

/-! ## Paths -/

/-- Proofs that spell a path of valid moves from one state to another. -/
def Moves : TransitionState → List TransitionProof → TransitionState → Prop
  | state, [], last => state = last
  | state, p :: rest, last =>
    p.fromState = state ∧ p.toState ∈ validTransitions state ∧ Moves p.toState rest last

theorem Moves.append {state last : TransitionState} {moves : List TransitionProof}
    (h : Moves state moves last) {p : TransitionProof} (hfrom : p.fromState = last)
    (hvalid : p.toState ∈ validTransitions last) : Moves state (moves ++ [p]) p.toState := by
  induction moves generalizing state with
  | nil =>
    obtain rfl : state = last := h
    exact ⟨hfrom, hvalid, rfl⟩
  | cons q rest ih => exact ⟨h.1, h.2.1, ih h.2.2⟩

/-- The proofs of a transition: that of its creation, and a path from there to its state. -/
def Spells (t : ConstitutionalTransition) : Prop := ∃ creation moves,
  t.proofs = creation :: moves ∧ creation.fromState = .initial ∧ creation.toState = .initial ∧
  Moves .initial moves t.currentState

namespace StateTransitionManager

variable {M : StateTransitionManager} {i : ℕ} {t : ConstitutionalTransition}

theorem transitionTo_made (digest : String → String) (toState : TransitionState)
    (ht : M.transitions[i]? = some t) (hvalid : toState ∈ validTransitions t.currentState)
    (actorId : String) (reason : Option String) (executionResult : Option Json) (draws : Draws) :
    ∃ proof, proof.fromState = t.currentState ∧ proof.toState = toState ∧
      (M.transitionTo digest i toState actorId reason executionResult draws).1 =
        (true, some proof) ∧
      (M.transitionTo digest i toState actorId reason executionResult draws).2.transitions =
        M.transitions.set i
          { t.moved digest toState actorId reason executionResult draws with
            proofs := t.proofs ++ [proof] } := by
  obtain ⟨-, hrefused⟩ | ⟨t', proof, made, ht', -, hmade, heq⟩ :=
    M.transitionTo_cases digest i toState actorId reason executionResult draws
  · exact absurd hvalid (hrefused t ht)
  · rw [ht] at ht'
    obtain rfl : t = t' := Option.some.inj ht'
    rw [createTransitionProof, Prod.mk.injEq] at hmade
    refine ⟨proof, ?_, ?_, by rw [heq], ?_⟩
    · rw [← hmade.1]
      rfl
    · rw [← hmade.1]
      rfl
    · rw [heq, settle_transitions, ← hmade.2, hmade.1, ConstitutionalTransition.moved_proofs]
      rfl

theorem transitionTo_refused (digest : String → String) {toState : TransitionState}
    (hrefused : ∀ t, M.transitions[i]? = some t → toState ∉ validTransitions t.currentState)
    (actorId : String) (reason : Option String) (executionResult : Option Json) (draws : Draws) :
    M.transitionTo digest i toState actorId reason executionResult draws = ((false, none), M) := by
  obtain ⟨heq, -⟩ | ⟨t, -, -, ht, hvalid, -⟩ :=
    M.transitionTo_cases digest i toState actorId reason executionResult draws
  · exact heq
  · exact absurd hvalid (hrefused t ht)

theorem forall_set {P : ConstitutionalTransition → Prop} {ts : List ConstitutionalTransition}
    (h : ∀ t ∈ ts, P t) (ht : P t) : ∀ t' ∈ ts.set i t, P t' := by
  intro t' ht'
  rcases List.mem_or_eq_of_mem_set ht' with hmem | rfl
  · exact h t' hmem
  · exact ht

theorem spells_step (h : ∀ t ∈ M.transitions, Spells t) (e : Event) :
    ∀ t ∈ (M.step digest e).transitions, Spells t := by
  cases e with
  | create uuid stateData draws =>
    intro t ht
    simp only [step, createTransition, createTransitionProof, put] at ht
    rw [List.set_append_right _ _ (le_refl _), Nat.sub_self, List.set_cons_zero] at ht
    rcases List.mem_append.mp ht with ht | ht
    · exact h t ht
    · rw [List.mem_singleton.mp ht]
      exact ⟨_, [], rfl, rfl, rfl, rfl⟩
  | transitionTo j toState actorId reason executionResult draws =>
    obtain ⟨heq, -⟩ | ⟨t, -, -, ht, hvalid, -⟩ :=
      M.transitionTo_cases digest j toState actorId reason executionResult draws
    · rw [step, heq]
      exact h
    · obtain ⟨proof, hfrom, hto, -, htransitions⟩ :=
        transitionTo_made digest toState ht hvalid actorId reason executionResult draws
      rw [step, htransitions]
      refine forall_set h ?_
      obtain ⟨creation, moves, hproofs, hcreation⟩ := h t (List.mem_of_getElem? ht)
      refine ⟨creation, moves ++ [proof], ?_, hcreation.1, hcreation.2.1, ?_⟩
      · show t.proofs ++ [proof] = creation :: (moves ++ [proof])
        rw [hproofs, List.cons_append]
      · show Moves .initial (moves ++ [proof])
          (t.moved digest toState actorId reason executionResult draws).currentState
        rw [ConstitutionalTransition.moved_currentState, ← hto]
        exact hcreation.2.2.append hfrom (hto ▸ hvalid)
  | setStateData j stateData =>
    simp only [step, setStateData]
    split
    · exact h
    · next t ht => exact forall_set h (h t (List.mem_of_getElem? ht))
  | setRollbackData j rollbackData =>
    simp only [step, setRollbackData]
    split
    · exact h
    · next t ht => exact forall_set h (h t (List.mem_of_getElem? ht))

theorem spells_leads {M' : StateTransitionManager} (hleads : Leads digest M M')
    (h : ∀ t ∈ M.transitions, Spells t) : ∀ t ∈ M'.transitions, Spells t := by
  obtain ⟨es, rfl⟩ := hleads
  induction es generalizing M with
  | nil => exact h
  | cons e es ih => exact ih (spells_step h e)

/-! ## Runs of the operations -/

end StateTransitionManager

inductive Operation where
  | validate (validatorId : String)
  | approve (approverId : String) (reason : Option String)
  | execute (executorId : String) (executeFunc : Option (String → Effect))
  | reject (rejectorId reason : String)
  | rollback (actorId reason : String) (rollbackFunc : Option (String → Effect)) (now : String)
  | complete (actorId : String)

/-- What the callers of a manager do: they create transitions, change state data that they hold, and
call the operations. -/
inductive Call where
  | create (uuid : { t : String // Uuid.text t = some t }) (stateData : String) (draws : Draws)
  | setStateData (i : ℕ) (stateData : String)
  | operate (i : ℕ) (operation : Operation) (draws : ℕ → Draws)

namespace StateTransitionManager

variable (digest)

/-- One of the six operations on the object at a place. -/
def operate (M : StateTransitionManager) (i : ℕ) (draws : ℕ → Draws) : Operation → Done
  | .validate validatorId => M.validateTransition digest i validatorId draws
  | .approve approverId reason => M.approveTransition digest i approverId reason draws
  | .execute executorId executeFunc => M.executeTransition digest i executorId executeFunc draws
  | .reject rejectorId reason => M.rejectTransition digest i rejectorId reason draws
  | .rollback actorId reason rollbackFunc now =>
    M.rollbackTransition digest i actorId reason rollbackFunc now draws
  | .complete actorId => M.completeTransition digest i actorId draws

def call (M : StateTransitionManager) : Call → StateTransitionManager
  | .create uuid stateData draws => M.createTransition digest uuid.1 stateData draws
  | .setStateData i stateData => M.setStateData i stateData
  | .operate i operation draws => (M.operate digest i draws operation).manager

abbrev afterCalls (calls : List Call) : StateTransitionManager :=
  Machine.run (call digest) {} calls

variable {digest}

theorem leads_operate (M : StateTransitionManager) (i : ℕ) (draws : ℕ → Draws)
    (operation : Operation) : Leads digest M (M.operate digest i draws operation).manager := by
  cases operation with
  | validate => exact leads_validateTransition ..
  | approve => exact leads_approveTransition ..
  | execute => exact leads_executeTransition ..
  | reject => exact leads_transitionTo ..
  | rollback => exact leads_rollbackTransition ..
  | complete => exact leads_completeTransition ..

theorem leads_call (M : StateTransitionManager) (c : Call) : Leads digest M (M.call digest c) := by
  cases c with
  | create uuid stateData draws => exact ⟨[.create uuid stateData draws], rfl⟩
  | setStateData i stateData => exact leads_setStateData ..
  | operate i operation draws => exact leads_operate ..

end StateTransitionManager

open StateTransitionManager

/-! ## What is reached -/

/-- A transition that the operations can have left: it is not past being validated, and has no
checkpoint. -/
structure Early (t : ConstitutionalTransition) : Prop where
  state : t.currentState = .initial ∨ t.currentState = .validated ∨ t.currentState = .rejected
  checkpoints : t.checkpoints = []

/-- What an operation does: it is refused and changes nothing, or it succeeds. -/
inductive Atomic (M : StateTransitionManager) : Done → Prop where
  | refused : Atomic M ⟨.returned false none, false, M⟩
  | made (proof : TransitionProof) (M' : StateTransitionManager)
      (h : ∀ t ∈ M'.transitions, Early t) : Atomic M ⟨.returned true (some proof), false, M'⟩

variable {M : StateTransitionManager} {i : ℕ}

theorem early_moved {t : ConstitutionalTransition} (h : Early t) {toState : TransitionState}
    (hstate : toState = .initial ∨ toState = .validated ∨ toState = .rejected) (actorId : String)
    (reason : Option String) (executionResult : Option Json) (draws : Draws)
    (proofs : List TransitionProof) :
    Early { t.moved digest toState actorId reason executionResult draws with proofs := proofs } := by
  rcases hstate with rfl | rfl | rfl
  · exact ⟨.inl rfl, h.checkpoints⟩
  · exact ⟨.inr (.inl rfl), h.checkpoints⟩
  · exact ⟨.inr (.inr rfl), h.checkpoints⟩

theorem refused_of_early (h : ∀ t ∈ M.transitions, Early t) {toState : TransitionState}
    (hinitial : toState ∉ validTransitions .initial)
    (hvalidated : toState ∉ validTransitions .validated) (actorId : String)
    (reason : Option String) (executionResult : Option Json) (draws : Draws) :
    M.transitionTo digest i toState actorId reason executionResult draws = ((false, none), M) := by
  refine transitionTo_refused digest (fun t ht => ?_) actorId reason executionResult draws
  rcases (h t (List.mem_of_getElem? ht)).state with hstate | hstate | hstate
  · rwa [hstate]
  · rwa [hstate]
  · rw [hstate]
    exact List.not_mem_nil

theorem stateAt_of_early (h : ∀ t ∈ M.transitions, Early t) {state : TransitionState}
    (hstate : M.stateAt i = some state) :
    state = .initial ∨ state = .validated ∨ state = .rejected := by
  obtain ⟨t, ht, rfl⟩ := Option.map_eq_some_iff.mp hstate
  exact (h t (List.mem_of_getElem? ht)).state

theorem atomic_validateTransition (h : ∀ t ∈ M.transitions, Early t) (validatorId : String)
    (draws : ℕ → Draws) : Atomic M (M.validateTransition digest i validatorId draws) := by
  by_cases hvalid : ∃ t, M.transitions[i]? = some t ∧
      TransitionState.pendingValidation ∈ validTransitions t.currentState
  · obtain ⟨t, ht, hvalid⟩ := hvalid
    obtain ⟨first, -, -, hfirst, htransitions⟩ :=
      transitionTo_made digest _ ht hvalid validatorId none none (draws 0)
    generalize hM₁ : (M.transitionTo digest i .pendingValidation validatorId none none
      (draws 0)).2 = M₁ at htransitions
    have hi : i < M.transitions.length := (List.getElem?_eq_some_iff.mp ht).1
    have ht₁ := List.getElem?_set_self (a := { t.moved digest .pendingValidation validatorId none
      none (draws 0) with proofs := t.proofs ++ [first] }) hi
    rw [← htransitions] at ht₁
    obtain ⟨second, -, -, hsecond, htransitions₂⟩ :=
      transitionTo_made digest .validated ht₁ List.mem_cons_self validatorId none none (draws 1)
    have heq : M.validateTransition digest i validatorId draws =
        ⟨.returned true (some second), false,
          (M₁.transitionTo digest i .validated validatorId none none (draws 1)).2⟩ := by
      rw [validateTransition, hfirst, if_pos rfl, hM₁, Done.ofMove, hsecond]
    rw [heq]
    refine .made second _ ?_
    rw [htransitions₂, htransitions, List.set_set]
    refine forall_set h ?_
    exact ⟨.inr (.inl rfl), (h t (List.mem_of_getElem? ht)).checkpoints⟩
  · have hrefused := transitionTo_refused digest (fun t ht hmem => hvalid ⟨t, ht, hmem⟩)
      validatorId none none (draws 0)
    rw [validateTransition, hrefused]
    exact .refused

/-- **Each operation is atomic** among the transitions that the operations reach. -/
theorem atomic_operate (digest : String → String) (h : ∀ t ∈ M.transitions, Early t) (draws : ℕ → Draws)
    (operation : Operation) : Atomic M (M.operate digest i draws operation) := by
  have hne {state : TransitionState} (hinitial : state ≠ .initial) (hvalidated : state ≠ .validated)
      (hrejected : state ≠ .rejected) : M.stateAt i ≠ some state := by
    intro hstate
    rcases stateAt_of_early h hstate with heq | heq | heq
    · exact hinitial heq
    · exact hvalidated heq
    · exact hrejected heq
  cases operation with
  | validate validatorId => exact atomic_validateTransition h validatorId draws
  | approve approverId reason =>
    have heq : M.operate digest i draws (.approve approverId reason) =
        ⟨.returned false none, false, M⟩ := by
      rw [operate, approveTransition_eq, refused_of_early h (by decide) (by decide)]
      rfl
    rw [heq]
    exact .refused
  | execute executorId executeFunc =>
    have heq : M.operate digest i draws (.execute executorId executeFunc) =
        ⟨.returned false none, false, M⟩ := by
      rw [operate, executeTransition, if_pos (hne (by decide) (by decide) (by decide))]
    rw [heq]
    exact .refused
  | reject rejectorId reason =>
    rw [operate, rejectTransition]
    by_cases hvalid : ∃ t, M.transitions[i]? = some t ∧
        TransitionState.rejected ∈ validTransitions t.currentState
    · obtain ⟨t, ht, hvalid⟩ := hvalid
      obtain ⟨proof, -, -, hanswer, htransitions⟩ :=
        transitionTo_made digest _ ht hvalid rejectorId (some reason) none (draws 0)
      rw [Done.ofMove, hanswer]
      refine .made proof _ ?_
      rw [htransitions]
      exact forall_set h (early_moved (h t (List.mem_of_getElem? ht)) (.inr (.inr rfl)) ..)
    · rw [transitionTo_refused digest fun t ht hmem => hvalid ⟨t, ht, hmem⟩]
      exact .refused
  | rollback actorId reason rollbackFunc now =>
    rw [operate, rollbackTransition]
    split
    · exact .refused
    · rename_i t ht
      rw [(h t (List.mem_of_getElem? ht)).checkpoints]
      exact .refused
  | complete actorId =>
    rw [operate, completeTransition, if_neg (hne (by decide) (by decide) (by decide)),
      if_neg (hne (by decide) (by decide) (by decide))]
    exact .refused

theorem early_call (h : ∀ t ∈ M.transitions, Early t) (c : Call) :
    ∀ t ∈ (M.call digest c).transitions, Early t := by
  cases c with
  | create uuid stateData draws =>
    intro t ht
    simp only [call, createTransition, createTransitionProof, put] at ht
    rw [List.set_append_right _ _ (le_refl _), Nat.sub_self, List.set_cons_zero] at ht
    rcases List.mem_append.mp ht with ht | ht
    · exact h t ht
    · rw [List.mem_singleton.mp ht]
      exact ⟨.inl rfl, rfl⟩
  | setStateData j stateData =>
    simp only [call, setStateData]
    split
    · exact h
    · rename_i t ht
      have hearly := h t (List.mem_of_getElem? ht)
      exact forall_set h ⟨hearly.state, hearly.checkpoints⟩
  | operate j operation draws =>
    have hatomic := atomic_operate digest (i := j) h draws operation
    rw [call]
    generalize M.operate digest j draws operation = done at hatomic
    cases hatomic with
    | refused => exact h
    | made proof M' h' => exact h'

theorem early_run (h : ∀ t ∈ M.transitions, Early t) (calls : List Call) :
    ∀ t ∈ (Machine.run (call digest) M calls).transitions, Early t := by
  induction calls generalizing M with
  | nil => exact h
  | cons c calls ih => exact ih (early_call h c)

theorem spells_run (h : ∀ t ∈ M.transitions, Spells t) (calls : List Call) :
    ∀ t ∈ (Machine.run (call digest) M calls).transitions, Spells t := by
  induction calls generalizing M with
  | nil => exact h
  | cons c calls ih => exact ih (spells_leads (leads_call M c) h)

/-! ## The life cycle -/

/-- What is promised of a validated transition: its approval succeeds, and some calls complete it. -/
def Approvable (digest : String → String) (M : StateTransitionManager) (i : ℕ) : Prop :=
  (∀ approverId reason draws, ∃ proof,
    (M.approveTransition digest i approverId reason draws).answer = .returned true (some proof)) ∧
  ∃ calls, (Machine.run (call digest) M calls).stateAt i = some .completed

/-- **The life cycle**, after every run of calls: the proofs of every transition spell its path; an
operation that answers `(False, None)` has changed nothing and has not called its callback; and what
is promised of validated transitions holds exactly where there are none. -/
theorem lifeCycle (calls : List Call) :
    (∀ t ∈ (afterCalls digest calls).transitions, Spells t) ∧
    (∀ i draws operation,
      ((afterCalls digest calls).operate digest i draws operation).answer = .returned false none →
      ((afterCalls digest calls).operate digest i draws operation).manager =
          afterCalls digest calls ∧
        ((afterCalls digest calls).operate digest i draws operation).calledBack = false) ∧
    ((∀ i, (afterCalls digest calls).stateAt i = some .validated →
        Approvable digest (afterCalls digest calls) i) ↔
      ∀ i, (afterCalls digest calls).stateAt i ≠ some .validated) := by
  have hearly : ∀ t ∈ (afterCalls digest calls).transitions, Early t :=
    early_run (fun t ht => by cases ht) calls
  refine ⟨?_, fun i draws operation hanswer => ?_, ?_⟩
  · exact spells_run (fun t ht => by cases ht) calls
  · have hatomic := atomic_operate digest (i := i) hearly draws operation
    generalize (afterCalls digest calls).operate digest i draws operation = done at hatomic hanswer
    cases hatomic with
    | refused => exact ⟨rfl, rfl⟩
    | made proof M' h' => cases hanswer
  · constructor
    · intro hpromised i hvalidated
      obtain ⟨calls', hcompleted⟩ := (hpromised i hvalidated).2
      have hstate := stateAt_of_early (early_run hearly calls') hcompleted
      exact absurd hstate (by decide)
    · intro hnone i hvalidated
      exact absurd hvalidated (hnone i)

/-- A transition that has just been validated is not approved. -/
theorem not_approvable_validated : ∃ calls : List Call,
    (afterCalls escapedText calls).stateAt 0 = some .validated ∧
    ((afterCalls escapedText calls).approveTransition escapedText 0 "bob" none
      fun _ => someDraws).answer = .returned false none :=
  ⟨[.create someUuid "policy" someDraws, .operate 0 (.validate "alice") fun _ => someDraws],
    rfl, rfl⟩

end EnhancedAgentBus.Verification
