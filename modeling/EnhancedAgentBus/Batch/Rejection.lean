import EnhancedAgentBus.Batch.Chain

/-!
# What becomes of a rejected batch

A batch that a stage rejects is held back where a stage raises, or where governance returns behind
an open breaker's fallback response.  Else the stages behind the one that has rejected it go on, and
it is processed (`rejected_imp_notProcessed_iff`).
-/

namespace EnhancedAgentBus.Batch

open Pipeline
open Security (LowerTable asciiLower)

/-! ## What is claimed, and when it holds -/

section Claim

variable [PrintTable] [LowerTable] {κ : Type} [DecidableEq κ]

/-- Where a batch is, once it has passed stages. -/
def arrives (stages : List (Stage κ)) (context : ChainContext) : Option ChainContext :=
  passed (stages.map Stage.middleware) context

/-- A run of stages and of what comes behind them. -/
def runThrough (stages : List (Stage κ)) (onward : ChainContext → Run ChainContext BatchError)
    (context : ChainContext) : Run ChainContext BatchError :=
  through (stages.map Stage.middleware) onward context

variable (chain : BatchChain κ) (request : SubmittedBatch)

/-- A stage that the batch comes to rejects it. -/
def Rejected : Prop :=
  ∃ before stage after context, chain.stages request = before ++ stage :: after ∧
    arrives before request.context = some context ∧ stage.rejects context = true

/-- However the processing goes, where the batch comes to it, no item is processed and nothing is
said to have succeeded. -/
def NotProcessed (processing : Processing) (stages : List (Stage κ)) (context : ChainContext) :
    Prop :=
  ∀ onward, (∀ arrived, arrives stages context = some arrived →
    Finishes processing arrived (onward arrived)) →
      Harmless request (runThrough stages onward context)

inductive Held (stages : List (Stage κ)) (context : ChainContext) : Prop
  /-- A stage raises, and no breaker in front of it catches that. -/
  | raised {before after : List (Stage κ)} {stage : Stage κ} {arrived left : ChainContext}
      {error : BatchError} (hstages : stages = before ++ stage :: after)
      (harrives : arrives before context = some arrived)
      (hraises : stage.work arrived = .raises error left)
      (hunswallowed : ∀ b ∈ before, b.swallows error = false)
  /-- A stage returns, or raises what a breaker catches, with a fallback response in place. -/
  | fallback {before after : List (Stage κ)} {stage : Stage κ} {arrived left : ChainContext}
      (hstages : stages = before ++ stage :: after)
      (harrives : arrives before context = some arrived)
      (hends : stage.work arrived = .ends left ∨
        ∃ error, stage.work arrived = .raises error left ∧ ∃ b ∈ before, b.swallows error = true)
      (hresponse : left.batchResponse.isSome = true)
  /-- No item can be processed. -/
  | inert {arrived : ChainContext} (harrives : arrives stages context = some arrived)
      (hinert : Inert arrived)

end Claim

/-! ## Where a batch settles -/

/-- What becomes of a batch in front of the processing. -/
inductive Settled where
  | reached (context : ChainContext)
  | returned (context : ChainContext)
  | raised (error : BatchError) (context : ChainContext)

section Settle

variable [PrintTable] [LowerTable] {κ : Type} [DecidableEq κ]

/-- What a stage makes of how the batch settles behind it. -/
def Stage.resettle (stage : Stage κ) : Settled → Settled
  | .raised error context =>
    if stage.swallows error then .returned (stage.afterwards context (some error)).1
    else .raised error context
  | settled => settled

def settle : List (Stage κ) → ChainContext → Settled
  | [], context => .reached context
  | stage :: rest, context =>
    match stage.work context with
    | .callNext context => stage.resettle (settle rest context)
    | .ends context => .returned context
    | .raises error context => .raised error context

def Settled.HeldBack : Settled → Prop
  | reached context => Inert context
  | returned context => context.batchResponse.isSome = true
  | raised _ _ => True

/-- How a run in which the batch settles so ends: as the run behind the stages, if it is reached. -/
def Settled.Tells (arrived : Option ChainContext)
    (onward : ChainContext → Run ChainContext BatchError) (left : ChainContext)
    (error : Option BatchError) : Settled → Prop
  | reached context => arrived = some context ∧ left = (onward context).context ∧
      error = (onward context).error
  | returned context => arrived = none ∧ left = context ∧ error = none
  | raised e context => arrived = none ∧ left = context ∧ error = some e

def Settled.context : Settled → ChainContext
  | reached context | returned context | raised _ context => context

variable {stage : Stage κ} {rest stages : List (Stage κ)} {context arrived : ChainContext}
variable {onward : ChainContext → Run ChainContext BatchError} {request : SubmittedBatch}
variable {mw : Processing}

omit [PrintTable] [LowerTable] [DecidableEq κ] in
theorem afterwards_of_not_swallows {error : BatchError} (h : stage.swallows error = false)
    (context : ChainContext) : stage.afterwards context (some error) = (context, some error) := by
  cases stage with
  | circuitBreaker stage =>
    cases error with
    | listed text =>
      show stage.afterwards context (some (.listed text)) = _
      have hnot : (stage.allows && !stage.failClosed) = false := h
      rw [BreakerStage.afterwards, hnot, if_neg Bool.false_ne_true]
    | _ => rfl
  | _ => rfl

omit [PrintTable] [LowerTable] [DecidableEq κ] in
theorem afterwards_of_swallows {error : BatchError} (h : stage.swallows error = true)
    (context : ChainContext) :
    ∃ errors, stage.afterwards context (some error) =
      (context.setEarlyResult errors none, none) := by
  cases stage with
  | circuitBreaker stage =>
    cases error with
    | listed text =>
      have hcatches : (stage.allows && !stage.failClosed) = true := h
      refine ⟨["Circuit breaker recorded failure: " ++ text], ?_⟩
      show stage.afterwards context (some (.listed text)) = _
      rw [BreakerStage.afterwards, if_pos hcatches]
    | _ => cases h
  | _ => cases h

theorem arrives_cons_of_callNext {context' : ChainContext}
    (hwork : stage.work context = .callNext context') :
    arrives (stage :: rest) context = arrives rest context' := by
  show passed (stage.middleware :: rest.map Stage.middleware) context = _
  have hmw : stage.middleware.work context = .callNext context' := hwork
  rw [passed, if_pos (show stage.middleware.enabled = true from rfl), hmw]
  rfl

theorem arrives_cons_of_not_callNext (hwork : ∀ context', stage.work context ≠ .callNext context') :
    arrives (stage :: rest) context = none := by
  show passed (stage.middleware :: rest.map Stage.middleware) context = _
  rw [passed, if_pos (show stage.middleware.enabled = true from rfl)]
  split
  · next heq => exact absurd heq (hwork _)
  · rfl

variable (stages context onward) in
theorem runThrough_settle (honward : ∀ arrived, arrives stages context = some arrived →
    ∀ text, (onward arrived).error ≠ some (.listed text)) :
    (settle stages context).Tells (arrives stages context) onward
      (runThrough stages onward context).context (runThrough stages onward context).error := by
  induction stages generalizing context with
  | nil => exact ⟨rfl, rfl, rfl⟩
  | cons stage rest ih =>
    have hrun : runThrough (stage :: rest) onward context =
        stage.middleware.process (runThrough rest onward) context :=
      through_of_enabled rfl ..
    rw [settle, hrun, BaseMiddleware.process]
    cases hwork : stage.work context with
    | ends left =>
      have hmw : stage.middleware.work context = .ends left := hwork
      rw [hmw]
      refine ⟨arrives_cons_of_not_callNext fun context' heq => ?_, rfl, rfl⟩
      rw [hwork] at heq
      cases heq
    | raises error left =>
      have hmw : stage.middleware.work context = .raises error left := hwork
      rw [hmw]
      refine ⟨arrives_cons_of_not_callNext fun context' heq => ?_, rfl, rfl⟩
      rw [hwork] at heq
      cases heq
    | callNext context' =>
      have hmw : stage.middleware.work context = .callNext context' := hwork
      rw [hmw, arrives_cons_of_callNext hwork]
      rw [arrives_cons_of_callNext hwork] at honward
      have hrest := ih context' honward
      show (stage.resettle (settle rest context')).Tells (arrives rest context') onward
        (stage.afterwards (runThrough rest onward context').context
          (runThrough rest onward context').error).1
        (stage.afterwards (runThrough rest onward context').context
          (runThrough rest onward context').error).2
      have hnone : ∀ left, stage.afterwards left none = (left, none) := by
        intro left
        cases stage with
        | _ => rfl
      cases hsettle : settle rest context' with
      | reached arrived =>
        rw [hsettle] at hrest
        obtain ⟨harrives, hcontext, herror⟩ := hrest
        rw [hcontext, herror]
        show arrives rest context' = some arrived ∧ _
        refine ⟨harrives, ?_⟩
        rcases hlast : (onward arrived).error with _ | error
        · rw [hnone]
          exact ⟨rfl, rfl⟩
        · have hpass : stage.swallows error = false := by
            cases error with
            | listed text => exact absurd hlast (honward arrived harrives text)
            | _ =>
              cases stage with
              | _ => rfl
          rw [afterwards_of_not_swallows hpass]
          exact ⟨rfl, rfl⟩
      | returned left =>
        rw [hsettle] at hrest
        obtain ⟨harrives, hcontext, herror⟩ := hrest
        rw [hcontext, herror, hnone]
        exact ⟨harrives, rfl, rfl⟩
      | raised error left =>
        rw [hsettle] at hrest
        obtain ⟨harrives, hcontext, herror⟩ := hrest
        rw [hcontext, herror, Stage.resettle]
        cases hswallows : stage.swallows error with
        | true =>
          obtain ⟨errors, heq⟩ := afterwards_of_swallows hswallows left
          rw [heq]
          exact ⟨harrives, rfl, rfl⟩
        | false =>
          rw [afterwards_of_not_swallows hswallows]
          exact ⟨harrives, rfl, rfl⟩

theorem Fresh.settle (h : Fresh context) (stages : List (Stage κ)) :
    Fresh (settle stages context).context := by
  induction stages generalizing context with
  | nil => exact h
  | cons stage rest ih =>
    have hwork := h.work stage
    rw [Batch.settle]
    cases hstage : stage.work context with
    | ends left =>
      rw [hstage] at hwork
      exact hwork
    | raises error left =>
      rw [hstage] at hwork
      exact hwork
    | callNext context' =>
      rw [hstage] at hwork
      have hrest : Fresh (Batch.settle rest context').context := ih hwork
      show Fresh (stage.resettle (Batch.settle rest context')).context
      cases hsettle : Batch.settle rest context' with
      | reached arrived =>
        rw [hsettle] at hrest
        exact hrest
      | returned left =>
        rw [hsettle] at hrest
        exact hrest
      | raised error left =>
        rw [hsettle] at hrest
        rw [Stage.resettle]
        split
        · rename_i hswallows
          obtain ⟨errors, heq⟩ := afterwards_of_swallows hswallows left
          rw [heq]
          exact Fresh.setEarlyResult hrest errors none
        · exact hrest

theorem notProcessed_iff (hfresh : Fresh context) :
    NotProcessed request mw stages context ↔ (settle stages context).HeldBack := by
  have hsettled := hfresh.settle stages
  have hrun : ∀ onward : ChainContext → Run ChainContext BatchError,
      (∀ arrived, arrives stages context = some arrived → Finishes mw arrived (onward arrived)) →
        _ := fun onward honward =>
    runThrough_settle stages context onward
      fun arrived harrives text => (honward arrived harrives).not_listed text
  have hidle : arrives stages context = none → ∀ arrived, arrives stages context = some arrived →
      Finishes mw arrived (.returned arrived) := by
    intro hnone arrived harrives
    rw [hnone] at harrives
    cases harrives
  cases hsettle : settle stages context with
  | reached arrived =>
    rw [hsettle] at hsettled
    replace hsettled : Fresh arrived := hsettled
    show _ ↔ Inert arrived
    rw [← harmless_processing_iff mw request hsettled]
    constructor
    · intro h run hfinishes
      have honward : ∀ arrived', arrives stages context = some arrived' →
          Finishes mw arrived' run := by
        intro arrived' harrives
        have hat := runThrough_settle stages context
          (fun _ => run) fun _ _ => hfinishes.not_listed
        rw [hsettle] at hat
        rw [hat.1] at harrives
        cases harrives
        exact hfinishes
      have hat := hrun (fun _ => run) honward
      rw [hsettle] at hat
      exact (Harmless.congr _ hat.2.1 hat.2.2).mp (h _ honward)
    · intro h onward honward
      have hat := hrun onward honward
      rw [hsettle] at hat
      exact (Harmless.congr _ hat.2.1 hat.2.2).mpr (h _ (honward arrived hat.1))
  | returned left =>
    rw [hsettle] at hsettled
    replace hsettled : Fresh left := hsettled
    show _ ↔ left.batchResponse.isSome = true
    rw [← harmless_returned_iff request hsettled []]
    constructor
    · intro h
      have hnone : arrives stages context = none := by
        rcases harrives : arrives stages context with _ | arrived
        · rfl
        · have hat := runThrough_settle stages context
            Run.returned fun arrived _ text heq => by cases heq
          rw [hsettle, harrives] at hat
          cases hat.1
      have hat := hrun Run.returned (hidle hnone)
      rw [hsettle] at hat
      exact (Harmless.congr ⟨[], left, none⟩ hat.2.1 hat.2.2).mp (h _ (hidle hnone))
    · intro h onward honward
      have hat := hrun onward honward
      rw [hsettle] at hat
      exact (Harmless.congr ⟨[], left, none⟩ hat.2.1 hat.2.2).mpr h
  | raised error left =>
    rw [hsettle] at hsettled
    refine iff_of_true (fun onward honward => ?_) trivial
    have hat := hrun onward honward
    rw [hsettle] at hat
    exact (Harmless.congr ⟨[], left, some error⟩ hat.2.1 hat.2.2).mpr
      (harmless_raised hsettled [] error)

variable (rest) in
theorem settle_append {before : List (Stage κ)} (harrives : arrives before context = some arrived) :
    settle (before ++ rest) context = before.foldr Stage.resettle (settle rest arrived) := by
  induction before generalizing context with
  | nil =>
    cases harrives
    rfl
  | cons stage before ih =>
    cases hwork : stage.work context with
    | callNext context' =>
      rw [arrives_cons_of_callNext hwork] at harrives
      rw [List.cons_append, settle, hwork, List.foldr_cons, ← ih harrives]
    | ends left =>
      rw [arrives_cons_of_not_callNext fun context' heq => by rw [hwork] at heq; cases heq]
        at harrives
      cases harrives
    | raises error left =>
      rw [arrives_cons_of_not_callNext fun context' heq => by rw [hwork] at heq; cases heq]
        at harrives
      cases harrives

omit [PrintTable] [LowerTable] [DecidableEq κ] in
theorem foldr_resettle_returned (before : List (Stage κ)) (left : ChainContext) :
    before.foldr Stage.resettle (.returned left) = .returned left := by
  induction before with
  | nil => rfl
  | cons stage before ih =>
    rw [List.foldr_cons, ih]
    rfl

omit [PrintTable] [LowerTable] [DecidableEq κ] in
theorem foldr_resettle_reached (before : List (Stage κ)) (arrived : ChainContext) :
    before.foldr Stage.resettle (.reached arrived) = .reached arrived := by
  induction before with
  | nil => rfl
  | cons stage before ih =>
    rw [List.foldr_cons, ih]
    rfl

omit [PrintTable] [LowerTable] [DecidableEq κ] in
theorem foldr_resettle_raised (before : List (Stage κ)) (error : BatchError)
    (left : ChainContext) :
    if ∃ b ∈ before, b.swallows error = true then
      ∃ left', before.foldr Stage.resettle (.raised error left) = .returned left' ∧
        left'.batchResponse = left.batchResponse
    else before.foldr Stage.resettle (.raised error left) = .raised error left := by
  induction before with
  | nil =>
    rw [if_neg fun ⟨b, hb, _⟩ => List.not_mem_nil hb]
    rfl
  | cons stage before ih =>
    rw [List.foldr_cons]
    by_cases hbefore : ∃ b ∈ before, b.swallows error = true
    · obtain ⟨b, hb, hswallows⟩ := hbefore
      rw [if_pos ⟨b, hb, hswallows⟩] at ih
      rw [if_pos ⟨b, List.mem_cons_of_mem _ hb, hswallows⟩]
      obtain ⟨left', heq, hresponse⟩ := ih
      rw [heq]
      exact ⟨left', rfl, hresponse⟩
    · rw [if_neg hbefore] at ih
      rw [ih]
      cases hswallows : stage.swallows error with
      | true =>
        rw [if_pos ⟨stage, List.mem_cons_self .., hswallows⟩, Stage.resettle, if_pos hswallows]
        obtain ⟨errors, heq⟩ := afterwards_of_swallows hswallows left
        rw [heq]
        exact ⟨_, rfl, rfl⟩
      | false =>
        rw [if_neg, Stage.resettle, hswallows, if_neg Bool.false_ne_true]
        rintro ⟨b, hb, hb'⟩
        rcases List.mem_cons.mp hb with rfl | hb
        · rw [hswallows] at hb'
          cases hb'
        · exact hbefore ⟨b, hb, hb'⟩

theorem arrives_or_stops (stages : List (Stage κ)) (context : ChainContext) :
    (∃ arrived, arrives stages context = some arrived) ∨
      ∃ before stage after arrived, stages = before ++ stage :: after ∧
        arrives before context = some arrived ∧
          ((∃ left, stage.work arrived = .ends left) ∨
            ∃ error left, stage.work arrived = .raises error left) := by
  induction stages generalizing context with
  | nil => exact .inl ⟨context, rfl⟩
  | cons stage rest ih =>
    cases hwork : stage.work context with
    | ends left => exact .inr ⟨[], stage, rest, context, rfl, rfl, .inl ⟨left, hwork⟩⟩
    | raises error left =>
      exact .inr ⟨[], stage, rest, context, rfl, rfl, .inr ⟨error, left, hwork⟩⟩
    | callNext context' =>
      rcases ih context' with ⟨arrived, harrives⟩ |
        ⟨before, stage', after, arrived, rfl, harrives, hstops⟩
      · exact .inl ⟨arrived, (arrives_cons_of_callNext hwork).trans harrives⟩
      · exact .inr ⟨stage :: before, stage', after, arrived, rfl,
          (arrives_cons_of_callNext hwork).trans harrives, hstops⟩

theorem held_iff : Held stages context ↔ (settle stages context).HeldBack := by
  have hreached : ∀ arrived, arrives stages context = some arrived →
      settle stages context = .reached arrived := by
    intro arrived harrives
    have heq := settle_append [] harrives
    rw [List.append_nil] at heq
    exact heq.trans (foldr_resettle_reached stages arrived)
  have hends : ∀ {before after : List (Stage κ)} {stage : Stage κ} {arrived left : ChainContext},
      stages = before ++ stage :: after → arrives before context = some arrived →
        stage.work arrived = .ends left → settle stages context = .returned left := by
    intro before after stage arrived left hstages harrives hwork
    rw [hstages, settle_append _ harrives, settle, hwork]
    exact foldr_resettle_returned before left
  have hraises : ∀ {before after : List (Stage κ)} {stage : Stage κ} {arrived left : ChainContext}
      {error : BatchError}, stages = before ++ stage :: after →
        arrives before context = some arrived → stage.work arrived = .raises error left →
          settle stages context = before.foldr Stage.resettle (.raised error left) := by
    intro before after stage arrived left error hstages harrives hwork
    rw [hstages, settle_append _ harrives, settle, hwork]
  constructor
  · rintro (⟨hstages, harrives, hwork, hunswallowed⟩ | ⟨hstages, harrives, hwork, hresponse⟩ |
      ⟨harrives, hinert⟩)
    · rename_i before after stage arrived left error
      have hfold := foldr_resettle_raised before error left
      rw [if_neg fun ⟨b, hb, hswallows⟩ => by
        rw [hunswallowed b hb] at hswallows; cases hswallows] at hfold
      rw [hraises hstages harrives hwork, hfold]
      trivial
    · rename_i before after stage arrived left
      rcases hwork with hwork | ⟨error, hwork, hswallowed⟩
      · rw [hends hstages harrives hwork]
        exact hresponse
      · have hfold := foldr_resettle_raised before error left
        rw [if_pos hswallowed] at hfold
        obtain ⟨left', heq, hsame⟩ := hfold
        rw [hraises hstages harrives hwork, heq]
        show left'.batchResponse.isSome = true
        rw [hsame]
        exact hresponse
    · rw [hreached _ harrives]
      exact hinert
  · intro h
    rcases arrives_or_stops stages context with ⟨arrived, harrives⟩ |
      ⟨before, stage, after, arrived, hstages, harrives, ⟨left, hwork⟩ | ⟨error, left, hwork⟩⟩
    · rw [hreached arrived harrives] at h
      exact .inert harrives h
    · rw [hends hstages harrives hwork] at h
      exact .fallback hstages harrives (.inl hwork) h
    · have hfold := foldr_resettle_raised before error left
      by_cases hswallowed : ∃ b ∈ before, b.swallows error = true
      · rw [if_pos hswallowed] at hfold
        obtain ⟨left', heq, hsame⟩ := hfold
        rw [hraises hstages harrives hwork, heq] at h
        refine .fallback hstages harrives (.inr ⟨error, hwork, hswallowed⟩) ?_
        rw [← hsame]
        exact h
      · refine .raised hstages harrives hwork fun b hb => ?_
        by_contra hne
        exact hswallowed ⟨b, hb, by simpa using hne⟩

end Settle

/-! ## A rejected batch -/

section Claim

variable [PrintTable] [LowerTable] {κ : Type} [DecidableEq κ]
variable (chain : BatchChain κ) (request : SubmittedBatch)

/-- **What becomes of a rejected batch**: that a rejected batch is not processed comes down to its
being held back. -/
theorem rejected_imp_notProcessed_iff :
    (Rejected chain request →
        NotProcessed request chain.processing (chain.stages request) request.context) ↔
      (Rejected chain request → Held (chain.stages request) request.context) := by
  rw [notProcessed_iff (.start request), held_iff]

end Claim

/-! ## An open circuit -/

/-- A batch of one item, without deduplication. -/
def oneItem : SubmittedBatch where
  batchId := "batch"
  items := [readItem "first"]
  deduplicate := false

/-- The chain behind an open circuit, which is not `fail_closed`. -/
def openChain : BatchChain String where
  deduplication := ⟨{ cache := { maxsize := 10 } }, id, fun _ => ⟨0, 0⟩, 0⟩
  governance := ⟨{}, {}, fun _ => none, fun _ => none⟩
  circuitBreaker := { failClosed := false, breaker := { state := .opened } }
  breakerAt := 5

/-- A batch comes to the processing with an item, a place and time. -/
def Settled.goesOn : Settled → Bool
  | .reached context =>
    decide (context.batchItems ≠ []) && decide (context.maxConcurrency ≠ 0) && hasTime context
  | _ => false

theorem Settled.not_heldBack {settled : Settled} (h : settled.goesOn = true) :
    ¬settled.HeldBack := by
  cases settled with
  | reached context =>
    rintro ⟨-, hplaces | htime⟩
    · simp [goesOn, hplaces] at h
    · simp [goesOn, htime] at h
  | returned context => cases h
  | raised error context => cases h

/-- The batch is rejected, and processed. -/
theorem not_rejected_imp_notProcessed_open :
    ¬(@Rejected asciiPrintable asciiLower String _ openChain oneItem →
      @NotProcessed asciiPrintable asciiLower String _ oneItem openChain.processing
        (openChain.stages oneItem) oneItem.context) := by
  have hgoesOn : (@settle asciiPrintable asciiLower String _ (openChain.stages oneItem)
      oneItem.context).goesOn = true := by decide +kernel
  have harrives : (@arrives asciiPrintable asciiLower String _ (openChain.defaultStages oneItem)
      oneItem.context).isSome = true := by decide +kernel
  obtain ⟨arrived, harrived⟩ := Option.isSome_iff_exists.mp harrives
  intro h
  refine Settled.not_heldBack hgoesOn
    ((@notProcessed_iff asciiPrintable asciiLower _ _ _ _ _ _ (.start oneItem)).mp (h ?_))
  exact ⟨openChain.defaultStages oneItem, .circuitBreaker openChain.circuitBreaker, [], arrived,
    rfl, harrived, rfl⟩

end EnhancedAgentBus.Batch
