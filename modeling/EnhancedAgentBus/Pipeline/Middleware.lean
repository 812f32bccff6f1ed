import Mathlib.Data.List.Basic

/-!
# The middleware pipeline

A middleware does its own work, calls on with `_call_next` or ends the run, and may go on with what
the rest of the chain has come to.  The chain of a pipeline is linked from the back; the router
starts its head.

`_call_next` looks at the next middleware only, and where that one is disabled it returns: what
comes behind is not called.  The head is started whether it is enabled or not.  So a disabled
middleware is not just taken out (`removesOnly_iff`).

Each middleware of a pipeline is an object of its own, which is in no other chain.  Timings and the
metadata that is merged into a result are left out.
-/

namespace EnhancedAgentBus.Pipeline

inductive Work (γ ε : Type) where
  /-- `await self._call_next(context)` -/
  | callNext (context : γ)
  /-- It returns without calling on. -/
  | ends (context : γ)
  /-- It raises, and leaves the context so. -/
  | raises (error : ε) (context : γ)

/-- `BaseMiddleware` with its `process`: what it does before it calls on, and afterwards with the
context and the exception, if any, that comes back. -/
structure BaseMiddleware (γ ε : Type) where
  object : ℕ
  enabled : Bool := true
  work : γ → Work γ ε
  afterwards : γ → Option ε → γ × Option ε := Prod.mk

inductive Step (γ ε : Type) where
  | called (middleware : BaseMiddleware γ ε)
  | wentOn (middleware : BaseMiddleware γ ε) (error : Option ε)

@[ext]
structure Run (γ ε : Type) where
  steps : List (Step γ ε)
  context : γ
  error : Option ε

variable {γ ε : Type}

def Step.callee : Step γ ε → Option (BaseMiddleware γ ε)
  | called middleware => some middleware
  | wentOn _ _ => none

def Run.calls (run : Run γ ε) : List (BaseMiddleware γ ε) := run.steps.filterMap Step.callee

/-- `return context` -/
def Run.returned (context : γ) : Run γ ε := ⟨[], context, none⟩

/-- `process` of a middleware, given what `_call_next` does. -/
def BaseMiddleware.process (middleware : BaseMiddleware γ ε) (callNext : γ → Run γ ε)
    (context : γ) : Run γ ε :=
  match middleware.work context with
  | .callNext context =>
    let rest := callNext context
    let (context, error) := middleware.afterwards rest.context rest.error
    ⟨.called middleware :: rest.steps ++ [.wentOn middleware rest.error], context, error⟩
  | .ends context => ⟨[.called middleware], context, none⟩
  | .raises error context => ⟨[.called middleware], context, some error⟩

/-! ## The chain -/

/-- A middleware with its `_next`; `none` is the end. -/
inductive Chain (γ ε : Type) where
  | none
  | link (middleware : BaseMiddleware γ ε) (next : Chain γ ε)

def BaseMiddleware.setNext (middleware : BaseMiddleware γ ε) (next : Chain γ ε) : Chain γ ε :=
  .link middleware next

/-- `build_chain`: linked in reverse order. -/
def buildChain (middlewares : List (BaseMiddleware γ ε)) : Chain γ ε :=
  middlewares.foldr BaseMiddleware.setNext .none

/-- `if self._next and self._next.config.enabled: return await self._next.process(context)` -/
def Chain.callNext : Chain γ ε → γ → Run γ ε
  | .none, context => .returned context
  | .link middleware next, context =>
    if middleware.enabled then middleware.process next.callNext context else .returned context

def Chain.start : Chain γ ε → γ → Run γ ε
  | .none, context => .returned context
  | .link middleware next, context => middleware.process next.callNext context

/-! ## A chain as its list -/

/-- `_call_next` through middlewares, and on from there. -/
def through : List (BaseMiddleware γ ε) → (γ → Run γ ε) → γ → Run γ ε
  | [], onward, context => onward context
  | middleware :: rest, onward, context =>
    if middleware.enabled then middleware.process (through rest onward) context
    else .returned context

variable {middleware : BaseMiddleware γ ε} {middlewares : List (BaseMiddleware γ ε)} {context : γ}

theorem through_of_enabled (h : middleware.enabled = true) (rest : List (BaseMiddleware γ ε))
    (onward : γ → Run γ ε) (context : γ) :
    through (middleware :: rest) onward context =
      middleware.process (through rest onward) context :=
  if_pos h

theorem through_of_disabled (h : ¬middleware.enabled = true) (rest : List (BaseMiddleware γ ε))
    (onward : γ → Run γ ε) (context : γ) :
    through (middleware :: rest) onward context = .returned context :=
  if_neg h

theorem through_append (front back : List (BaseMiddleware γ ε)) (onward : γ → Run γ ε) :
    through (front ++ back) onward = through front (through back onward) := by
  induction front with
  | nil => rfl
  | cons middleware rest ih =>
    funext context
    rw [List.cons_append, through, through, ih]

/-- The context that comes behind middlewares which are called with `_call_next`, if it does. -/
def passed : List (BaseMiddleware γ ε) → γ → Option γ
  | [], context => some context
  | middleware :: rest, context =>
    if middleware.enabled then
      match middleware.work context with
      | .callNext context => passed rest context
      | _ => none
    else none

theorem callNext_buildChain (middlewares : List (BaseMiddleware γ ε)) :
    (buildChain middlewares).callNext = through middlewares .returned := by
  induction middlewares with
  | nil => rfl
  | cons middleware rest ih =>
    funext context
    show (if middleware.enabled then middleware.process (buildChain rest).callNext context
      else .returned context) = _
    rw [ih, through]

theorem start_buildChain_cons (middleware : BaseMiddleware γ ε)
    (rest : List (BaseMiddleware γ ε)) (context : γ) :
    (buildChain (middleware :: rest)).start context =
      middleware.process (through rest .returned) context := by
  show middleware.process (buildChain rest).callNext context = _
  rw [callNext_buildChain]

theorem start_buildChain_of_enabled
    (h : ∀ middleware ∈ middlewares.head?, middleware.enabled = true) (context : γ) :
    (buildChain middlewares).start context = through middlewares .returned context := by
  rcases middlewares with _ | ⟨middleware, rest⟩
  · rfl
  · rw [start_buildChain_cons, through_of_enabled (h middleware rfl)]

/-! ## What a call of one middleware shows -/

theorem Step.filterMap_callee_wentOn (middleware : BaseMiddleware γ ε) (error : Option ε)
    (steps : List (Step γ ε)) :
    (steps ++ [Step.wentOn middleware error]).filterMap Step.callee =
      steps.filterMap Step.callee := by
  rw [List.filterMap_append]
  exact List.append_nil _

theorem calls_process_of_callNext {callNext : γ → Run γ ε} {context' : γ}
    (h : middleware.work context = .callNext context') :
    (middleware.process callNext context).calls = middleware :: (callNext context').calls := by
  simp only [BaseMiddleware.process, h, Run.calls]
  rw [Step.filterMap_callee_wentOn]
  rfl

theorem calls_process_of_not_callNext {callNext : γ → Run γ ε}
    (h : ∀ context', middleware.work context ≠ .callNext context') :
    (middleware.process callNext context).calls = [middleware] := by
  rw [BaseMiddleware.process]
  split
  · next heq => exact absurd heq (h _)
  · rfl
  · rfl

theorem process_congr {callNext callNext' : γ → Run γ ε}
    (h : ∀ context', middleware.work context = .callNext context' → callNext context' = callNext' context')
    : middleware.process callNext context = middleware.process callNext' context := by
  rw [BaseMiddleware.process, BaseMiddleware.process]
  split
  · next heq => rw [h _ heq]
  · rfl
  · rfl

theorem process_ne_returned (middleware : BaseMiddleware γ ε) (callNext : γ → Run γ ε)
    (context : γ) : (middleware.process callNext context).calls ≠ [] := by
  by_cases h : ∃ context', middleware.work context = .callNext context'
  · obtain ⟨context', h⟩ := h
    rw [calls_process_of_callNext h]
    exact List.cons_ne_nil _ _
  · rw [calls_process_of_not_callNext fun context' heq => h ⟨context', heq⟩]
    exact List.cons_ne_nil _ _

/-! ## Disabled middlewares -/

def enabledOnly (middlewares : List (BaseMiddleware γ ε)) : List (BaseMiddleware γ ε) :=
  middlewares.filter (·.enabled)

def inOrder : List (BaseMiddleware γ ε) → γ → List (BaseMiddleware γ ε)
  | [], _ => []
  | middleware :: rest, context =>
    middleware ::
      match middleware.work context with
      | .callNext context => inOrder rest context
      | _ => []

theorem mem_of_mem_inOrder (h : middleware ∈ inOrder middlewares context) :
    middleware ∈ middlewares := by
  induction middlewares generalizing context with
  | nil => exact h
  | cons m rest ih =>
    rw [inOrder] at h
    rcases List.mem_cons.mp h with rfl | h
    · exact List.mem_cons_self ..
    · split at h
      · exact List.mem_cons_of_mem _ (ih h)
      · cases h

/-- Disabled middlewares are just taken out: the run is that of the chain without them, and it calls
the enabled ones, each once and in order, up to the first that does not call on. -/
structure RemovesOnly (middlewares : List (BaseMiddleware γ ε)) (context : γ) : Prop where
  same : (buildChain middlewares).start context =
    (buildChain (enabledOnly middlewares)).start context
  calls : ((buildChain middlewares).start context).calls = inOrder (enabledOnly middlewares) context

/-- Behind the first disabled middleware there is no enabled one; or one before it does not call
on. -/
def NoneBehind : List (BaseMiddleware γ ε) → γ → Prop
  | [], _ => True
  | middleware :: rest, context =>
    if middleware.enabled then
      match middleware.work context with
      | .callNext context => NoneBehind rest context
      | _ => True
    else ∀ m ∈ rest, m.enabled = false

theorem enabledOnly_cons_of_pos (h : middleware.enabled = true) (rest : List (BaseMiddleware γ ε)) :
    enabledOnly (middleware :: rest) = middleware :: enabledOnly rest :=
  List.filter_cons_of_pos h

theorem enabledOnly_cons_of_neg (h : ¬middleware.enabled = true) (rest : List (BaseMiddleware γ ε))
    : enabledOnly (middleware :: rest) = enabledOnly rest :=
  List.filter_cons_of_neg h

theorem enabled_head_enabledOnly (middlewares : List (BaseMiddleware γ ε)) :
    ∀ middleware ∈ (enabledOnly middlewares).head?, middleware.enabled = true := by
  intro middleware h
  exact (List.mem_filter.mp (List.mem_of_mem_head? h)).2

theorem enabledOnly_eq_nil :
    enabledOnly middlewares = [] ↔ ∀ m ∈ middlewares, m.enabled = false := by
  simp [enabledOnly]

theorem calls_through (h : ∀ m ∈ middlewares, m.enabled = true) (context : γ) :
    (through middlewares .returned context).calls = inOrder middlewares context := by
  induction middlewares generalizing context with
  | nil => rfl
  | cons middleware rest ih =>
    rw [through_of_enabled (h middleware (List.mem_cons_self ..)), inOrder]
    split
    · rename_i context' hwork
      rw [calls_process_of_callNext hwork, ih fun m hm => h m (List.mem_cons_of_mem _ hm)]
    · next hwork => exact calls_process_of_not_callNext fun context' heq => hwork context' heq

theorem calls_through_enabledOnly (middlewares : List (BaseMiddleware γ ε)) (context : γ) :
    (through (enabledOnly middlewares) .returned context).calls =
      inOrder (enabledOnly middlewares) context :=
  calls_through (fun _ hm => (List.mem_filter.mp hm).2) context

theorem through_enabledOnly (h : NoneBehind middlewares context) :
    through middlewares .returned context = through (enabledOnly middlewares) .returned context := by
  induction middlewares generalizing context with
  | nil => rfl
  | cons middleware rest ih =>
    rw [NoneBehind] at h
    by_cases henabled : middleware.enabled = true
    · rw [if_pos henabled] at h
      rw [enabledOnly_cons_of_pos henabled, through_of_enabled henabled,
        through_of_enabled henabled]
      refine process_congr fun context' hwork => ih ?_
      rw [hwork] at h
      exact h
    · rw [if_neg henabled] at h
      rw [enabledOnly_cons_of_neg henabled, enabledOnly_eq_nil.mpr h,
        through_of_disabled henabled]
      rfl

theorem noneBehind_of_calls
    (h : (through middlewares .returned context).calls = inOrder (enabledOnly middlewares) context)
    : NoneBehind middlewares context := by
  induction middlewares generalizing context with
  | nil => trivial
  | cons middleware rest ih =>
    rw [NoneBehind]
    by_cases henabled : middleware.enabled = true
    · rw [if_pos henabled]
      rw [through_of_enabled henabled, enabledOnly_cons_of_pos henabled, inOrder] at h
      split
      · rename_i context' hwork
        rw [calls_process_of_callNext hwork, hwork] at h
        exact ih (List.cons.inj h).2
      · trivial
    · rw [if_neg henabled]
      rw [through_of_disabled henabled, enabledOnly_cons_of_neg henabled] at h
      apply enabledOnly_eq_nil.mp
      rcases hrest : enabledOnly rest with _ | ⟨m, ms⟩
      · rfl
      · rw [hrest] at h
        cases h

/-- **When disabling removes only what is disabled**: the head is enabled, and no enabled middleware
that the run would come to is behind a disabled one. -/
theorem removesOnly_iff (middleware : BaseMiddleware γ ε) (rest : List (BaseMiddleware γ ε))
    (context : γ) :
    RemovesOnly (middleware :: rest) context ↔
      middleware.enabled = true ∧ NoneBehind (middleware :: rest) context := by
  have hfiltered := start_buildChain_of_enabled (enabled_head_enabledOnly (middleware :: rest))
    context
  constructor
  · intro h
    have hcalls := h.calls
    have henabled : middleware.enabled = true := by
      have hmem : middleware ∈ inOrder (enabledOnly (middleware :: rest)) context := by
        rw [← hcalls, start_buildChain_cons]
        by_cases hwork : ∃ context', middleware.work context = .callNext context'
        · obtain ⟨context', hwork⟩ := hwork
          rw [calls_process_of_callNext hwork]
          exact List.mem_cons_self ..
        · rw [calls_process_of_not_callNext fun context' heq => hwork ⟨context', heq⟩]
          exact List.mem_cons_self ..
      exact (List.mem_filter.mp (mem_of_mem_inOrder hmem)).2
    refine ⟨henabled, noneBehind_of_calls ?_⟩
    rw [← hcalls, start_buildChain_cons, through_of_enabled henabled]
  · rintro ⟨henabled, hbehind⟩
    have hstart : (buildChain (middleware :: rest)).start context =
        (buildChain (enabledOnly (middleware :: rest))).start context := by
      rw [hfiltered, ← through_enabledOnly hbehind, start_buildChain_cons,
        through_of_enabled henabled]
    refine ⟨hstart, ?_⟩
    rw [hstart, hfiltered]
    exact calls_through_enabledOnly _ _

def adds (n : ℕ) (enabled : Bool) : BaseMiddleware ℕ Empty where
  object := n
  enabled := enabled
  work context := .callNext (context + n)

/-- Behind the disabled one, the last one is not called. -/
theorem not_removesOnly_adds :
    ¬∀ (middleware : BaseMiddleware ℕ Empty) rest context,
      RemovesOnly (middleware :: rest) context := by
  intro h
  have hsame := (h (adds 1 true) [adds 2 false, adds 4 true] 0).same
  exact absurd (congrArg Run.context hsame) (by decide)

end EnhancedAgentBus.Pipeline
