import EnhancedAgentBus.Lib.Dict
import EnhancedAgentBus.Lib.Search
import Mathlib.Algebra.Order.Ring.Rat

/-!
# Failover

Which provider a request goes to, which are its fallbacks, and `execute_with_failover` over them:
the selected provider may fail in any of the declared ways, a fallback only in some of them, or the
search ends with it.

What the providers answer is a parameter, call by call.  The health scores and the capable providers
are those of the moment; the events and the metrics that are recorded decide nothing.
-/

namespace EnhancedAgentBus.LlmAdapters

open Search

/-- The errors of `FAILOVER_EXECUTION_ERRORS` and of `HEDGED_EXECUTION_ERRORS`; an `OSError` that is
neither a `ConnectionError` nor a `TimeoutError` is an `osError`. -/
inductive ErrorKind where
  | runtimeError
  | valueError
  | typeError
  | keyError
  | attributeError
  | connectionError
  | timeoutError
  | osError
  deriving DecidableEq

/-- `except (RuntimeError, ValueError, ConnectionError, TimeoutError)` -/
def ErrorKind.caught : ErrorKind → Bool
  | runtimeError | valueError | connectionError | timeoutError => true
  | typeError | keyError | attributeError | osError => false

/-! ## The failover manager -/

/-- A `ProactiveFailoverManager`, with the health scores of the moment, and the providers that are
capable of what is required. -/
structure ProactiveFailoverManager where
  primaryProviders : Dict String String := .empty
  fallbackChains : Dict String (List String) := .empty
  activeFailovers : Dict String String := .empty
  healthScore : String → ℚ
  capable : List String

namespace ProactiveFailoverManager

def proactiveFailoverThreshold : ℚ := 6 / 10

def recoveryThreshold : ℚ := 85 / 100

variable (M : ProactiveFailoverManager)

def buildFallbackChain (providerId : String) : List String :=
  match M.fallbackChains.get providerId with
  | some chain => chain
  | none =>
    let fallbacks := M.capable.filter (· ≠ providerId)
    (fallbacks.mergeSort fun p q => M.healthScore q ≤ M.healthScore p).take 5

/-- The end of `check_and_failover`: back to the primary if it has recovered. -/
def recover (tenantId current : String) (primary : Option String) :
    (String × Bool) × ProactiveFailoverManager :=
  match primary.filter (· ≠ "") with
  | none => ((current, false), M)
  | some primary =>
    if current ≠ primary ∧ recoveryThreshold ≤ M.healthScore primary then
      ((primary, true), { M with activeFailovers := M.activeFailovers.set tenantId primary })
    else ((current, false), M)

/-- `check_and_failover`: nothing where there are no capable providers, which is raised. -/
def checkAndFailover (tenantId : String) : Option ((String × Bool) × ProactiveFailoverManager) :=
  let primary := M.primaryProviders.get tenantId
  match ((M.activeFailovers.get tenantId).orElse fun _ => primary).filter (· ≠ "") with
  | none => (M.buildFallbackChain "").head?.map fun provider => ((provider, false), M)
  | some current =>
    if M.healthScore current < proactiveFailoverThreshold then
      match (M.buildFallbackChain current).find? fun fallback =>
          proactiveFailoverThreshold ≤ M.healthScore fallback with
      | some fallback =>
        some ((fallback, true),
          { M with activeFailovers := M.activeFailovers.set tenantId fallback })
      | none => some (M.recover tenantId current primary)
    else some (M.recover tenantId current primary)

/-- `select_provider`.  A warmup raises nothing. -/
def selectProvider (tenantId : String) : Option (String × ProactiveFailoverManager) :=
  (M.checkAndFailover tenantId).map fun selected => (selected.1.1, selected.2)

end ProactiveFailoverManager

/-! ## The requests -/

variable {α : Type}

def attempts (outcome : ℕ → String → Except ErrorKind α) :
    ℕ → List String → List (Except ErrorKind (String × α))
  | _, [] => []
  | n, provider :: rest =>
    (outcome n provider).map (fun result => (provider, result)) :: attempts outcome (n + 1) rest

theorem attempts_cons (outcome : ℕ → String → Except ErrorKind α) (n : ℕ) (provider : String)
    (rest : List String) : attempts outcome n (provider :: rest) =
      (outcome n provider).map (fun result => (provider, result)) ::
        attempts outcome (n + 1) rest := rfl

inductive FailoverError where
  /-- "No capable providers for tenant ..." -/
  | noCapableProviders
  | raised (e : ErrorKind)
  deriving DecidableEq

structure FailoverRun (α : Type) where
  result : Except FailoverError (String × α)
  calls : List String

/-- The loop over the fallbacks, after the selected provider has failed with `e`. -/
def tryFallbacks (outcome : ℕ → String → Except ErrorKind α) (e : ErrorKind)
    (fallbacks : List String) : FailoverRun α :=
  let tried := attempts outcome 1 fallbacks
  { result :=
      match search ErrorKind.caught tried with
      | .ok (some winner) => .ok winner
      | .ok none => .error (.raised e)
      | .error e' => .error (.raised e')
    calls := fallbacks.take (taken ErrorKind.caught tried) }

/-- `execute_with_failover` without hedging.  The manager has come to `M'` when the selected provider
has failed. -/
def executeWithFailover (M M' : ProactiveFailoverManager) (tenantId : String)
    (outcome : ℕ → String → Except ErrorKind α) : FailoverRun α :=
  match M.selectProvider tenantId with
  | none => ⟨.error .noCapableProviders, []⟩
  | some (provider, _) =>
    match outcome 0 provider with
    | .ok result => ⟨.ok (provider, result), [provider]⟩
    | .error e =>
      let run := tryFallbacks outcome e (M'.buildFallbackChain provider)
      { run with calls := provider :: run.calls }

def candidates (M M' : ProactiveFailoverManager) (tenantId : String) : List String :=
  match M.selectProvider tenantId with
  | none => []
  | some (provider, _) => provider :: M'.buildFallbackChain provider

/-! ## What is asked of an execution -/

/-- The first of the candidates to succeed has its result returned, and none is called after it; and
an error is raised only if all of the candidates fail. -/
structure SucceedsFirst (outcome : ℕ → String → Except ErrorKind α) (candidates : List String)
    (run : FailoverRun α) : Prop where
  first : ∀ before winner after, attempts outcome 0 candidates = before ++ .ok winner :: after →
    Fails before →
    run.result = .ok winner ∧ run.calls = candidates.take (before.length + 1)
  raises : ∀ e, run.result = .error e → Fails (attempts outcome 0 candidates)

/-- The selected provider succeeds, or no fallback that fails before the first one to succeed fails
with an error that goes uncaught. -/
def FallbacksUnhindered (outcome : ℕ → String → Except ErrorKind α) (candidates : List String) :
    Prop :=
  ∀ provider fallbacks e, candidates = provider :: fallbacks → outcome 0 provider = .error e →
    Unhindered ErrorKind.caught (attempts outcome 1 fallbacks)

theorem tryFallbacks_ok {outcome : ℕ → String → Except ErrorKind α} {e : ErrorKind}
    {fallbacks : List String} {winner : String × α} :
    (tryFallbacks outcome e fallbacks).result = .ok winner ↔
      search ErrorKind.caught (attempts outcome 1 fallbacks) = .ok (some winner) := by
  unfold tryFallbacks
  dsimp only
  split
  · next winner' hsearch => rw [hsearch]; simp
  · next hsearch => rw [hsearch]; simp
  · next hsearch => rw [hsearch]; simp

variable {M M' : ProactiveFailoverManager} {tenantId provider : String}
  {outcome : ℕ → String → Except ErrorKind α}

theorem succeedsFirst_of_error {e : ErrorKind} {fallbacks : List String}
    (herror : outcome 0 provider = .error e) :
    SucceedsFirst outcome (provider :: fallbacks)
        { tryFallbacks outcome e fallbacks with
          calls := provider :: (tryFallbacks outcome e fallbacks).calls } ↔
      Unhindered ErrorKind.caught (attempts outcome 1 fallbacks) := by
  have hattempts : attempts outcome 0 (provider :: fallbacks) =
      .error e :: attempts outcome 1 fallbacks := by
    rw [attempts_cons, herror]
    rfl
  rw [← search_first_iff]
  constructor
  · intro h before winner after heq hfails
    have hfirst := (h.first (.error e :: before) winner after (by rw [hattempts, heq]; rfl)
      (fails_cons.mpr ⟨⟨e, rfl⟩, hfails⟩)).1
    exact tryFallbacks_ok.mp hfirst
  · intro h
    refine ⟨fun before winner after heq hfails => ?_, fun e' hraised => ?_⟩
    · rw [hattempts] at heq
      rcases before with _ | ⟨attempt, before⟩
      · cases heq
      · obtain ⟨rfl, hrest⟩ := List.cons.inj heq
        have hbefore := (fails_cons.mp hfails).2
        have hcaught := search_first_iff.mp h before winner after hrest hbefore
        refine ⟨tryFallbacks_ok.mpr (h before winner after hrest hbefore), ?_⟩
        unfold tryFallbacks
        dsimp only
        rw [hrest, List.append_eq, taken_of_caught hbefore hcaught]
        rfl
    · rw [hattempts]
      refine fails_cons.mpr ⟨⟨e, rfl⟩, ?_⟩
      by_contra hsome
      obtain ⟨winner, hfound⟩ := unhindered_iff_found.mp (search_first_iff.mp h) hsome
      have hok := (tryFallbacks_ok (e := e)).mpr hfound
      dsimp only at hraised
      rw [hok] at hraised
      cases hraised

theorem succeedsFirst_of_ok {result : α} {fallbacks : List String}
    (hok : outcome 0 provider = .ok result) :
    SucceedsFirst outcome (provider :: fallbacks) ⟨.ok (provider, result), [provider]⟩ := by
  have hattempts : attempts outcome 0 (provider :: fallbacks) =
      .ok (provider, result) :: attempts outcome 1 fallbacks := by
    rw [attempts_cons, hok]
    rfl
  refine ⟨fun before winner after heq hfails => ?_, nofun⟩
  rw [hattempts] at heq
  rcases before with _ | ⟨attempt, before⟩
  · cases heq
    exact ⟨rfl, rfl⟩
  · obtain ⟨rfl, -⟩ := List.cons.inj heq
    obtain ⟨e, he⟩ := (fails_cons.mp hfails).1
    cases he

/-- **The failover succeeds with the first that does exactly where no fallback before it fails with
an error that goes uncaught.** -/
theorem executeWithFailover_iff (M M' : ProactiveFailoverManager) (tenantId : String)
    (outcome : ℕ → String → Except ErrorKind α) :
    SucceedsFirst outcome (candidates M M' tenantId) (executeWithFailover M M' tenantId outcome) ↔
      FallbacksUnhindered outcome (candidates M M' tenantId) := by
  unfold candidates executeWithFailover FallbacksUnhindered
  rcases hselect : M.selectProvider tenantId with _ | selected
  · refine iff_of_true ⟨fun before winner after heq _ => ?_, fun _ _ => fails_nil⟩ nofun
    rcases before with _ | ⟨attempt, before⟩
    · cases heq
    · cases heq
  · obtain ⟨provider, M₁⟩ := selected
    dsimp only
    cases hprovider : outcome 0 provider with
    | ok result =>
      refine iff_of_true (succeedsFirst_of_ok hprovider) ?_
      rintro _ _ e ⟨⟩ herror
      rw [hprovider] at herror
      cases herror
    | error e =>
      refine (succeedsFirst_of_error hprovider).trans ⟨fun h => ?_, fun h => ?_⟩
      · rintro _ _ _ ⟨⟩ -
        exact h
      · exact h provider _ e rfl hprovider

end EnhancedAgentBus.LlmAdapters
