import EnhancedAgentBus.LlmAdapters.Failover
import Mathlib.Data.List.Perm.Basic
import Mathlib.Data.List.Range

/-!
# Hedging

`execute_hedged`: one task for each selected provider, of which the first success is returned.  The
tasks complete in rounds, each of them what one `asyncio.wait` returns as done, in the order in which
the tasks of the round are looked at; any rounds that bring every task to its end are considered.

The delays between the tasks show in the order of the rounds only, and of the record that is kept of
a request there is the winner.
-/

namespace EnhancedAgentBus.LlmAdapters

open Search

/-- `values[:count]` -/
def upTo (values : List String) (count : ℤ) : List String :=
  if 0 ≤ count then values.take count.toNat else values.take (values.length - count.natAbs)

inductive HedgingError where
  /-- "No providers available for hedging" -/
  | noProviders
  /-- "All hedged providers failed", which is a `RuntimeError` -/
  | allFailed
  | raised (e : ErrorKind)
  deriving DecidableEq

variable {α : Type}

/-- What a hedged request returns or raises, the tasks that are done then and the tasks that are
cancelled, and the winner that is recorded. -/
structure HedgedRun (α : Type) where
  result : Except HedgingError (String × α)
  done : List ℕ
  cancelled : List ℕ
  winningProvider : Option String

/-- `_execute_with_provider`, of the provider in a place of the list. -/
def executeWithProvider (selected : List String) (outcome : ℕ → Except ErrorKind α) (task : ℕ) :
    Except ErrorKind (String × α) :=
  (outcome task).map fun result => (selected.getD task "", result)

def processCompletedTasks (selected : List String) (outcome : ℕ → Except ErrorKind α)
    (done : List ℕ) : Except ErrorKind (Option (String × α)) :=
  search ErrorKind.caught (done.map (executeWithProvider selected outcome))

/-- `_wait_for_first_success`: a round is processed, and the tasks of the rounds to come are still
pending.  `finished` are the tasks of the rounds before. -/
def waitForFirstSuccess (selected : List String) (outcome : ℕ → Except ErrorKind α)
    (finished : List ℕ) : List (List ℕ) → HedgedRun α
  | [] => ⟨.error .allFailed, finished, [], none⟩
  | done :: rounds =>
    match processCompletedTasks selected outcome done with
    | .ok (some winner) =>
      ⟨.ok winner, finished ++ done, rounds.flatten, some winner.1⟩
    | .ok none => waitForFirstSuccess selected outcome (finished ++ done) rounds
    | .error e => ⟨.error (.raised e), finished ++ done, rounds.flatten, none⟩

/-- `providers[:hedge_count]`, where no count or a count of zero is the default. -/
def selectedProviders (defaultHedgeCount : ℤ) (providers : List String) (hedgeCount : Option ℤ) :
    List String :=
  upTo providers ((hedgeCount.filter (· ≠ 0)).getD defaultHedgeCount)

def executeHedged (selected : List String) (outcome : ℕ → Except ErrorKind α)
    (rounds : List (List ℕ)) : HedgedRun α :=
  if selected = [] then ⟨.error .noProviders, [], [], none⟩
  else waitForFirstSuccess selected outcome [] rounds

/-! ## What is asked of a hedged request -/

/-- The rounds bring each of `n` tasks to its end. -/
structure Completes (n : ℕ) (rounds : List (List ℕ)) : Prop where
  all : rounds.flatten.Perm (List.range n)
  someDone : ∀ done ∈ rounds, done ≠ []

/-- A selected provider that succeeds has its result returned, if there is one; an error is raised
only if all of them fail; and no task is left running. -/
structure HedgesAll (selected : List String) (outcome : ℕ → Except ErrorKind α) (run : HedgedRun α) :
    Prop where
  succeeds : (∃ task < selected.length, ∃ result, outcome task = .ok result) →
    ∃ task provider result, selected[task]? = some provider ∧ outcome task = .ok result ∧
      run.result = .ok (provider, result)
  raises : ∀ e, run.result = .error e → ∀ task < selected.length, ∃ e, outcome task = .error e
  ended : ∀ task < selected.length, task ∈ run.done ∨ task ∈ run.cancelled

/-- No task that fails before the first one to succeed fails with an error that goes uncaught. -/
def TasksUnhindered (outcome : ℕ → Except ErrorKind α) (rounds : List (List ℕ)) : Prop :=
  ∀ before task after, rounds.flatten = before ++ task :: after →
    (∃ result, outcome task = .ok result) → (∀ t ∈ before, ∃ e, outcome t = .error e) →
    ∀ t ∈ before, ∀ e, outcome t = .error e → e.caught = true

/-! ## The rounds as one search -/

variable {selected : List String} {outcome : ℕ → Except ErrorKind α} {finished : List ℕ}
  {rounds : List (List ℕ)}

theorem waitForFirstSuccess_result :
    (waitForFirstSuccess selected outcome finished rounds).result =
      match search ErrorKind.caught (rounds.flatten.map (executeWithProvider selected outcome)) with
      | .ok (some winner) => .ok winner
      | .ok none => .error .allFailed
      | .error e => .error (.raised e) := by
  induction rounds generalizing finished with
  | nil => rfl
  | cons done rounds ih =>
    rw [List.flatten_cons, List.map_append, search_append]
    unfold waitForFirstSuccess processCompletedTasks
    split
    · next winner hsearch => rw [hsearch]
    · next hsearch => rw [hsearch, ih]
    · next e hsearch => rw [hsearch]

theorem waitForFirstSuccess_ended {task : ℕ} (h : task ∈ finished ∨ task ∈ rounds.flatten) :
    task ∈ (waitForFirstSuccess selected outcome finished rounds).done ∨
      task ∈ (waitForFirstSuccess selected outcome finished rounds).cancelled := by
  induction rounds generalizing finished with
  | nil => exact h.imp id nofun
  | cons done rounds ih =>
    have hsplit : task ∈ finished ++ done ∨ task ∈ rounds.flatten := by
      rw [List.flatten_cons, List.mem_append, ← or_assoc] at h
      rwa [List.mem_append]
    unfold waitForFirstSuccess
    split
    · exact hsplit
    · exact ih hsplit
    · exact hsplit

theorem executeWithProvider_error {task : ℕ} {e : ErrorKind} :
    executeWithProvider selected outcome task = .error e ↔ outcome task = .error e := by
  unfold executeWithProvider
  rcases outcome task with e' | result
  · simp [Except.map]
  · simp [Except.map]

theorem executeWithProvider_ok {task : ℕ} {winner : String × α} :
    executeWithProvider selected outcome task = .ok winner ↔
      ∃ result, outcome task = .ok result ∧ winner = (selected.getD task "", result) := by
  unfold executeWithProvider
  rcases outcome task with e | result
  · simp [Except.map]
  · simp [Except.map, eq_comm]

theorem tasksUnhindered_iff :
    Unhindered ErrorKind.caught (rounds.flatten.map (executeWithProvider selected outcome)) ↔
      TasksUnhindered outcome rounds := by
  have hsucceeds : ∀ task, (∃ winner, executeWithProvider selected outcome task = .ok winner) ↔
      ∃ result, outcome task = .ok result := by
    intro task
    simp only [executeWithProvider_ok]
    constructor
    · rintro ⟨_, result, hresult, -⟩
      exact ⟨result, hresult⟩
    · rintro ⟨result, hresult⟩
      exact ⟨_, result, hresult, rfl⟩
  rw [unhindered_map_iff]
  unfold TasksUnhindered
  simp only [executeWithProvider_error, hsucceeds]

/-- **A hedged request succeeds with any of its tasks exactly where no task that fails before the
first success fails with an error that goes uncaught.** -/
theorem executeHedged_iff (selected : List String) (outcome : ℕ → Except ErrorKind α)
    (rounds : List (List ℕ)) (hrounds : Completes selected.length rounds) :
    HedgesAll selected outcome (executeHedged selected outcome rounds) ↔
      TasksUnhindered outcome rounds := by
  have hmem : ∀ task, task ∈ rounds.flatten ↔ task < selected.length := fun task => by
    rw [hrounds.all.mem_iff, List.mem_range]
  by_cases hnone : selected = []
  · subst hnone
    refine iff_of_true ⟨?_, ?_, ?_⟩ ?_
    · rintro ⟨task, hlt, -⟩
      cases hlt
    · rintro _ _ task hlt
      cases hlt
    · intro task hlt
      cases hlt
    · intro before task after heq
      have htask := (hmem task).mp (by simp [heq])
      cases htask
  · have hrun : executeHedged selected outcome rounds =
        waitForFirstSuccess selected outcome [] rounds := if_neg hnone
    have hresult := @waitForFirstSuccess_result _ selected outcome [] rounds
    have hfails : Fails (rounds.flatten.map (executeWithProvider selected outcome)) ↔
        ∀ task < selected.length, ∃ e, outcome task = .error e := by
      unfold Fails
      simp only [List.forall_mem_map, executeWithProvider_error, hmem]
    have hunhindered : Unhindered ErrorKind.caught
        (rounds.flatten.map (executeWithProvider selected outcome)) ↔
          TasksUnhindered outcome rounds := tasksUnhindered_iff
    rw [hrun, ← hunhindered, unhindered_iff_found]
    constructor
    · intro h hsome
      rw [hfails] at hsome
      push Not at hsome
      obtain ⟨task, hlt, hno⟩ := hsome
      have hok : ∃ result, outcome task = .ok result := by
        rcases houtcome : outcome task with e | result
        · exact absurd houtcome (hno e)
        · exact ⟨result, rfl⟩
      obtain ⟨_, provider, result, -, -, hreturned⟩ := h.succeeds ⟨task, hlt, hok⟩
      rw [hresult] at hreturned
      split at hreturned
      · next winner hfound => exact ⟨winner, hfound⟩
      · cases hreturned
      · cases hreturned
    · intro h
      refine ⟨?_, ?_, ?_⟩
      · rintro ⟨task, hlt, result, hok⟩
        obtain ⟨winner, hfound⟩ := h fun hall => by
          obtain ⟨e, he⟩ := hfails.mp hall task hlt
          rw [hok] at he
          cases he
        obtain ⟨task', htask', hwinner⟩ := List.mem_map.mp (mem_of_search hfound)
        obtain ⟨result', hok', rfl⟩ := executeWithProvider_ok.mp hwinner
        have hlt' : task' < selected.length := (hmem task').mp htask'
        refine ⟨task', selected.getD task' "", result', ?_, hok', ?_⟩
        · rw [List.getD_eq_getElem?_getD, List.getElem?_eq_getElem hlt']
          rfl
        · rw [hresult, hfound]
      · intro e hraised
        rw [← hfails]
        by_contra hsome
        obtain ⟨winner, hfound⟩ := h hsome
        rw [hresult, hfound] at hraised
        cases hraised
      · intro task hlt
        exact waitForFirstSuccess_ended (.inr ((hmem task).mpr hlt))

/-- **Failover and hedging succeed exactly where no error that goes uncaught comes first**, over
every list of candidates, every outcome of theirs and every order of completion. -/
theorem llmFailover_iff :
    (∀ (M M' : ProactiveFailoverManager) (tenantId : String)
        (outcome : ℕ → String → Except ErrorKind α),
      SucceedsFirst outcome (candidates M M' tenantId) (executeWithFailover M M' tenantId outcome) ↔
        FallbacksUnhindered outcome (candidates M M' tenantId)) ∧
    (∀ (defaultHedgeCount : ℤ) (providers : List String) (hedgeCount : Option ℤ)
        (outcome : ℕ → Except ErrorKind α) (rounds : List (List ℕ)),
      Completes (selectedProviders defaultHedgeCount providers hedgeCount).length rounds →
      (HedgesAll (selectedProviders defaultHedgeCount providers hedgeCount) outcome
          (executeHedged (selectedProviders defaultHedgeCount providers hedgeCount) outcome rounds) ↔
        TasksUnhindered outcome rounds)) :=
  ⟨executeWithFailover_iff, fun _ _ _ outcome rounds hrounds =>
    executeHedged_iff _ outcome rounds hrounds⟩

/-- Three providers: the first is not reached, the second is not read right, the third answers. -/
def misread : ℕ → String → Except ErrorKind String
  | 0, _ => .error .timeoutError
  | 1, _ => .error .keyError
  | _, _ => .ok "answer"

/-- A fallback that fails with a `KeyError` ends the search before the one that would answer. -/
theorem misread_raises :
    ¬SucceedsFirst misread ["a", "b", "c"]
      (executeWithFailover
        { primaryProviders := Dict.empty.set "t" "a", healthScore := fun _ => 1
          fallbackChains := Dict.empty.set "a" ["b", "c"], capable := ["a", "b", "c"] }
        { primaryProviders := Dict.empty.set "t" "a", healthScore := fun _ => 1
          fallbackChains := Dict.empty.set "a" ["b", "c"], capable := ["a", "b", "c"] }
        "t" misread) := by
  intro h
  have hfirst := (h.first [.error .timeoutError, .error .keyError] ("c", "answer") [] rfl
    (fails_cons.mpr ⟨⟨_, rfl⟩, fails_cons.mpr ⟨⟨_, rfl⟩, fails_nil⟩⟩)).2
  revert hfirst
  decide +kernel

/-- Two tasks of which the second is the first to complete. -/
theorem llmFailover_two_tasks :
    HedgesAll ["a", "b"] (fun task => if task = 0 then .error .timeoutError else .ok "answer")
        (executeHedged ["a", "b"]
          (fun task => if task = 0 then .error .timeoutError else .ok "answer") [[1], [0]]) ↔
      TasksUnhindered (fun task => if task = 0 then .error .timeoutError else .ok "answer")
        [[1], [0]] :=
  llmFailover_iff.2 2 ["a", "b"] none _ [[1], [0]] ⟨by decide +kernel, by decide +kernel⟩

end EnhancedAgentBus.LlmAdapters
