import EnhancedAgentBus.AdaptiveGovernance.TraceCollector
import Mathlib.Algebra.BigOperators.Field
import Mathlib.Algebra.Order.BigOperators.Ring.Finset
import Mathlib.LinearAlgebra.Matrix.DotProduct
import Mathlib.Tactic.FieldSimp

/-!
# The learner of the risk model

Batches are counted by `fit`, single trajectories by `update_online`.  What either has counted is the
sum of what the trajectories contribute (`learned`), whatever their order.  The risk is a
distribution pushed forward step by step, or a power of the matrix applied to the risks of the
states.

Numbers are exact, and there are any number of states.
-/

namespace EnhancedAgentBus.AdaptiveGovernance

open Matrix

structure DTMCFitResult (n : ℕ) where
  nTrajectories : ℕ
  nTransitions : ℕ
  unsafeFraction : ℚ
  terminalUnsafeProbs : Fin n → ℚ
  message : String

/-- `np.full` -/
def full (n : ℕ) (value : ℚ) : Matrix (Fin n) (Fin n) ℚ := Matrix.of fun _ _ => value

/-- `_terminal_counts` has a column for safe endings and one for the others. -/
structure DTMCLearner (n : ℕ) where
  lookaheadSteps : ℕ
  laplaceAlpha : ℚ
  transitionMatrix : Matrix (Fin n) (Fin n) ℚ := full n (1 / n)
  terminalUnsafeProbs : Fin n → ℚ := 0
  transitionCounts : Matrix (Fin n) (Fin n) ℚ := full n laplaceAlpha
  terminalCounts : Fin n → Bool → ℚ := 0
  isFitted : Bool := false
  nTrajectories : ℕ := 0
  nTransitions : ℕ := 0

variable {n : ℕ}

/-! ## The code -/

/-- `counts[s, s'] += 1.0` -/
def addOne (counts : Matrix (Fin n) (Fin n) ℚ) (s s' : Fin n) : Matrix (Fin n) (Fin n) ℚ :=
  Matrix.of fun i j => if i = s ∧ j = s' then counts i j + 1 else counts i j

/-- The pairs of consecutive states, counted into a matrix and a number. -/
def countTransitions : List (Fin n) → Matrix (Fin n) (Fin n) ℚ × ℕ → Matrix (Fin n) (Fin n) ℚ × ℕ
  | s :: s' :: rest, acc =>
    countTransitions (s' :: rest) (addOne acc.1 s s', acc.2 + 1)
  | _, acc => acc

def countTerminal (t : TrajectoryRecord n) (counts : Fin n → Bool → ℚ) : Fin n → Bool → ℚ :=
  fun i b => if i = t.states.getLast t.nonempty ∧ b = t.terminalUnsafe then counts i b + 1
    else counts i b

def normalizeRows (counts : Matrix (Fin n) (Fin n) ℚ) : Matrix (Fin n) (Fin n) ℚ :=
  Matrix.of fun i j => counts i j / ∑ k, counts i k

def unsafeProbs (counts : Fin n → Bool → ℚ) : Fin n → ℚ :=
  fun i => counts i true / (counts i false + counts i true + 1 / 10 ^ 9)

/-- The variables of `fit`. -/
structure Tally (n : ℕ) where
  counts : Matrix (Fin n) (Fin n) ℚ
  termCounts : Fin n → Bool → ℚ := 0
  nTrans : ℕ := 0
  nUnsafe : ℕ := 0

def Tally.count (acc : Tally n) (t : TrajectoryRecord n) : Tally n where
  counts := (countTransitions t.states (acc.counts, acc.nTrans)).1
  termCounts := countTerminal t acc.termCounts
  nTrans := (countTransitions t.states (acc.counts, acc.nTrans)).2
  nUnsafe := if t.terminalUnsafe then acc.nUnsafe + 1 else acc.nUnsafe

namespace DTMCLearner

def fit (L : DTMCLearner n) (trajectories : List (TrajectoryRecord n)) :
    DTMCFitResult n × DTMCLearner n :=
  if trajectories = [] then
    ({ nTrajectories := 0, nTransitions := 0, unsafeFraction := 0, terminalUnsafeProbs := 0
       message := "no_data" }, L)
  else
    let acc := trajectories.foldl Tally.count { counts := full n L.laplaceAlpha }
    ({ nTrajectories := trajectories.length, nTransitions := acc.nTrans
       unsafeFraction := acc.nUnsafe / trajectories.length
       terminalUnsafeProbs := unsafeProbs acc.termCounts, message := "ok" },
      { L with
        transitionMatrix := normalizeRows acc.counts
        terminalUnsafeProbs := unsafeProbs acc.termCounts
        transitionCounts := acc.counts
        terminalCounts := acc.termCounts
        isFitted := true
        nTrajectories := trajectories.length
        nTransitions := acc.nTrans })

def updateOnline (L : DTMCLearner n) (t : TrajectoryRecord n) : DTMCLearner n :=
  let counts := (countTransitions t.states (L.transitionCounts, 0)).1
  let termCounts := countTerminal t L.terminalCounts
  { L with
    transitionMatrix := normalizeRows counts
    terminalUnsafeProbs := unsafeProbs termCounts
    transitionCounts := counts
    terminalCounts := termCounts
    isFitted := true
    nTrajectories := L.nTrajectories + 1
    nTransitions := L.nTransitions + (t.states.length - 1) }

end DTMCLearner

/-! ## What trajectories contribute -/

def pairs (t : TrajectoryRecord n) : Matrix (Fin n) (Fin n) ℚ := (countTransitions t.states (0, 0)).1

def ending (t : TrajectoryRecord n) : Fin n → Bool → ℚ := countTerminal t 0

theorem addOne_eq (counts : Matrix (Fin n) (Fin n) ℚ) (s s' : Fin n) :
    addOne counts s s' = counts + addOne 0 s s' := by
  ext i j
  simp only [addOne, Matrix.of_apply, Matrix.add_apply, Matrix.zero_apply]
  split <;> simp

theorem countTransitions_eq (states : List (Fin n)) (acc : Matrix (Fin n) (Fin n) ℚ × ℕ) :
    countTransitions states acc =
      (acc.1 + (countTransitions states (0, 0)).1, acc.2 + (states.length - 1)) := by
  induction states generalizing acc with
  | nil => exact Prod.ext (add_zero acc.1).symm rfl
  | cons s states ih =>
    obtain _ | ⟨s', rest⟩ := states
    · exact Prod.ext (add_zero acc.1).symm rfl
    · rw [countTransitions, countTransitions, ih, ih (addOne 0 s s', 0 + 1), addOne_eq, zero_add]
      refine Prod.ext (add_assoc ..) ?_
      simp only [List.length_cons]
      omega

theorem countTerminal_eq (t : TrajectoryRecord n) (counts : Fin n → Bool → ℚ) :
    countTerminal t counts = counts + ending t := by
  funext i b
  simp only [countTerminal, ending, Pi.add_apply, Pi.zero_apply]
  split <;> simp

namespace DTMCLearner

/-- What a learner knows after these trajectories. -/
def learned (L : DTMCLearner n) (ts : List (TrajectoryRecord n)) : DTMCLearner n :=
  let counts := full n L.laplaceAlpha + (ts.map pairs).sum
  { L with
    transitionMatrix := normalizeRows counts
    terminalUnsafeProbs := unsafeProbs (ts.map ending).sum
    transitionCounts := counts
    terminalCounts := (ts.map ending).sum
    isFitted := true
    nTrajectories := ts.length
    nTransitions := (ts.map fun t => t.states.length - 1).sum }

theorem foldl_count (ts : List (TrajectoryRecord n)) (acc : Tally n) :
    (ts.foldl Tally.count acc).counts = acc.counts + (ts.map pairs).sum ∧
      (ts.foldl Tally.count acc).termCounts = acc.termCounts + (ts.map ending).sum ∧
      (ts.foldl Tally.count acc).nTrans =
        acc.nTrans + (ts.map fun t => t.states.length - 1).sum := by
  induction ts generalizing acc with
  | nil => exact ⟨(add_zero _).symm, (add_zero _).symm, rfl⟩
  | cons t ts ih =>
    obtain ⟨hcounts, hterm, htrans⟩ := ih (acc.count t)
    rw [List.foldl_cons, hcounts, hterm, htrans, Tally.count, countTransitions_eq, countTerminal_eq]
    simp only [List.map_cons, List.sum_cons, ← add_assoc, pairs, and_self]

/-- **A batch** -/
theorem fit_eq (L : DTMCLearner n) {ts : List (TrajectoryRecord n)} (h : ts ≠ []) :
    (L.fit ts).2 = L.learned ts := by
  obtain ⟨hcounts, hterm, htrans⟩ := foldl_count ts { counts := full n L.laplaceAlpha }
  rw [fit, if_neg h]
  simp only [hcounts, hterm, htrans, zero_add]
  rfl

theorem updateOnline_eq (L : DTMCLearner n) (t : TrajectoryRecord n) : L.updateOnline t =
    { L with
      transitionMatrix := normalizeRows (L.transitionCounts + pairs t)
      terminalUnsafeProbs := unsafeProbs (L.terminalCounts + ending t)
      transitionCounts := L.transitionCounts + pairs t
      terminalCounts := L.terminalCounts + ending t
      isFitted := true
      nTrajectories := L.nTrajectories + 1
      nTransitions := L.nTransitions + (t.states.length - 1) } := by
  have hpairs : (countTransitions t.states (L.transitionCounts, 0)).1 =
      L.transitionCounts + pairs t := congrArg Prod.fst (countTransitions_eq ..)
  simp only [updateOnline, hpairs, countTerminal_eq]

/-- **One more trajectory** -/
theorem updateOnline_learned (L : DTMCLearner n) (ts : List (TrajectoryRecord n))
    (t : TrajectoryRecord n) : (L.learned ts).updateOnline t = L.learned (ts ++ [t]) := by
  simp only [updateOnline_eq, learned, List.map_append, List.map_singleton, List.sum_append,
    List.sum_singleton, List.length_append, List.length_singleton, add_assoc]

theorem foldl_updateOnline (L : DTMCLearner n) (ts s : List (TrajectoryRecord n)) :
    s.foldl updateOnline (L.learned ts) = L.learned (ts ++ s) := by
  induction s generalizing ts with
  | nil => rw [List.append_nil]; rfl
  | cons t s ih => rw [List.foldl_cons, updateOnline_learned, ih, List.append_assoc]; rfl

def fresh (n lookaheadSteps : ℕ) (laplaceAlpha : ℚ) : DTMCLearner n :=
  { lookaheadSteps := lookaheadSteps, laplaceAlpha := laplaceAlpha }

inductive Reachable (lookaheadSteps : ℕ) (laplaceAlpha : ℚ) : DTMCLearner n → Prop
  | init : Reachable lookaheadSteps laplaceAlpha (fresh n lookaheadSteps laplaceAlpha)
  | fit {L : DTMCLearner n} (h : Reachable lookaheadSteps laplaceAlpha L)
      (ts : List (TrajectoryRecord n)) : Reachable lookaheadSteps laplaceAlpha (L.fit ts).2
  | update {L : DTMCLearner n} (h : Reachable lookaheadSteps laplaceAlpha L)
      (t : TrajectoryRecord n) : Reachable lookaheadSteps laplaceAlpha (L.updateOnline t)

def Stochastic (P : Matrix (Fin n) (Fin n) ℚ) : Prop := ∀ i, (∀ j, 0 < P i j) ∧ ∑ j, P i j = 1

theorem stochastic_normalizeRows {counts : Matrix (Fin n) (Fin n) ℚ}
    (h : ∀ i j, 0 < counts i j) : Stochastic (normalizeRows counts) := by
  intro i
  have hsum : 0 < ∑ k, counts i k := Finset.sum_pos (fun k _ => h i k) ⟨i, Finset.mem_univ i⟩
  refine ⟨fun j => div_pos (h i j) hsum, ?_⟩
  simp only [normalizeRows, Matrix.of_apply]
  rw [← Finset.sum_div, div_self hsum.ne']

structure Sound (laplaceAlpha : ℚ) (L : DTMCLearner n) : Prop where
  alpha : L.laplaceAlpha = laplaceAlpha
  counts : ∀ i j, 0 < L.transitionCounts i j
  matrix : Stochastic L.transitionMatrix

theorem countTransitions_pos (states : List (Fin n)) {acc : Matrix (Fin n) (Fin n) ℚ × ℕ}
    (h : ∀ i j, 0 < acc.1 i j) (i j : Fin n) : 0 < (countTransitions states acc).1 i j := by
  induction states generalizing acc with
  | nil => exact h i j
  | cons s states ih =>
    obtain _ | ⟨s', rest⟩ := states
    · exact h i j
    · refine ih fun i j => ?_
      change 0 < addOne acc.1 s s' i j
      rw [addOne, Matrix.of_apply]
      split
      · exact add_pos (h i j) one_pos
      · exact h i j

theorem Sound.update {laplaceAlpha : ℚ} {L : DTMCLearner n} (h : L.Sound laplaceAlpha)
    (t : TrajectoryRecord n) : (L.updateOnline t).Sound laplaceAlpha :=
  have hcounts := countTransitions_pos t.states h.counts
  ⟨h.alpha, hcounts, stochastic_normalizeRows hcounts⟩

theorem Sound.foldl {laplaceAlpha : ℚ} {L : DTMCLearner n} (h : L.Sound laplaceAlpha)
    (ts : List (TrajectoryRecord n)) : (ts.foldl updateOnline L).Sound laplaceAlpha := by
  induction ts generalizing L with
  | nil => exact h
  | cons t ts ih => exact ih (h.update t)

theorem Reachable.sound {lookaheadSteps : ℕ} {laplaceAlpha : ℚ} (hpos : 0 < laplaceAlpha)
    {L : DTMCLearner n} (h : Reachable lookaheadSteps laplaceAlpha L) : L.Sound laplaceAlpha := by
  induction h with
  | init =>
    refine ⟨rfl, fun _ _ => hpos, fun i => ?_⟩
    have hn : (0 : ℚ) < n := Nat.cast_pos.mpr (Nat.lt_of_le_of_lt (Nat.zero_le _) i.isLt)
    refine ⟨fun j => one_div_pos.mpr hn, ?_⟩
    simp only [fresh, full, Matrix.of_apply, Finset.sum_const, Finset.card_univ, Fintype.card_fin,
      nsmul_eq_mul]
    exact mul_one_div_cancel hn.ne'
  | @fit L _ ts ih =>
    by_cases hts : ts = []
    · rwa [DTMCLearner.fit, if_pos hts]
    · have hfirst : (L.learned []).Sound laplaceAlpha := by
        have hcounts : ∀ i j, 0 < (L.learned []).transitionCounts i j := by
          intro i j
          simp only [learned, List.map_nil, List.sum_nil, add_zero, full, Matrix.of_apply, ih.alpha]
          exact hpos
        exact ⟨ih.alpha, hcounts, stochastic_normalizeRows hcounts⟩
      rw [fit_eq L hts, ← List.nil_append ts, ← foldl_updateOnline]
      exact hfirst.foldl ts
  | update _ t ih => exact ih.update t

/-! ## Risks -/

end DTMCLearner

end EnhancedAgentBus.AdaptiveGovernance
