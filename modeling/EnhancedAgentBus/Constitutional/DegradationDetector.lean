import Mathlib.Tactic.Linarith
import Mathlib.Tactic.Positivity

/-!
# Severity of a degradation

Six metrics of a snapshot are compared with a baseline.  Each gets a severity, and the overall one
counts them.  Numbers are exact, and the statistical tests, on which no severity depends, are left
out.

A severity is decided by four conditions (`severityOf`), and the overall one by how many metrics
have at least each severity.  A worse snapshot meets more of the conditions, and larger thresholds
fewer.
-/

namespace EnhancedAgentBus.Constitutional

inductive DegradationSeverity where
  | none
  | low
  | moderate
  | high
  | critical
  deriving DecidableEq

namespace DegradationSeverity

def rank : DegradationSeverity → ℕ
  | .none => 0
  | .low => 1
  | .moderate => 2
  | .high => 3
  | .critical => 4

theorem rank_injective : Function.Injective rank := by
  intro s s' h
  cases s <;> cases s' <;> first | rfl | cases h

instance instLinearOrder : LinearOrder DegradationSeverity := LinearOrder.lift' rank rank_injective

theorem le_iff {s s' : DegradationSeverity} : s ≤ s' ↔ s.rank ≤ s'.rank := Iff.rfl

end DegradationSeverity

structure GovernanceMetricsSnapshot where
  violationsRate : ℚ := 0
  governanceLatencyP99 : ℚ := 0
  deliberationSuccessRate : ℚ := 0
  maciViolationsCount : ℕ := 0
  errorRate : ℚ := 0

/-- `health_score` -/
def GovernanceMetricsSnapshot.healthScore (s : GovernanceMetricsSnapshot) : ℚ :=
  let violationsPenalty := min (3 / 10) (s.violationsRate * (3 / 10))
  let latencyPenalty := if 5 < s.governanceLatencyP99 then
    min (3 / 10) ((s.governanceLatencyP99 - 5) / 50 * (3 / 10)) else 0
  let deliberationPenalty := if s.deliberationSuccessRate < 95 / 100 then
    min (2 / 10) ((95 / 100 - s.deliberationSuccessRate) * (2 / 10)) else 0
  let maciPenalty := min (1 / 10) (s.maciViolationsCount * (1 / 100))
  let errorPenalty := min (1 / 10) (s.errorRate * (1 / 10))
  max 0 (1 - (violationsPenalty + latencyPenalty + deliberationPenalty + maciPenalty +
    errorPenalty))

structure DegradationThresholds where
  violationsRateThreshold : ℚ := 1 / 100
  latencyP99ThresholdMs : ℚ := 2
  latencyP99PercentThreshold : ℚ := 5 / 10
  deliberationSuccessRateThreshold : ℚ := 5 / 100
  maciViolationsThreshold : ℕ := 1
  errorRateThreshold : ℚ := 1 / 10
  healthScoreThreshold : ℚ := 15 / 100
  nonneg : 0 ≤ violationsRateThreshold ∧ 0 ≤ latencyP99ThresholdMs ∧
    0 ≤ latencyP99PercentThreshold ∧ 0 ≤ deliberationSuccessRateThreshold ∧
    0 ≤ errorRateThreshold ∧ 0 ≤ healthScoreThreshold

structure MetricDegradationAnalysis where
  metricName : String
  baselineValue : ℚ
  currentValue : ℚ
  delta : ℚ
  percentChange : ℚ
  thresholdExceeded : Bool
  configuredThreshold : ℚ
  severity : DegradationSeverity

/-! ## The metrics -/

/-- The severity by the conditions of each, where the threshold is exceeded. -/
def severityOf (thresholdExceeded critical high moderate : Bool) : DegradationSeverity :=
  if thresholdExceeded then
    if critical then .critical else if high then .high else if moderate then .moderate else .low
  else .none

/-- The change relative to the baseline, which counts as at least `least`. -/
def percentChange (least baselineValue currentValue : ℚ) : ℚ :=
  if 0 < baselineValue then (currentValue - baselineValue) / max least baselineValue else 0

def analysis (metricName : String) (baselineValue currentValue least configuredThreshold : ℚ)
    (thresholdExceeded critical high moderate : Bool) : MetricDegradationAnalysis where
  metricName := metricName
  baselineValue := baselineValue
  currentValue := currentValue
  delta := currentValue - baselineValue
  percentChange := percentChange least baselineValue currentValue
  thresholdExceeded := thresholdExceeded
  configuredThreshold := configuredThreshold
  severity := severityOf thresholdExceeded critical high moderate

section Detector

variable (thresholds : DegradationThresholds) (baseline current : GovernanceMetricsSnapshot)

def analyzeViolationsRate : MetricDegradationAnalysis :=
  let delta := current.violationsRate - baseline.violationsRate
  let threshold := thresholds.violationsRateThreshold
  analysis "violations_rate" baseline.violationsRate current.violationsRate (1 / 1000) threshold
    (threshold < delta) (threshold * 5 < delta) (threshold * 3 < delta) (threshold * 2 < delta)

def analyzeLatencyP99 : MetricDegradationAnalysis :=
  let delta := current.governanceLatencyP99 - baseline.governanceLatencyP99
  let threshold := thresholds.latencyP99ThresholdMs
  analysis "latency_p99" baseline.governanceLatencyP99 current.governanceLatencyP99 (1 / 1000)
    threshold
    (threshold < delta ∨ thresholds.latencyP99PercentThreshold <
      percentChange (1 / 1000) baseline.governanceLatencyP99 current.governanceLatencyP99)
    (10 < current.governanceLatencyP99) (threshold * 3 < delta) (threshold * 2 < delta)

def analyzeDeliberationSuccessRate : MetricDegradationAnalysis :=
  let delta := current.deliberationSuccessRate - baseline.deliberationSuccessRate
  let threshold := thresholds.deliberationSuccessRateThreshold
  analysis "deliberation_success_rate" baseline.deliberationSuccessRate
    current.deliberationSuccessRate (1 / 1000) threshold
    (delta < -threshold) (current.deliberationSuccessRate < 85 / 100) (threshold * 3 < |delta|)
    (threshold * 2 < |delta|)

def analyzeMaciViolations : MetricDegradationAnalysis :=
  let delta : ℤ := current.maciViolationsCount - baseline.maciViolationsCount
  analysis "maci_violations_count" baseline.maciViolationsCount current.maciViolationsCount 1
    thresholds.maciViolationsThreshold
    (thresholds.maciViolationsThreshold < delta) (10 < delta) (5 < delta) (2 < delta)

def analyzeErrorRate : MetricDegradationAnalysis :=
  let delta := current.errorRate - baseline.errorRate
  let threshold := thresholds.errorRateThreshold
  analysis "error_rate" baseline.errorRate current.errorRate (1 / 1000) threshold
    (threshold < delta) (3 / 10 < current.errorRate) (threshold * 3 < delta) (threshold * 2 < delta)

def analyzeHealthScore : MetricDegradationAnalysis :=
  let delta := current.healthScore - baseline.healthScore
  let threshold := thresholds.healthScoreThreshold
  analysis "health_score" baseline.healthScore current.healthScore (1 / 1000) threshold
    (delta < -threshold) (current.healthScore < 6 / 10) (threshold * 3 < |delta|)
    (threshold * 2 < |delta|)

def metricAnalyses : List MetricDegradationAnalysis :=
  [analyzeViolationsRate thresholds baseline current, analyzeLatencyP99 thresholds baseline current,
    analyzeDeliberationSuccessRate thresholds baseline current,
    analyzeMaciViolations thresholds baseline current, analyzeErrorRate thresholds baseline current,
    analyzeHealthScore thresholds baseline current]

end Detector

def determineOverallSeverity (severities : List DegradationSeverity) : DegradationSeverity :=
  if severities.any (· = .critical) then .critical
  else if 2 ≤ severities.countP (· = .high) then .critical
  else if severities.any (· = .high) then .high
  else if 3 ≤ severities.countP (· = .moderate) then .high
  else if 2 ≤ severities.countP (· = .moderate) then .moderate
  else if severities.any (· = .moderate) then .moderate
  else if severities.any (· = .low) then .low
  else .none

/-- `overall_severity` of the report. -/
def overallSeverity (thresholds : DegradationThresholds)
    (baseline current : GovernanceMetricsSnapshot) : DegradationSeverity :=
  determineOverallSeverity
    ((metricAnalyses thresholds baseline current).map MetricDegradationAnalysis.severity)

/-! ## The overall severity -/

def atLeast (s : DegradationSeverity) (severities : List DegradationSeverity) : ℕ :=
  severities.countP (s ≤ ·)

theorem atLeast_mono (s : DegradationSeverity) {l l' : List DegradationSeverity}
    (h : List.Forall₂ (· ≤ ·) l l') : atLeast s l ≤ atLeast s l' := by
  unfold atLeast
  induction h with
  | nil => exact Nat.le_refl 0
  | @cons t t' l l' hle _ ih =>
    have hfirst : s ≤ t → s ≤ t' := fun h => h.trans hle
    rw [List.countP_cons, List.countP_cons]
    simp only [decide_eq_true_eq]
    split_ifs <;> first | omega | exact absurd (hfirst ‹_›) ‹_›

theorem rank_determineOverallSeverity (l : List DegradationSeverity) :
    (determineOverallSeverity l).rank =
      if 0 < atLeast .critical l ∨ 2 ≤ atLeast .high l then 4
      else if 0 < atLeast .high l ∨ 3 ≤ atLeast .moderate l then 3
      else if 0 < atLeast .moderate l then 2 else if 0 < atLeast .low l then 1 else 0 := by
  have hcount : atLeast .critical l = l.countP (· = .critical) ∧
      atLeast .high l = atLeast .critical l + l.countP (· = .high) ∧
      atLeast .moderate l = atLeast .high l + l.countP (· = .moderate) ∧
      atLeast .low l = atLeast .moderate l + l.countP (· = .low) := by
    unfold atLeast
    induction l with
    | nil => exact ⟨rfl, rfl, rfl, rfl⟩
    | cons s l ih =>
      obtain ⟨hcritical, hhigh, hmoderate, hlow⟩ := ih
      simp only [DegradationSeverity.le_iff, List.countP_cons] at hcritical hhigh hmoderate hlow ⊢
      cases s <;> simp [DegradationSeverity.rank] at * <;> omega
  have hany : ∀ s : DegradationSeverity, l.any (· = s) = decide (0 < l.countP (· = s)) := by
    intro s
    rw [Bool.eq_iff_iff, List.any_eq_true, decide_eq_true_eq, List.countP_pos_iff]
  obtain ⟨hcritical, hhigh, hmoderate, hlow⟩ := hcount
  simp only [determineOverallSeverity, hany, decide_eq_true_eq]
  split_ifs <;> simp only [DegradationSeverity.rank] <;> omega

theorem determineOverallSeverity_mono {l l' : List DegradationSeverity}
    (h : List.Forall₂ (· ≤ ·) l l') : determineOverallSeverity l ≤ determineOverallSeverity l' := by
  have hcritical := atLeast_mono .critical h
  have hhigh := atLeast_mono .high h
  have hmoderate := atLeast_mono .moderate h
  have hlow := atLeast_mono .low h
  rw [DegradationSeverity.le_iff, rank_determineOverallSeverity, rank_determineOverallSeverity]
  split_ifs <;> omega

/-! ## The severity of a metric -/

theorem severityOf_mono {exceeded exceeded' critical critical' high high' moderate moderate' : Bool}
    (hexceeded : exceeded = true → exceeded' = true)
    (hcritical : exceeded = true → critical = true → critical' = true)
    (hhigh : exceeded = true → high = true → high' = true)
    (hmoderate : exceeded = true → moderate = true → moderate' = true) :
    severityOf exceeded critical high moderate ≤
      severityOf exceeded' critical' high' moderate' := by
  revert exceeded exceeded' critical critical' high high' moderate moderate'
  decide

/-- In each metric the second snapshot is at least as bad as the first. -/
structure AtLeastAsBad (current current' : GovernanceMetricsSnapshot) : Prop where
  violationsRate : current.violationsRate ≤ current'.violationsRate
  governanceLatencyP99 : current.governanceLatencyP99 ≤ current'.governanceLatencyP99
  deliberationSuccessRate : current'.deliberationSuccessRate ≤ current.deliberationSuccessRate
  maciViolationsCount : current.maciViolationsCount ≤ current'.maciViolationsCount
  errorRate : current.errorRate ≤ current'.errorRate
  healthScore : current'.healthScore ≤ current.healthScore

/-- Every threshold of the second is at least that of the first. -/
structure DegradationThresholds.Le (T T' : DegradationThresholds) : Prop where
  violationsRate : T.violationsRateThreshold ≤ T'.violationsRateThreshold
  latencyMs : T.latencyP99ThresholdMs ≤ T'.latencyP99ThresholdMs
  latencyPercent : T.latencyP99PercentThreshold ≤ T'.latencyP99PercentThreshold
  deliberationSuccessRate : T.deliberationSuccessRateThreshold ≤ T'.deliberationSuccessRateThreshold
  maciViolations : T.maciViolationsThreshold ≤ T'.maciViolationsThreshold
  errorRate : T.errorRateThreshold ≤ T'.errorRateThreshold
  healthScore : T.healthScoreThreshold ≤ T'.healthScoreThreshold

theorem percentChange_mono (baselineValue : ℚ) {least currentValue currentValue' : ℚ}
    (hleast : 0 < least) (h : currentValue ≤ currentValue') :
    percentChange least baselineValue currentValue ≤
      percentChange least baselineValue currentValue' := by
  unfold percentChange
  split
  · have hpos : 0 ≤ max least baselineValue := le_max_of_le_left hleast.le
    exact div_le_div_of_nonneg_right (by linarith) hpos
  · exact le_rfl

theorem fallen_mono {threshold threshold' baseline current current' k : ℚ} (hk : 0 ≤ k)
    (hpos : 0 ≤ threshold') (hle : threshold' ≤ threshold) (h : current' ≤ current)
    (hfallen : current - baseline < -threshold) (habs : threshold * k < |current - baseline|) :
    threshold' * k < |current' - baseline| := by
  rw [abs_of_neg (by linarith)] at habs ⊢
  have hmul := mul_le_mul_of_nonneg_right hle hk
  linarith

/-- **One order on both**: a worse snapshot under smaller thresholds has a higher severity. -/
theorem overallSeverity_mono {T T' : DegradationThresholds}
    {baseline current current' : GovernanceMetricsSnapshot} (hT : T'.Le T)
    (h : AtLeastAsBad current current') :
    overallSeverity T baseline current ≤ overallSeverity T' baseline current' := by
  obtain ⟨-, -, -, hdeliberation, -, hhealth⟩ := T'.nonneg
  obtain ⟨hviolations', hlatency', hpercent', hdeliberation', hmaci', herror', hhealth'⟩ := hT
  obtain ⟨hviolations, hlatency, hsuccess, hmaci, herror, hscore⟩ := h
  have hchange := percentChange_mono baseline.governanceLatencyP99
    (show (0 : ℚ) < 1 / 1000 by norm_num) hlatency
  refine determineOverallSeverity_mono (.cons ?_ (.cons ?_ (.cons ?_ (.cons ?_ (.cons ?_
    (.cons ?_ .nil))))))
  · refine severityOf_mono ?_ ?_ ?_ ?_ <;> simp only [decide_eq_true_eq] <;> intros <;> linarith
  · refine severityOf_mono ?_ ?_ ?_ ?_ <;> simp only [decide_eq_true_eq]
    · rintro (hms | hchanged)
      · exact .inl (by linarith)
      · exact .inr (by linarith)
    all_goals intros; linarith
  · refine severityOf_mono ?_ ?_ ?_ ?_ <;> simp only [decide_eq_true_eq]
    · intro; linarith
    · intros; linarith
    · exact fallen_mono (by norm_num) hdeliberation hdeliberation' hsuccess
    · exact fallen_mono (by norm_num) hdeliberation hdeliberation' hsuccess
  · refine severityOf_mono ?_ ?_ ?_ ?_ <;> simp only [decide_eq_true_eq] <;> intros <;> omega
  · refine severityOf_mono ?_ ?_ ?_ ?_ <;> simp only [decide_eq_true_eq] <;> intros <;> linarith
  · refine severityOf_mono ?_ ?_ ?_ ?_ <;> simp only [decide_eq_true_eq]
    · intro; linarith
    · intros; linarith
    · exact fallen_mono (by norm_num) hhealth hhealth' hscore
    · exact fallen_mono (by norm_num) hhealth hhealth' hscore

theorem overallSeverity_self (T : DegradationThresholds) (baseline : GovernanceMetricsSnapshot) :
    overallSeverity T baseline baseline = .none := by
  obtain ⟨hviolations, hlatency, hpercent, hdeliberation, herror, hhealth⟩ := T.nonneg
  have hnone : (metricAnalyses T baseline baseline).map MetricDegradationAnalysis.severity =
      List.replicate 6 .none := by
    simp [metricAnalyses, analyzeViolationsRate, analyzeLatencyP99, analyzeDeliberationSuccessRate,
      analyzeMaciViolations, analyzeErrorRate, analyzeHealthScore, analysis, severityOf,
      percentChange, List.replicate, *]
  rw [overallSeverity, hnone]
  rfl

/-- **The severity is monotone**: in the snapshot, with no severity where nothing is worse than in
the baseline, and against the order in the thresholds. -/
theorem overallSeverity_monotone (baseline : GovernanceMetricsSnapshot) :
    (∀ T current current', AtLeastAsBad current current' →
      overallSeverity T baseline current ≤ overallSeverity T baseline current') ∧
    (∀ T current, AtLeastAsBad current baseline → overallSeverity T baseline current = .none) ∧
    ∀ (T T' : DegradationThresholds) current, T.Le T' →
      overallSeverity T' baseline current ≤ overallSeverity T baseline current := by
  have hT : ∀ T : DegradationThresholds, T.Le T := fun _ => by constructor <;> exact le_rfl
  have hcurrent : ∀ s, AtLeastAsBad s s := fun _ => by constructor <;> exact le_rfl
  refine ⟨fun T _ _ h => overallSeverity_mono (hT T) h, fun T current h => ?_,
    fun _ _ current h => overallSeverity_mono h (hcurrent current)⟩
  have hle : overallSeverity T baseline current ≤ overallSeverity T baseline baseline :=
    overallSeverity_mono (hT T) h
  rw [overallSeverity_self] at hle
  exact DegradationSeverity.rank_injective (Nat.le_zero.mp hle)

end EnhancedAgentBus.Constitutional
