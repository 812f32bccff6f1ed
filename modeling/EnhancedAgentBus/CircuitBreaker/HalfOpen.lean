import EnhancedAgentBus.CircuitBreaker.Breaker

/-!
# The discipline of a half-open circuit

When the breaker keeps its discipline over a run of overlapping calls: `disciplined_iff_careful`
says it for every run.  The invariant (`Kept`) is that the breaker's counters are those of the log,
which a step keeps where results of earlier periods find nothing to change.
-/

namespace EnhancedAgentBus.CircuitBreaker

universe u

variable {ι : Type u} [DecidableEq ι] {cfg : ServiceCircuitConfig} {w : World ι}

/-! ## A new period -/

def Entry.Until (period : ℕ) : Entry → Prop
  | admitted p => p ≤ period
  | reported _ admittedIn reportedIn => admittedIn ≤ period ∧ reportedIn ≤ period

theorem Entry.Until.mono {e : Entry} {p q : ℕ} (h : e.Until p) (hpq : p ≤ q) : e.Until q := by
  cases e with
  | admitted => exact le_trans h hpq
  | reported => exact ⟨h.1.trans hpq, h.2.trans hpq⟩

section

variable {log : List Entry} {p q : ℕ}

theorem admissions_of_new (h : ∀ e ∈ log, e.Until p) (hpq : p < q) : admissions q log = 0 := by
  refine List.countP_eq_zero.mpr fun e he => ?_
  intro heq
  have hle := h e he
  rw [of_decide_eq_true heq] at hle
  exact absurd hle (not_le.mpr hpq)

theorem successes_of_new (h : ∀ e ∈ log, e.Until p) (hpq : p < q) : successes q log = 0 := by
  refine List.countP_eq_zero.mpr fun e he => ?_
  have hle := h e he
  cases e with
  | admitted => exact Bool.false_ne_true
  | reported success admittedIn reportedIn =>
    rcases success with _ | _
    · exact Bool.false_ne_true
    · intro heq
      exact absurd (of_decide_eq_true heq ▸ hle.1) (not_le.mpr hpq)

end

@[simp] theorem admissions_admitted (p q : ℕ) (log : List Entry) :
    admissions p (.admitted q :: log) = admissions p log + if q = p then 1 else 0 := by
  simp [admissions, List.countP_cons]

@[simp] theorem admissions_reported (p a r : ℕ) (success : Bool) (log : List Entry) :
    admissions p (.reported success a r :: log) = admissions p log := by
  simp [admissions]

@[simp] theorem successes_admitted (p q : ℕ) (log : List Entry) :
    successes p (.admitted q :: log) = successes p log := by
  simp [successes]

@[simp] theorem successes_succeeded (p a r : ℕ) (log : List Entry) :
    successes p (.reported true a r :: log) = successes p log + if a = p then 1 else 0 := by
  simp [successes, List.countP_cons]

/-! ## One step -/

section Steps

variable {now : Seconds} {call : ι}

theorem step_ask_of_running {period : ℕ} (h : w.running call = some period) :
    step cfg w (now, .ask call) = w := by
  simp only [step, h]

theorem step_ask_of_admitted (h : w.running call = none)
    (hstate : w.breaker.state = .closed ∨
      w.breaker.state = .halfOpen ∧ w.breaker.halfOpenSuccesses < cfg.halfOpenRequests) :
    step cfg w (now, .ask call) =
      { breaker := w.breaker
        running := Function.update w.running call (some w.period)
        log := .admitted w.period :: w.log } := by
  rcases hstate with hstate | ⟨hstate, hlt⟩
  · simp only [step, h, ServiceCircuitBreaker.canExecute, hstate, if_true, World.period]
  · simp only [step, h, ServiceCircuitBreaker.canExecute, hstate, hlt, decide_true, if_true,
      World.period]

theorem step_ask_of_expired (h : w.running call = none)
    (hexpired : w.breaker.checkTimeoutExpiry cfg now) :
    step cfg w (now, .ask call) =
      { breaker := w.breaker.transitionTo now .halfOpen
        running := Function.update w.running call (some (w.period + 1))
        log := .admitted (w.period + 1) :: w.log } := by
  have hstate : w.breaker.state = .opened :=
    of_decide_eq_true (Bool.and_eq_true_iff.mp hexpired).1
  simp only [step, h, ServiceCircuitBreaker.canExecute, hstate, hexpired, if_true]
  rfl

theorem step_ask_cases (cfg : ServiceCircuitConfig) (w : World ι) (now : Seconds) (call : ι) :
    step cfg w (now, .ask call) = w ∨
      w.running call = none ∧
        ((w.breaker.state = .closed ∨
          w.breaker.state = .halfOpen ∧ w.breaker.halfOpenSuccesses < cfg.halfOpenRequests) ∨
        w.breaker.checkTimeoutExpiry cfg now) := by
  cases h : w.running call with
  | some period => exact .inl (step_ask_of_running h)
  | none =>
    cases hstate : w.breaker.state with
    | closed => exact .inr ⟨rfl, .inl (.inl rfl)⟩
    | opened =>
      by_cases hexpired : w.breaker.checkTimeoutExpiry cfg now
      · exact .inr ⟨rfl, .inr hexpired⟩
      · exact .inl (by simp [step, h, ServiceCircuitBreaker.canExecute, hstate, hexpired])
    | halfOpen =>
      by_cases hlt : (w.breaker.halfOpenSuccesses : ℤ) < cfg.halfOpenRequests
      · exact .inr ⟨rfl, .inl (.inr ⟨rfl, hlt⟩)⟩
      · exact .inl (by simp [step, h, ServiceCircuitBreaker.canExecute, hstate, hlt])

theorem step_report {period : ℕ} (success : Bool) (h : w.running call = some period) :
    step cfg w (now, .report call success) =
      { breaker := w.breaker.record cfg now success
        running := Function.update w.running call none
        log := .reported success period w.period :: w.log } := by
  simp only [step, h]

end Steps

/-! ## What a report does -/

namespace ServiceCircuitBreaker

variable {b : ServiceCircuitBreaker} {now : Seconds}

theorem record_closed_success (h : b.state = .closed) :
    b.record cfg now true = { b with consecutiveFailures := 0 } := by
  simp [record, recordSuccess, h]

theorem record_closed_failure (h : b.state = .closed) :
    b.record cfg now false =
      if cfg.failureThreshold ≤ (b.consecutiveFailures + 1 : ℕ) then
        { b with consecutiveFailures := b.consecutiveFailures + 1 }.transitionTo now .opened
      else { b with consecutiveFailures := b.consecutiveFailures + 1 } := by
  simp only [record, recordFailure, h, Bool.false_eq_true, if_false]

theorem record_halfOpen_success (h : b.state = .halfOpen) :
    b.record cfg now true =
      if cfg.halfOpenRequests ≤ (b.halfOpenSuccesses + 1 : ℕ) then
        { b with halfOpenSuccesses := b.halfOpenSuccesses + 1 }.transitionTo now .closed
      else { b with halfOpenSuccesses := b.halfOpenSuccesses + 1 } := by
  simp only [record, recordSuccess, h, if_true]

theorem record_halfOpen_failure (h : b.state = .halfOpen) :
    b.record cfg now false =
      { b with consecutiveFailures := b.consecutiveFailures + 1 }.transitionTo now .opened := by
  simp only [record, recordFailure, h, Bool.false_eq_true, if_false]

variable (cfg now) in
theorem record_opened (h : b.state = .opened) (success : Bool) :
    (b.record cfg now success).state = .opened ∧
      (b.record cfg now success).lastStateChange = b.lastStateChange ∧
      (b.record cfg now success).stateChanges = b.stateChanges := by
  cases success with
  | true => simp [record, recordSuccess, h]
  | false => simp [record, recordFailure, h]

end ServiceCircuitBreaker

/-! ## What a run keeps -/

/-- The counters of the breaker are those of the log. -/
structure Kept (cfg : ServiceCircuitConfig) (w : World ι) : Prop where
  log : ∀ e ∈ w.log, e.Until w.period
  running : ∀ call period, w.running call = some period → period ≤ w.period
  failures : w.breaker.state = .closed → w.breaker.consecutiveFailures = streak w.period w.log
  successes : w.breaker.state = .halfOpen →
    w.breaker.halfOpenSuccesses = CircuitBreaker.successes w.period w.log
  admissions : w.breaker.state = .halfOpen →
    CircuitBreaker.admissions w.period w.log ≤ cfg.halfOpenRequests

omit [DecidableEq ι] in
theorem Careful.own {now : Seconds} {call : ι} {success : Bool} {period : ℕ}
    (hc : Careful cfg w (now, .report call success)) (hrun : w.running call = some period)
    (hstate : w.breaker.state = .halfOpen) : period = w.period := by
  by_contra hne
  rcases hc.stale call success period rfl hrun hne with hopened | ⟨hclosed, -⟩
  · exact absurd (hstate.symm.trans hopened) (by simp)
  · exact absurd (hstate.symm.trans hclosed) (by simp)

theorem running_update {running : ι → Option ℕ} {p q : ℕ} {v : Option ℕ}
    (h : ∀ call period, running call = some period → period ≤ p) (hpq : p ≤ q)
    (hv : ∀ period, v = some period → period ≤ q) (call call' : ι) (period : ℕ)
    (hperiod : Function.update running call v call' = some period) : period ≤ q := by
  rcases eq_or_ne call' call with rfl | hne
  · exact hv period (by rwa [Function.update_self] at hperiod)
  · rw [Function.update_of_ne hne] at hperiod
    exact (h call' period hperiod).trans hpq

theorem Kept.after_ask (h : Kept cfg w) {now : Seconds} {call : ι}
    (hc : Careful cfg w (now, .ask call)) : Kept cfg (step cfg w (now, .ask call)) := by
  rcases step_ask_cases cfg w now call with heq | ⟨hrun, hadmitted | hexpired⟩
  · rw [heq]
    exact h
  · rw [step_ask_of_admitted hrun hadmitted]
    exact
      { log := List.forall_mem_cons.mpr ⟨le_rfl, h.log⟩
        running := running_update h.running le_rfl (by rintro _ ⟨⟩; exact le_rfl) call
        failures := h.failures
        successes := fun hstate => (h.successes hstate).trans (successes_admitted ..).symm
        admissions := fun hstate => by
          have hlt := hc.asks call rfl hrun hstate
            (hadmitted.resolve_left (by rw [show w.breaker.state = _ from hstate]; simp)).2
          simp only [World.period, admissions_admitted, if_true] at hlt ⊢
          omega }
  · rw [step_ask_of_expired hrun hexpired]
    have hnew := Nat.lt_succ_self w.period
    exact
      { log := List.forall_mem_cons.mpr ⟨le_rfl, fun e he => (h.log e he).mono hnew.le⟩
        running := running_update h.running hnew.le (by rintro _ ⟨⟩; exact le_rfl) call
        failures := fun hstate => by cases hstate
        successes := fun _ =>
          ((successes_admitted ..).trans (successes_of_new h.log hnew)).symm
        admissions := fun _ => by
          have htries := hc.tries call rfl hrun hexpired
          have hnone := admissions_of_new h.log hnew
          show (CircuitBreaker.admissions (w.period + 1) (_ :: w.log) : ℤ) ≤ _
          rw [admissions_admitted, if_pos rfl, hnone]
          exact htries }

omit [DecidableEq ι] in
theorem Kept.transitionTo (h : Kept cfg w) {b : ServiceCircuitBreaker} {now : Seconds}
    (state : CircuitState) (hb : b.stateChanges = w.period) (hstate : state ≠ .halfOpen)
    {running : ι → Option ℕ}
    (hrunning : ∀ call period, running call = some period → period ≤ w.period)
    {success : Bool} {period : ℕ} (hperiod : period ≤ w.period) :
    Kept cfg
      { breaker := b.transitionTo now state
        running := running
        log := .reported success period w.period :: w.log } := by
  have hnew := Nat.lt_succ_self w.period
  have hsucc : b.stateChanges + 1 = w.period + 1 := congrArg (· + 1) hb
  exact
    { log := List.forall_mem_cons.mpr
        ⟨⟨(hperiod.trans hnew.le).trans hsucc.ge, hnew.le.trans hsucc.ge⟩,
          fun e he => (h.log e he).mono (hnew.le.trans hsucc.ge)⟩
      running := fun call p hp => ((hrunning call p hp).trans hnew.le).trans hsucc.ge
      failures := fun hclosed => by
        have hzero : (b.transitionTo now state).consecutiveFailures = 0 := if_pos hclosed
        refine hzero.trans (if_neg fun heq => ?_).symm
        exact hnew.ne (heq.2.trans hsucc)
      successes := fun hhalf => absurd hhalf hstate
      admissions := fun hhalf => absurd hhalf hstate }

theorem Kept.after_report (h : Kept cfg w) {now : Seconds} {call : ι} {success : Bool}
    (hc : Careful cfg w (now, .report call success)) :
    Kept cfg (step cfg w (now, .report call success)) := by
  rcases hrun : w.running call with _ | period
  · simpa only [step, hrun] using h
  · have hperiod := h.running call period hrun
    have hrunning := running_update (v := none) h.running le_rfl (by simp) call
    have hlog : ∀ e ∈ Entry.reported success period w.period :: w.log, e.Until w.period :=
      List.forall_mem_cons.mpr ⟨⟨hperiod, le_rfl⟩, h.log⟩
    rw [step_report success hrun]
    cases hstate : w.breaker.state with
    | opened =>
      obtain ⟨hopened, -, hsame⟩ :=
        ServiceCircuitBreaker.record_opened cfg now hstate success
      have hsame : (w.breaker.record cfg now success).stateChanges = w.period := hsame
      exact
        { log := fun e he => (hlog e he).mono hsame.ge
          running := fun c p hp => (hrunning c p hp).trans hsame.ge
          failures := fun hclosed => absurd (hopened.symm.trans hclosed) (by simp)
          successes := fun hhalf => absurd (hopened.symm.trans hhalf) (by simp)
          admissions := fun hhalf => absurd (hopened.symm.trans hhalf) (by simp) }
    | closed =>
      cases success with
      | true =>
        rw [ServiceCircuitBreaker.record_closed_success hstate]
        exact
          { log := hlog
            running := hrunning
            failures := fun _ => rfl
            successes := fun hhalf => absurd (hstate.symm.trans hhalf) (by simp)
            admissions := fun hhalf => absurd (hstate.symm.trans hhalf) (by simp) }
      | false =>
        rw [ServiceCircuitBreaker.record_closed_failure hstate]
        split
        · refine h.transitionTo .opened ?_ (by simp) hrunning hperiod
          rfl
        · exact
            { log := hlog
              running := hrunning
              failures := fun _ => by
                rw [streak, if_pos ⟨rfl, rfl⟩]
                exact congrArg (· + 1) (h.failures hstate)
              successes := fun hhalf => absurd (hstate.symm.trans hhalf) (by simp)
              admissions := fun hhalf => absurd (hstate.symm.trans hhalf) (by simp) }
    | halfOpen =>
      have hown := hc.own hrun hstate
      cases success with
      | true =>
        rw [ServiceCircuitBreaker.record_halfOpen_success hstate]
        split
        · refine h.transitionTo .closed ?_ (by simp) hrunning hperiod
          rfl
        · exact
            { log := hlog
              running := hrunning
              failures := fun hclosed => absurd (hstate.symm.trans hclosed) (by simp)
              successes := fun _ =>
                (congrArg (· + 1) (h.successes hstate)).trans (by
                  rw [successes_succeeded, hown]
                  exact (congrArg _ (if_pos rfl)).symm)
              admissions := fun _ => by
                rw [admissions_reported]
                exact h.admissions hstate }
      | false =>
        rw [ServiceCircuitBreaker.record_halfOpen_failure hstate]
        refine h.transitionTo .opened ?_ (by simp) hrunning hperiod
        rfl

/-- **What a step keeps**: the counters of the breaker stay those of the log. -/
theorem Kept.after (h : Kept cfg w) {e : Seconds × Event ι} (hc : Careful cfg w e) :
    Kept cfg (step cfg w e) := by
  obtain ⟨now, e⟩ := e
  cases e with
  | ask call => exact h.after_ask hc
  | report call success => exact h.after_report hc
  | cancel call =>
    exact
      { log := h.log
        running := running_update h.running le_rfl (by simp) call
        failures := h.failures
        successes := h.successes
        admissions := h.admissions }

/-! ## The discipline -/

theorem Kept.opens_iff (h : Kept cfg w) {now : Seconds} {call : ι} {period : ℕ}
    (hrun : w.running call = some period) (hstate : w.breaker.state = .closed) :
    (step cfg w (now, .report call false)).breaker.state = .opened ↔
      cfg.failureThreshold ≤ streak w.period (step cfg w (now, .report call false)).log := by
  have hstreak : streak w.period (.reported false period w.period :: w.log) =
      w.breaker.consecutiveFailures + 1 := by
    rw [streak, if_pos ⟨rfl, rfl⟩, h.failures hstate]
  rw [step_report false hrun, hstreak, ServiceCircuitBreaker.record_closed_failure hstate]
  split
  · rename_i hle
    exact ⟨fun _ => hle, fun _ => rfl⟩
  · rename_i hle
    exact ⟨fun hopened => absurd (hstate.symm.trans hopened) (by simp), fun hle' => absurd hle' hle⟩

theorem breaker_step_ask {now : Seconds} {call : ι} (hstate : w.breaker.state ≠ .opened) :
    (step cfg w (now, .ask call)).breaker = w.breaker := by
  rcases step_ask_cases cfg w now call with heq | ⟨hrun, hadmitted | hexpired⟩
  · rw [heq]
  · rw [step_ask_of_admitted hrun hadmitted]
  · exact absurd (of_decide_eq_true (Bool.and_eq_true_iff.mp hexpired).1) hstate

theorem Kept.closes (h : Kept cfg w) {e : Seconds × Event ι} (hc : Careful cfg w e)
    (hstate : w.breaker.state = .halfOpen) (hclosed : (step cfg w e).breaker.state = .closed) :
    cfg.halfOpenRequests ≤ CircuitBreaker.successes w.period (step cfg w e).log := by
  obtain ⟨now, e⟩ := e
  cases e with
  | ask call =>
    rw [breaker_step_ask (by rw [hstate]; simp), hstate] at hclosed
    cases hclosed
  | cancel call => exact absurd (hstate.symm.trans hclosed) (by simp)
  | report call success =>
    rcases hrun : w.running call with _ | period
    · simp only [step, hrun, hstate] at hclosed
      cases hclosed
    · have hown := hc.own hrun hstate
      rw [step_report success hrun] at hclosed ⊢
      rcases success with _ | _
      · rw [ServiceCircuitBreaker.record_halfOpen_failure hstate] at hclosed
        cases hclosed
      · rw [ServiceCircuitBreaker.record_halfOpen_success hstate] at hclosed
        rw [successes_succeeded, if_pos hown, ← h.successes hstate]
        split at hclosed
        · assumption
        · exact absurd (hstate.symm.trans hclosed) (by simp)

theorem Kept.opens (h : Kept cfg w) (e : Seconds × Event ι)
    (hstate : w.breaker.state = .closed) :
    (step cfg w e).breaker.state = .opened ↔
      (∃ call period, e.2 = .report call false ∧ w.running call = some period) ∧
        cfg.failureThreshold ≤ streak w.period (step cfg w e).log := by
  obtain ⟨now, e⟩ := e
  have hnot (b : ServiceCircuitBreaker) (hb : b.state = .closed)
      (hnone : ¬ ∃ call period, e = .report call false ∧ w.running call = some period) :
      b.state = .opened ↔
        (∃ call period, e = .report call false ∧ w.running call = some period) ∧
          cfg.failureThreshold ≤ streak w.period (step cfg w (now, e)).log :=
    ⟨fun hopened => absurd (hb.symm.trans hopened) (by simp), fun hsome => absurd hsome.1 hnone⟩
  cases e with
  | ask call =>
    exact hnot _ (by rw [breaker_step_ask (by rw [hstate]; simp), hstate]) (by simp)
  | cancel call => exact hnot _ hstate (by simp)
  | report call success =>
    rcases hrun : w.running call with _ | period
    · refine hnot _ (by simp only [step, hrun, hstate]) ?_
      rintro ⟨call', period, ⟨⟩, hsome⟩
      exact absurd (hrun.symm.trans hsome) (by simp)
    · cases success with
      | true =>
        refine hnot _ ?_ (by simp)
        rw [step_report true hrun, ServiceCircuitBreaker.record_closed_success hstate]
        exact hstate
      | false =>
        rw [h.opens_iff hrun hstate]
        exact ⟨fun hle => ⟨⟨call, period, rfl, hrun⟩, hle⟩, fun hle => hle.2⟩

theorem Careful.view_eq {now : Seconds} {call : ι} {success : Bool} {period : ℕ}
    (hc : Careful cfg w (now, .report call success)) (hrun : w.running call = some period)
    (hne : period ≠ w.period) :
    (step cfg w (now, .report call success)).breaker.view = w.breaker.view := by
  rw [step_report success hrun]
  rcases hc.stale call success period rfl hrun hne with hstate | ⟨hstate, rfl, hfailures⟩
  · obtain ⟨hopened, hsince, -⟩ :=
      ServiceCircuitBreaker.record_opened cfg now hstate success
    simp only [ServiceCircuitBreaker.view, hopened, hstate, hsince]
  · rw [ServiceCircuitBreaker.record_closed_success hstate]
    simp only [ServiceCircuitBreaker.view, hstate, hfailures]

theorem Kept.disciplined (h : Kept cfg w) {e : Seconds × Event ι} (hc : Careful cfg w e) :
    Disciplined cfg w e where
  admits := (h.after hc).admissions
  closes := h.closes hc
  opens := h.opens e
  stale call success period he hrun hne := by
    obtain ⟨now, e⟩ := e
    subst he
    exact hc.view_eq hrun hne

theorem Disciplined.careful {e : Seconds × Event ι} (h : Disciplined cfg w e) :
    Careful cfg w e := by
  obtain ⟨now, e⟩ := e
  refine ⟨?_, ?_, ?_⟩
  · rintro call ⟨⟩ hrun hexpired
    have hadmits := h.admits
    rw [step_ask_of_expired hrun hexpired] at hadmits
    have hadmits : (admissions (w.period + 1) (.admitted (w.period + 1) :: w.log) : ℤ) ≤
        cfg.halfOpenRequests := hadmits rfl
    rw [admissions_admitted, if_pos rfl] at hadmits
    omega
  · rintro call ⟨⟩ hrun hstate hlt
    have hadmits := h.admits
    rw [step_ask_of_admitted hrun (.inr ⟨hstate, hlt⟩)] at hadmits
    have hadmits : (admissions w.period (.admitted w.period :: w.log) : ℤ) ≤
        cfg.halfOpenRequests := hadmits hstate
    rw [admissions_admitted, if_pos rfl] at hadmits
    omega
  · rintro call success period ⟨⟩ hrun hne
    have hview := h.stale call success period rfl hrun hne
    rw [step_report success hrun] at hview
    cases hstate : w.breaker.state with
    | opened => exact .inl rfl
    | closed =>
      refine .inr ⟨rfl, ?_⟩
      cases success with
      | true =>
        rw [ServiceCircuitBreaker.record_closed_success hstate] at hview
        simp [ServiceCircuitBreaker.view, hstate] at hview
        exact ⟨rfl, hview.symm⟩
      | false =>
        rw [ServiceCircuitBreaker.record_closed_failure hstate] at hview
        split at hview <;>
          simp [ServiceCircuitBreaker.view, ServiceCircuitBreaker.transitionTo, hstate] at hview
    | halfOpen =>
      cases success with
      | true =>
        rw [ServiceCircuitBreaker.record_halfOpen_success hstate] at hview
        split at hview <;>
          simp [ServiceCircuitBreaker.view, ServiceCircuitBreaker.transitionTo, hstate] at hview
      | false =>
        rw [ServiceCircuitBreaker.record_halfOpen_failure hstate] at hview
        simp [ServiceCircuitBreaker.view, ServiceCircuitBreaker.transitionTo, hstate] at hview

/-- A breaker that was just made, and no calls. -/
def World.start (ι : Type u) (now : Seconds) : World ι where
  breaker := { lastStateChange := now }

omit [DecidableEq ι] in
theorem kept_start (cfg : ServiceCircuitConfig) (now : Seconds) :
    Kept cfg (World.start ι now) where
  log e he := absurd he List.not_mem_nil
  running _ _ h := by cases h
  failures _ := rfl
  successes h := by cases h
  admissions h := by cases h

/-- **The discipline of a half-open circuit**: a run of wrapped calls keeps it, at every step,
exactly when no call asks a half-open circuit that has admitted all its calls, and no result from an
earlier state comes where it would count. -/
theorem disciplined_iff_careful (cfg : ServiceCircuitConfig) (created : Seconds)
    (events : List (Seconds × Event ι)) :
    Machine.Along (step cfg) (Disciplined cfg) (World.start ι created) events ↔
      Machine.Along (step cfg) (Careful cfg) (World.start ι created) events :=
  (Machine.along_iff (Kept cfg) (kept_start cfg created)
    (fun _ _ h => ⟨h.disciplined, Disciplined.careful⟩) fun _ _ h => h.after).symm

/-- One failure opens the circuit, and when the timeout has passed, two calls ask before either has
a result. -/
def twoAtOnce : List (Seconds × Event ℕ) :=
  [(0, .ask 0), (1, .report 0 false), (11, .ask 1), (12, .ask 2)]

/-- A half-open circuit that is to admit one call admits two. -/
theorem half_open_admits_more :
    ¬ ∀ (cfg : ServiceCircuitConfig) (created : Seconds) (events : List (Seconds × Event ℕ)),
      Machine.Along (step cfg) (Disciplined cfg) (World.start ℕ created) events := by
  intro h
  have hrun := h ⟨1, 10, 1⟩ 0 twoAtOnce
  have hlast := hrun.2.2.2.1.admits (by decide +kernel)
  exact absurd hlast (by decide +kernel)

end EnhancedAgentBus.CircuitBreaker
