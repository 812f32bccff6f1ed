import EnhancedAgentBus.Persistence.Cancellation
import EnhancedAgentBus.Persistence.CompletedSteps

/-!
# A step that was rolled back

`_run_compensations` undoes a completed step through its handler and drops what the cache holds,
but the row of the step stays COMPLETED.  So the next execution finds it under its idempotency
key and skips the activity: the instance ends COMPLETED with a step that nobody has done.

Everything is read off the operations of a run.  `Executed` says that an activity has succeeded
since its handler was last called; `Uses` says that an execution goes on with a result of the
activity, given now or found.  `Serial.noneRolledBack` is the run rule: where no execution skips
what was rolled back, COMPLETED is persisted over executed steps only.
-/

namespace EnhancedAgentBus.Persistence

open Async Async.Prog DurableWorkflowExecutor

/-! ## What a log tells about an activity -/

def Succeeds (i : UUID) (key : String) : (o : Op) → o.Resp → Bool
  | .callActivity i' key' _ _, .ok _ => i' = i ∧ key' = key
  | _, _ => false

def SavesUnder (i : UUID) (key : String) (stepId : UUID) : Op → Bool
  | .saveStep row => row.id = stepId ∧ row.workflowInstanceId = i ∧ row.idempotencyKey = some key
  | _ => false

/-- The handler that undoes the activity under the key is called: its record was made for one of
the key's rows. -/
def Undoes (i : UUID) (key : String) (before : List Performed) : Op → Bool
  | .callHandler comp _ _ => before.any fun e => SavesUnder i key comp.stepId e.op
  | _ => false

def HasSucceeded (i : UUID) (key : String) (log : List Performed) : Prop :=
  ∃ e ∈ log, Succeeds i key e.op e.resp

def Executed (i : UUID) (key : String) : List Performed → Prop
  | [] => False
  | e :: before =>
    Succeeds i key e.op e.resp ∨ (¬ Undoes i key before e.op ∧ Executed i key before)

def RolledBack (i : UUID) (key : String) : List Performed → Prop
  | [] => False
  | e :: before =>
    ¬ Succeeds i key e.op e.resp ∧ (Undoes i key before e.op ∨ RolledBack i key before)

/-- The activity is skipped: the cache holds a result, or the lookup returns a completed row. -/
def Skips (i : UUID) (key : String) : (o : Op) → o.Resp → Bool
  | .getStepResult caller _ key', some members => caller = i ∧ key' = key ∧ members ≠ []
  | .getStepByIdempotencyKey i' key', some row => i' = i ∧ key' = key ∧ row.status = .completed
  | _, _ => false

def Uses (i : UUID) (key : String) (e : Performed) : Prop :=
  Skips i key e.op e.resp ∨ Succeeds i key e.op e.resp

/-- The current execution of the instance has used a result of the activity. -/
def Used (i : UUID) (key : String) : List Performed → Prop
  | [] => False
  | e :: before =>
    Uses i key e ∨ (Persists i (· == .running) e.op e.resp = false ∧ Used i key before)

/-- **Nothing rolled back is kept**: where COMPLETED is persisted, every activity whose result the
execution used has succeeded since it was last undone. -/
def KeepsNothingRolledBack : List Performed → Prop :=
  Throughout fun
    | [] => True
    | e :: before => ∀ i, Persists i (· == .completed) e.op e.resp = true →
        ∀ key, Used i key before → Executed i key before

/-- What is skipped has not been rolled back, and a cached result is one that the instance stored
itself. -/
def SkipsSound (before : List Performed) : (o : Op) → o.Resp → Prop
  | .getStepResult caller wid key, some members => members ≠ [] →
      ¬ RolledBack caller key before ∧ storedBy wid key before = some caller
  | .getStepByIdempotencyKey i key, some row => row.status = .completed → ¬ RolledBack i key before
  | _, _ => True

def SkipsNothingRolledBack : List Performed → Prop :=
  Throughout fun
    | [] => True
    | e :: before => SkipsSound before e.op e.resp

section Log

variable {i : UUID} {key : String} {log : List Performed} {e : Performed}

theorem HasSucceeded.cons (h : HasSucceeded i key log) (e : Performed) :
    HasSucceeded i key (e :: log) :=
  h.imp fun _ he => ⟨List.mem_cons_of_mem _ he.1, he.2⟩

theorem HasSucceeded.executed (h : HasSucceeded i key log) (hnot : ¬ RolledBack i key log) :
    Executed i key log := by
  induction log with
  | nil =>
    obtain ⟨e, he, _⟩ := h
    cases he
  | cons e before ih =>
    by_cases hnow : Succeeds i key e.op e.resp
    · exact .inl hnow
    have hbefore : HasSucceeded i key before := by
      obtain ⟨e', he', hs⟩ := h
      rcases List.mem_cons.mp he' with rfl | he'
      · exact absurd hs hnow
      · exact ⟨e', he', hs⟩
    exact .inr ⟨fun hundo => hnot ⟨hnow, .inl hundo⟩,
      ih hbefore fun hrolled => hnot ⟨hnow, .inr hrolled⟩⟩

theorem Executed.cons (h : Executed i key log)
    (ho : ∀ comp handler input, e.op ≠ .callHandler comp handler input) :
    Executed i key (e :: log) := by
  refine .inr ⟨fun hundo => ?_, h⟩
  obtain ⟨w, o, r⟩ := e
  cases o with
  | callHandler comp handler input => exact ho comp handler input rfl
  | _ => cases hundo

theorem lastResult_hasSucceeded {v : Json} (h : lastResult i key log = some v) :
    HasSucceeded i key log := by
  induction log with
  | nil => cases h
  | cons e before ih =>
    rw [lastResult] at h
    split at h
    · rename_i hop hresp
      split at h
      · rename_i hmatch
        refine ⟨e, List.mem_cons_self .., ?_⟩
        obtain ⟨w, o, r⟩ := e
        subst hop
        cases hresp
        simpa [Succeeds] using hmatch
      · exact (ih h).cons e
    · exact (ih h).cons e

end Log

/-! ## What every run keeps -/

/-- Every completed row was given by an activity, and what the execution in hand has used has
succeeded since it was last undone. -/
structure Sound (w : World) (log : List Performed) (bk : Book) : Prop where
  rows : ∀ row ∈ w.steps, row.status = .completed → ∀ key, row.idempotencyKey = some key →
    HasSucceeded row.workflowInstanceId key log
  used : ∀ i, bk.run = some i → bk.phase = some .running → ∀ key, Used i key log →
    Executed i key log

theorem Sound.empty : Sound {} [] {} := by
  constructor <;> simp

theorem Sound.restart {w : World} {log : List Performed} {bk : Book} (h : Sound w log bk) :
    Sound w log {} :=
  { h with used := by simp }

theorem Book.note_running {bk : Book} {o : Op} {r : o.Resp} {i : UUID}
    (hrun : (bk.note o r).run = some i) (hphase : (bk.note o r).phase = some .running) :
    Persists i (· == .running) o r = true ∨ (bk.run = some i ∧ bk.phase = some .running) := by
  have h := And.intro hrun hphase
  unfold Book.note at h
  split at h
  case h_3 =>
    rename_i inst set _
    cases hset : set.status with
    | running =>
      simp only [hset, Option.some.injEq] at h
      exact .inl (by simp [Persists, h.1, hset])
    | _ => simp [hset] at h
  all_goals (try split at h) <;> exact .inr h

section Sound

variable {b : Backend} {w w' : World} {log : List Performed} {bk : Book} {o : Op} {r : o.Resp}

theorem Sound.rows_step (h : Sound w log bk) (honce : Once b w log bk) (hlegal : Legal bk o)
    (hstep : Step b w o r w') : ∀ row ∈ w'.steps, row.status = .completed →
      ∀ key, row.idempotencyKey = some key →
        HasSucceeded row.workflowInstanceId key (⟨w, o, r⟩ :: log) := by
  intro row hrow hdone key hkey
  by_cases hsave : ∃ step, o = .saveStep step
  · obtain ⟨step, rfl⟩ := hsave
    obtain rfl := step_saveStep.mp hstep
    rcases mem_upsert hrow with rfl | hrow
    · obtain ⟨v, hlast, _⟩ := honce.saved_result hlegal hdone hkey
      exact (lastResult_hasSucceeded hlast).cons _
    · exact (h.rows row hrow hdone key hkey).cons _
  · rw [(step_frame hstep).steps fun step heq => hsave ⟨step, heq⟩] at hrow
    exact (h.rows row hrow hdone key hkey).cons _

theorem Sound.skipped (h : Sound w log bk) (honce : Once b w log bk) {i : UUID} {key : String}
    (hstep : Step b w o r w') (hcond : SkipsSound log o r) (hskips : Skips i key o r = true) :
    HasSucceeded i key log ∧ ¬ RolledBack i key log := by
  have hrow {row : WorkflowStep} (hmem : row ∈ w.stepsUnder i key)
      (hdone : row.status = .completed) : HasSucceeded i key log := by
    obtain ⟨hstored, rfl, hkey⟩ := mem_stepsUnder.mp hmem
    exact h.rows row hstored hdone key hkey
  cases o with
  | getStepResult caller wid key' =>
    rcases r with _ | members
    · cases hskips
    · obtain ⟨rfl, rfl, hne⟩ : caller = i ∧ key' = key ∧ members ≠ [] := by
        simpa [Skips] using hskips
      obtain ⟨hnot, hstored⟩ := hcond hne
      rcases step_getStepResult.mp hstep with ⟨hcached, _⟩ | ⟨hlost, _⟩
      · obtain ⟨i', hi', row, hmem, hdone, _⟩ := honce.cached wid key' members hcached.symm
        rw [hstored, Option.some_inj] at hi'
        subst hi'
        exact ⟨hrow hmem hdone, hnot⟩
      · cases hlost
  | getStepByIdempotencyKey i' key' =>
    rcases r with _ | row
    · cases hskips
    · obtain ⟨rfl, rfl, hdone⟩ : i' = i ∧ key' = key ∧ row.status = .completed := by
        simpa [Skips] using hskips
      exact ⟨hrow (step_getStepByIdempotencyKey.mp hstep).1.mem hdone, hcond hdone⟩
  | _ => cases hskips

theorem Sound.uses (h : Sound w log bk) (honce : Once b w log bk) (hstep : Step b w o r w')
    (hcond : SkipsSound log o r) {i : UUID} {key : String} (huses : Uses i key ⟨w, o, r⟩) :
    Executed i key (⟨w, o, r⟩ :: log) := by
  rcases huses with hskips | hsucceeds
  · obtain ⟨hbefore, hnot⟩ := h.skipped honce hstep hcond hskips
    refine (hbefore.executed hnot).cons fun comp handler input heq => ?_
    obtain rfl : o = .callHandler comp handler input := heq
    cases hskips
  · exact .inl hsucceeds

/-- **One operation keeps it**, where nothing rolled back is skipped. -/
theorem Sound.step (h : Sound w log bk) (honce : Once b w log bk) (hlegal : Legal bk o)
    (hstep : Step b w o r w') (hcond : SkipsSound log o r) :
    Sound w' (⟨w, o, r⟩ :: log) (bk.note o r) := by
  refine ⟨h.rows_step honce hlegal hstep, fun i hrun hphase key hused => ?_⟩
  rcases Book.note_running hrun hphase with hbegins | ⟨hrun', hphase'⟩
  · rcases hused with huses | ⟨hnot, _⟩
    · exact h.uses honce hstep hcond huses
    · rw [hbegins] at hnot
      cases hnot
  · rcases hused with huses | ⟨_, hused⟩
    · exact h.uses honce hstep hcond huses
    · refine (h.used i hrun' hphase' key hused).cons fun comp handler input heq => ?_
      -- While the workflow function runs, no handler is called
      obtain rfl : o = .callHandler comp handler input := heq
      rw [hlegal.1] at hphase'
      cases hphase'

end Sound

/-! ## Whole runs -/

instance Executed.decidable {i : UUID} {key : String} : DecidablePred (Executed i key)
  | [] => inferInstanceAs (Decidable False)
  | e :: before =>
    have : Decidable (Executed i key before) := Executed.decidable before
    inferInstanceAs (Decidable (Succeeds i key e.op e.resp = true ∨
      (¬ Undoes i key before e.op = true ∧ Executed i key before)))

instance RolledBack.decidable {i : UUID} {key : String} : DecidablePred (RolledBack i key)
  | [] => inferInstanceAs (Decidable False)
  | e :: before =>
    have : Decidable (RolledBack i key before) := RolledBack.decidable before
    inferInstanceAs (Decidable (¬ Succeeds i key e.op e.resp = true ∧
      (Undoes i key before e.op = true ∨ RolledBack i key before)))

instance Used.decidable {i : UUID} {key : String} : DecidablePred (Used i key)
  | [] => inferInstanceAs (Decidable False)
  | e :: before =>
    have : Decidable (Used i key before) := Used.decidable before
    inferInstanceAs (Decidable
      ((Skips i key e.op e.resp = true ∨ Succeeds i key e.op e.resp = true) ∨
        (Persists i (· == .running) e.op e.resp = false ∧ Used i key before)))

/-- One registered workflow, which reserves and then charges, each with its compensation. -/
def merchant : DurableWorkflowExecutor where
  constitutionalHash := "608508a9bd224290"
  maxRetries := 0
  workflows
    | "order" => some fun _ =>
      .activity { stepName := "reserve", activity := 1, compensation := some 11 } fun
        | .error e => .raise e
        | .ok _ => .activity { stepName := "charge", activity := 2, compensation := some 12 } fun
            | .ok receipt => .ret receipt
            | .error e => .raise e
    | _ => none
  digest key := key

/-- An environment that declines every charge, and drops what the cache holds when it may. -/
def declines (w : World) : Op → Option Answer
  | .callActivity _ _ 2 _ => some (.outcome (.error ⟨.operation, "card declined"⟩))
  | .invalidateWorkflowState _ => some .lost
  | o => calm w o

/-- The order, as `start_workflow` returns it. -/
def startedOrder : WorkflowInstance where
  id := ⟨1⟩
  workflowType := "order"
  workflowId := "order-7"
  tenantId := "acme"
  constitutionalHash := merchant.constitutionalHash

def resumedOrder : List Made × World × List Performed :=
  serveAll merchant .inMemory
    [(.resume "order-7" "acme", calm), (.execute startedOrder, declines),
      (.start "order" "order-7" "acme" none, calm)]

theorem resumedOrder_serial : Serial merchant .inMemory resumedOrder.1 resumedOrder.2 := by
  have hstart : Serial merchant .inMemory
      (serveAll merchant .inMemory [(.start "order" "order-7" "acme" none, calm)]).1
      (serveAll merchant .inMemory [(.start "order" "order-7" "acme" none, calm)]).2 :=
    .serveAll rfl
  have hexecute := hstart.serveAll_cons declines (c := .execute startedOrder)
    ⟨startedOrder, .head _, .refl startedOrder⟩
  exact hexecute.serveAll_cons calm (c := .resume "order-7" "acme") trivial

/-- The order ends COMPLETED, and nothing is reserved: the reservation was undone when the charge
was declined, and skipped when the order was resumed. -/
theorem resumedOrder_keepsRolledBack :
    Serial merchant .inMemory resumedOrder.1 resumedOrder.2 ∧
      resumedOrder.2.1.statusOf startedOrder.id = some .completed ∧
      ¬ KeepsNothingRolledBack resumedOrder.2.2 := by
  refine ⟨resumedOrder_serial, by decide, fun h => ?_⟩
  -- The write before the last two operations is the outcome
  have hreserved : Executed ⟨1⟩ "order-7:reserve" (resumedOrder.2.2.drop 3) :=
    (h.drop 2).here ⟨1⟩ (by decide) "order-7:reserve" (by decide)
  revert hreserved
  decide

/-- **No rolled-back step is kept**, in a run of calls none of whose executions skips an activity
that was undone and has not succeeded since, or takes another instance's result from the cache:
where COMPLETED is persisted, every activity whose result the execution used has succeeded since
it was last undone. -/
theorem Serial.keepsNothingRolledBack (E : DurableWorkflowExecutor) (b : Backend)
    (made : List Made) (s : World × List Performed) (hrun : Serial E b made s)
    (hcond : SkipsNothingRolledBack s.2) : KeepsNothingRolledBack s.2 := by
  refine (hrun.conduct_throughout (I := fun w log bk => Once b w log bk ∧ Sound w log bk)
    ⟨.empty b, .empty⟩ trivial ?_ ?_ hcond).1
  · intro w log bk o r w' hkept ⟨honce, h⟩ hlegal hstep hc
    refine ⟨⟨honce.step hkept hlegal hstep, h.step honce hlegal hstep hc⟩,
      fun i hcompletes key hused => ?_⟩
    obtain ⟨inst, set, rfl, rfl, hset⟩ := persists_status hcompletes
    simp only [Legal, hset] at hlegal
    exact h.used _ hlegal.1 hlegal.2 key hused
  · exact fun h => ⟨h.1.restart, h.2.restart⟩

instance SkipsSound.decidable (before : List Performed) :
    (o : Op) → (r : o.Resp) → Decidable (SkipsSound before o r)
  | .getStepResult caller wid key, some members =>
    inferInstanceAs (Decidable (members ≠ [] →
      ¬ RolledBack caller key before ∧ storedBy wid key before = some caller))
  | .getStepByIdempotencyKey i key, some row =>
    inferInstanceAs (Decidable (row.status = .completed → ¬ RolledBack i key before))
  | .getStepResult _ _ _, none | .getStepByIdempotencyKey _ _, none => .isTrue trivial
  | .uuid4 _, _ | .now, _ | .getWorkflow _, _ | .getWorkflowByBusinessId _ _, _
  | .saveWorkflow _ _, _ | .saveStep _, _ | .getNextSequence _, _ | .saveEvent _, _
  | .bindHandler _ _, _ | .saveCompensation _, _ | .getCompensationsReversed _, _
  | .setStepResult _ _ _ _, _ | .invalidateWorkflowState _, _ | .callActivity _ _ _ _, _
  | .callHandler _ _ _, _ => .isTrue trivial

instance SkipsNothingRolledBack.decidable : DecidablePred SkipsNothingRolledBack := fun log =>
  have : DecidablePred fun l : List Performed =>
      match l with
      | [] => True
      | e :: before => SkipsSound before e.op e.resp
    | [] => .isTrue trivial
    | e :: before => SkipsSound.decidable before e.op e.resp
  inferInstanceAs (Decidable (Throughout _ log))

def interruptedOrder : List Made × World × List Performed :=
  serveAll merchant .inMemory
    [(.resume "order-7" "acme", calm),
      (.resume "order-7" "acme", diesAt fun o => o matches .callActivity _ _ 2 _),
      (.start "order" "order-7" "acme" none, calm)]

/-- The theorem at an order that skips its reservation, which was not undone. -/
theorem Serial.keepsNothingRolledBack_interruptedOrder :
    KeepsNothingRolledBack interruptedOrder.2.2 :=
  Serial.keepsNothingRolledBack merchant .inMemory interruptedOrder.1 interruptedOrder.2
    (.serveAll rfl) (by decide)

end EnhancedAgentBus.Persistence
