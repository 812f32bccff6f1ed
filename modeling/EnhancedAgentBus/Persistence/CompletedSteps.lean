import EnhancedAgentBus.Persistence.Tables
import EnhancedAgentBus.Persistence.Provenance

/-!
# A completed activity is not executed again

Every execution that does not find a result under a key adds a row under it, and a row that was
not completed in its own execution never is.  `get_step_by_idempotency_key` returns the first
row in memory and any row in Postgres, so one attempt that was left behind hides the completed
row for ever, and the cache is all that keeps the activity from running again.

The value is another matter: `_complete_step` stores `{"result": ...}` for a result that is not a
dict, and that is what a later execution returns.

`skipsWith_of_finds` and `finds_of_skipsWith` give the exact condition in one reached state;
`Serial.neverAgain` follows whole runs.
-/

namespace EnhancedAgentBus.Persistence

open Async Async.Prog DurableWorkflowExecutor

/-! ## What a log tells about a key -/

/-- The result of the latest successful activity of the instance under the key. -/
def lastResult (i : UUID) (key : String) : List Performed → Option Json
  | [] => none
  | e :: before =>
    match e.op, e.resp with
    | .callActivity i' key' _ _, .ok result =>
      if i' = i ∧ key' = key then some result else lastResult i key before
    | _, _ => lastResult i key before

/-- Whether an operation saves a completed row of the instance under the key. -/
def completesUnder (i : UUID) (key : String) : Op → Bool
  | .saveStep step =>
    step.workflowInstanceId = i ∧ step.idempotencyKey = some key ∧ step.status = .completed
  | _ => false

/-- The result that the first completed row under the key records. -/
def firstCompleted (i : UUID) (key : String) : List Performed → Option Json
  | [] => none
  | e :: before =>
    (firstCompleted i key before).or
      (if completesUnder i key e.op then lastResult i key before else none)

/-! ## Rows under a key -/

section Rows

variable {w : World} {row cur : WorkflowStep} {i : UUID} {key : String}

theorem mem_stepsUnder : row ∈ w.stepsUnder i key ↔
    row ∈ w.steps ∧ row.workflowInstanceId = i ∧ row.idempotencyKey = some key := by
  simp [World.stepsUnder]

theorem stepsUnder_saveStep_new (i : UUID) (key : String) (hnew : ∀ x ∈ w.steps, x.id ≠ row.id) :
    (w.saveStep row).stepsUnder i key = w.stepsUnder i key ++
      if row.workflowInstanceId = i ∧ row.idempotencyKey = some key then [row] else [] := by
  simp only [World.stepsUnder, World.saveStep, upsert_of_new hnew, List.filter_append]
  congr 1
  simp [List.filter_cons]

theorem stepsUnder_saveStep_last (hids : (w.steps.map (·.id)).Nodup) {init : List WorkflowStep}
    (hlast : w.stepsUnder i key = init ++ [cur]) (hid : row.id = cur.id)
    (hinst : row.workflowInstanceId = cur.workflowInstanceId)
    (hkey : row.idempotencyKey = cur.idempotencyKey) :
    (w.saveStep row).stepsUnder i key = init ++ [row] := by
  have hcur : cur ∈ w.stepsUnder i key := by simp [hlast]
  obtain ⟨hmem, hcuri, hcurk⟩ := mem_stepsUnder.mp hcur
  obtain ⟨before, after, hsplit⟩ := List.append_of_mem hmem
  rw [hsplit, List.map_append, List.map_cons, List.nodup_append] at hids
  have hbefore : ∀ x ∈ before, x.id ≠ row.id := fun x hx heq =>
    hids.2.2 _ (List.mem_map_of_mem hx) _ (List.mem_cons_self ..) (heq.trans hid)
  rw [World.stepsUnder, hsplit, List.filter_append,
    List.filter_cons_of_pos (by simp [hcuri, hcurk])] at hlast
  -- No row under the key follows the last one
  obtain ⟨hafter, hinit⟩ : after.filter (fun s => s.workflowInstanceId = i ∧
      s.idempotencyKey = some key) = [] ∧ before.filter (fun s => s.workflowInstanceId = i ∧
      s.idempotencyKey = some key) = init := by
    rcases List.eq_nil_or_concat (after.filter fun s => s.workflowInstanceId = i ∧
      s.idempotencyKey = some key) with hnil | ⟨l, x, hl⟩
    · rw [hnil] at hlast
      exact ⟨hnil, (List.append_inj' hlast rfl).1⟩
    · rw [hl, List.concat_eq_append, ← List.cons_append, ← List.append_assoc] at hlast
      have hx : x = cur := by simpa using (List.append_inj' hlast rfl).2
      have hmem' : x ∈ after.filter fun s =>
          s.workflowInstanceId = i ∧ s.idempotencyKey = some key := by
        rw [hl]
        simp
      rw [hx] at hmem'
      exact absurd (List.mem_map_of_mem (List.mem_filter.mp hmem').1)
        (List.nodup_cons.mp hids.2.1).1
  rw [World.stepsUnder, World.saveStep]
  simp only
  rw [hsplit, upsert_of_append hid.symm hbefore, List.filter_append,
    List.filter_cons_of_pos (by simp [hinst, hkey, hcuri, hcurk]), hafter, hinit]

theorem stepsUnder_saveStep_other (hids : (w.steps.map (·.id)).Nodup) (hcur : cur ∈ w.steps)
    (hid : row.id = cur.id) (hinst : row.workflowInstanceId = cur.workflowInstanceId)
    (hkey : row.idempotencyKey = cur.idempotencyKey)
    (hother : ¬ (cur.workflowInstanceId = i ∧ cur.idempotencyKey = some key)) :
    (w.saveStep row).stepsUnder i key = w.stepsUnder i key := by
  obtain ⟨before, after, hsplit⟩ := List.append_of_mem hcur
  rw [hsplit, List.map_append, List.map_cons, List.nodup_append] at hids
  have hbefore : ∀ x ∈ before, x.id ≠ row.id := fun x hx heq =>
    hids.2.2 _ (List.mem_map_of_mem hx) _ (List.mem_cons_self ..) (heq.trans hid)
  rw [World.stepsUnder, World.stepsUnder, World.saveStep]
  simp only
  rw [hsplit, upsert_of_append hid.symm hbefore, List.filter_append, List.filter_append,
    List.filter_cons_of_neg (by simpa [hinst, hkey] using hother),
    List.filter_cons_of_neg (by simpa using hother)]

theorem mem_saveStep_of_completed (hids : (w.steps.map (·.id)).Nodup) {x : WorkflowStep}
    (hx : x ∈ w.steps) (hdone : x.status = .completed)
    (hold : ∀ old ∈ w.steps, old.id = row.id → old.status ≠ .completed) :
    x ∈ (w.saveStep row).steps :=
  (mem_upsert_iff hids).mpr (.inr ⟨hx, fun hid => hold x hx hid hdone⟩)

end Rows

/-! ## What every run keeps -/

/-- A row that a lookup may return although it is not completed. -/
def HidesIn (b : Backend) (rows : List WorkflowStep) (row : WorkflowStep) : Prop :=
  row.status ≠ .completed ∧ (b = .inMemory → rows.head? = some row)

/-- What every run keeps, for every instance and key.

* `hidden`: of several rows, an earlier one hides the completed one;
* `last`: the step in hand is the last row;
* `single`: a lone completed row holds the first recorded result. -/
structure Once (b : Backend) (w : World) (log : List Performed) (bk : Book) : Prop where
  hidden : ∀ i key, (w.stepsUnder i key).length ≤ 1 ∨
    ∃ row ∈ (w.stepsUnder i key).dropLast, HidesIn b (w.stepsUnder i key) row
  last : ∀ step key, bk.step = some step → step.idempotencyKey = some key →
    ∃ init, w.stepsUnder step.workflowInstanceId key = init ++ [step]
  missed : ∀ i key, bk.run = some i → bk.missed = some key →
    w.stepsUnder i key = [] ∨ ∃ row ∈ w.stepsUnder i key, HidesIn b (w.stepsUnder i key) row
  result : ∀ result, bk.result = some result → ∃ step key, bk.step = some step ∧
    step.idempotencyKey = some key ∧ lastResult step.workflowInstanceId key log = some result
  completed : ∀ row, bk.completed = some row → row.status = .completed → row ∈ w.steps
  cached : ∀ wid key d, w.cache wid key = some d → ∃ i, storedBy wid key log = some i ∧
    ∃ row ∈ w.stepsUnder i key, row.status = .completed ∧ row.output = .obj d
  recorded : ∀ i key v, firstCompleted i key log = some v →
    ∃ row ∈ w.stepsUnder i key, row.status = .completed
  single : ∀ i key row, w.stepsUnder i key = [row] → row.status = .completed →
    ∃ v, firstCompleted i key log = some v ∧ row.output = .obj (coerceJsonDict v)

theorem Once.empty (b : Backend) : Once b {} [] {} := by
  constructor <;> simp [World.stepsUnder, firstCompleted]

theorem Once.restart {b : Backend} {w : World} {log : List Performed} {bk : Book}
    (h : Once b w log bk) : Once b w log {} :=
  { h with last := by simp, missed := by simp, result := by simp, completed := by simp }

section Once

variable {b : Backend} {w w' : World} {log : List Performed} {bk : Book} {o : Op} {r : o.Resp}

theorem stepsUnder_congr (hsteps : w'.steps = w.steps) (i : UUID) (key : String) :
    w'.stepsUnder i key = w.stepsUnder i key := by
  rw [World.stepsUnder, hsteps]
  rfl

theorem firstCompleted_cons {e : Performed} (ho : ∀ step, e.op ≠ .saveStep step) (i : UUID)
    (key : String) : firstCompleted i key (e :: log) = firstCompleted i key log := by
  obtain ⟨before, o, r⟩ := e
  cases o with
  | saveStep step => exact absurd rfl (ho step)
  | _ => simp [firstCompleted, completesUnder]

theorem Once.unsaved (h : Once b w log bk) {e : Performed} (ho : ∀ step, e.op ≠ .saveStep step)
    (hrows : ∀ i key, w'.stepsUnder i key = w.stepsUnder i key) :
    (∀ i key v, firstCompleted i key (e :: log) = some v →
      ∃ row ∈ w'.stepsUnder i key, row.status = .completed) ∧
    ∀ i key row, w'.stepsUnder i key = [row] → row.status = .completed →
      ∃ v, firstCompleted i key (e :: log) = some v ∧ row.output = .obj (coerceJsonDict v) := by
  simp only [hrows, firstCompleted_cons ho]
  exact ⟨h.recorded, h.single⟩

theorem Once.quiet (h : Once b w log bk) (hstep : Step b w o r w')
    (ho : ∀ step, o ≠ .saveStep step) (ho₁ : ∀ i key, o ≠ .getStepByIdempotencyKey i key)
    (ho₂ : ∀ i key activity input, o ≠ .callActivity i key activity input)
    (ho₃ : ∀ caller wid key value, o ≠ .setStepResult caller wid key value) :
    Once b w' (⟨w, o, r⟩ :: log) (bk.note o r) := by
  have hframe := step_frame hstep
  have hrows := stepsUnder_congr (hframe.steps ho)
  have hlast (i : UUID) (key : String) :
      lastResult i key (⟨w, o, r⟩ :: log) = lastResult i key log := by
    cases o with
    | callActivity i' key' activity input => exact absurd rfl (ho₂ _ _ _ _)
    | _ => rfl
  have hstored (wid key : String) : storedBy wid key (⟨w, o, r⟩ :: log) = storedBy wid key log := by
    cases o with
    | setStepResult caller wid' key' value => exact absurd rfl (ho₃ _ _ _ _)
    | _ => rfl
  obtain ⟨hrecorded, hsingle⟩ := h.unsaved (e := ⟨w, o, r⟩) ho hrows
  refine ⟨?_, ?_, ?_, fun v hv => ?_, ?_, ?_, hrecorded, hsingle⟩
  · simpa only [hrows] using h.hidden
  · simpa only [hrows] using fun step key hs => h.last step key (Book.note_step ho hs)
  · simp only [hrows]
    intro i key hrun hmissed
    obtain ⟨hmissed, hsame⟩ := Book.note_missed ho₁ hmissed
    exact h.missed i key (hsame ▸ hrun) hmissed
  · obtain ⟨hv, hsame⟩ := Book.note_result ho₂ hv
    simpa only [hlast, hsame] using h.result v hv
  · rw [hframe.steps ho]
    exact fun row hrow => h.completed row (Book.note_completed ho ho₁ hrow)
  · simp only [hrows, hstored]
    exact fun wid key d hd => h.cached wid key d (hframe.cache ho₃ wid key d hd)

theorem Once.lookup (h : Once b w log bk) {i : UUID} {key : String} {found : Option WorkflowStep}
    (hrun : bk.run = some i) (hfind : w.MayFind b i key found) :
    Once b w (⟨w, .getStepByIdempotencyKey i key, found⟩ :: log)
      (bk.note (.getStepByIdempotencyKey i key) found) := by
  obtain ⟨hrecorded, hsingle⟩ :=
    h.unsaved (e := ⟨w, .getStepByIdempotencyKey i key, found⟩) (by simp) fun _ _ => rfl
  simp only [Book.note]
  cases hfilter : found.filter (·.status = .completed) with
  | some row =>
    obtain ⟨rfl, _⟩ := Option.filter_eq_some_iff.mp hfilter
    refine ⟨h.hidden, h.last, h.missed, h.result, fun row' hrow' _ => ?_, h.cached, hrecorded,
      hsingle⟩
    obtain rfl := Option.some_inj.mp hrow'
    exact (mem_stepsUnder.mp hfind.mem).1
  | none =>
    refine ⟨h.hidden, h.last, fun i' key' hi' hkey' => ?_, h.result, h.completed, h.cached,
      hrecorded, hsingle⟩
    obtain rfl : i = i' := Option.some_inj.mp (hrun.symm.trans hi')
    obtain rfl := Option.some_inj.mp hkey'
    rcases found with _ | row
    · left
      cases b with
      | inMemory => exact List.head?_eq_none_iff.mp hfind.symm
      | postgres => exact hfind
    · refine .inr ⟨row, hfind.mem, by simpa using hfilter, fun hb => ?_⟩
      subst hb
      exact hfind.symm

theorem Once.activity (h : Once b w log bk) {i : UUID} {key : String} {activity : Callable}
    {input : JSONDict} {result : Except PyExc Json}
    (hlegal : Legal bk (.callActivity i key activity input)) :
    Once b w (⟨w, .callActivity i key activity input, result⟩ :: log)
      (bk.note (.callActivity i key activity input) result) := by
  obtain ⟨hrecorded, hsingle⟩ :=
    h.unsaved (e := ⟨w, .callActivity i key activity input, result⟩) (by simp) fun _ _ => rfl
  rcases result with e | v
  · exact ⟨h.hidden, h.last, h.missed, h.result, h.completed, h.cached, hrecorded, hsingle⟩
  · refine ⟨h.hidden, h.last, h.missed, fun v' hv' => ?_, h.completed, h.cached, hrecorded,
      hsingle⟩
    obtain ⟨_, _, cur, hhand, rfl, hkey, _⟩ := hlegal
    obtain rfl := Option.some_inj.mp hv'
    exact ⟨cur, key, hhand, hkey, by simp [lastResult]⟩

theorem Once.store (h : Once b w log bk) {caller : UUID} {wid key : String} {value : JSONDict}
    (hlegal : Legal bk (.setStepResult caller wid key value)) :
    Once b (w.setCache wid key value) (⟨w, .setStepResult caller wid key value, ()⟩ :: log) bk := by
  obtain ⟨hrecorded, hsingle⟩ :=
    h.unsaved (e := ⟨w, .setStepResult caller wid key value, ()⟩)
      (by simp) fun i k => (stepsUnder_congr rfl i k : (w.setCache wid key value).stepsUnder i k = _)
  refine ⟨h.hidden, h.last, h.missed, h.result, h.completed, fun wid' key' d hd => ?_, hrecorded,
    hsingle⟩
  rw [World.cache_setCache] at hd
  by_cases hsame : wid' = wid ∧ key' = key
  · obtain ⟨rfl, rfl⟩ := hsame
    rw [if_pos ⟨rfl, rfl⟩, Option.some_inj] at hd
    subst hd
    obtain ⟨_, row, hrow, hdone, hinst, hkey, hout⟩ := hlegal
    refine ⟨caller, by simp [storedBy], row, ?_, hdone, hout⟩
    exact mem_stepsUnder.mpr ⟨h.completed row hrow hdone, hinst, hkey⟩
  · rw [if_neg hsame] at hd
    obtain ⟨i, hi, hrow⟩ := h.cached wid' key' d hd
    have hother : ¬ (wid = wid' ∧ key = key') := fun heq => hsame ⟨heq.1.symm, heq.2.symm⟩
    exact ⟨i, (if_neg hother).trans hi, hrow⟩

/-- What a saved row does to the rows under a key: nothing, or it is now the last one, after rows
that hold every completed one and, if there are any, one that hides them. -/
def RowsSaved (b : Backend) (w w' : World) (row : WorkflowStep) (i : UUID) (key : String) : Prop :=
  if row.workflowInstanceId = i ∧ row.idempotencyKey = some key then
    ∃ init, w'.stepsUnder i key = init ++ [row] ∧
      (∀ x ∈ w.stepsUnder i key, x.status = .completed → x ∈ init) ∧
      (init = [] ∨ ∃ x ∈ init, HidesIn b init x)
  else w'.stepsUnder i key = w.stepsUnder i key

theorem Once.rowsSaved (h : Once b w log bk) (hkept : Kept w bk) {row : WorkflowStep}
    (hlegal : Legal bk (.saveStep row)) (i : UUID) (key : String) :
    RowsSaved b w (w.saveStep row) row i key := by
  obtain ⟨hrun, _, key', hkey', ⟨_, hfresh, hmissed⟩ | ⟨cur, hup⟩⟩ := hlegal
  · have hrows := stepsUnder_saveStep_new i key (hkept.fresh _ hfresh).2.1
    unfold RowsSaved
    split
    · rename_i hmatch
      obtain ⟨rfl, hkey⟩ := hmatch
      obtain rfl : key' = key := Option.some_inj.mp (hkey'.symm.trans hkey)
      exact ⟨w.stepsUnder row.workflowInstanceId key', by rw [hrows, if_pos ⟨rfl, hkey⟩],
        fun x hx _ => hx, h.missed _ _ hrun hmissed⟩
    · rename_i hmatch
      rw [hrows, if_neg hmatch, List.append_nil]
  · unfold RowsSaved
    split
    · rename_i hmatch
      obtain ⟨rfl, hkey⟩ := hmatch
      obtain ⟨init, hinit⟩ := h.last cur key hup.hand (hup.idempotencyKey ▸ hkey)
      rw [hup.workflowInstanceId]
      refine ⟨init, stepsUnder_saveStep_last hkept.rows hinit hup.id hup.workflowInstanceId
        hup.idempotencyKey, fun x hx hdone => ?_, ?_⟩
      · rw [hinit, List.mem_append, List.mem_singleton] at hx
        exact hx.resolve_right fun heq => hup.unfinished (heq ▸ hdone)
      · rcases h.hidden cur.workflowInstanceId key with hlen | ⟨x, hx, hopen, hhead⟩
        · rw [hinit, List.length_append, List.length_singleton] at hlen
          exact .inl (List.length_eq_zero_iff.mp (by omega))
        · rw [hinit, List.dropLast_concat] at hx
          refine .inr ⟨x, hx, hopen, fun hb => ?_⟩
          have := hhead hb
          rw [hinit, List.head?_append] at this
          rcases init with _ | ⟨y, init⟩
          · cases hx
          · simpa using this
    · rename_i hmatch
      exact stepsUnder_saveStep_other hkept.rows (hkept.hand cur hup.hand) hup.id
        hup.workflowInstanceId hup.idempotencyKey
        (by rwa [← hup.workflowInstanceId, ← hup.idempotencyKey])

theorem RowsSaved.completed {row x : WorkflowStep} {i : UUID} {key : String}
    (h : RowsSaved b w w' row i key) (hx : x ∈ w.stepsUnder i key) (hdone : x.status = .completed) :
    x ∈ w'.stepsUnder i key := by
  unfold RowsSaved at h
  split at h
  · obtain ⟨init, hinit, hcompleted, _⟩ := h
    rw [hinit]
    exact List.mem_append_left _ (hcompleted x hx hdone)
  · rwa [h]

theorem Kept.replaced_unfinished (hkept : Kept w bk) {row old : WorkflowStep}
    (hlegal : Legal bk (.saveStep row)) (hold : old ∈ w.steps) (hid : old.id = row.id) :
    old.status ≠ .completed := by
  obtain ⟨_, _, _, _, ⟨_, hfresh, _⟩ | ⟨cur, hup⟩⟩ := hlegal
  · exact absurd hid ((hkept.fresh _ hfresh).2.1 old hold)
  · have hcur := hkept.hand cur hup.hand
    rw [List.inj_on_of_nodup_map hkept.rows hold hcur (hid.trans hup.id)]
    exact hup.unfinished

theorem Once.saved_result (h : Once b w log bk) {row : WorkflowStep} {key : String}
    (hlegal : Legal bk (.saveStep row)) (hdone : row.status = .completed)
    (hkey : row.idempotencyKey = some key) :
    ∃ v, lastResult row.workflowInstanceId key log = some v ∧
      row.output = .obj (coerceJsonDict v) := by
  obtain ⟨_, _, _, _, ⟨hpending, _⟩ | ⟨cur, hup⟩⟩ := hlegal
  · rw [hpending] at hdone
    cases hdone
  · obtain ⟨v, hv, hout⟩ := hup.result hdone
    obtain ⟨step, key', hhand, hkey', hlast⟩ := h.result v hv
    obtain rfl := Option.some_inj.mp (hhand.symm.trans hup.hand)
    rw [hup.idempotencyKey, hkey'] at hkey
    obtain rfl := Option.some_inj.mp hkey
    exact ⟨v, hup.workflowInstanceId ▸ hlast, hout⟩

theorem Once.save (h : Once b w log bk) (hkept : Kept w bk) {row : WorkflowStep}
    (hlegal : Legal bk (.saveStep row)) :
    Once b (w.saveStep row) (⟨w, .saveStep row, ()⟩ :: log) (bk.note (.saveStep row) ()) := by
  have hrows := h.rowsSaved hkept hlegal
  have hself : row ∈ (w.saveStep row).steps := (mem_upsert_iff hkept.rows).mpr (.inl rfl)
  refine ⟨fun i key => ?_, fun step key hs hkey => ?_, by simp [Book.note], by simp [Book.note],
    fun x hx hdone => ?_, fun wid key d hd => ?_, fun i key v hv => ?_,
    fun i key x hx hdone => ?_⟩
  · have hsaved := hrows i key
    unfold RowsSaved at hsaved
    split at hsaved
    · obtain ⟨init, hinit, _, hnil | ⟨x, hx, hopen, hhead⟩⟩ := hsaved
      · exact .inl (by simp [hinit, hnil])
      · refine .inr ⟨x, by rwa [hinit, List.dropLast_concat], hopen, fun hb => ?_⟩
        rw [hinit, List.head?_append, hhead hb]
        rfl
    · rw [hsaved]
      exact h.hidden i key
  · obtain rfl := Option.some_inj.mp hs
    have hsaved := hrows row.workflowInstanceId key
    rw [RowsSaved, if_pos ⟨rfl, hkey⟩] at hsaved
    exact hsaved.imp fun _ hinit => hinit.1
  · simp only [Book.note] at hx
    split at hx
    · obtain rfl := Option.some_inj.mp hx
      exact hself
    · exact mem_saveStep_of_completed hkept.rows (h.completed x hx hdone) hdone
        fun old hold hid => hkept.replaced_unfinished hlegal hold hid
  · obtain ⟨i, hi, x, hx, hdone, hout⟩ := h.cached wid key d hd
    exact ⟨i, hi, x, (hrows i key).completed hx hdone, hdone, hout⟩
  · rcases Option.or_eq_some_iff.mp hv with hv | ⟨_, hv⟩
    · obtain ⟨x, hx, hdone⟩ := h.recorded i key v hv
      exact ⟨x, (hrows i key).completed hx hdone, hdone⟩
    · rw [Option.ite_none_right_eq_some] at hv
      have hunder : row.workflowInstanceId = i ∧ row.idempotencyKey = some key ∧
          row.status = .completed := by simpa [completesUnder] using hv.1
      exact ⟨row, mem_stepsUnder.mpr ⟨hself, hunder.1, hunder.2.1⟩, hunder.2.2⟩
  · have hsaved := hrows i key
    unfold RowsSaved at hsaved
    split at hsaved
    · rename_i hmatch
      obtain ⟨rfl, hkey⟩ := hmatch
      obtain ⟨init, hinit, hcompleted, _⟩ := hsaved
      rw [hinit] at hx
      obtain ⟨rfl, hx⟩ := List.append_eq_singleton_iff.mp hx |>.resolve_right (by simp)
      obtain rfl : row = x := by simpa using hx
      -- No completed row was there before, so this is the first one recorded
      have hnone : firstCompleted row.workflowInstanceId key log = none := by
        by_contra hsome
        obtain ⟨v, hv⟩ := Option.ne_none_iff_exists'.mp hsome
        obtain ⟨y, hy, hydone⟩ := h.recorded _ _ v hv
        cases hcompleted y hy hydone
      obtain ⟨v, hv, hout⟩ := h.saved_result hlegal hdone hkey
      exact ⟨v, by simp [firstCompleted, completesUnder, hnone, hkey, hdone, hv], hout⟩
    · rename_i hmatch
      rw [hsaved] at hx
      obtain ⟨v, hv, hout⟩ := h.single i key x hx hdone
      exact ⟨v, by simp [firstCompleted, hv], hout⟩

/-- **One operation keeps it.** -/
theorem Once.step (h : Once b w log bk) (hkept : Kept w bk) (hlegal : Legal bk o)
    (hstep : Step b w o r w') : Once b w' (⟨w, o, r⟩ :: log) (bk.note o r) := by
  cases o with
  | saveStep row =>
    obtain rfl := step_saveStep.mp hstep
    exact h.save hkept hlegal
  | getStepByIdempotencyKey i key =>
    obtain ⟨hfind, rfl⟩ := step_getStepByIdempotencyKey.mp hstep
    exact h.lookup hlegal hfind
  | callActivity i key activity input =>
    obtain rfl := step_callActivity.mp hstep
    exact h.activity hlegal
  | setStepResult caller wid key value =>
    obtain rfl := step_setStepResult.mp hstep
    exact h.store hlegal
  | _ => exact h.quiet hstep (by simp) (by simp) (by simp) (by simp)

end Once

/-! ## `execute_activity`, once a row is completed -/

def Op.runsActivity : Op → Bool
  | .callActivity _ _ _ _ => true
  | _ => false

/-- **`execute_activity` skips the activity and returns `v`**, whatever it is answered. -/
def SkipsWith (E : DurableWorkflowExecutor) (b : Backend) (w : World) (ctx : WorkflowContext)
    (call : ActivityCall) (v : Json) : Prop :=
  Safe (Step b) (fun _ o => o.runsActivity = false) (E.executeActivity ctx call) w
    (fun out _ => out.2 = .ok v) (fun _ _ => False)

/-- What `execute_activity` finds under the key is the result `v`, wherever it looks. -/
structure Finds (b : Backend) (w : World) (ctx : WorkflowContext) (key : String) (v : Json) :
    Prop where
  /-- a lookup returns a completed row only -/
  row : ∀ row, w.MayFind b ctx.workflowInstance.id key (some row) → row.status = .completed
  /-- the result is a dict -/
  dict : ∃ members, v = .obj members
  /-- the cache has no other entry -/
  cache : ∀ d, w.cache ctx.workflowId key = some d → d ≠ [] → .obj d = v

section Skip

variable {E : DurableWorkflowExecutor} {b : Backend} {w : World} {log : List Performed}
variable {bk : Book} {ctx : WorkflowContext} {call : ActivityCall} {key : String} {v : Json}

theorem Once.lone_row (h : Once b w log bk) {i : UUID} (hdone : firstCompleted i key log = some v)
    (hrow : ∀ row, w.MayFind b i key (some row) → row.status = .completed) :
    ∃ row, w.stepsUnder i key = [row] ∧ row.status = .completed ∧
      row.output = .obj (coerceJsonDict v) := by
  obtain ⟨row, hmem, hcompleted⟩ := h.recorded i key v hdone
  have hlen : (w.stepsUnder i key).length ≤ 1 := by
    refine (h.hidden i key).resolve_right ?_
    rintro ⟨x, hx, hopen, hhead⟩
    refine hopen (hrow x ?_)
    cases b with
    | inMemory => exact (hhead rfl).symm
    | postgres => exact (List.dropLast_sublist _).subset hx
  obtain ⟨x, hx⟩ := List.length_eq_one_iff.mp
    (le_antisymm hlen (List.length_pos_of_mem hmem))
  rw [hx, List.mem_singleton] at hmem
  subst hmem
  obtain ⟨v', hv', hout⟩ := h.single i key row hx hcompleted
  obtain rfl := Option.some_inj.mp (hdone.symm.trans hv')
  exact ⟨row, hx, hcompleted, hout⟩

theorem mayFind_singleton {i : UUID} {row : WorkflowStep} {found : Option WorkflowStep}
    (hrows : w.stepsUnder i key = [row]) (hfind : w.MayFind b i key found) : found = some row := by
  cases b with
  | inMemory => rw [hfind, hrows]; rfl
  | postgres =>
    rcases found with _ | x
    · exact absurd (hrows.symm.trans hfind) (by simp)
    · have hx : x ∈ w.stepsUnder i key := hfind
      rw [hrows, List.mem_singleton] at hx
      rw [hx]

theorem skipsWith_of_finds (h : Once b w log bk)
    (hdone : firstCompleted ctx.workflowInstance.id (E.keyOf ctx call) log = some v)
    (hfinds : Finds b w ctx (E.keyOf ctx call) v) : SkipsWith E b w ctx call v := by
  obtain ⟨row, hrows, hcompleted, hout⟩ := h.lone_row hdone hfinds.row
  obtain ⟨members, rfl⟩ := hfinds.dict
  have hlookup {w' : World} (hsteps : w'.steps = w.steps) {found : Option WorkflowStep}
      (hfind : w'.MayFind b ctx.workflowInstance.id (E.keyOf ctx call) found) : found = some row :=
    mayFind_singleton ((stepsUnder_congr hsteps _ _).trans hrows) hfind
  simp only [SkipsWith, executeActivity, getCachedStepResult, safe_bind, safe_perform,
    step_getStepResult]
  refine ⟨rfl, fun cached w' hcached => ?_⟩
  have hsteps : w'.steps = w.steps := by
    rcases hcached with ⟨_, rfl⟩ | ⟨_, rfl⟩ <;> rfl
  cases hentry : cached.filter (· ≠ []) with
  | some d =>
    obtain ⟨rfl, hd⟩ := Option.filter_eq_some_iff.mp hentry
    rcases hcached with ⟨hcached, _⟩ | ⟨hcached, _⟩
    · simp only [safe_pure, Except.ok.injEq]
      exact hfinds.cache d hcached.symm (by simpa using hd)
    · cases hcached
  | none =>
    simp only [safe_bind, safe_perform, step_getStepByIdempotencyKey]
    refine ⟨rfl, ?_⟩
    rintro found w'' ⟨hfind, rfl⟩
    obtain rfl := hlookup hsteps hfind
    simp only [Option.filter_some, hcompleted, decide_true, if_true, hout, safe_bind,
      safe_perform, safe_pure]
    exact ⟨rfl, fun _ _ _ => rfl⟩

theorem recordEvent_answers {pre : World → Op → Prop} {i : UUID} {ty : EventType}
    {data : JSONDict} {Q : Unit → World → Prop} {Er : PyExc → World → Prop}
    (h : Safe (Step b) pre (recordEvent i ty data) w Q Er) :
    ∃ w', Q () w' ∨ ∃ e : PyExc, e.kind = .other ∧ Er e w' := by
  simp only [recordEvent, safe_bind, safe_perform, step_getNextSequence] at h
  obtain ⟨_, hsave⟩ := h.2 _ w ⟨rfl, rfl⟩
  generalize hevent : (⟨i, ty, data, w.getNextSequence i⟩ : WorkflowEvent) = event at hsave
  have hans := hsave (w.saveEvent b event).1 (w.saveEvent b event).2
    (step_saveEvent.mpr ⟨rfl, rfl⟩)
  refine ⟨(w.saveEvent b event).2, ?_⟩
  cases hsaved : (w.saveEvent b event).1 with
  | ok _ =>
    rw [hsaved] at hans
    exact .inl hans
  | error e =>
    rw [hsaved] at hans
    refine .inr ⟨e, ?_, hans⟩
    simp only [World.saveEvent] at hsaved
    split_ifs at hsaved
    obtain rfl := Except.error.inj hsaved
    rfl

theorem runStep_not_skips {step : WorkflowStep} {Q : Json → World → Prop} :
    ¬ Safe (Step b) (fun _ o => o.runsActivity = false) (E.runStep ctx call key step) w Q
      (fun _ _ => False) := by
  intro h
  simp only [runStep, safe_bind] at h
  cases hn : (E.maxRetries + 1).toNat with
  | zero => simp [hn, runActivityWithRetry] at h
  | succ remaining =>
    simp only [hn, runActivityWithRetry, tryActivity, safe_bind, safe_perform,
      step_getWorkflow] at h
    replace h := h.2 _ w ⟨rfl, rfl⟩
    cases hcur : isCancelled (w.getWorkflow ctx.workflowInstance.id) with
    | true =>
      simp only [hcur, if_true, safe_pure, failStep, safe_bind, safe_perform, safe_raise] at h
      obtain ⟨_, h | ⟨_, _, h⟩⟩ := recordEvent_answers (h.2 () _ (step_saveStep.mpr rfl))
      · exact h
      · exact h
    | false =>
      simp only [hcur, Bool.false_eq_true, if_false, safe_bind, safe_perform, safe_attempt] at h
      obtain ⟨_, h | ⟨e, hkind, h⟩⟩ := recordEvent_answers (h.2 () _ (step_saveStep.mpr rfl))
      · exact absurd h.1 (by simp [Op.runsActivity])
      · simp [hkind] at h

theorem finds_of_skipsWith (h : Once b w log bk)
    (hdone : firstCompleted ctx.workflowInstance.id (E.keyOf ctx call) log = some v)
    (hdraw : ∃ u u', u ≠ u' ∧ u ∉ w.drawn ∧ u' ∉ w.drawn)
    (hskips : SkipsWith E b w ctx call v) : Finds b w ctx (E.keyOf ctx call) v := by
  obtain ⟨u, u', hne, hu, hu'⟩ := hdraw
  simp only [SkipsWith, executeActivity, getCachedStepResult, safe_bind, safe_perform,
    step_getStepResult] at hskips
  obtain ⟨_, hskips⟩ := hskips
  -- The cache has lost the entry, so the lookup decides
  have hlost := hskips none _ (.inr ⟨rfl, rfl⟩)
  simp only [Option.filter_none, safe_bind, safe_perform, step_getStepByIdempotencyKey] at hlost
  obtain ⟨_, hlost⟩ := hlost
  have hrow : ∀ row, w.MayFind b ctx.workflowInstance.id (E.keyOf ctx call) (some row) →
      row.status = .completed := by
    intro row hfind
    by_contra hopen
    have hnew := hlost (some row) _ ⟨hfind, rfl⟩
    simp only [Option.filter_some, hopen, decide_false, Bool.false_eq_true, if_false, safe_pure,
      safe_bind, safe_perform, safe_attempt] at hnew
    replace hnew := hnew.2 u _ (step_uuid4.mpr ⟨hu, by simp, rfl⟩)
    replace hnew := hnew.2 () _ (step_saveStep.mpr rfl)
    rcases hcomp : call.compensation with _ | handler
    · simp only [registerFor, hcomp, safe_pure] at hnew
      exact runStep_not_skips (hnew.mono (fun _ _ h => h) fun _ _ h => by cases h)
    · simp only [registerFor, hcomp, WorkflowContext.registerCompensation, safe_bind,
        safe_perform, safe_pure] at hnew
      replace hnew := hnew.2 u' _
        (step_uuid4.mpr ⟨by simp [World.saveStep, World.setCache, hu', hne.symm], by simp, rfl⟩)
      replace hnew := hnew.2 _ _ (step_now.mpr ⟨Nat.lt_succ_self _, rfl⟩)
      replace hnew := hnew.2 () _ (step_bindHandler.mpr rfl)
      replace hnew := hnew.2 () _ (step_saveCompensation.mpr rfl)
      exact runStep_not_skips (hnew.mono (fun _ _ h => h) fun _ _ h => by cases h)
  obtain ⟨row, hrows, hcompleted, hout⟩ := h.lone_row hdone hrow
  refine ⟨hrow, ?_, fun d hd hne => ?_⟩
  · have hfound : w.MayFind b ctx.workflowInstance.id (E.keyOf ctx call) (some row) := by
      cases b with
      | inMemory => exact (congrArg List.head? hrows).symm
      | postgres =>
        rw [World.MayFind, hrows]
        exact List.mem_singleton.mpr rfl
    have hret := hlost (some row) _ ⟨hfound, rfl⟩
    simp only [Option.filter_some, hcompleted, decide_true, if_true, hout, safe_bind,
      safe_perform, safe_pure] at hret
    have := hret.2 () _ (step_setStepResult.mpr rfl)
    exact ⟨_, (Except.ok.inj this).symm⟩
  · have hret := hskips (some d) _ (.inl ⟨hd.symm, rfl⟩)
    simp only [Option.filter_some, hne, decide_true, if_true, ne_eq, not_false_eq_true,
      safe_pure] at hret
    exact Except.ok.inj hret

end Skip

/-! ## Whole runs -/

def FindsCompleted (b : Backend) (w : World) (before : List Performed) : Op → Prop
  | .getStepByIdempotencyKey i key => firstCompleted i key before ≠ none →
      ∀ row, w.MayFind b i key (some row) → row.status = .completed
  | _ => True

/-- No activity is executed under a key that has a completed row. -/
def RunsFirst (before : List Performed) : Op → Prop
  | .callActivity i key _ _ => firstCompleted i key before = none
  | _ => True

/-- Every lookup of a run may only find completed rows, once there is one. -/
def LooksUpCompleted (b : Backend) : List Performed → Prop :=
  Throughout fun
    | [] => True
    | e :: before => FindsCompleted b e.before before e.op

/-- **No activity is executed again**, in a whole run. -/
def NeverAgain : List Performed → Prop :=
  Throughout fun
    | [] => True
    | e :: before => RunsFirst before e.op

/-- Where the lookups find what is completed, a key that was missed, and a step in hand that is
not completed, have no completed row. -/
structure NotYet (log : List Performed) (bk : Book) : Prop where
  missed : ∀ i key, bk.run = some i → bk.missed = some key → firstCompleted i key log = none
  step : ∀ step key, bk.step = some step → step.status ≠ .completed →
    step.idempotencyKey = some key → firstCompleted step.workflowInstanceId key log = none

section NotYet

variable {b : Backend} {w w' : World} {log : List Performed} {bk : Book} {o : Op} {r : o.Resp}

theorem NotYet.quiet (h : NotYet log bk) (ho : ∀ step, o ≠ .saveStep step)
    (ho₁ : ∀ i key, o ≠ .getStepByIdempotencyKey i key) :
    NotYet (⟨w, o, r⟩ :: log) (bk.note o r) := by
  have hsame (i : UUID) (key : String) :
      firstCompleted i key (⟨w, o, r⟩ :: log) = firstCompleted i key log :=
    firstCompleted_cons ho i key
  constructor
  · intro i key hrun hmissed
    obtain ⟨hmissed, hrun'⟩ := Book.note_missed ho₁ hmissed
    rw [hsame]
    exact h.missed i key (hrun' ▸ hrun) hmissed
  · intro step key hs hopen hkey
    rw [hsame]
    exact h.step step key (Book.note_step ho hs) hopen hkey

theorem NotYet.lookup (h : NotYet log bk) (honce : Once b w log bk) {i : UUID} {key : String}
    {found : Option WorkflowStep} (hrun : bk.run = some i) (hfind : w.MayFind b i key found)
    (hcond : FindsCompleted b w log (.getStepByIdempotencyKey i key)) :
    NotYet (⟨w, .getStepByIdempotencyKey i key, found⟩ :: log)
      (bk.note (.getStepByIdempotencyKey i key) found) := by
  have hsame (i' : UUID) (key' : String) :
      firstCompleted i' key' (⟨w, .getStepByIdempotencyKey i key, found⟩ :: log) =
        firstCompleted i' key' log := firstCompleted_cons (by simp) i' key'
  simp only [Book.note]
  cases hfilter : found.filter (·.status = .completed) with
  | some row => exact ⟨by simpa only [hsame] using h.missed, by simpa only [hsame] using h.step⟩
  | none =>
    refine ⟨fun i' key' hi' hkey' => ?_, by simpa only [hsame] using h.step⟩
    obtain rfl : i = i' := Option.some_inj.mp (hrun.symm.trans hi')
    obtain rfl := Option.some_inj.mp hkey'
    rw [hsame]
    by_contra hsome
    obtain ⟨v, hv⟩ := Option.ne_none_iff_exists'.mp hsome
    cases found with
    | some row => exact absurd (hcond hsome row hfind) (by simpa using hfilter)
    | none =>
      obtain ⟨row, hrow, _⟩ := honce.recorded i key v hv
      have hnil : w.stepsUnder i key = [] := by
        cases b with
        | inMemory => exact List.head?_eq_none_iff.mp hfind.symm
        | postgres => exact hfind
      rw [hnil] at hrow
      cases hrow

theorem NotYet.save (h : NotYet log bk) {row : WorkflowStep} (hlegal : Legal bk (.saveStep row)) :
    NotYet (⟨w, .saveStep row, ()⟩ :: log) (bk.note (.saveStep row) ()) := by
  refine ⟨by simp [Book.note], fun step key hs hopen hkey => ?_⟩
  obtain rfl : row = step := Option.some_inj.mp hs
  have hsame : firstCompleted row.workflowInstanceId key (⟨w, .saveStep row, ()⟩ :: log) =
      firstCompleted row.workflowInstanceId key log := by
    simp [firstCompleted, completesUnder, hopen]
  rw [hsame]
  obtain ⟨hrun, _, key', hkey', ⟨_, _, hmissed⟩ | ⟨cur, hup⟩⟩ := hlegal
  · obtain rfl := Option.some_inj.mp (hkey.symm.trans hkey')
    exact h.missed _ _ hrun hmissed
  · rw [hup.workflowInstanceId]
    exact h.step cur key hup.hand hup.unfinished (hup.idempotencyKey ▸ hkey)

theorem NotYet.next (h : NotYet log bk) (honce : Once b w log bk) (hlegal : Legal bk o)
    (hstep : Step b w o r w') (hcond : FindsCompleted b w log o) :
    NotYet (⟨w, o, r⟩ :: log) (bk.note o r) ∧ RunsFirst log o := by
  cases o with
  | saveStep row => exact ⟨h.save hlegal, trivial⟩
  | getStepByIdempotencyKey i key =>
    exact ⟨h.lookup honce hlegal (step_getStepByIdempotencyKey.mp hstep).1 hcond, trivial⟩
  | callActivity i key activity input =>
    refine ⟨h.quiet (by simp) (by simp), ?_⟩
    obtain ⟨_, _, cur, hhand, rfl, hkey, hopen⟩ := hlegal
    exact h.step cur key hhand hopen hkey
  | _ => exact ⟨h.quiet (by simp) (by simp), trivial⟩

end NotYet

theorem Serial.neverAgain {E : DurableWorkflowExecutor} {b : Backend} {made : List Made}
    {s : World × List Performed} (hrun : Serial E b made s) (hcond : LooksUpCompleted b s.2) :
    NeverAgain s.2 := by
  refine (hrun.conduct_throughout (I := fun w log bk => Once b w log bk ∧ NotYet log bk)
    ⟨.empty b, by simp, by simp⟩ trivial ?_ ?_ hcond).1
  · intro w log bk o r w' hkept ⟨honce, h⟩ hlegal hstep hc
    obtain ⟨hnext, hfirst⟩ := h.next honce hlegal hstep hc
    exact ⟨⟨honce.step hkept hlegal hstep, hnext⟩, hfirst⟩
  · rintro w log bk ⟨honce, h⟩
    exact ⟨honce.restart, by simp, by simp⟩

/-! ## A row that was left behind -/

/-- A payment is started; the process dies while charging, again when the charge is saved as
completed, and then resumes undisturbed. -/
def leftBehind : List Made × World × List Performed :=
  serveAll cashier .inMemory
    [(.resume "order-7" "acme", calm),
      (.resume "order-7" "acme", diesAt fun o => o matches .setStepResult _ _ _ _),
      (.resume "order-7" "acme", diesAt fun o => o matches .callActivity _ _ _ _),
      (.start "pay" "order-7" "acme" none, calm)]

/-- Whether an operation belongs to a compensation. -/
def Op.compensates : Op → Bool
  | .saveCompensation _ | .getCompensationsReversed _ | .callHandler _ _ _ => true
  | _ => false

theorem leftBehind_serial : Serial cashier .inMemory leftBehind.1 leftBehind.2 :=
  .serveAll rfl

/-- Nothing is compensated, and yet the charge is made again after it was saved as completed: the
lookup returns the row that the first attempt left behind. -/
theorem leftBehind_charges_again :
    Serial cashier .inMemory leftBehind.1 leftBehind.2 ∧
      (∀ e ∈ leftBehind.2.2, e.op.compensates = false) ∧ ¬ NeverAgain leftBehind.2.2 := by
  refine ⟨leftBehind_serial, ?_, fun h => ?_⟩
  · have hall : leftBehind.2.2.all (fun e => !e.op.compensates) = true := by decide
    simpa using hall
  · have hcharge : firstCompleted ⟨1⟩ "order-7:charge" (leftBehind.2.2.drop 9) = none :=
      (h.drop 8).here
    revert hcharge
    decide

/-- **Completed activities, exactly.**  Wherever a run of calls has got to, once a row is saved as
completed under a key, `execute_activity` with that key skips the activity and returns the value
of the first successful call, under every environment, if and only if it finds that value
wherever it looks.  So a run whose lookups all find what is completed executes no activity
again. -/
theorem completed_activity_skipped_iff (E : DurableWorkflowExecutor) (b : Backend)
    (made : List Made) (s : World × List Performed) (hrun : Serial E b made s) :
    (∀ (ctx : WorkflowContext) (call : ActivityCall) (v : Json),
      firstCompleted ctx.workflowInstance.id (E.keyOf ctx call) s.2 = some v →
      (∃ u u', u ≠ u' ∧ u ∉ s.1.drawn ∧ u' ∉ s.1.drawn) →
      (SkipsWith E b s.1 ctx call v ↔ Finds b s.1 ctx (E.keyOf ctx call) v)) ∧
    (LooksUpCompleted b s.2 → NeverAgain s.2) := by
  refine ⟨fun ctx call v hdone hdraw => ?_, hrun.neverAgain⟩
  have honce : Once b s.1 s.2 {} :=
    (hrun.conduct (.empty b) (fun hkept h hlegal hstep => h.step hkept hlegal hstep)
      (fun h => h.restart)).2
  exact ⟨finds_of_skipsWith honce hdone hdraw, skipsWith_of_finds honce hdone⟩

/-- A payment whose process dies when the charge is saved as completed. -/
def chargedOnce : List Made × World × List Performed :=
  serveAll cashier .inMemory
    [(.resume "order-7" "acme", diesAt fun o => o matches .setStepResult _ _ _ _),
      (.start "pay" "order-7" "acme" none, calm)]

def looksUpNew : List Performed → Bool
  | [] => true
  | e :: before =>
    match e.op with
    | .getStepByIdempotencyKey i key => (firstCompleted i key before).isNone
    | _ => true

/-- The theorem at a charge that answered `None`, which the row records as `{"result": None}`:
execute_activity does not return it again. -/
theorem completed_activity_skipped_iff_chargedOnce :
    (SkipsWith cashier .inMemory chargedOnce.2.1
        { workflowInstance := ⟨⟨1⟩, "pay", "order-7", "acme", .running, none, .null, none,
            "608508a9bd224290"⟩ } { stepName := "charge", activity := 1 } .null ↔
      Finds .inMemory chargedOnce.2.1
        { workflowInstance := ⟨⟨1⟩, "pay", "order-7", "acme", .running, none, .null, none,
            "608508a9bd224290"⟩ } "order-7:charge" .null) ∧
      NeverAgain chargedOnce.2.2 := by
  have h := completed_activity_skipped_iff cashier .inMemory chargedOnce.1 chargedOnce.2
    (.serveAll rfl)
  refine ⟨h.1 _ _ _ rfl ⟨⟨100⟩, ⟨101⟩, by decide, by decide, by decide⟩, h.2 ?_⟩
  refine Throughout.imp (show Throughout (fun l => looksUpNew l = true) _ by decide) fun l _ hnew => ?_
  match l with
  | [] => trivial
  | ⟨w, o, r⟩ :: before =>
    cases o with
    | getStepByIdempotencyKey i key =>
      exact fun hsome => absurd (Option.isNone_iff_eq_none.mp hnew) hsome
    | _ => trivial

end EnhancedAgentBus.Persistence
