import EnhancedAgentBus.SagaPersistence.OptimisticLocking

/-!
# Optimistic locking in Postgres

The Postgres repository is a lawful backend.  An `UPDATE` sets the version in the statement, so one
that finds its row raises it by one; but nobody looks at how many rows it has found, and the one of
`save` is content with any version up to that of the saga.
-/

namespace EnhancedAgentBus.SagaPersistence

open Async Async.Prog

/-- `PostgresSagaStateRepository` -/
@[reducible] def postgres [Columns] : Backend where
  Op := SqlOp
  Resp := SqlOp.Resp
  Store := PgStore
  Record := PersistedSagaState
  step := PgStep
  get := Postgres.get
  save := Postgres.save
  updateState := Postgres.updateState
  updateStepState := Postgres.updateStepState
  key := Uuid.text
  stored s key := s.find key
  version row := row.version
  view row saga := saga = row
  holds row saga := Uuid.text saga.sagaId = some row.sagaId ∧
    Uuid.text saga.correlationId = some row.correlationId ∧
      row = saga.toRow row.sagaId row.correlationId
  keeps row saga := row.createdAt = saga.createdAt
  reads
    | .selectSaga sagaId, some (some row) => some (sagaId, row)
    | _, _ => none
  saves
    | .updateSaga _ _ saga _ => some saga
    | .insertSaga _ _ saga => some saga
    | _ => none
  writes
    | .updateSaga sagaId _ _ _, some _ => some sagaId
    | .insertSaga sagaId _ _, some _ => some sagaId
    | .updateState sagaId _ _ _, some _ => some sagaId
    | .updateSteps sagaId _, some _ => some sagaId
    | _, _ => none
  found
    | .updateSaga _ _ _ version => some (some version)
    | .insertSaga _ _ _ => some none
    | .updateState _ _ version _ => some (some version)
    | _ => none
  refuses error := error = .repositoryError ∨ error = .valueError

/-- The statements are those of the calls, their identifiers in canonical form. -/
def SqlOp.Edits : SqlOp → Prop
  | .updateSaga sagaId correlationId saga found =>
    Uuid.text saga.sagaId = some sagaId ∧ Uuid.text saga.correlationId = some correlationId ∧
      (found = saga.version - 1 ∨ found = saga.version)
  | .insertSaga sagaId correlationId saga =>
    Uuid.text saga.sagaId = some sagaId ∧ Uuid.text saga.correlationId = some correlationId
  | .deleteSaga _ | .appendCompensation _ _ | .deleteTerminal _ | .deleteOlder _
  | .insertCheckpoint _ _ _ => False
  | _ => True

/-! ## What a statement does to a row -/

section Rows

variable {row : PersistedSagaState} {whose : PersistedSagaState → Bool}
  {set : PersistedSagaState → Option PersistedSagaState}

theorem find_sagaId {s : PgStore} {key : String} (h : s.find key = some row) :
    row.sagaId = key := by
  simpa using List.find?_some h

theorem find?_mapM {rows rows' : List PersistedSagaState}
    {f : PersistedSagaState → Option PersistedSagaState}
    (hf : ∀ row row', f row = some row' → row'.sagaId = row.sagaId)
    (h : rows.mapM f = some rows') (key : String) :
    rows'.find? (·.sagaId = key) = (rows.find? (·.sagaId = key)).bind f := by
  induction rows generalizing rows' with
  | nil =>
    obtain rfl := Option.some_inj.mp h
    rfl
  | cons row rows ih =>
    simp only [List.mapM_cons, Option.bind_eq_bind, Option.bind_eq_some_iff, Option.pure_def,
      Option.some_inj] at h
    obtain ⟨row', hrow, rest, hrest, rfl⟩ := h
    have hid := hf row row' hrow
    by_cases hkey : row.sagaId = key
    · simp [hid, hkey, hrow]
    · simp [hid, hkey, ih hrest]

theorem mapM_some_of_mem {rows rows' : List PersistedSagaState}
    {f : PersistedSagaState → Option PersistedSagaState} (h : rows.mapM f = some rows')
    (hrow : row ∈ rows) : ∃ row', f row = some row' := by
  induction rows generalizing rows' with
  | nil => cases hrow
  | cons first rows ih =>
    simp only [List.mapM_cons, Option.bind_eq_bind, Option.bind_eq_some_iff] at h
    obtain ⟨row', hfirst, rest, hrest, _⟩ := h
    rcases List.mem_cons.mp hrow with rfl | hrow
    · exact ⟨row', hfirst⟩
    · exact ih hrest hrow

theorem setState_eq {row' : PersistedSagaState} {newState : SagaState} {settings : StateSettings}
    (h : row.setState newState settings = some row') :
    row'.sagaId = row.sagaId ∧ row'.version = row.version + 1 := by
  unfold PersistedSagaState.setState at h
  simp only at h
  split at h
  · obtain rfl := Option.some_inj.mp h
    exact ⟨rfl, rfl⟩
  · obtain rfl := Option.some_inj.mp h
    exact ⟨rfl, rfl⟩
  · obtain rfl := Option.some_inj.mp h
    exact ⟨rfl, rfl⟩
  · obtain rfl := Option.some_inj.mp h
    exact ⟨rfl, rfl⟩
  · split at h
    · obtain ⟨startedAt, _, rfl⟩ := Option.map_eq_some_iff.mp h
      exact ⟨rfl, rfl⟩
    · obtain rfl := Option.some_inj.mp h
      exact ⟨rfl, rfl⟩

variable [Columns] {s s' : PgStore} {o : SqlOp} {r : o.Resp}

/-- **An `UPDATE`** that is not refused. -/
theorem find_update (hset : ∀ row row', set row = some row' → row'.sagaId = row.sagaId) {n : ℕ}
    (h : s.update whose set = (some n, s')) (key : String) :
    s'.find key = (s.find key).bind fun row =>
      if whose row then (set row).filter Columns.saga else some row := by
  unfold PgStore.update at h
  split at h
  · rename_i rows hrows
    obtain rfl := (Prod.mk.inj h).2
    refine find?_mapM (fun row row' hrow => ?_) hrows key
    split at hrow
    · exact hset row row' (Option.filter_eq_some_iff.mp hrow).1
    · rw [Option.some_inj.mp hrow]
  · exact absurd (Prod.mk.inj h).1 (Option.some_ne_none n).symm

theorem update_refused (h : s.update whose set = (none, s')) : s' = s := by
  unfold PgStore.update at h
  split at h
  · exact absurd (Prod.mk.inj h).1 (Option.some_ne_none _)
  · exact (Prod.mk.inj h).2.symm

theorem PgStep.execute (h : PgStep s o r s') (ho : o.determined = true) :
    ∃ now, s.execute now o = (r, s') := by
  obtain ⟨now, h⟩ := h
  rw [PgStore.perform, if_pos ho] at h
  exact ⟨now, h⟩

theorem find_update_frame (hset : ∀ row row', set row = some row' → row'.sagaId = row.sagaId)
    {n : Option ℕ} (h : s.update whose set = (n, s')) (sagaId : String) {key : String}
    (hwhose : ∀ row, whose row = true → row.sagaId = sagaId) (hkey : n ≠ none → sagaId ≠ key) :
    s'.find key = s.find key := by
  rcases n with _ | n
  · rw [update_refused h]
  · rw [find_update hset h]
    rcases hrow : s.find key with _ | row
    · rfl
    · have hnot : ¬ whose row = true := fun hw =>
        hkey (Option.some_ne_none n) ((hwhose row hw).symm.trans (find_sagaId hrow))
      simp [hnot]

theorem find_update_self (hset : ∀ row row', set row = some row' → row'.sagaId = row.sagaId)
    {n : ℕ} (h : s.update whose set = (some n, s')) {key : String} (hrow : s.find key = some row)
    (hwhose : whose row = true) : ∃ row', s'.find key = some row' ∧ set row = some row' := by
  have hfind := find_update hset h key
  unfold PgStore.update at h
  split at h
  · rename_i rows hrows
    obtain ⟨row', hrow'⟩ := mapM_some_of_mem hrows (List.mem_of_find?_eq_some hrow)
    rw [hrow, Option.bind_some, hrow'] at hfind
    rw [if_pos hwhose] at hrow'
    exact ⟨row', hfind, (Option.filter_eq_some_iff.mp hrow').1⟩
  · exact absurd (Prod.mk.inj h).1 (Option.some_ne_none n).symm

end Rows

/-! ## The calls -/

section Calls

variable [Columns] {α : Type} {c : EditCall} {own : List postgres.Entry}
variable {Q : α → List postgres.Entry → Prop} {E : SagaError → List postgres.Entry → Prop}

theorem safe_uuid {text : String} {f : String → PgCode α} :
    Safe (Pool.OwnStep PgStep) (postgres.May SqlOp.Edits c) (Postgres.uuid text >>= f) own Q E ↔
      (Uuid.text text = none → E .valueError own) ∧
        ∀ canonical, Uuid.text text = some canonical →
          Safe (Pool.OwnStep PgStep) (postgres.May SqlOp.Edits c) (f canonical) own Q E := by
  rw [safe_bind, Postgres.uuid]
  rcases Uuid.text text with _ | canonical
  · simp
  · simp

theorem safe_sql {o : SqlOp} {f : o.Answer → PgCode α}
    (hmay : postgres.May SqlOp.Edits c own o)
    (hrefused : ∀ s, E .repositoryError (⟨s, o, none⟩ :: own))
    (hanswer : ∀ s s' answer, PgStep s o (some answer) s' →
      Safe (Pool.OwnStep PgStep) (postgres.May SqlOp.Edits c) (f answer)
        (⟨s, o, some answer⟩ :: own) Q E) :
    Safe (Pool.OwnStep PgStep) (postgres.May SqlOp.Edits c) (Postgres.sql o >>= f) own Q E := by
  rw [safe_bind]
  refine ⟨hmay, fun r own' hstep => ?_⟩
  obtain ⟨s, s', hstep, rfl⟩ := hstep
  rcases r with _ | answer
  · exact hrefused s
  · exact hanswer s s' answer hstep

theorem selectSaga_eq {s s' : PgStore} {sagaId : String} {answer : Option PersistedSagaState}
    (h : PgStep s (.selectSaga sagaId) (some answer) s') : s.find sagaId = answer := by
  obtain ⟨now, h⟩ := h.execute rfl
  exact Option.some_inj.mp (Prod.mk.inj h).1

theorem selectStatus_eq {s s' : PgStore} {sagaId : String}
    {answer : Option (SagaState × ℤ × Option Instant)}
    (h : PgStep s (.selectStatus sagaId) (some answer) s') :
    (s.find sagaId).map (fun row => (row.state, row.version, row.startedAt)) = answer := by
  obtain ⟨now, h⟩ := h.execute rfl
  exact Option.some_inj.mp (Prod.mk.inj h).1

theorem raises_refused {error : SagaError} (herror : error = .repositoryError ∨ error = .valueError)
    (hown : ∀ e ∈ own, postgres.writes e.op e.resp = none) : postgres.Raises c error own :=
  fun _ _ _ => ⟨.inr herror, hown⟩

theorem postgres_save_safe {saga : PersistedSagaState} (h : postgres.HasRead c own saga) :
    Safe (Pool.OwnStep PgStep) (postgres.May SqlOp.Edits c) (Postgres.save saga) own
      (postgres.Returns c) (postgres.Raises c) := by
  refine safe_uuid.mpr ⟨fun _ => raises_refused (.inr rfl) h.unwritten, fun sagaId hid => ?_⟩
  refine safe_sql (.reading trivial rfl fun _ => rfl)
    (fun s => raises_refused (.inl rfl) (h.cons (e := ⟨s, _, none⟩) rfl).unwritten)
    fun s s' existing _ => ?_
  have hread := h.cons (e := ⟨s, .selectVersion sagaId, some existing⟩) rfl
  rcases existing with _ | existingVersion
  · refine safe_uuid.mpr ⟨fun _ => raises_refused (.inr rfl) hread.unwritten, fun correlationId hc => ?_⟩
    refine safe_sql (hread.may ⟨hid, hc⟩ rfl)
      (fun s => raises_refused (.inl rfl) (hread.cons (e := ⟨s, _, none⟩) rfl).unwritten)
      fun s s' _ _ => ?_
    exact fun _ _ _ _ => ⟨_, List.mem_cons_self .., rfl, rfl⟩
  · simp only
    split
    · exact fun _ _ _ => ⟨.inl ⟨_, _, _, rfl⟩, hread.unwritten⟩
    · rename_i hversion
      rw [not_and_or, not_not, not_not] at hversion
      refine safe_uuid.mpr ⟨fun _ => raises_refused (.inr rfl) hread.unwritten, fun correlationId hc => ?_⟩
      refine safe_sql (hread.may ⟨hid, hc, hversion⟩ rfl)
        (fun s => raises_refused (.inl rfl) (hread.cons (e := ⟨s, _, none⟩) rfl).unwritten)
        fun s s' _ _ => ?_
      exact fun _ _ _ _ => ⟨_, List.mem_cons_self .., rfl, rfl⟩

theorem safe_get {sagaId : String} {f : Option PersistedSagaState → PgCode α}
    (hinvalid : E .valueError own) (hrefused : ∀ s id, E .repositoryError (⟨s, .selectSaga id, none⟩ ::
      own)) (hanswer : ∀ s id answer, Uuid.text sagaId = some id → s.find id = answer →
      Safe (Pool.OwnStep PgStep) (postgres.May SqlOp.Edits c) (f answer)
        (⟨s, .selectSaga id, some answer⟩ :: own) Q E) :
    Safe (Pool.OwnStep PgStep) (postgres.May SqlOp.Edits c) (Postgres.get sagaId >>= f) own Q E := by
  refine (safe_bind _ _).mpr (safe_uuid.mpr ⟨fun _ => hinvalid, fun id hid => ?_⟩)
  refine ⟨.reading trivial rfl fun _ => rfl, fun r own' hstep => ?_⟩
  obtain ⟨s, s', hstep, rfl⟩ := hstep
  rcases r with _ | answer
  · exact hrefused s id
  · exact hanswer s id answer hid (selectSaga_eq hstep)

theorem postgres_edit_safe (sagaId : String) (modify : PersistedSagaState → PersistedSagaState) :
    Safe (Pool.OwnStep PgStep) (postgres.May SqlOp.Edits (.edit sagaId modify))
      (postgres.edit sagaId modify) [] (postgres.Returns (.edit sagaId modify))
      (postgres.Raises (.edit sagaId modify)) := by
  have hinvalid : postgres.Raises (.edit sagaId modify) .valueError [] :=
    raises_refused (.inr rfl) fun _ he => absurd he List.not_mem_nil
  have hone : ∀ (e : postgres.Entry), postgres.writes e.op e.resp = none → ∀ e' ∈ [e],
      postgres.writes e'.op e'.resp = none := by
    intro e he e' he'
    obtain rfl := List.mem_singleton.mp he'
    exact he
  refine safe_get hinvalid (fun s id => ?_) fun s id answer hid hfind => ?_
  · exact raises_refused (.inl rfl) (hone _ rfl)
  · rcases answer with _ | row
    · exact fun _ _ _ h => by cases h
    · have hcanonical : Uuid.text id = some id := Uuid.text_text hid
      refine postgres_save_safe ⟨?_, ?_⟩
      · exact ⟨sagaId, modify, [], ⟨s, .selectSaga id, some (some row)⟩, id, row, row, rfl, rfl,
          rfl, hcanonical, hfind, rfl, rfl⟩
      · exact hone _ rfl

theorem postgres_updateState_safe (sagaId : String) (newState : SagaState)
    (failureReason : Option String) (hc : ∀ sagaId modify, c ≠ .edit sagaId modify) :
    Safe (Pool.OwnStep PgStep) (postgres.May SqlOp.Edits c)
      (Postgres.updateState sagaId newState failureReason) [] (postgres.Returns c)
      (postgres.Raises c) := by
  have hreturns : ∀ answer own, postgres.Returns c answer own := fun _ _ _ _ h => absurd h (hc _ _)
  have hraises : ∀ error own, postgres.Raises c error own := fun _ _ _ _ h => absurd h (hc _ _)
  refine safe_uuid.mpr ⟨fun _ => hraises _ _, fun id hid => ?_⟩
  refine safe_sql (.reading trivial rfl fun _ => rfl) (fun _ => hraises _ _) fun s s' row hstep => ?_
  rcases row with _ | status
  · exact hreturns _ _
  · obtain ⟨currentState, version, startedAt⟩ := status
    obtain ⟨row, hrow, _⟩ := Option.map_eq_some_iff.mp (selectStatus_eq hstep)
    simp only
    split
    · exact hraises _ _
    · refine safe_sql (.reading trivial rfl fun _ => rfl) (fun _ => hraises _ _)
        fun s₁ s₁' now _ => ?_
      refine safe_sql (.updating trivial rfl ⟨s, .selectStatus id,
        some (some (currentState, version, startedAt))⟩ (by simp) ?_)
        (fun _ => hraises _ _) fun _ _ _ _ => hreturns _ _
      intro r key hkey hnone
      rcases r with _ | n
      · cases hkey
      · obtain rfl := Option.some_inj.mp hkey
        exact Option.some_ne_none row (hrow.symm.trans hnone)

theorem postgres_updateStepState_safe (sagaId stepId : String) (newState : StepState)
    (outputData : Json) (errorMessage : Option String)
    (hc : ∀ sagaId modify, c ≠ .edit sagaId modify) :
    Safe (Pool.OwnStep PgStep) (postgres.May SqlOp.Edits c)
      (Postgres.updateStepState sagaId stepId newState outputData errorMessage) []
      (postgres.Returns c) (postgres.Raises c) := by
  have hreturns : ∀ answer own, postgres.Returns c answer own := fun _ _ _ _ h => absurd h (hc _ _)
  have hraises : ∀ error own, postgres.Raises c error own := fun _ _ _ _ h => absurd h (hc _ _)
  refine safe_get (hraises _ _) (fun _ _ => hraises _ _) fun s id answer hid hfind => ?_
  rcases answer with _ | row
  · exact hreturns _ _
  · refine safe_sql (.reading trivial rfl fun _ => rfl) (fun _ => hraises _ _)
      fun s₁ s₁' now _ => ?_
    split
    · exact hreturns _ _
    · rename_i steps _
      refine safe_uuid.mpr ⟨fun _ => hraises _ _, fun id' hid' => ?_⟩
      refine safe_sql (.updating trivial rfl ⟨s, .selectSaga id, some (some row)⟩
        (by simp) ?_) (fun _ => hraises _ _) fun _ _ _ _ => hreturns _ _
      intro r key hkey hnone
      rcases r with _ | n
      · cases hkey
      · obtain rfl := Option.some_inj.mp hkey
        obtain rfl := Option.some_inj.mp (hid.symm.trans hid')
        exact Option.some_ne_none row (hfind.symm.trans hnone)

end Calls

section Lawful

variable [Columns]

theorem postgres_saves {o : SqlOp} {saga : PersistedSagaState} (h : postgres.saves o = some saga) :
    (∃ sagaId correlationId found, o = .updateSaga sagaId correlationId saga found) ∨
      ∃ sagaId correlationId, o = .insertSaga sagaId correlationId saga := by
  cases o with
  | updateSaga sagaId correlationId saga' found =>
    obtain rfl := Option.some_inj.mp h
    exact .inl ⟨_, _, _, rfl⟩
  | insertSaga sagaId correlationId saga' =>
    obtain rfl := Option.some_inj.mp h
    exact .inr ⟨_, _, rfl⟩
  | selectSaga | selectVersion | selectStatus | updateState | updateSteps | deleteSaga
  | appendCompensation | selectCompensationLog | insertCheckpoint | selectCheckpoints
  | selectByTenant | selectByTenantAndState | selectByState | selectByStates | deleteTerminal
  | deleteOlder | now => cases h

theorem postgres_frame {s s' : PgStore} {o : SqlOp} {r : o.Resp} {key : String}
    (hstep : PgStep s o r s') (hedits : o.Edits) (hwrites : postgres.writes o r ≠ some key) :
    s'.find key = s.find key := by
  obtain ⟨now, hperform⟩ := hstep
  unfold PgStore.perform at hperform
  split at hperform
  · cases o with
    | updateSaga sagaId correlationId saga found =>
      refine find_update_frame ?_ hperform sagaId
        (fun row h => (of_decide_eq_true h).1) fun hr heq => ?_
      · rintro row row' ⟨⟩
        rfl
      · rcases r with _ | n
        · exact hr rfl
        · exact hwrites (congrArg some heq)
    | updateState sagaId newState version settings =>
      refine find_update_frame (fun row row' hset => (setState_eq hset).1)
        hperform sagaId (fun row h => (of_decide_eq_true h).1) fun hr heq => ?_
      rcases r with _ | n
      · exact hr rfl
      · exact hwrites (congrArg some heq)
    | updateSteps sagaId steps =>
      refine find_update_frame ?_ hperform sagaId
        (fun row h => of_decide_eq_true h) fun hr heq => ?_
      · rintro row row' ⟨⟩
        rfl
      · rcases r with _ | n
        · exact hr rfl
        · exact hwrites (congrArg some heq)
    | insertSaga sagaId correlationId saga =>
      simp only [PgStore.execute] at hperform
      split at hperform
      · obtain ⟨hr, rfl⟩ := Prod.mk.inj hperform
        subst hr
        have hne : sagaId ≠ key := fun heq => hwrites (congrArg some heq)
        simp [PgStore.find, List.find?_append, PersistedSagaState.toRow, hne]
      · rw [(Prod.mk.inj hperform).2]
    | selectSaga | selectVersion | selectStatus | selectCompensationLog | selectCheckpoints
    | selectByTenant | selectByTenantAndState | selectByState | selectByStates | now =>
      rw [(Prod.mk.inj hperform).2]
    | deleteSaga | appendCompensation | deleteTerminal | deleteOlder | insertCheckpoint =>
      exact hedits.elim
  · rw [(Prod.mk.inj hperform).2]

theorem postgres_saved {s s' : PgStore} {o : SqlOp} {r : o.Resp} {saga row : PersistedSagaState}
    {key : String} (hstep : PgStep s o r s') (hedits : o.Edits)
    (hsaves : postgres.saves o = some saga) (hwrites : postgres.writes o r = some key)
    (hrow : s.find key = some row) (hfound : postgres.found o = some (some row.version))
    (hne : row.version ≠ saga.version) (hcreated : row.createdAt = saga.createdAt) :
    row.version = saga.version - 1 ∧ ∃ row', s'.find key = some row' ∧
      postgres.holds row' saga ∧ row'.version = saga.version := by
  rcases postgres_saves hsaves with ⟨sagaId, correlationId, found, rfl⟩ | ⟨_, _, rfl⟩
  · obtain ⟨hid, hcorrelation, hversion⟩ := hedits
    obtain rfl : found = row.version := Option.some_inj.mp (Option.some_inj.mp hfound)
    have hprevious : row.version = saga.version - 1 := by
      rcases hversion with hversion | hversion
      · exact hversion
      · exact absurd hversion hne
    rcases r with _ | n
    · cases hwrites
    · obtain rfl : sagaId = key := Option.some_inj.mp hwrites
      obtain ⟨now, hexecute⟩ := hstep.execute rfl
      obtain ⟨row', hrow', hset⟩ := find_update_self (by rintro _ _ ⟨⟩; rfl) hexecute hrow
        (decide_eq_true ⟨find_sagaId hrow, by omega⟩)
      obtain rfl := Option.some_inj.mp hset
      refine ⟨hprevious, _, hrow', ⟨?_, hcorrelation, ?_⟩, rfl⟩
      · rw [hid, ← find_sagaId hrow]
        rfl
      · rw [hcreated]
        rfl
  · cases hfound

theorem postgres_updated {s s' : PgStore} {o : SqlOp} {r : o.Resp} {row : PersistedSagaState}
    {key : String} (hstep : PgStep s o r s') (hedits : o.Edits) (hsaves : postgres.saves o = none)
    (hwrites : postgres.writes o r = some key) (hrow : s.find key = some row)
    (hfound : ∀ version, postgres.found o = some version → version = some row.version) :
    ∃ row', s'.find key = some row' ∧ row'.version = row.version + 1 := by
  cases o with
  | updateState sagaId newState version settings =>
    rcases r with _ | n
    · cases hwrites
    · obtain rfl : sagaId = key := Option.some_inj.mp hwrites
      obtain rfl : version = row.version := Option.some_inj.mp (hfound _ rfl)
      have hdetermined : (SqlOp.updateState sagaId newState row.version settings).determined =
          true := by
        obtain ⟨timestamp, failureReason, duration⟩ := settings
        cases timestamp <;> cases failureReason <;> rfl
      obtain ⟨now, hexecute⟩ := hstep.execute hdetermined
      obtain ⟨row', hrow', hset⟩ := find_update_self
        (fun _ _ hset => (setState_eq hset).1) hexecute hrow
        (decide_eq_true ⟨find_sagaId hrow, rfl⟩)
      exact ⟨row', hrow', (setState_eq hset).2⟩
  | updateSteps sagaId steps =>
    rcases r with _ | n
    · cases hwrites
    · obtain rfl : sagaId = key := Option.some_inj.mp hwrites
      obtain ⟨now, hexecute⟩ := hstep.execute rfl
      obtain ⟨row', hrow', hset⟩ := find_update_self (by rintro _ _ ⟨⟩; rfl) hexecute hrow
        (decide_eq_true (find_sagaId hrow))
      obtain rfl := Option.some_inj.mp hset
      exact ⟨_, hrow', rfl⟩
  | updateSaga | insertSaga => cases hsaves
  | selectSaga | selectVersion | selectStatus | selectCompensationLog | selectCheckpoints
  | selectByTenant | selectByTenantAndState | selectByState | selectByStates | now => cases hwrites
  | deleteSaga | appendCompensation | deleteTerminal | deleteOlder | insertCheckpoint =>
    exact hedits.elim

theorem postgres_lawful : postgres.Lawful SqlOp.Edits fun _ => True where
  protocol c := by
    unfold Backend.code
    cases c with
    | edit sagaId modify => exact postgres_edit_safe sagaId modify
    | updateState sagaId newState failureReason =>
      exact postgres_updateState_safe sagaId newState failureReason nofun
    | updateStepState sagaId stepId newState outputData errorMessage =>
      refine postgres_updateStepState_safe sagaId stepId newState outputData errorMessage ?_
      simp
  read_key := by
    intro s key row read _ hrow hread
    rw [show read = row from hread]
    exact ⟨find_sagaId hrow, rfl⟩
  saved_key := by
    intro o r saga key hedits hsaves hwrites
    rcases postgres_saves hsaves with ⟨sagaId, _, _, rfl⟩ | ⟨sagaId, _, rfl⟩
    · have hid : Uuid.text saga.sagaId = some sagaId := hedits.1
      rcases r with _ | n
      · cases hwrites
      · obtain rfl : sagaId = key := Option.some_inj.mp hwrites
        exact hid
    · have hid : Uuid.text saga.sagaId = some sagaId := hedits.1
      rcases r with _ | n
      · cases hwrites
      · obtain rfl : sagaId = key := Option.some_inj.mp hwrites
        exact hid
  frame := postgres_frame
  wellFormed := fun _ _ _ _ => trivial
  checked := by
    intro o saga _ hsaves
    rcases postgres_saves hsaves with ⟨_, _, _, rfl⟩ | ⟨_, _, rfl⟩ <;> exact Option.some_ne_none _
  saved := fun _ hstep hedits hsaves hwrites hrow hfound hne hkeeps =>
    postgres_saved hstep hedits hsaves hwrites hrow hfound hne hkeeps
  updated := fun _ hstep hedits hsaves hwrites hrow hfound =>
    postgres_updated hstep hedits hsaves hwrites hrow hfound

end Lawful

end EnhancedAgentBus.SagaPersistence
