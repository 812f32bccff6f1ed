import EnhancedAgentBus.Constitutional.Storage

/-!
# The active version, under interleaving

Any number of processes call the service for one tenant, and their commands interleave.  What an
activation does to the rows is two updates, the first of the version it found as the current one, the
second of the version it activates; neither answer is looked at, and no lock is needed for them.

`Undisturbed` says of one performed command that it does no harm.  An update is executed, no other
activation is between its updates and its return, and a first update finds no active row but that of
the version it deactivates and that of the requested version.  An insertion of an active version finds
none, and no activation between its updates and its return.

`sole_of_undisturbed` is the run theorem.  `Sound` is its invariant: while an activation is between
its updates and its return, what is active is what it makes active.  What each program may await in
view of what it has performed itself (`May`) is proved for every call alone, and holds in every
interleaving by `Pool.Reach.own_safe`.
-/

namespace EnhancedAgentBus.Constitutional

open Async Async.Prog ConstitutionalStorageService

/-! ## Callers -/

structure Caller where
  redis : Client
  call : Call

def Caller.requests (c : Caller) (versionId : String) : Bool :=
  match c.call with
  | .activateVersion requested _ _ => requested = versionId
  | _ => false

theorem Caller.requests_inj {c : Caller} {id id' : String} (h : c.requests id = true)
    (h' : c.requests id' = true) : id = id' := by
  cases hcall : c.call with
  | activateVersion requested _ _ =>
    simp only [requests, hcall, decide_eq_true_eq] at h h'
    exact h.symm.trans h'
  | saveVersion | getVersion | getActiveVersion => simp [requests, hcall] at h

abbrev OwnLog := List (Entry Store Op Op.Resp)

/-- The versions that the call has written over rows. -/
def updates : OwnLog → List ConstitutionalVersion
  | [] => []
  | ⟨_, .updateVersion v, _⟩ :: own => v :: updates own
  | _ :: own => updates own

def released (own : OwnLog) : Bool :=
  own.any fun e => match e.op with
    | .delLock => true
    | _ => false

/-- The call has begun its updates and not returned: with Redis it returns after the release, without
after the update that activates. -/
def Updating (c : Caller) (own : OwnLog) : Prop :=
  updates own ≠ [] ∧
    if c.redis then released own = false else ∀ v ∈ updates own, v.isActive = false

section Calls

variable {n : ℕ} (callers : Fin n → Caller)

abbrev Calls (n : ℕ) := Pool (Fin n) Op Op.Resp DbError Answer Store

def calls : List (Fin n × Code Answer) :=
  (List.finRange n).map fun i => (i, (callers i).call.code (callers i).redis)

abbrev CallsInterleaved (init : Store) (P : Calls n) : Prop :=
  Pool.Reach Step (fun _ _ _ => False) (calls callers) init P

abbrev own (i : Fin n) (log : List (Fin n × Entry Store Op Op.Resp)) : OwnLog := Pool.own id i log

/-- No other call is between its updates and its return. -/
def Alone (i : Fin n) (log : List (Fin n × Entry Store Op Op.Resp)) : Prop :=
  ∀ j, j ≠ i → ¬ Updating (callers j) (own j log)

/-- What a performed command must not run into. -/
def Undisturbed (log : List (Fin n × Entry Store Op Op.Resp)) (p : Fin n × Entry Store Op Op.Resp)
    (_ : Store) : Prop :=
  match p.2 with
  | ⟨s, .insertVersion v, _⟩ => v.isActive = true → s.rows.active = [] ∧ Alone callers p.1 log
  | ⟨s, .updateVersion v, answered⟩ =>
    answered = true ∧ Alone callers p.1 log ∧
      (updates (own p.1 log) = [] → ∀ row ∈ s.rows.active,
        row.versionId = v.versionId ∨ (callers p.1).requests row.versionId = true)
  | _ => True

instance (c : Caller) (own : OwnLog) : Decidable (Updating c own) :=
  inferInstanceAs (Decidable (_ ∧ if c.redis then _ else _))

instance (i : Fin n) (log : List (Fin n × Entry Store Op Op.Resp)) :
    Decidable (Alone callers i log) :=
  inferInstanceAs (Decidable (∀ j, j ≠ i → ¬ Updating (callers j) (own j log)))

instance (log : List (Fin n × Entry Store Op Op.Resp)) (p : Fin n × Entry Store Op Op.Resp)
    (s' : Store) : Decidable (Undisturbed callers log p s') := by
  unfold Undisturbed
  split <;> infer_instance

/-! ## What is promised -/

def OneActive (rows : Versions) : Prop :=
  ∀ v ∈ rows.active, ∀ w ∈ rows.active, v.versionId = w.versionId

def Versions.status (rows : Versions) (versionId : String) : Option ConstitutionalStatus :=
  (rows.find versionId).map ConstitutionalVersion.status

/-- One version is active; a call that returns `True` has just made its version the active one; and
one that returned `False` has changed no status. -/
structure SoleConstitution (P : Calls n) : Prop where
  one : OneActive P.state.rows
  granted : ∀ i e log, P.log = (i, e) :: log → (i, .done (.done true)) ∈ P.threads →
    ∀ versionId, (callers i).requests versionId = true →
      P.state.rows.status versionId = some .active
  refused : ∀ i, (i, .done (.done false)) ∈ P.threads →
    ∀ versionId, (callers i).requests versionId = true →
      Pool.Along (fun _ e s' => e.1 = i → s'.rows.status = e.2.before.rows.status) P.state P.log

end Calls

/-! ## What one call performs -/

/-- What a call may await in view of what it has performed. -/
structure May (c : Caller) (own : OwnLog) (o : Op) : Prop where
  /-- Once it has begun its updates it has not returned. -/
  updating : updates own ≠ [] → Updating c own
  /-- An insertion is not part of an activation. -/
  insert : ∀ v, o = .insertVersion v → updates own = [] ∧ ∀ id, c.requests id = false
  /-- It deactivates first, and then activates the requested version. -/
  deactivate : ∀ v, o = .updateVersion v → v.isActive = false → updates own = []
  activate : ∀ v, o = .updateVersion v → v.isActive = true →
    c.requests v.versionId = true ∧ ∀ w ∈ updates own, w.isActive = false

def Returned (c : Caller) (a : Answer) (own : OwnLog) : Prop :=
  (a = .done true → ∀ id, c.requests id = true →
    ∃ v ∈ updates own, v.isActive = true ∧ v.versionId = id) ∧
  (a = .done false → ∀ id, c.requests id = true → updates own = [])

section Own

variable {c : Caller} {own : OwnLog}

/-- The commands of one call, whatever the others do. -/
abbrev OwnStep := Pool.OwnStep Step

/-- Safety of a part of a call in view of what the call has performed. -/
abbrev Alike {α : Type} (c : Caller) (p : Code α) (own : OwnLog) (Q : α → OwnLog → Prop)
    (E : DbError → OwnLog → Prop) : Prop :=
  Safe OwnStep (May c) p own Q E

/-- The call has neither begun its updates nor released the lock. -/
def Reading (own : OwnLog) : Prop := updates own = [] ∧ released own = false

/-- A command that neither writes a row nor releases the lock. -/
def Op.quiet : Op → Bool
  | .insertVersion _ | .updateVersion _ | .delLock => false
  | _ => true

theorem Reading.may {o : Op} (h : Reading own) (ho : o.quiet = true) : May c own o where
  updating hne := absurd h.1 hne
  insert _ heq := by rw [heq] at ho; cases ho
  deactivate _ heq := by rw [heq] at ho; cases ho
  activate _ heq := by rw [heq] at ho; cases ho

theorem updates_cons_of_ne {e : Entry Store Op Op.Resp} (h : ∀ v, e.op ≠ .updateVersion v)
    (own : OwnLog) : updates (e :: own) = updates own := by
  obtain ⟨s, o, r⟩ := e
  cases o with
  | updateVersion v => exact absurd rfl (h v)
  | _ => rfl

theorem Reading.step {o : Op} {r : o.Resp} {own' : OwnLog} (h : Reading own) (ho : o.quiet = true)
    (hstep : OwnStep own o r own') : Reading own' := by
  obtain ⟨s, s', -, rfl⟩ := hstep
  cases o <;> first | exact h | cases ho

theorem Reading.command {o : Op} {Q : o.Resp → OwnLog → Prop} {E : DbError → OwnLog → Prop}
    (h : Reading own) (ho : o.quiet = true)
    (hnext : ∀ r own', OwnStep own o r own' → Reading own' → Q r own') :
    Alike c (command o) own Q E :=
  ⟨h.may ho, fun r own' hstep => hnext r own' hstep (h.step ho hstep)⟩

theorem versionId_of_found {s s' : Store} {id : String} {v : ConstitutionalVersion}
    (h : Step s (.getCached id) (some v) s' ∨ Step s (.selectVersion id) (some v) s') :
    v.versionId = id := by
  rcases h with ⟨d, hd⟩ | ⟨d, hd⟩
  all_goals
    simp only [Store.perform] at hd
    split at hd
    · exact Versions.versionId_of_find (congrArg Prod.fst (Option.some_inj.mp hd))
    · cases hd
    · cases hd

theorem getVersion_own (h : Reading own) (redis : Client) (id : String) :
    Alike c (getVersion redis id) own
      (fun a own' => Reading own' ∧ ∀ v, a = some v → v.versionId = id)
      (fun _ own' => Reading own') := by
  have miss {own : OwnLog} (h : Reading own)
      (k : Option ConstitutionalVersion → Code (Option ConstitutionalVersion))
      (hnone : k none = pure none) (hsome : ∀ version, k (some version) = do
        let _ ← CacheManager.setVersion redis version
        pure (some version)) : Alike c (PersistenceManager.getVersion id >>= k) own
      (fun a own' => Reading own' ∧ ∀ v, a = some v → v.versionId = id)
      (fun _ own' => Reading own') := by
    rw [Alike, safe_bind]
    refine h.command rfl fun r own' hstep hown' => ?_
    rcases r with _ | version
    · rw [hnone]
      refine ⟨hown', ?_⟩
      rintro _ ⟨⟩
    · rw [hsome]
      obtain ⟨s, s', hfound, -⟩ := hstep
      have hid := versionId_of_found (.inr hfound)
      have hversion : ∀ v, some version = some v → v.versionId = id := by
        rintro _ ⟨⟩
        exact hid
      rcases redis with _ | _
      · exact ⟨hown', hversion⟩
      · rw [safe_bind]
        exact hown'.command rfl fun _ _ _ hown'' => ⟨hown'', hversion⟩
  rw [getVersion, Alike, safe_bind]
  rcases redis with _ | _
  · exact miss h _ rfl fun _ => rfl
  · refine h.command rfl fun r own' hstep hown' => ?_
    rcases r with _ | version
    · exact miss hown' _ rfl fun _ => rfl
    · obtain ⟨s, s', hfound, -⟩ := hstep
      refine ⟨hown', ?_⟩
      rintro _ ⟨⟩
      exact versionId_of_found (.inl hfound)

theorem cachedActive_own (h : Reading own) (redis : Client) :
    Alike c (cachedActive redis) own (fun _ own' => Reading own') (fun _ own' => Reading own') := by
  rw [cachedActive, Alike, safe_bind]
  rcases redis with _ | _
  · exact h
  · refine h.command rfl fun r own' _ hown' => ?_
    split
    · exact hown'.command rfl fun _ _ _ hown'' => hown''
    · exact hown'

theorem getActiveVersion_own (h : Reading own) (redis : Client) :
    Alike c (getActiveVersion redis) own (fun _ own' => Reading own')
      (fun _ own' => Reading own') := by
  rw [getActiveVersion, Alike, safe_bind]
  refine (cachedActive_own h redis).mono (fun a own₁ h₁ => ?_) fun _ _ h₁ => h₁
  cases a with
  | some v => exact h₁
  | none =>
    simp only [PersistenceManager.getActiveVersion, safe_bind]
    refine h₁.command rfl fun r own₂ _ h₂ => ?_
    rcases r with e | found
    · exact h₂
    · rcases found with _ | version
      · exact h₂
      · rcases redis with _ | _
        · exact h₂
        · refine ⟨h₂.may rfl, fun _ own₃ hstep => ?_⟩
          have h₃ := h₂.step rfl hstep
          exact ⟨h₃.may rfl, fun _ own₄ hstep₄ => h₃.step rfl hstep₄⟩

/-- The call has activated the requested version, and not released the lock. -/
def Activated (c : Caller) (own : OwnLog) : Prop :=
  released own = false ∧ ∃ v ∈ updates own, v.isActive = true ∧ c.requests v.versionId = true

theorem Activated.may {o : Op} (h : Activated c own) (hredis : c.redis = true)
    (ho : o.writesRows = false) : May c own o where
  updating hne := ⟨hne, by rw [hredis, if_pos rfl]; exact h.1⟩
  insert _ heq := by rw [heq] at ho; cases ho
  deactivate _ heq := by rw [heq] at ho; cases ho
  activate _ heq := by rw [heq] at ho; cases ho

theorem Activated.step {o : Op} {r : o.Resp} {own' : OwnLog} (h : Activated c own)
    (ho : o.quiet = true) (hstep : OwnStep own o r own') : Activated c own' := by
  obtain ⟨s, s', -, rfl⟩ := hstep
  cases o <;> first | exact h | cases ho

theorem activating_own {id : String} {version : ConstitutionalVersion} {activatedAt : Time}
    (hreleased : released own = false) (hinactive : ∀ v ∈ updates own, v.isActive = false)
    (hid : version.versionId = id) (hrequests : c.requests id = true) :
    Alike c (do
      let version := version.activate activatedAt
      let _ ← PersistenceManager.updateVersion version
      let _ ← CacheManager.setVersion c.redis version
      let _ ← CacheManager.setActiveVersion c.redis id
      pure true) own (fun a own' => a = true ∧ Activated c own') (fun _ _ => False) := by
  have hactive : (version.activate activatedAt).isActive = true := rfl
  have hmay : May c own (.updateVersion (version.activate activatedAt)) :=
    { updating := fun hne => ⟨hne, by split <;> assumption⟩
      insert := fun _ heq => by cases heq
      deactivate := fun v heq hv => by
        cases heq
        rw [hactive] at hv
        cases hv
      activate := fun v heq _ => by
        cases heq
        exact ⟨by rw [ConstitutionalVersion.activate_versionId, hid, hrequests], hinactive⟩ }
  refine ⟨hmay, fun b own₁ hstep => ?_⟩
  have h₁ : Activated c own₁ := by
    obtain ⟨s, s', -, rfl⟩ := hstep
    exact ⟨hreleased, _, List.mem_cons_self, hactive, by
      rw [ConstitutionalVersion.activate_versionId, hid, hrequests]⟩
  rcases hredis : c.redis with _ | _
  · exact ⟨rfl, h₁⟩
  · refine ⟨h₁.may hredis rfl, fun _ own₂ hstep₂ => ?_⟩
    have h₂ := h₁.step rfl hstep₂
    refine ⟨h₂.may hredis rfl, fun _ own₃ hstep₃ => ?_⟩
    exact ⟨rfl, h₂.step rfl hstep₃⟩

theorem transition_own {id : String} {version : ConstitutionalVersion}
    {current : Option ConstitutionalVersion} {deactivatedAt activatedAt : Time}
    (h : Reading own) (hid : version.versionId = id) (hrequests : c.requests id = true) :
    Alike c (transition c.redis id version current deactivatedAt activatedAt) own
      (fun a own' => a = true ∧ Activated c own') (fun _ _ => False) := by
  rcases current with _ | current
  · exact activating_own h.2 (by rw [h.1]; exact fun v hv => by cases hv) hid hrequests
  · have hinactive : (current.deactivate "superseded" deactivatedAt).isActive = false := rfl
    have hmay : May c own (.updateVersion (current.deactivate "superseded" deactivatedAt)) :=
      { updating := fun hne => absurd h.1 hne
        insert := fun _ heq => by cases heq
        deactivate := fun _ _ _ => h.1
        activate := fun v heq hv => by
          cases heq
          rw [hinactive] at hv
          cases hv }
    refine ⟨hmay, fun b own₁ hstep => ?_⟩
    obtain ⟨s, s', -, rfl⟩ := hstep
    refine activating_own h.2 (fun v hv => ?_) hid hrequests
    rw [updates, h.1, List.mem_singleton] at hv
    rw [hv, hinactive]

theorem activateLocked_own {id : String} {deactivatedAt activatedAt : Time} (h : Reading own)
    (hrequests : c.requests id = true) :
    Alike c (activateLocked c.redis id deactivatedAt activatedAt) own
      (fun a own' => if a then Activated c own' else Reading own') (fun _ own' => Reading own') := by
  rw [activateLocked, Alike, safe_bind]
  refine (getVersion_own h c.redis id).mono (fun a own₁ h₁ => ?_) fun _ _ h₁ => h₁
  obtain ⟨h₁, hid⟩ := h₁
  rcases a with _ | version
  · exact h₁
  · rw [safe_bind]
    refine (getActiveVersion_own h₁ c.redis).mono (fun current own₂ h₂ => ?_) fun _ _ h₂ => h₂
    refine (transition_own h₂ (hid version rfl) hrequests).mono (fun a own₃ h₃ => ?_)
      fun _ _ hno => hno.elim
    obtain ⟨rfl, h₃⟩ := h₃
    exact h₃

theorem release_own {Q : Bool → OwnLog → Prop} {E : DbError → OwnLog → Prop}
    (result : Except DbError Bool) (hmay : c.redis = true → May c own .delLock)
    (hQ : ∀ a, result = .ok a → ∀ own', updates own' = updates own → Q a own')
    (hE : ∀ e, result = .error e → ∀ own', E e own') :
    Alike c (do
      let _ ← LockManager.releaseLock c.redis
      match result with
      | .ok granted => pure granted
      | .error e => .raise e) own Q E := by
  have close {own' : OwnLog} (hown' : updates own' = updates own) :
      Alike c (match result with
        | .ok granted => pure granted
        | .error e => .raise e) own' Q E := by
    cases result with
    | ok a => exact hQ a rfl own' hown'
    | error e => exact hE e rfl own'
  rcases hredis : c.redis with _ | _
  · exact close rfl
  · refine ⟨hmay hredis, fun r own' hstep => ?_⟩
    obtain ⟨s, s', -, rfl⟩ := hstep
    exact close rfl

theorem activateVersion_own {id : String} {deactivatedAt activatedAt : Time}
    (hrequests : c.requests id = true) :
    Alike c (activateVersion c.redis id deactivatedAt activatedAt) []
      (fun a own' => if a then ∃ v ∈ updates own', v.isActive = true ∧ v.versionId = id
        else updates own' = []) (fun _ _ => True) := by
  have h : Reading [] := ⟨rfl, rfl⟩
  have locked {own : OwnLog} (h : Reading own) : Alike c (do
      let result ← ((activateLocked c.redis id deactivatedAt activatedAt).attempt : Code _)
      let _ ← LockManager.releaseLock c.redis
      match result with
      | .ok granted => pure granted
      | .error e => .raise e) own
      (fun a own' => if a then ∃ v ∈ updates own', v.isActive = true ∧ v.versionId = id
        else updates own' = []) (fun _ _ => True) := by
    have readingMay {own : OwnLog} (h : Reading own) : May c own .delLock :=
      { updating := fun hne => absurd h.1 hne
        insert := fun _ heq => by cases heq
        deactivate := fun _ heq => by cases heq
        activate := fun _ heq => by cases heq }
    rw [Alike, safe_bind, safe_attempt]
    refine (activateLocked_own h hrequests).mono (fun a own₁ h₁ => ?_) fun e own₁ h₁ => ?_
    · rcases a with _ | _
      · refine release_own (.ok false) (fun _ => readingMay h₁) ?_ nofun
        rintro _ ⟨⟩ own' hown'
        rw [hown']
        exact h₁.1
      · have h₁ : Activated c own₁ := h₁
        refine release_own (.ok true) (fun hredis => h₁.may hredis rfl) ?_ nofun
        rintro _ ⟨⟩ own' hown'
        obtain ⟨-, v, hv, hactive, hversion⟩ := h₁
        rw [hown']
        exact ⟨v, hv, hactive, Caller.requests_inj hversion hrequests⟩
    · exact release_own (.error e) (fun _ => readingMay h₁) nofun fun _ _ _ => trivial
  rw [activateVersion, Alike, safe_bind]
  obtain ⟨redis, call⟩ := c
  rcases redis with _ | _
  · exact locked h
  · refine h.command rfl fun granted own₁ _ h₁ => ?_
    rcases granted with _ | _
    · exact h₁.1
    · exact locked h₁

theorem call_own (c : Caller) :
    Alike c (c.call.code c.redis) [] (Returned c) (fun _ _ => True) := by
  have h : Reading [] := ⟨rfl, rfl⟩
  obtain ⟨redis, call⟩ := c
  have read (a : Option ConstitutionalVersion) (own : OwnLog) :
      Returned ⟨redis, call⟩ (.version a) own :=
    ⟨fun ha => (by cases ha), fun ha => by cases ha⟩
  cases call with
  | saveVersion version =>
    have hrequests (id : String) :
        Caller.requests ⟨redis, .saveVersion version⟩ id = false := rfl
    have hmay : May ⟨redis, .saveVersion version⟩ [] (.insertVersion version) :=
      { updating := fun hne => absurd rfl hne
        insert := fun _ _ => ⟨rfl, hrequests⟩
        deactivate := fun _ heq => by cases heq
        activate := fun _ heq => by cases heq }
    simp only [Call.code, ConstitutionalStorageService.saveVersion,
      PersistenceManager.saveVersion, Alike, safe_bind]
    refine ⟨hmay, fun r own' _ => ?_⟩
    rcases r with e | saved
    · trivial
    · refine ⟨fun _ id hid => ?_, fun _ id hid => ?_⟩
      all_goals
        rw [hrequests] at hid
        cases hid
  | getVersion id =>
    simp only [Call.code, Alike, safe_bind]
    exact (getVersion_own h redis id).mono (fun a own' _ => read a own') fun _ _ _ => trivial
  | getActiveVersion =>
    simp only [Call.code, Alike, safe_bind]
    exact (getActiveVersion_own h redis).mono (fun a own' _ => read a own') fun _ _ _ => trivial
  | activateVersion id deactivatedAt activatedAt =>
    have hrequests : Caller.requests ⟨redis, .activateVersion id deactivatedAt activatedAt⟩ id =
        true := decide_eq_true rfl
    simp only [Call.code, Alike, safe_bind]
    refine (activateVersion_own hrequests).mono (fun a own' ha => ?_) fun _ _ _ => trivial
    cases a with
    | true =>
      refine ⟨fun _ id' hid' => ?_, fun hno => by cases hno⟩
      obtain ⟨v, hv, hactive, hid⟩ := ha
      exact ⟨v, hv, hactive, hid.trans (of_decide_eq_true hid')⟩
    | false => exact ⟨fun hno => (by cases hno), fun _ _ _ => ha⟩

end Own

/-! ## What the rows show -/

section Rows

variable {s s' : Store}

theorem Step.insert_rows {v : ConstitutionalVersion} {r : Except DbError Bool}
    (hstep : Step s (.insertVersion v) r s') :
    s'.rows = s.rows ∨ (s.rows.find v.versionId = none ∧ s'.rows = s.rows.put v) := by
  obtain ⟨d, hd⟩ := hstep
  have hexecuted : (((s.expire d.expired).execute (.insertVersion v)).2.rows = s.rows ∨
      (s.rows.find v.versionId = none ∧
        ((s.expire d.expired).execute (.insertVersion v)).2.rows = s.rows.put v)) := by
    simp only [Store.execute, Store.expire_rows]
    split
    · exact Or.inl rfl
    · exact Or.inr ⟨‹_›, rfl⟩
  simp only [Store.perform] at hd
  split at hd
  · obtain rfl : _ = s' := congrArg Prod.snd (Option.some_inj.mp hd)
    exact hexecuted
  · obtain rfl : _ = s' := congrArg Prod.snd (Option.some_inj.mp hd)
    exact Or.inl rfl
  · obtain rfl : _ = s' := congrArg Prod.snd (Option.some_inj.mp hd)
    exact hexecuted

theorem Step.update_rows {v : ConstitutionalVersion} (hstep : Step s (.updateVersion v) true s') :
    ∃ row, s.rows.find v.versionId = some row ∧ s'.rows = s.rows.put (Store.patch row v) := by
  obtain ⟨d, hd⟩ := hstep
  simp only [Store.perform] at hd
  split at hd
  · have hr := congrArg Prod.fst (Option.some_inj.mp hd)
    obtain rfl : _ = s' := congrArg Prod.snd (Option.some_inj.mp hd)
    simp only [Store.execute, Store.expire_rows] at hr ⊢
    split at hr
    · rename_i row hrow
      exact ⟨row, hrow, rfl⟩
    · cases hr
  · cases congrArg Prod.fst (Option.some_inj.mp hd)
  · cases congrArg Prod.fst (Option.some_inj.mp hd)

end Rows

/-! ## The invariant -/

section Sound

variable {n : ℕ} {callers : Fin n → Caller}
variable {s s' : Store} {log : List (Fin n × Entry Store Op Op.Resp)}

/-- While an activation is between its updates and its return, it decides what is active. -/
structure Sound (callers : Fin n → Caller) (s : Store)
    (log : List (Fin n × Entry Store Op Op.Resp)) : Prop where
  one : OneActive s.rows
  /-- After the first update, nothing but the requested version is active. -/
  pending : ∀ i, Updating (callers i) (own i log) → (∀ v ∈ updates (own i log), v.isActive = false) →
    ∀ row ∈ s.rows.active, (callers i).requests row.versionId = true
  /-- After the second, the requested version is. -/
  activated : ∀ i, Updating (callers i) (own i log) → ∀ v ∈ updates (own i log), v.isActive = true →
    ∃ row ∈ s.rows.active, row.versionId = v.versionId
  /-- So it is after the last command of the call, too. -/
  last : ∀ i e before, log = (i, e) :: before → ∀ v ∈ updates (own i log), v.isActive = true →
    ∃ row ∈ s.rows.active, row.versionId = v.versionId

theorem own_cons_self (i : Fin n) (e : Entry Store Op Op.Resp)
    (log : List (Fin n × Entry Store Op Op.Resp)) : own i ((i, e) :: log) = e :: own i log := by
  simp [own, Pool.own]

theorem own_cons_of_ne {i j : Fin n} (h : i ≠ j) (e : Entry Store Op Op.Resp)
    (log : List (Fin n × Entry Store Op Op.Resp)) : own j ((i, e) :: log) = own j log := by
  simp [own, Pool.own, h]

theorem updating_of_cons {c : Caller} {e : Entry Store Op Op.Resp} {own : OwnLog}
    (he : ∀ v, e.op ≠ .updateVersion v) (h : Updating c (e :: own)) : Updating c own := by
  rw [Updating, updates_cons_of_ne he] at h
  refine ⟨h.1, ?_⟩
  split
  · have hreleased := h.2
    rw [if_pos ‹_›, released, List.any_cons, Bool.or_eq_false_iff] at hreleased
    exact hreleased.2
  · have hinactive := h.2
    rwa [if_neg ‹_›] at hinactive

theorem Sound.unchanged {i : Fin n} {o : Op} {r : o.Resp} (h : Sound callers s log)
    (hmay : May (callers i) (own i log) o) (ho : ∀ v, o ≠ .updateVersion v)
    (hactive : ∀ row, row ∈ s'.rows.active ↔ row ∈ s.rows.active) :
    Sound callers s' ((i, ⟨s, o, r⟩) :: log) := by
  have hupdates (j : Fin n) :
      updates (own j ((i, ⟨s, o, r⟩) :: log)) = updates (own j log) := by
    by_cases hij : i = j
    · subst hij
      rw [own_cons_self, updates_cons_of_ne ho]
    · rw [own_cons_of_ne hij]
  have hupdating (j : Fin n) (hj : Updating (callers j) (own j ((i, ⟨s, o, r⟩) :: log))) :
      Updating (callers j) (own j log) := by
    by_cases hij : i = j
    · subst hij
      rw [own_cons_self] at hj
      exact updating_of_cons ho hj
    · rwa [own_cons_of_ne hij] at hj
  refine ⟨fun v hv w hw => h.one v ((hactive v).mp hv) w ((hactive w).mp hw), ?_, ?_, ?_⟩
  · intro j hj hall row hrow
    rw [hupdates] at hall
    exact h.pending j (hupdating j hj) hall row ((hactive row).mp hrow)
  · intro j hj v hv hvactive
    rw [hupdates] at hv
    obtain ⟨row, hrow, hid⟩ := h.activated j (hupdating j hj) v hv hvactive
    exact ⟨row, (hactive row).mpr hrow, hid⟩
  · intro j e before heq v hv hvactive
    obtain ⟨hhead, -⟩ := List.cons_eq_cons.mp heq
    obtain rfl : i = j := congrArg Prod.fst hhead
    rw [hupdates] at hv
    obtain ⟨row, hrow, hid⟩ :=
      h.activated i (hmay.updating (List.ne_nil_of_mem hv)) v hv hvactive
    exact ⟨row, (hactive row).mpr hrow, hid⟩

theorem Sound.insert {i : Fin n} {v : ConstitutionalVersion} {r : Except DbError Bool}
    (h : Sound callers s log) (hstep : Step s (.insertVersion v) r s')
    (hmay : May (callers i) (own i log) (.insertVersion v))
    (hcond : Undisturbed callers log (i, ⟨s, .insertVersion v, r⟩) s') :
    Sound callers s' ((i, ⟨s, .insertVersion v, r⟩) :: log) := by
  rcases hstep.insert_rows with hrows | ⟨hnone, hrows⟩
  · exact h.unchanged hmay (fun _ heq => by cases heq) fun row => by rw [hrows]
  · have hnew (w : ConstitutionalVersion) (hw : w ∈ s.rows.active) :
        w.versionId ≠ v.versionId := by
      intro hid
      have hfind := (Versions.mem_active.mp hw).1
      rw [hid, hnone] at hfind
      cases hfind
    rcases hactive : v.isActive with _ | _
    · refine h.unchanged hmay (fun _ heq => by cases heq) fun row => ?_
      rw [hrows, Versions.mem_active_put, hactive]
      constructor
      · rintro (⟨-, hno⟩ | ⟨hrow, -⟩)
        · cases hno
        · exact hrow
      · exact fun hrow => Or.inr ⟨hrow, hnew row hrow⟩
    · obtain ⟨hempty, halone⟩ := hcond hactive
      have honly (w : ConstitutionalVersion) (hw : w ∈ s'.rows.active) : w = v := by
        rw [hrows, Versions.mem_active_put, hempty] at hw
        rcases hw with ⟨rfl, -⟩ | ⟨hno, -⟩
        · rfl
        · cases hno
      have hnobody (j : Fin n) :
          ¬ Updating (callers j) (own j ((i, ⟨s, .insertVersion v, r⟩) :: log)) := by
        intro hj
        by_cases hij : i = j
        · subst hij
          rw [own_cons_self] at hj
          exact (updating_of_cons (fun _ heq => by cases heq) hj).1 (hmay.insert v rfl).1
        · rw [own_cons_of_ne hij] at hj
          exact halone j (fun hji => hij hji.symm) hj
      refine ⟨fun w hw w' hw' => by rw [honly w hw, honly w' hw'],
        fun j hj => absurd hj (hnobody j), fun j hj => absurd hj (hnobody j), ?_⟩
      intro j e before heq w hw
      obtain ⟨hhead, -⟩ := List.cons_eq_cons.mp heq
      obtain rfl : i = j := congrArg Prod.fst hhead
      rw [own_cons_self, updates_cons_of_ne (fun _ heq => by cases heq), (hmay.insert v rfl).1] at hw
      cases hw

theorem Sound.update {i : Fin n} {v : ConstitutionalVersion} {answered : Bool}
    (h : Sound callers s log) (hstep : Step s (.updateVersion v) answered s')
    (hmay : May (callers i) (own i log) (.updateVersion v))
    (hcond : Undisturbed callers log (i, ⟨s, .updateVersion v, answered⟩) s') :
    Sound callers s' ((i, ⟨s, .updateVersion v, answered⟩) :: log) := by
  obtain ⟨rfl, halone, hfirst⟩ := hcond
  obtain ⟨row, hrow, hrows⟩ := hstep.update_rows
  have hid : (Store.patch row v).versionId = v.versionId :=
    (Versions.versionId_of_find hrow : row.versionId = v.versionId)
  have hothers (j : Fin n) (hij : i ≠ j) : ¬ Updating (callers j)
      (own j ((i, ⟨s, .updateVersion v, true⟩) :: log)) := by
    rw [own_cons_of_ne hij]
    exact halone j fun hji => hij hji.symm
  have hupdates : updates (own i ((i, ⟨s, .updateVersion v, true⟩) :: log)) =
      v :: updates (own i log) := by
    rw [own_cons_self]
    rfl
  rcases hactive : v.isActive with _ | _
  · have hnone := hmay.deactivate v rfl hactive
    have hrequested (w : ConstitutionalVersion) (hw : w ∈ s'.rows.active) :
        (callers i).requests w.versionId = true := by
      rw [hrows, Versions.mem_active_put, hid] at hw
      rcases hw with ⟨-, hno⟩ | ⟨hw, hne⟩
      · rw [show (Store.patch row v).isActive = v.isActive from rfl, hactive] at hno
        cases hno
      · exact (hfirst hnone w hw).resolve_left hne
    refine ⟨fun w hw w' hw' => Caller.requests_inj (hrequested w hw) (hrequested w' hw'),
      fun j hj _ w hw => ?_, fun j hj w hw hwactive => ?_, fun j e before heq w hw hwactive => ?_⟩
    · by_cases hij : i = j
      · subst hij
        exact hrequested w hw
      · exact absurd hj (hothers j hij)
    · by_cases hij : i = j
      · subst hij
        rw [hupdates, hnone, List.mem_singleton] at hw
        rw [hw, hactive] at hwactive
        cases hwactive
      · exact absurd hj (hothers j hij)
    · obtain ⟨hhead, -⟩ := List.cons_eq_cons.mp heq
      obtain rfl : i = j := congrArg Prod.fst hhead
      rw [hupdates, hnone, List.mem_singleton] at hw
      rw [hw, hactive] at hwactive
      cases hwactive
  · obtain ⟨hrequests, hinactive⟩ := hmay.activate v rfl hactive
    have hbefore (w : ConstitutionalVersion) (hw : w ∈ s.rows.active) :
        w.versionId = v.versionId := by
      by_cases hnone : updates (own i log) = []
      · rcases hfirst hnone w hw with hw | hw
        · exact hw
        · exact Caller.requests_inj hw hrequests
      · exact Caller.requests_inj (h.pending i (hmay.updating hnone) hinactive w hw) hrequests
    have honly (w : ConstitutionalVersion) (hw : w ∈ s'.rows.active) :
        w.versionId = v.versionId := by
      rw [hrows, Versions.mem_active_put, hid] at hw
      rcases hw with ⟨rfl, -⟩ | ⟨hw, -⟩
      · exact hid
      · exact hbefore w hw
    have hthere : Store.patch row v ∈ s'.rows.active := by
      rw [hrows, Versions.mem_active_put]
      exact Or.inl ⟨rfl, hactive⟩
    have hshow (w : ConstitutionalVersion)
        (hw : w ∈ updates (own i ((i, ⟨s, .updateVersion v, true⟩) :: log)))
        (hwactive : w.isActive = true) : ∃ row ∈ s'.rows.active, row.versionId = w.versionId := by
      rw [hupdates] at hw
      rcases List.mem_cons.mp hw with rfl | hw
      · exact ⟨_, hthere, hid⟩
      · rw [hinactive w hw] at hwactive
        cases hwactive
    refine ⟨fun w hw w' hw' => (honly w hw).trans (honly w' hw').symm,
      fun j hj hall w hw => ?_, fun j hj w hw hwactive => ?_, fun j e before heq w hw hwactive => ?_⟩
    · by_cases hij : i = j
      · subst hij
        rw [honly w hw]
        exact hrequests
      · exact absurd hj (hothers j hij)
    · by_cases hij : i = j
      · subst hij
        exact hshow w hw hwactive
      · exact absurd hj (hothers j hij)
    · obtain ⟨hhead, -⟩ := List.cons_eq_cons.mp heq
      obtain rfl : i = j := congrArg Prod.fst hhead
      exact hshow w hw hwactive

theorem Sound.step {i : Fin n} {o : Op} {r : o.Resp} (h : Sound callers s log)
    (hstep : Step s o r s') (hmay : May (callers i) (own i log) o)
    (hcond : Undisturbed callers log (i, ⟨s, o, r⟩) s') :
    Sound callers s' ((i, ⟨s, o, r⟩) :: log) := by
  cases o with
  | insertVersion v => exact h.insert hstep hmay hcond
  | updateVersion v => exact h.update hstep hmay hcond
  | _ => exact h.unchanged hmay (fun _ heq => by cases heq) fun row => by rw [hstep.rows_eq rfl]

/-! ## Whole runs -/

variable {init : Store} {P : Calls n}

theorem mem_updates {own : OwnLog} {e : Entry Store Op Op.Resp} {v : ConstitutionalVersion}
    (he : e ∈ own) (hop : e.op = .updateVersion v) : v ∈ updates own := by
  induction own with
  | nil => cases he
  | cons first rest ih =>
    rcases List.mem_cons.mp he with rfl | he
    · obtain ⟨s, o, r⟩ := e
      obtain rfl : o = .updateVersion v := hop
      exact List.mem_cons_self
    · have hrest := ih he
      obtain ⟨s, o, r⟩ := first
      cases o with
      | updateVersion w => exact List.mem_cons_of_mem _ hrest
      | _ => exact hrest

theorem CallsInterleaved.may (hreach : CallsInterleaved callers init P) :
    Pool.Along (fun log e _ => May (callers e.1) (own e.1 log) e.2.op) P.state P.log ∧
      ∀ i a, (i, .done a) ∈ P.threads → Returned (callers i) a (own i P.log) := by
  have hdistinct : (calls callers).Pairwise fun t t' => id t.1 ≠ id t'.1 := by
    rw [calls, List.pairwise_map]
    exact List.nodup_finRange n
  have hrule := hreach.own_safe id (fun i => May (callers i)) (fun i => Returned (callers i))
    (fun _ _ _ => True) hdistinct (by
      intro t ht
      obtain ⟨i, -, rfl⟩ := List.mem_map.mp ht
      exact call_own (callers i))
  exact ⟨hrule.1, fun i a ha => hrule.2 (i, .done a) ha⟩

theorem CallsInterleaved.sound (hreach : CallsInterleaved callers init P)
    (hone : OneActive init.rows) (hcond : Pool.Along (Undisturbed callers) P.state P.log) :
    Sound callers P.state P.log := by
  have hinit : Sound callers init [] :=
    ⟨hone, fun i hi => absurd rfl hi.1, fun i hi => absurd rfl hi.1, fun i e before heq => by cases heq⟩
  refine (hreach.invariant_along (Sound callers) (fun _ _ _ _ => True) hinit (fun _ _ => trivial)
    (fun _ hno => hno.elim) (fun h _ hstep hC => ⟨h.step hstep hC.2 hC.1, trivial⟩)
    (fun _ _ _ _ _ => trivial) (hcond.and hreach.may.1)).1

theorem CallsInterleaved.refused (hreach : CallsInterleaved callers init P) {i : Fin n}
    (hreturned : (i, .done (.done false)) ∈ P.threads) {versionId : String}
    (hrequests : (callers i).requests versionId = true) :
    Pool.Along (fun _ e s' => e.1 = i → s'.rows.status = e.2.before.rows.status) P.state P.log := by
  obtain ⟨hmay, hreturns⟩ := hreach.may
  have hnone := (hreturns i _ hreturned).2 rfl versionId hrequests
  refine (hreach.along_step.and hmay).imp_mem fun before e s' he hC hi => ?_
  obtain ⟨hstep, hmay⟩ := hC
  have hquiet : e.2.op.writesRows = false := by
    obtain ⟨j, e⟩ := e
    obtain rfl : j = i := hi
    have hown : e ∈ own j P.log := Pool.mem_own.mpr ⟨j, he, rfl⟩
    cases hop : e.op with
    | updateVersion v =>
      have hmem := mem_updates hown hop
      rw [hnone] at hmem
      cases hmem
    | insertVersion v =>
      have hno := (hmay.insert v hop).2 versionId
      rw [hrequests] at hno
      cases hno
    | _ => rfl
  rw [Step.rows_eq hstep hquiet]

/-- **One constitution is active** in every run whose commands are undisturbed. -/
theorem sole_of_undisturbed (hone : OneActive init.rows) (hreach : CallsInterleaved callers init P)
    (hcond : Pool.Along (Undisturbed callers) P.state P.log) : SoleConstitution callers P := by
  have hsound := hreach.sound hone hcond
  refine ⟨hsound.one, fun i e log hlog hreturned versionId hrequests => ?_,
    fun i hreturned versionId hrequests => hreach.refused hreturned hrequests⟩
  obtain ⟨v, hv, hactive, rfl⟩ := (hreach.may.2 i _ hreturned).1 rfl versionId hrequests
  obtain ⟨row, hrow, hid⟩ := hsound.last i e log hlog v hv hactive
  obtain ⟨hfind, hrowactive⟩ := Versions.mem_active.mp hrow
  rw [Versions.status, ← hid, hfind, Option.map_some, of_decide_eq_true hrowactive]

end Sound

/-! ## An activation whose first update fails

`v1` is active and `v2` is to be activated.  When the update of `v1` fails, both are active. -/

def storedVersion (versionId : String) (status : ConstitutionalStatus) : ConstitutionalVersion where
  versionId := versionId
  version := "1.0.0"
  constitutionalHash := "608508a9bd224290"
  content := Dict.empty
  status := status
  createdAt := 0

def firstActive : Store where
  rows := (Versions.empty.put (storedVersion "v1" .active)).put (storedVersion "v2" .approved)

/-- One process, which activates `v2`. -/
def activatesSecond : Fin 1 → Caller := fun _ => ⟨true, .activateVersion "v2" 20 21⟩

/-- The calls after at most twenty commands, each delivered as the policy says. -/
def activated (deliver : Op → Delivery) : Calls 1 :=
  Pool.ticks Store.perform (fun _ _ o => some (deliver o)) 0 20 ⟨calls activatesSecond, firstActive, []⟩

def refuseSupersede : Op → Delivery
  | .updateVersion v => if v.isActive then {} else { ending := .refused }
  | _ => {}

theorem activated_interleaved (deliver : Op → Delivery) :
    CallsInterleaved activatesSecond firstActive (activated deliver) :=
  Pool.Reach.ticks 20 .init

instance (rows : Versions) : Decidable (OneActive rows) :=
  inferInstanceAs (Decidable (∀ v ∈ rows.active, ∀ w ∈ rows.active, v.versionId = w.versionId))

theorem refuseSupersede_two_active :
    OneActive firstActive.rows ∧
      CallsInterleaved activatesSecond firstActive (activated refuseSupersede) ∧
        ¬ SoleConstitution activatesSecond (activated refuseSupersede) := by
  refine ⟨by decide +kernel, activated_interleaved _, fun h => absurd h.one ?_⟩
  decide +kernel

theorem activated_undisturbed :
    Pool.Along (Undisturbed activatesSecond) (activated fun _ => {}).state
      (activated fun _ => {}).log := by
  decide +kernel

theorem sole_of_undisturbed_activated : SoleConstitution activatesSecond (activated fun _ => {}) :=
  sole_of_undisturbed (by decide +kernel) (activated_interleaved _) activated_undisturbed

end EnhancedAgentBus.Constitutional
