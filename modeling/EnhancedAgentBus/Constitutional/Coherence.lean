import EnhancedAgentBus.Constitutional.Storage

/-!
# What the cache shows of a version

A session is a sequence of calls of one service, each at its end before the next begins, over a
cache that was empty, with every command answered and entries expiring at any time.

`activate_version` writes the rows of the superseded version and of the activated one, and the cache
entry of the second only.  So the entry of a superseded version is *left behind*: its row has been
updated since the entry was stored (`leftBehind`).  `InStep` is what every call keeps: an entry that
is not left behind shows its row, one that is shows an active version whose row is not active, and
the version under the active key has an active row.

`coherent_iff_fresh` says that the reads show the database exactly when no `get_version` finds an
entry that was left behind.  `get_active_version` never does: the entry under the active key belongs
to an active row.
-/

namespace EnhancedAgentBus.Constitutional

open Async Async.Prog ConstitutionalStorageService

/-! ## Sessions -/

/-- The stores, and the commands performed so far, latest first. -/
abbrev Traced := Store × List (Entry Store Op Op.Resp)

structure Served where
  call : Call
  before : Traced
  outcome : Outcome DbError Answer
  after : Traced

/-- The sessions that start from some stores, their calls latest first. -/
inductive Session (init : Store) : Traced → List Served → Prop
  | start : Session init (init, []) []
  | call {call before outcome after served} (hbefore : Session init before served)
      (hrun : Exec (traced StepServed) (call.code true) before outcome after)
      (hended : outcome.ended = true) :
      Session init after (⟨call, before, outcome, after⟩ :: served)

/-- Two views of a version agree in what an activation changes. -/
def SameState (v w : ConstitutionalVersion) : Prop :=
  v.status = w.status ∧ v.activatedAt = w.activatedAt ∧ v.deactivatedAt = w.deactivatedAt

/-- A version that the call returns is as its row at that moment. -/
def Coherent (x : Served) : Prop :=
  ∀ v, x.outcome = .returned (.version (some v)) →
    ∃ row, x.after.1.rows.find v.versionId = some row ∧ SameState v row

/-- The row has been updated since its cache entry was last stored. -/
def leftBehind (versionId : String) : List (Entry Store Op Op.Resp) → Bool
  | [] => false
  | ⟨_, .setCached v, _⟩ :: log => if v.versionId = versionId then false else leftBehind versionId log
  | ⟨_, .updateVersion v, _⟩ :: log =>
    if v.versionId = versionId then true else leftBehind versionId log
  | _ :: log => leftBehind versionId log

/-- The call found the entry in the cache, and needed no other command. -/
def Hit (before after : Traced) (versionId : String) : Prop :=
  ∃ s v, after.2 = ⟨s, .getCached versionId, some v⟩ :: before.2

/-- A `get_version` that finds a cache entry finds one that was not left behind. -/
def Fresh (x : Served) : Prop :=
  ∀ versionId, x.call = .getVersion versionId → Hit x.before x.after versionId →
    leftBehind versionId x.before.2 = false

/-! ## The invariant -/

/-- Entries show their rows, or were left behind by a version superseded since; those of some
versions may be out of order. -/
def EntriesInStep (X : String → Prop) (t : Traced) : Prop :=
  ∀ id e, ¬ X id → t.1.cached.find id = some e → ∃ row, t.1.rows.find id = some row ∧
    if leftBehind id t.2 then e.status = .active ∧ row.status ≠ .active else SameState e row

/-- The version under the active key has an active row, or is one of some versions. -/
def PointerInStep (X : String → Prop) (t : Traced) : Prop :=
  ∀ id, t.1.activeId = some id →
    X id ∨ ∃ row, t.1.rows.find id = some row ∧ row.status = .active

structure InStep (t : Traced) : Prop where
  entries : EntriesInStep (fun _ => False) t
  pointer : PointerInStep (fun _ => False) t

abbrev ServedStep := traced StepServed

/-- A command that leaves the rows and adds nothing to the cache. -/
def Op.reads : Op → Bool
  | .setCached _ | .setActiveId _ | .insertVersion _ | .updateVersion _ => false
  | _ => true

section Steps

variable {t t' : Traced} {X : String → Prop} {o : Op} {r : o.Resp}

theorem leftBehind_cons_of_reads {s : Store} {o : Op} {r : o.Resp} (ho : o.reads = true)
    (id : String) (log : List (Entry Store Op Op.Resp)) :
    leftBehind id (⟨s, o, r⟩ :: log) = leftBehind id log := by
  cases o <;> first | rfl | cases ho

theorem ServedStep.exists_eq (hstep : ServedStep t o r t') :
    ∃ x, t' = (((t.1.expire x).execute o).2, ⟨t.1, o, r⟩ :: t.2) := by
  obtain ⟨⟨x, hx⟩, hlog⟩ := hstep
  exact ⟨x, Prod.ext (congrArg Prod.snd (Option.some_inj.mp hx)).symm hlog⟩

theorem ServedStep.read (hstep : ServedStep t o r t') (ho : o.reads = true) :
    t'.1.rows = t.1.rows ∧ (InStep t → InStep t') := by
  obtain ⟨x, rfl⟩ := hstep.exists_eq
  have hsame : ((t.1.expire x).execute o).2.rows = t.1.rows ∧
      ((t.1.expire x).execute o).2.cached = (t.1.expire x).cached ∧
      ((t.1.expire x).execute o).2.activeId = (t.1.expire x).activeId := by
    cases o with
    | selectActive =>
      rw [Store.execute]
      split <;> exact ⟨rfl, rfl, rfl⟩
    | setCached | setActiveId | insertVersion | updateVersion => cases ho
    | _ => exact ⟨rfl, rfl, rfl⟩
  obtain ⟨hrows, hcached, hactive⟩ := hsame
  refine ⟨hrows, fun h => ⟨fun id e hid he => ?_, fun id hid => ?_⟩⟩
  · rw [hcached] at he
    obtain ⟨row, hrow, hshow⟩ := h.entries id e hid (Store.find_expire_cached he)
    refine ⟨row, hrows ▸ hrow, ?_⟩
    rw [leftBehind_cons_of_reads ho]
    exact hshow
  · rw [hactive] at hid
    rw [hrows]
    exact h.pointer id (Store.expire_activeId hid)

variable {v row : ConstitutionalVersion}

theorem ServedStep.setCached {b : Bool} (hstep : ServedStep t (.setCached v) b t')
    (hrow : t.1.rows.find v.versionId = some row) (hshow : SameState v row) :
    t'.1.rows = t.1.rows ∧
      (EntriesInStep (fun id => id = v.versionId) t → EntriesInStep (fun _ => False) t') ∧
      ∀ X, PointerInStep X t → PointerInStep X t' := by
  obtain ⟨x, rfl⟩ := hstep.exists_eq
  refine ⟨rfl, fun h id e _ he => ?_, fun X h id hid => h id (Store.expire_activeId hid)⟩
  simp only [Store.execute, Versions.find_put] at he
  simp only [leftBehind, eq_comm (a := v.versionId)]
  by_cases hid : id = v.versionId
  · rw [if_pos hid] at he ⊢
    cases he
    exact ⟨row, hid ▸ hrow, by simpa using hshow⟩
  · rw [if_neg hid] at he ⊢
    exact h id e hid (Store.find_expire_cached he)

theorem ServedStep.setActiveId {id : String} {b : Bool}
    (hstep : ServedStep t (.setActiveId id) b t') (hrow : t.1.rows.find id = some row)
    (hactive : row.status = .active) :
    t'.1.rows = t.1.rows ∧ (EntriesInStep (fun _ => False) t → InStep t') := by
  obtain ⟨x, rfl⟩ := hstep.exists_eq
  refine ⟨rfl, fun h => ⟨fun id' e hex he => h id' e hex (Store.find_expire_cached he),
    fun id' hid' => ?_⟩⟩
  obtain rfl : id = id' := Option.some_inj.mp hid'
  exact Or.inr ⟨row, hrow, hactive⟩

theorem ServedStep.insert {b : Except DbError Bool} (hstep : ServedStep t (.insertVersion v) b t') :
    InStep t → InStep t' := by
  obtain ⟨x, rfl⟩ := hstep.exists_eq
  have hkept (id : String) (row : ConstitutionalVersion) (hrow : t.1.rows.find id = some row) :
      (((t.1.expire x).execute (.insertVersion v)).2).rows.find id = some row := by
    simp only [Store.execute, Store.expire_rows]
    split
    · exact hrow
    · rename_i hnone
      rw [Versions.find_put, if_neg]
      · exact hrow
      · rintro rfl
        rw [hnone] at hrow
        cases hrow
  have hcached : (((t.1.expire x).execute (.insertVersion v)).2).cached = (t.1.expire x).cached ∧
      (((t.1.expire x).execute (.insertVersion v)).2).activeId = (t.1.expire x).activeId := by
    simp only [Store.execute]
    split <;> exact ⟨rfl, rfl⟩
  rintro ⟨hentries, hpointer⟩
  refine ⟨fun id e hex he => ?_, fun id hid => ?_⟩
  · rw [hcached.1] at he
    obtain ⟨row, hrow, hshow⟩ := hentries id e hex (Store.find_expire_cached he)
    exact ⟨row, hkept id row hrow, hshow⟩
  · rw [hcached.2] at hid
    obtain h | ⟨row, hrow, hactive⟩ := hpointer id (Store.expire_activeId hid)
    · exact h.elim
    · exact Or.inr ⟨row, hkept id row hrow, hactive⟩

theorem ServedStep.update {b : Bool} (hstep : ServedStep t (.updateVersion v) b t')
    (hrow : t.1.rows.find v.versionId = some row) :
    (∀ id, t'.1.rows.find id =
      if id = v.versionId then some (Store.patch row v) else t.1.rows.find id) ∧
    (∀ id e, t'.1.cached.find id = some e → t.1.cached.find id = some e) ∧
    (∀ id, t'.1.activeId = some id → t.1.activeId = some id) ∧
    ∀ id, leftBehind id t'.2 = if id = v.versionId then true else leftBehind id t.2 := by
  obtain ⟨x, rfl⟩ := hstep.exists_eq
  simp only [Store.execute, Store.expire_rows, hrow]
  have hid : (Store.patch row v).versionId = v.versionId :=
    (Versions.versionId_of_find hrow : row.versionId = v.versionId)
  refine ⟨fun id => ?_, fun id e he => Store.find_expire_cached he,
    fun id h => Store.expire_activeId h, fun id => ?_⟩
  · rw [Versions.find_put, hid]
  · simp only [leftBehind, eq_comm (a := v.versionId)]

theorem ServedStep.supersede {b : Bool} (hstep : ServedStep t (.updateVersion v) b t')
    (hrow : t.1.rows.find v.versionId = some row) (hactive : row.status = .active)
    (hstatus : v.status ≠ .active) (h : InStep t) :
    EntriesInStep (fun _ => False) t' ∧ PointerInStep (fun id => id = v.versionId) t' := by
  obtain ⟨hrows, hcached, hpointer, hleft⟩ := hstep.update hrow
  refine ⟨fun id e hex he => ?_, fun id hid => ?_⟩
  · obtain ⟨row', hrow', hshow⟩ := h.entries id e hex (hcached id e he)
    rw [hleft, hrows]
    by_cases hid : id = v.versionId
    · subst hid
      obtain rfl : row = row' := Option.some_inj.mp (hrow.symm.trans hrow')
      refine ⟨_, if_pos rfl, ?_⟩
      rw [if_pos rfl]
      split at hshow
      · exact absurd hactive hshow.2
      · exact ⟨hshow.1.trans hactive, hstatus⟩
    · refine ⟨row', by rw [if_neg hid, hrow'], ?_⟩
      rw [if_neg hid]
      exact hshow
  · by_cases hv : id = v.versionId
    · exact Or.inl hv
    · obtain h | ⟨row', hrow', hactive'⟩ := h.pointer id (hpointer id hid)
      · exact h.elim
      · exact Or.inr ⟨row', by rw [hrows, if_neg hv, hrow'], hactive'⟩

theorem ServedStep.activate {b : Bool} (hstep : ServedStep t (.updateVersion v) b t')
    (hrow : t.1.rows.find v.versionId = some row) (hstatus : v.status = .active)
    (hentries : EntriesInStep (fun _ => False) t) (hpointer : PointerInStep X t) :
    EntriesInStep (fun id => id = v.versionId) t' ∧ PointerInStep X t' ∧
      t'.1.rows.find v.versionId = some (Store.patch row v) := by
  obtain ⟨hrows, hcached, hactive, hleft⟩ := hstep.update hrow
  refine ⟨fun id e hid he => ?_, fun id hid => ?_, by rw [hrows, if_pos rfl]⟩
  · obtain ⟨row', hrow', hshow⟩ := hentries id e not_false (hcached id e he)
    refine ⟨row', by rw [hrows, if_neg hid, hrow'], ?_⟩
    rw [hleft, if_neg hid]
    exact hshow
  · obtain h | ⟨row', hrow', hactive'⟩ := hpointer id (hactive id hid)
    · exact Or.inl h
    · by_cases hv : id = v.versionId
      · exact Or.inr ⟨Store.patch row v, by rw [hrows, if_pos hv], hstatus⟩
      · exact Or.inr ⟨row', by rw [hrows, if_neg hv, hrow'], hactive'⟩

end Steps

/-! ## The calls -/

section Calls

variable {t : Traced}

/-- Safety against the steps of a session; every command may be awaited. -/
abbrev Sure {α : Type} (p : Code α) (t : Traced) (Q : α → Traced → Prop)
    (E : DbError → Traced → Prop) : Prop :=
  Safe ServedStep (fun _ _ => True) p t Q E

theorem sure_command {o : Op} {Q : o.Resp → Traced → Prop} {E : DbError → Traced → Prop}
    (h : ∀ r t', ServedStep t o r t' → Q r t') : Sure (command o) t Q E :=
  ⟨trivial, h⟩

/-- What a version read under an identifier has to do with its row. -/
def Shows (t t' : Traced) (id : String) (v : ConstitutionalVersion) : Prop :=
  ∃ row, t'.1.rows.find v.versionId = some row ∧
    (SameState v row ↔ ¬ (leftBehind id t.2 = true ∧ Hit t t' id))

theorem getVersion_sure (h : InStep t) (id : String) :
    Sure (getVersion true id) t
      (fun a t' => InStep t' ∧ t'.1.rows = t.1.rows ∧ (a = none → ¬ Hit t t' id) ∧
        ∀ v, a = some v → v.versionId = id ∧ Shows t t' id v)
      (fun _ _ => False) := by
  rw [getVersion, Sure, safe_bind]
  refine sure_command fun r t₁ hget => ?_
  obtain ⟨hrows, hkeep⟩ := hget.read rfl
  have h₁ := hkeep h
  obtain ⟨⟨x, hx⟩, hlog⟩ := hget
  have hr : (t.1.expire x).cached.find id = r := congrArg Prod.fst (Option.some_inj.mp hx)
  cases r with
  | some v =>
    have hid := Versions.versionId_of_find hr
    refine ⟨h₁, hrows, fun hnone => (Option.some_ne_none _ hnone).elim, ?_⟩
    rintro _ ⟨⟩
    refine ⟨hid, ?_⟩
    have hhit : Hit t t₁ id := ⟨t.1, v, hlog⟩
    obtain ⟨row, hrow, hshow⟩ := h.entries id v not_false (Store.find_expire_cached hr)
    refine ⟨row, by rw [hrows, hid, hrow], ?_⟩
    split at hshow
    · rename_i hleft
      refine ⟨fun hsame => absurd (hsame.1.symm.trans hshow.1) hshow.2, fun hnot => ?_⟩
      exact absurd ⟨hleft, hhit⟩ hnot
    · rename_i hleft
      exact ⟨fun _ hnot => hleft hnot.1, fun _ => hshow⟩
  | none =>
    rw [safe_bind]
    refine sure_command fun a t₂ hselect => ?_
    obtain ⟨hrows₂, hkeep₂⟩ := hselect.read rfl
    have h₂ := hkeep₂ h₁
    obtain ⟨⟨y, hy⟩, hlog₂⟩ := hselect
    have ha : t₁.1.rows.find id = a := congrArg Prod.fst (Option.some_inj.mp hy)
    rcases a with _ | row
    · refine ⟨h₂, hrows₂.trans hrows, fun _ => ?_, fun v hv => (Option.some_ne_none v hv.symm).elim⟩
      rintro ⟨s, v, hhit⟩
      rw [hlog₂] at hhit
      cases hhit
    · have hid := Versions.versionId_of_find ha
      have hrow : t₂.1.rows.find row.versionId = some row := by rw [hrows₂, hid, ha]
      rw [safe_bind]
      refine sure_command fun b t₃ hset => ?_
      obtain ⟨hrows₃, hentries₃, hpointer₃⟩ := hset.setCached hrow ⟨rfl, rfl, rfl⟩
      have hmiss : ¬ Hit t t₃ id := by
        rintro ⟨s, v, hhit⟩
        rw [hset.2, hlog₂] at hhit
        cases hhit
      refine ⟨⟨hentries₃ fun id e _ => h₂.entries id e not_false, hpointer₃ _ h₂.pointer⟩,
        hrows₃.trans (hrows₂.trans hrows), fun _ => hmiss, ?_⟩
      rintro _ ⟨⟩
      exact ⟨hid, row, by rw [hrows₃, hrow], fun _ hnot => hmiss hnot.2, fun _ => ⟨rfl, rfl, rfl⟩⟩

def ShowsActive (t : Traced) (v : ConstitutionalVersion) : Prop :=
  ∃ row, t.1.rows.find v.versionId = some row ∧ row.status = .active ∧ SameState v row

theorem cachedActive_sure (h : InStep t) :
    Sure (cachedActive true) t
      (fun a t' => InStep t' ∧ t'.1.rows = t.1.rows ∧ ∀ v, a = some v → ShowsActive t v)
      (fun _ _ => False) := by
  rw [cachedActive, Sure, safe_bind]
  refine sure_command fun r t₁ hget => ?_
  obtain ⟨hrows, hkeep⟩ := hget.read rfl
  have h₁ := hkeep h
  obtain ⟨⟨x, hx⟩, -⟩ := hget
  have hr : (t.1.expire x).activeId = r := congrArg Prod.fst (Option.some_inj.mp hx)
  rcases hfilter : r.filter (· ≠ "") with _ | id
  · exact ⟨h₁, hrows, fun v hv => (Option.some_ne_none v hv.symm).elim⟩
  · have hid : r = some id := (Option.filter_eq_some_iff.mp hfilter).1
    obtain hno | ⟨row, hrow, hactive⟩ := h.pointer id (Store.expire_activeId (hr.trans hid))
    · exact hno.elim
    · refine sure_command fun a t₂ hcached => ?_
      obtain ⟨hrows₂, hkeep₂⟩ := hcached.read rfl
      refine ⟨hkeep₂ h₁, hrows₂.trans hrows, ?_⟩
      rintro v rfl
      obtain ⟨⟨y, hy⟩, -⟩ := hcached
      have ha : (t₁.1.expire y).cached.find id = some v :=
        congrArg Prod.fst (Option.some_inj.mp hy)
      obtain ⟨row', hrow', hshow⟩ := h₁.entries id v not_false (Store.find_expire_cached ha)
      rw [hrows, hrow, Option.some_inj] at hrow'
      subst hrow'
      refine ⟨row, by rw [Versions.versionId_of_find ha, hrow], hactive, ?_⟩
      split at hshow
      · exact absurd hactive hshow.2
      · exact hshow

theorem getActiveVersion_sure (h : InStep t) :
    Sure (getActiveVersion true) t
      (fun a t' => InStep t' ∧ t'.1.rows = t.1.rows ∧ ∀ v, a = some v → ShowsActive t v)
      (fun _ t' => InStep t') := by
  rw [getActiveVersion, Sure, safe_bind]
  refine (cachedActive_sure h).mono (fun a t₁ h₁ => ?_) fun e t₁ hno => hno.elim
  obtain ⟨h₁, hrows₁, hshows⟩ := h₁
  cases a with
  | some v => exact ⟨h₁, hrows₁, hshows⟩
  | none =>
    simp only [PersistenceManager.getActiveVersion, safe_bind]
    refine sure_command fun r t₂ hselect => ?_
    obtain ⟨hrows₂, hkeep₂⟩ := hselect.read rfl
    have h₂ := hkeep₂ h₁
    obtain ⟨⟨y, hy⟩, -⟩ := hselect
    have hr : ((t₁.1.expire y).execute .selectActive).1 = r :=
      congrArg Prod.fst (Option.some_inj.mp hy)
    rcases r with e | found
    · exact h₂
    · rcases found with _ | row
      · exact ⟨h₂, hrows₂.trans hrows₁, fun v hv => (Option.some_ne_none v hv.symm).elim⟩
      · have hmem : row ∈ t.1.rows.active := by
          rw [← hrows₁]
          simp only [Store.execute, Store.expire_rows] at hr
          split at hr
          · cases hr
          · rename_i heq
            cases hr
            exact heq ▸ List.mem_singleton_self _
          · cases hr
        obtain ⟨hrow, hactive⟩ := Versions.mem_active.mp hmem
        rw [ConstitutionalVersion.isActive, decide_eq_true_eq] at hactive
        have hrow₂ : t₂.1.rows.find row.versionId = some row := by rw [hrows₂, hrows₁, hrow]
        refine ⟨trivial, fun _ t₃ hset => ?_⟩
        obtain ⟨hrows₃, hentries₃, -⟩ := ServedStep.setCached hset hrow₂ ⟨rfl, rfl, rfl⟩
        refine ⟨trivial, fun _ t₄ hpoint => ?_⟩
        obtain ⟨hrows₄, hkeep₄⟩ :=
          ServedStep.setActiveId hpoint (hrows₃ ▸ hrow₂) hactive
        refine ⟨hkeep₄ (hentries₃ fun id e _ => h₂.entries id e not_false),
          by rw [hrows₄, hrows₃, hrows₂, hrows₁], ?_⟩
        rintro _ ⟨⟩
        exact ⟨row, hrow, hactive, rfl, rfl, rfl⟩

theorem transition_sure {id : String} {version row : ConstitutionalVersion}
    {current : Option ConstitutionalVersion} {deactivatedAt activatedAt : Time} (h : InStep t)
    (hid : version.versionId = id) (hrow : t.1.rows.find version.versionId = some row)
    (hcurrent : ∀ v, current = some v → ShowsActive t v) :
    Sure (transition true id version current deactivatedAt activatedAt) t (fun _ t' => InStep t')
      (fun _ _ => False) := by
  subst hid
  have rest {t : Traced} {X : String → Prop} {row : ConstitutionalVersion}
      (hrow : t.1.rows.find version.versionId = some row)
      (hentries : EntriesInStep (fun _ => False) t) (hpointer : PointerInStep X t) :
      Sure (do
        let version := version.activate activatedAt
        let _ ← PersistenceManager.updateVersion version
        let _ ← CacheManager.setVersion true version
        let _ ← CacheManager.setActiveVersion true version.versionId
        pure true) t (fun _ t' => InStep t') (fun _ _ => False) := by
    refine ⟨trivial, fun _ t₁ hupdate => ?_⟩
    obtain ⟨hentries₁, hpointer₁, hrow₁⟩ :=
      ServedStep.activate hupdate hrow rfl hentries hpointer
    refine ⟨trivial, fun _ t₂ hset => ?_⟩
    obtain ⟨hrows₂, hentries₂, -⟩ := ServedStep.setCached hset hrow₁ ⟨rfl, rfl, rfl⟩
    refine ⟨trivial, fun _ t₃ hpoint => ?_⟩
    exact (ServedStep.setActiveId hpoint (hrows₂ ▸ hrow₁) rfl).2 (hentries₂ hentries₁)
  rcases current with _ | current
  · exact rest hrow h.entries h.pointer
  · obtain ⟨active, hfound, hactive, -⟩ := hcurrent current rfl
    refine ⟨trivial, fun _ t₁ hupdate => ?_⟩
    obtain ⟨hentries₁, hpointer₁⟩ := ServedStep.supersede hupdate hfound hactive
      (current.deactivate_status_ne _ _) h
    obtain ⟨hrows₁, -⟩ := ServedStep.update hupdate hfound
    have hrow₁ : ∃ row', t₁.1.rows.find version.versionId = some row' := by
      rw [hrows₁]
      split
      · exact ⟨_, rfl⟩
      · exact ⟨row, hrow⟩
    obtain ⟨row', hrow₁⟩ := hrow₁
    exact rest hrow₁ hentries₁ hpointer₁

theorem activateLocked_sure (h : InStep t) (id : String) (deactivatedAt activatedAt : Time) :
    Sure (activateLocked true id deactivatedAt activatedAt) t (fun _ t' => InStep t')
      (fun _ t' => InStep t') := by
  rw [activateLocked, Sure, safe_bind]
  refine (getVersion_sure h id).mono (fun a t₁ h₁ => ?_) fun e t₁ hno => hno.elim
  obtain ⟨h₁, hrows₁, -, hshows⟩ := h₁
  rcases a with _ | version
  · exact h₁
  · obtain ⟨hid, row, hrow, -⟩ := hshows version rfl
    rw [safe_bind]
    refine (getActiveVersion_sure h₁).mono (fun current t₂ h₂ => ?_) fun e t₂ h₂ => h₂
    obtain ⟨h₂, hrows₂, hcurrent⟩ := h₂
    refine (transition_sure h₂ hid (hrows₂ ▸ hrow) fun v hv => ?_).mono (fun _ _ h₃ => h₃)
      fun e t₃ hno => hno.elim
    rw [ShowsActive, hrows₂]
    exact hcurrent v hv

theorem activateVersion_sure (h : InStep t) (id : String) (deactivatedAt activatedAt : Time) :
    Sure (activateVersion true id deactivatedAt activatedAt) t (fun _ t' => InStep t')
      (fun _ t' => InStep t') := by
  rw [activateVersion, Sure, safe_bind]
  refine sure_command fun granted t₁ hlock => ?_
  have h₁ := (hlock.read rfl).2 h
  rcases granted with _ | _
  · exact h₁
  · simp only [if_true, safe_bind, safe_attempt]
    -- the lock is released whatever came of the activation
    refine (activateLocked_sure h₁ id deactivatedAt activatedAt).mono (fun a t₂ h₂ => ?_)
      fun e t₂ h₂ => ?_
    · exact ⟨trivial, fun _ t' hunlock => (ServedStep.read hunlock rfl).2 h₂⟩
    · exact ⟨trivial, fun _ t' hunlock => (ServedStep.read hunlock rfl).2 h₂⟩

theorem call_sure (h : InStep t) (call : Call) :
    Sure (call.code true) t
      (fun a t' => InStep t' ∧
        (∀ id, call = .getVersion id → Hit t t' id → ∃ v, a = .version (some v)) ∧
        ∀ v, a = .version (some v) → ∃ row, t'.1.rows.find v.versionId = some row ∧
          (SameState v row ↔
            ¬ ∃ id, call = .getVersion id ∧ leftBehind id t.2 = true ∧ Hit t t' id))
      (fun _ t' => InStep t' ∧ ∀ id, call ≠ .getVersion id) := by
  cases call with
  | saveVersion version =>
    simp only [Call.code, ConstitutionalStorageService.saveVersion,
      PersistenceManager.saveVersion, safe_bind]
    refine sure_command fun r t' hinsert => ?_
    have h' := hinsert.insert h
    cases r with
    | ok saved => exact ⟨h', (fun _ hcall => by cases hcall), fun _ ha => by cases ha⟩
    | error e => exact ⟨h', fun _ hcall => by cases hcall⟩
  | getVersion versionId =>
    simp only [Call.code, safe_bind]
    refine (getVersion_sure h versionId).mono (fun a t' ha => ?_) fun e t' hno => hno.elim
    obtain ⟨h', -, hmiss, hshows⟩ := ha
    refine ⟨h', ?_, ?_⟩
    · rintro id hid hhit
      cases hid
      rcases a with _ | v
      · exact absurd hhit (hmiss rfl)
      · exact ⟨v, rfl⟩
    · rintro v hv
      cases hv
      obtain ⟨row, hrow, hiff⟩ := (hshows v rfl).2
      exact ⟨row, hrow, by simpa using hiff⟩
  | getActiveVersion =>
    simp only [Call.code, safe_bind]
    refine (getActiveVersion_sure h).mono (fun a t' ha => ?_)
      fun e t' h' => ⟨h', fun _ hcall => by cases hcall⟩
    obtain ⟨h', hrows, hshows⟩ := ha
    refine ⟨h', (fun _ hcall => by cases hcall), ?_⟩
    rintro v hv
    cases hv
    obtain ⟨row, hrow, -, hsame⟩ := hshows v rfl
    refine ⟨row, by rw [hrows, hrow], fun _ => ?_, fun _ => hsame⟩
    rintro ⟨id, hcall, -⟩
    cases hcall
  | activateVersion versionId deactivatedAt activatedAt =>
    simp only [Call.code, safe_bind]
    exact (activateVersion_sure h versionId deactivatedAt activatedAt).mono
      (fun a t' h' => ⟨h', (fun _ hcall => by cases hcall), fun _ ha => by cases ha⟩)
      fun e t' h' => ⟨h', fun _ hcall => by cases hcall⟩

end Calls

/-! ## Whole sessions -/

def Cold (init : Store) : Prop := init.cached = Versions.empty ∧ init.activeId = none

theorem Cold.inStep {init : Store} (h : Cold init) : InStep (init, []) := by
  refine ⟨fun id e _ he => ?_, fun id hid => ?_⟩
  · rw [h.1, Versions.find_empty] at he
    cases he
  · rw [h.2] at hid
    cases hid

theorem Session.inStep {init : Store} {now : Traced} {served : List Served} (hcold : Cold init)
    (h : Session init now served) : InStep now ∧ ∀ x ∈ served, InStep x.before ∧
      Exec ServedStep (x.call.code true) x.before x.outcome x.after ∧ x.outcome.ended = true := by
  induction h with
  | start => exact ⟨hcold.inStep, fun x hx => by cases hx⟩
  | @call call before outcome after served hbefore hrun hended ih =>
    obtain ⟨hstep, hall⟩ := ih
    have hsure := call_sure hstep call
    refine ⟨?_, fun x hx => ?_⟩
    · cases outcome with
      | stopped => cases hended
      | returned a => exact (hrun.returned hsure).1
      | raised e => exact (hrun.raised hsure).1
    · rcases List.mem_cons.mp hx with rfl | hx
      · exact ⟨hstep, hrun, hended⟩
      · exact hall x hx

theorem coherent_iff {x : Served} (hstep : InStep x.before)
    (hrun : Exec ServedStep (x.call.code true) x.before x.outcome x.after)
    (hended : x.outcome.ended = true) : Coherent x ↔ Fresh x := by
  obtain ⟨call, before, outcome, after⟩ := x
  have hsure := call_sure hstep call
  cases outcome with
  | stopped => cases hended
  | raised e =>
    have hraised := (hrun.raised hsure).2
    refine ⟨fun _ id hcall => absurd hcall (hraised id), fun _ v hv => by cases hv⟩
  | returned a =>
    obtain ⟨-, hhit, hshow⟩ := hrun.returned hsure
    constructor
    · intro hcoherent id hcall hit
      obtain ⟨v, rfl⟩ := hhit id hcall hit
      obtain ⟨row, hrow, hsame⟩ := hcoherent v rfl
      obtain ⟨row', hrow', hiff⟩ := hshow v rfl
      obtain rfl : row = row' := Option.some_inj.mp (hrow.symm.trans hrow')
      by_contra hleft
      exact hiff.mp hsame ⟨id, hcall, Bool.not_eq_false _ ▸ hleft, hit⟩
    · rintro hfresh v hv
      cases hv
      obtain ⟨row, hrow, hiff⟩ := hshow v rfl
      refine ⟨row, hrow, hiff.mpr ?_⟩
      rintro ⟨id, hcall, hleft, hit⟩
      rw [hfresh id hcall hit] at hleft
      cases hleft

/-- A session over a cold cache shows the database exactly when no `get_version` finds an entry
whose row has been updated since it was stored. -/
theorem coherent_iff_fresh {init : Store} (hcold : Cold init) {now : Traced}
    {served : List Served} (h : Session init now served) :
    (∀ x ∈ served, Coherent x) ↔ ∀ x ∈ served, Fresh x := by
  have hall := (h.inStep hcold).2
  refine forall_congr' fun x => forall_congr' fun hx => ?_
  obtain ⟨hstep, hrun, hended⟩ := hall x hx
  exact coherent_iff hstep hrun hended

/-! ## A superseded version that is still shown

Two versions are saved and activated one after the other, and the first is read again. -/

def draft (versionId : String) : ConstitutionalVersion where
  versionId := versionId
  version := "1.0.0"
  constitutionalHash := "608508a9bd224290"
  content := Dict.empty
  createdAt := 0

def quiet : Store → Op → Option Expired := fun _ _ => some {}

def serveCall (t : Traced) (call : Call) : Outcome DbError Answer × Traced :=
  replay Store.serve quiet (call.code true) t

/-- A session served call by call, while the calls come to their ends. -/
def serveAll : Traced → List Call → Traced × List Served
  | t, [] => (t, [])
  | t, call :: rest =>
    let (outcome, t') := serveCall t call
    let (last, served) := serveAll t' rest
    (last, served ++ [⟨call, t, outcome, t'⟩])

theorem serveAll_session {init : Store} (calls : List Call) {t : Traced} {served : List Served}
    (h : Session init t served)
    (hended : ∀ x ∈ (serveAll t calls).2, x.outcome.ended = true) :
    Session init (serveAll t calls).1 ((serveAll t calls).2 ++ served) := by
  induction calls generalizing t served with
  | nil => exact h
  | cons call rest ih =>
    have hrun := replay_sound Store.serve quiet (call.code true) t
    have hnext : Session init (serveCall t call).2
        (⟨call, t, (serveCall t call).1, (serveCall t call).2⟩ :: served) :=
      .call h hrun (hended _ (List.mem_append_right _ (List.mem_singleton_self _)))
    have := ih hnext fun x hx => hended x (List.mem_append_left _ hx)
    rwa [List.append_cons] at this

/-- `save v1; save v2; activate v1; activate v2; get v1` -/
def supersededRead : List Call :=
  [.saveVersion (draft "v1"), .saveVersion (draft "v2"), .activateVersion "v1" 10 11,
    .activateVersion "v2" 20 21, .getVersion "v1"]

/-- The status of the version that a call returned. -/
def shownStatus (x : Served) : Option ConstitutionalStatus :=
  match x.outcome with
  | .returned (.version (some v)) => if v.versionId = "v1" then some v.status else none
  | _ => none

/-- The read shows `v1` as active, and its row is superseded. -/
theorem supersededRead_not_coherent :
    ∃ now served, Session {} now served ∧ ¬ ∀ x ∈ served, Coherent x := by
  have hsession : Session {} _ _ := serveAll_session supersededRead .start (by decide +kernel)
  refine ⟨_, _, hsession, fun hall => ?_⟩
  have hread : ((serveAll ({}, []) supersededRead).2.head?.map fun x =>
      (shownStatus x, (x.after.1.rows.find "v1").map ConstitutionalVersion.status)) =
        some (some .active, some .superseded) := by decide +kernel
  obtain ⟨x, hx, hshown⟩ := Option.map_eq_some_iff.mp hread
  obtain ⟨hstatus, hrow⟩ := Prod.mk.inj hshown
  have hcoherent := hall x (List.mem_append_left _ (List.mem_of_head? hx))
  rw [shownStatus] at hstatus
  split at hstatus
  · rename_i v hv
    obtain ⟨row, hfind, hsame, -⟩ := hcoherent v hv
    obtain ⟨hid, hactive⟩ := Option.ite_none_right_eq_some.mp hstatus
    rw [hid] at hfind
    rw [hfind, Option.map_some, Option.some_inj] at hrow
    rw [Option.some_inj.mp hactive, hrow] at hsame
    cases hsame
  · cases hstatus

theorem coherent_iff_fresh_superseded :
    (∀ x ∈ (serveAll ({}, []) supersededRead).2, Coherent x) ↔
      ∀ x ∈ (serveAll ({}, []) supersededRead).2, Fresh x := by
  have hsession : Session {} _ _ := serveAll_session supersededRead .start (by decide +kernel)
  rw [List.append_nil] at hsession
  exact coherent_iff_fresh ⟨rfl, rfl⟩ hsession

end EnhancedAgentBus.Constitutional
