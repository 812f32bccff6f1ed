import EnhancedAgentBus.Persistence.Conduct

/-!
# The tables along a run

One call after another, nobody else changes the world while a call does things in order, so the
book of a call and the tables stay in step.  `Kept` is what every later invariant builds on:
identifiers are unique and drawn, records are filed under their instance, and what the book has
in hand is in the tables.

`Serial.conduct` is the run rule: what every operation that is legal by the book keeps, and what
survives forgetting the book, holds after any run.
-/

namespace EnhancedAgentBus.Persistence

open Async Async.Prog DurableWorkflowExecutor

/-! ## What an operation leaves in the book -/

section Note

variable {bk : Book} {o : Op} {r : o.Resp}

theorem Book.note_fresh {u : UUID} (ho : ∀ held, o ≠ .uuid4 held)
    (h : (bk.note o r).fresh = some u) : bk.fresh = some u := by
  unfold Book.note at h
  split at h
  case h_1 => exact absurd rfl (ho _)
  all_goals (try split at h) <;> first | exact h | cases h

theorem Book.note_time {t : ℕ} (ho : o ≠ .now) (h : (bk.note o r).time = some t) :
    bk.time = some t := by
  unfold Book.note at h
  split at h
  case h_2 => exact absurd rfl ho
  all_goals (try split at h) <;> first | exact h | cases h

theorem Book.note_step {step : WorkflowStep} (ho : ∀ step, o ≠ .saveStep step)
    (h : (bk.note o r).step = some step) : bk.step = some step := by
  unfold Book.note at h
  split at h
  case h_5 => exact absurd rfl (ho _)
  all_goals (try split at h) <;> first | exact h | cases h

theorem Book.note_missed {key : String} (ho : ∀ i key, o ≠ .getStepByIdempotencyKey i key)
    (h : (bk.note o r).missed = some key) : bk.missed = some key ∧ (bk.note o r).run = bk.run := by
  unfold Book.note at h ⊢
  split at h
  case h_4 => exact absurd rfl (ho _ _)
  all_goals (try split at h) <;> first | exact ⟨h, rfl⟩ | cases h

theorem Book.note_result {result : Json} (ho : ∀ i key activity input,
    o ≠ .callActivity i key activity input) (h : (bk.note o r).result = some result) :
    bk.result = some result ∧ (bk.note o r).step = bk.step := by
  unfold Book.note at h ⊢
  split at h
  case h_6 => exact absurd rfl (ho _ _ _ _)
  all_goals (try split at h) <;> first | exact ⟨h, rfl⟩ | cases h

theorem Book.note_completed {row : WorkflowStep} (ho : ∀ step, o ≠ .saveStep step)
    (ho' : ∀ i key, o ≠ .getStepByIdempotencyKey i key)
    (h : (bk.note o r).completed = some row) : bk.completed = some row := by
  unfold Book.note at h
  split at h
  case h_4 => exact absurd rfl (ho' _ _)
  case h_5 => exact absurd rfl (ho _)
  all_goals (try split at h) <;> first | exact h | cases h

theorem Book.note_remaining {l : List WorkflowCompensation}
    (ho : ∀ comp, o ≠ .saveCompensation comp) (ho' : ∀ i, o ≠ .getCompensationsReversed i)
    (h : (bk.note o r).remaining = some l) : bk.remaining = some l := by
  unfold Book.note at h
  split at h
  case h_8 => exact absurd rfl (ho _)
  case h_9 => exact absurd rfl (ho' _)
  all_goals (try split at h) <;> first | exact h | cases h

theorem Book.note_comp {comp : WorkflowCompensation} (ho : ∀ comp, o ≠ .saveCompensation comp)
    (h : (bk.note o r).comp = some comp) : bk.comp = some comp := by
  unfold Book.note at h
  split at h
  case h_8 => exact absurd rfl (ho _)
  all_goals (try split at h) <;> first | exact h | cases h

end Note

/-! ## The tables -/

/-- **The tables, in step with the book.** -/
structure Kept (w : World) (bk : Book) : Prop where
  rows : (w.steps.map (·.id)).Nodup
  rowsDrawn : ∀ row ∈ w.steps, row.id ∈ w.drawn
  comps : ∀ i, ((w.compensations i).map (·.id)).Nodup
  compsDrawn : ∀ i, ∀ comp ∈ w.compensations i, comp.id ∈ w.drawn ∧ comp.stepId ∈ w.drawn
  filed : ∀ i, ∀ comp ∈ w.compensations i, comp.workflowInstanceId = i
  clock : ∀ i, ∀ comp ∈ w.compensations i, comp.createdAt ≤ w.clock
  fresh : ∀ u, bk.fresh = some u → u ∈ w.drawn ∧ (∀ row ∈ w.steps, row.id ≠ u) ∧
    ∀ i, ∀ comp ∈ w.compensations i, comp.id ≠ u ∧ comp.stepId ≠ u
  time : ∀ t, bk.time = some t → t ≤ w.clock ∧
    ∀ i, ∀ comp ∈ w.compensations i, comp.createdAt < t
  hand : ∀ step, bk.step = some step → step ∈ w.steps
  remaining : ∀ l, bk.remaining = some l → (l.map (·.id)).Nodup ∧
    ∀ comp ∈ l, comp.status = .pending ∧ comp ∈ w.compensations comp.workflowInstanceId
  comp : ∀ cur, bk.comp = some cur →
    cur.status = .compensating ∧ cur ∈ w.compensations cur.workflowInstanceId

theorem Kept.empty : Kept {} {} := by
  constructor <;> simp

theorem Kept.restart {w : World} {bk : Book} (h : Kept w bk) : Kept w {} :=
  { h with fresh := by simp, time := by simp, hand := by simp, remaining := by simp,
           comp := by simp }

theorem World.compensations_saveCompensation (w : World) (comp : WorkflowCompensation)
    (i : UUID) :
    (w.saveCompensation comp).compensations i =
      if i = comp.workflowInstanceId then
        upsert WorkflowCompensation.id comp (w.compensations i)
      else w.compensations i := by
  by_cases hi : i = comp.workflowInstanceId
  · subst hi
    simp [World.saveCompensation]
  · simp [World.saveCompensation, hi]

theorem World.mem_reverseCompensations {b : Backend} {w : World} {i j : UUID}
    {comp : WorkflowCompensation} :
    comp ∈ (w.reverseCompensations b i).compensations j ↔ comp ∈ w.compensations j := by
  cases b with
  | postgres => rfl
  | inMemory =>
    by_cases hj : j = i
    · subst hj
      simp [World.reverseCompensations]
    · simp [World.reverseCompensations, hj]

theorem World.getCompensations_subperm (b : Backend) (w : World) (i : UUID) :
    (w.getCompensations b i).Subperm (w.compensations i) := by
  cases b with
  | inMemory => exact List.Subperm.refl _
  | postgres => exact (List.take_sublist _ _).subperm.trans (List.perm_insertionSort _ _).subperm

section Kept

variable {b : Backend} {w w' : World} {bk : Book} {o : Op} {r : o.Resp}

variable {comp : WorkflowCompensation}

theorem mem_saveCompensation (h : Kept w bk) {x : WorkflowCompensation} {i : UUID}
    (hx : x ∈ (w.saveCompensation comp).compensations i) :
    (i = comp.workflowInstanceId ∧ x = comp) ∨
      (x ∈ w.compensations i ∧ (i = comp.workflowInstanceId → x.id ≠ comp.id)) := by
  rw [World.compensations_saveCompensation] at hx
  split at hx
  · rename_i hi
    rcases (mem_upsert_iff (h.comps i)).mp hx with rfl | ⟨hx, hid⟩
    · exact .inl ⟨hi, rfl⟩
    · exact .inr ⟨hx, fun _ => hid⟩
  · rename_i hi
    exact .inr ⟨hx, fun heq => absurd heq hi⟩

theorem mem_saveCompensation_of (h : Kept w bk) {x : WorkflowCompensation} {i : UUID}
    (hx : x ∈ w.compensations i) (hid : i = comp.workflowInstanceId → x.id ≠ comp.id) :
    x ∈ (w.saveCompensation comp).compensations i := by
  rw [World.compensations_saveCompensation]
  split
  · rename_i hi
    exact (mem_upsert_iff (h.comps i)).mpr (.inr ⟨hx, hid hi⟩)
  · exact hx

theorem mem_saveCompensation_self (h : Kept w bk) (comp : WorkflowCompensation) :
    comp ∈ (w.saveCompensation comp).compensations comp.workflowInstanceId := by
  rw [World.compensations_saveCompensation, if_pos rfl]
  exact (mem_upsert_iff (h.comps _)).mpr (.inl rfl)

theorem Kept.comp_inj (h : Kept w bk) {i : UUID} {x y : WorkflowCompensation}
    (hx : x ∈ w.compensations i) (hy : y ∈ w.compensations i) (hid : x.id = y.id) : x = y :=
  List.inj_on_of_nodup_map (h.comps i) hx hy hid

theorem Legal.saveCompensation_cases (h : Legal bk (.saveCompensation comp)) :
    (Registers bk comp ∧ bk.note (.saveCompensation comp) () =
      { bk with fresh := none, time := none, bound := none }) ∨
    (comp.status = .compensating ∧ bk.phase = some .compensating ∧
      bk.run = some comp.workflowInstanceId ∧
      (∃ rest, bk.remaining = some ({ comp with status := .pending } :: rest)) ∧
      bk.note (.saveCompensation comp) () =
        { bk with remaining := bk.remaining.map List.tail, comp := some comp, called := false }) ∨
    (comp.status ≠ .pending ∧ comp.status ≠ .compensating ∧ Settles bk comp ∧
      bk.note (.saveCompensation comp) () = { bk with comp := none }) := by
  unfold Legal at h
  cases hstatus : comp.status with
  | pending =>
    simp only [hstatus] at h
    exact .inl ⟨h.1, by simp [Book.note, hstatus]⟩
  | compensating =>
    simp only [hstatus] at h
    exact .inr (.inl ⟨rfl, h.1, h.2.1, h.2.2, by simp [Book.note, hstatus]⟩)
  | _ =>
    simp only [hstatus] at h
    exact .inr (.inr ⟨by simp, by simp, h, by simp [Book.note, hstatus]⟩)

theorem Kept.next (h : Kept w bk) {rest : List WorkflowCompensation}
    (hrest : bk.remaining = some ({ comp with status := .pending } :: rest)) :
    { comp with status := .pending } ∈ w.compensations comp.workflowInstanceId :=
  ((h.remaining _ hrest).2 _ (List.mem_cons_self ..)).2

theorem Kept.saveCompensation (h : Kept w bk) {bk' : Book}
    (hdrawn : comp.id ∈ w.drawn ∧ comp.stepId ∈ w.drawn) (hclock : comp.createdAt ≤ w.clock)
    (hfresh : ∀ u, bk'.fresh = some u → bk.fresh = some u ∧ comp.id ≠ u ∧ comp.stepId ≠ u)
    (htime : ∀ t, bk'.time = some t → bk.time = some t ∧ comp.createdAt < t)
    (hhand : ∀ step, bk'.step = some step → bk.step = some step)
    (hremaining : ∀ l, bk'.remaining = some l → (l.map (·.id)).Nodup ∧ ∀ c ∈ l, c.status = .pending ∧ c ∈ w.compensations c.workflowInstanceId ∧ (c.workflowInstanceId = comp.workflowInstanceId → c.id ≠ comp.id))
    (hcomp : ∀ cur, bk'.comp = some cur → (cur = comp ∧ comp.status = .compensating) ∨ (bk.comp = some cur ∧ (cur.workflowInstanceId = comp.workflowInstanceId → cur.id ≠ comp.id)))
    : Kept (w.saveCompensation comp) bk' := by
  have hmem {i : UUID} {x : WorkflowCompensation}
      (hx : x ∈ (w.saveCompensation comp).compensations i) :
      (i = comp.workflowInstanceId ∧ x = comp) ∨ x ∈ w.compensations i :=
    (mem_saveCompensation h hx).imp_right fun hx => hx.1
  refine ⟨h.rows, h.rowsDrawn, fun i => ?_, fun i x hx => ?_, fun i x hx => ?_, fun i x hx => ?_,
    fun u hu => ⟨(h.fresh u (hfresh u hu).1).1, (h.fresh u (hfresh u hu).1).2.1, fun i x hx => ?_⟩,
    fun t ht => ⟨(h.time t (htime t ht).1).1, fun i x hx => ?_⟩,
    fun step hstep => h.hand step (hhand step hstep),
    fun l hl => ⟨(hremaining l hl).1, fun c hc => ⟨((hremaining l hl).2 c hc).1, ?_⟩⟩,
    fun cur hcur => ?_⟩
  · rw [World.compensations_saveCompensation]
    split
    · exact nodup_upsert (h.comps i)
    · exact h.comps i
  · rcases hmem hx with ⟨_, rfl⟩ | hx
    · exact hdrawn
    · exact h.compsDrawn i x hx
  · rcases hmem hx with ⟨rfl, rfl⟩ | hx
    · rfl
    · exact h.filed i x hx
  · rcases hmem hx with ⟨_, rfl⟩ | hx
    · exact hclock
    · exact h.clock i x hx
  · rcases hmem hx with ⟨_, rfl⟩ | hx
    · exact (hfresh u hu).2
    · exact (h.fresh u (hfresh u hu).1).2.2 i x hx
  · rcases hmem hx with ⟨_, rfl⟩ | hx
    · exact (htime t ht).2
    · exact (h.time t (htime t ht).1).2 i x hx
  · obtain ⟨_, hstored, hid⟩ := (hremaining l hl).2 c hc
    exact mem_saveCompensation_of h hstored hid
  · rcases hcomp cur hcur with ⟨rfl, hstatus⟩ | ⟨hcur, hid⟩
    · exact ⟨hstatus, mem_saveCompensation_self h cur⟩
    · exact ⟨(h.comp cur hcur).1, mem_saveCompensation_of h (h.comp cur hcur).2 hid⟩

theorem Kept.register (h : Kept w bk) (hreg : Registers bk comp) :
    Kept (w.saveCompensation comp) { bk with fresh := none, time := none, bound := none } := by
  obtain ⟨hdrawn, _, hnew⟩ := h.fresh _ hreg.fresh
  obtain ⟨hclock, _⟩ := h.time _ hreg.time
  obtain ⟨step, hhand, hstep⟩ := hreg.step
  refine h.saveCompensation ⟨hdrawn, hstep ▸ h.rowsDrawn step (h.hand step hhand)⟩ hclock
    (by simp) (by simp) (fun _ hs => hs) (fun l hl => ⟨(h.remaining l hl).1, fun c hc => ?_⟩)
    (fun cur hcur => ?_)
  · obtain ⟨hpending, hstored⟩ := (h.remaining l hl).2 c hc
    exact ⟨hpending, hstored, fun _ => (hnew _ c hstored).1⟩
  · exact .inr ⟨hcur, fun _ => (hnew _ cur (h.comp cur hcur).2).1⟩

theorem Kept.take (h : Kept w bk) {rest : List WorkflowCompensation}
    (hstatus : comp.status = .compensating)
    (hrest : bk.remaining = some ({ comp with status := .pending } :: rest)) :
    Kept (w.saveCompensation comp)
      { bk with remaining := bk.remaining.map List.tail, comp := some comp, called := false } := by
  have hstored := h.next hrest
  obtain ⟨hids, hall⟩ := h.remaining _ hrest
  rw [List.map_cons, List.nodup_cons] at hids
  have hnew (u : UUID) (hu : bk.fresh = some u) : comp.id ≠ u ∧ comp.stepId ≠ u :=
    (h.fresh u hu).2.2 _ { comp with status := .pending } hstored
  have htime (t : ℕ) (ht : bk.time = some t) : comp.createdAt < t :=
    (h.time t ht).2 _ { comp with status := .pending } hstored
  have hclock : comp.createdAt ≤ w.clock := h.clock _ { comp with status := .pending } hstored
  have hdrawn := h.compsDrawn _ _ hstored
  refine h.saveCompensation hdrawn hclock (fun u hu => ⟨hu, hnew u hu⟩) (fun t ht => ⟨ht, htime t ht⟩) (fun _ hs => hs)
    (fun l hl => ?_) (fun cur hcur => .inl ⟨(Option.some_inj.mp hcur).symm, hstatus⟩)
  obtain rfl : rest = l := by simpa [hrest] using hl
  refine ⟨hids.2, fun c hc => ?_⟩
  obtain ⟨hpending, hc'⟩ := hall c (List.mem_cons_of_mem _ hc)
  exact ⟨hpending, hc', fun _ heq => hids.1 (heq ▸ List.mem_map_of_mem hc)⟩

theorem Kept.settle (h : Kept w bk) (hset : Settles bk comp) :
    Kept (w.saveCompensation comp) { bk with comp := none } := by
  obtain ⟨cur, hcur, hsame⟩ := hset.hand
  obtain ⟨hstatus, hstored⟩ := h.comp cur hcur
  have hdrawn := h.compsDrawn _ _ hstored
  have hclock := h.clock _ _ hstored
  rw [← hsame.id, ← hsame.stepId] at hdrawn
  refine h.saveCompensation hdrawn (hsame.createdAt ▸ hclock)
    (fun u hu => ⟨hu, ?_⟩) (fun t ht => ⟨ht, ?_⟩) (fun _ hs => hs)
    (fun l hl => ⟨(h.remaining l hl).1, fun c hc => ?_⟩) (by simp)
  · rw [hsame.id, hsame.stepId]
    exact (h.fresh u hu).2.2 _ _ hstored
  · rw [hsame.createdAt]
    exact (h.time t ht).2 _ _ hstored
  · obtain ⟨hpending, hc'⟩ := (h.remaining l hl).2 c hc
    refine ⟨hpending, hc', fun hinst hid => ?_⟩
    -- The record in hand is not pending any more
    rw [hinst, hsame.workflowInstanceId] at hc'
    have heq := h.comp_inj hc' hstored (hid.trans hsame.id)
    rw [heq, hstatus] at hpending
    cases hpending

theorem Kept.quiet (h : Kept w bk) (hstep : Step b w o r w')
    (ho : ∀ step, o ≠ .saveStep step) (ho₁ : ∀ comp, o ≠ .saveCompensation comp)
    (ho₂ : ∀ i, o ≠ .getCompensationsReversed i) (ho₃ : ∀ held, o ≠ .uuid4 held)
    (ho₄ : o ≠ .now) : Kept w' (bk.note o r) := by
  have hframe := step_frame hstep
  have hsteps := hframe.steps ho
  have hcomps := hframe.compensations ho₁ ho₂
  refine ⟨hsteps ▸ h.rows, ?_, hcomps ▸ h.comps, ?_, hcomps ▸ h.filed, ?_, ?_, ?_, ?_, ?_, ?_⟩
  · rw [hsteps]
    exact fun row hrow => hframe.drawn _ (h.rowsDrawn row hrow)
  · rw [hcomps]
    exact fun i comp hcomp => ⟨hframe.drawn _ (h.compsDrawn i comp hcomp).1,
      hframe.drawn _ (h.compsDrawn i comp hcomp).2⟩
  · rw [hcomps]
    exact fun i comp hcomp => (h.clock i comp hcomp).trans hframe.clock
  · rw [hsteps, hcomps]
    intro u hu
    obtain ⟨hdrawn, hnew⟩ := h.fresh u (Book.note_fresh ho₃ hu)
    exact ⟨hframe.drawn u hdrawn, hnew⟩
  · rw [hcomps]
    intro t ht
    obtain ⟨hclock, hnew⟩ := h.time t (Book.note_time ho₄ ht)
    exact ⟨hclock.trans hframe.clock, hnew⟩
  · rw [hsteps]
    exact fun step hs => h.hand step (Book.note_step ho hs)
  · rw [hcomps]
    exact fun l hl => h.remaining l (Book.note_remaining ho₁ ho₂ hl)
  · rw [hcomps]
    exact fun cur hcur => h.comp cur (Book.note_comp ho₁ hcur)

theorem Kept.fetch (h : Kept w bk) (i : UUID) :
    Kept (w.reverseCompensations b i)
      { bk with remaining := some (pendingOf (w.getCompensations b i).reverse) } := by
  have hids (j : UUID) : (((w.reverseCompensations b i).compensations j).map (·.id)).Nodup := by
    have := h.comps j
    cases b with
    | postgres => exact this
    | inMemory =>
      by_cases hj : j = i
      · subst hj
        simpa [World.reverseCompensations, List.map_reverse] using this
      · simpa [World.reverseCompensations, hj] using this
  have hsteps : (w.reverseCompensations b i).steps = w.steps := by cases b <;> rfl
  have hdrawn : (w.reverseCompensations b i).drawn = w.drawn := by cases b <;> rfl
  have hclock : (w.reverseCompensations b i).clock = w.clock := by cases b <;> rfl
  refine ⟨hsteps ▸ h.rows, hsteps ▸ hdrawn ▸ h.rowsDrawn, hids, ?_, ?_, ?_, ?_, ?_, ?_,
    fun l hl => ?_, ?_⟩
  · simpa only [World.mem_reverseCompensations, hdrawn] using h.compsDrawn
  · simpa only [World.mem_reverseCompensations] using h.filed
  · simpa only [World.mem_reverseCompensations, hclock] using h.clock
  · simpa only [World.mem_reverseCompensations, hdrawn, hsteps] using h.fresh
  · simpa only [World.mem_reverseCompensations, hclock] using h.time
  · simpa only [hsteps] using h.hand
  · obtain rfl := Option.some_inj.mp hl
    have hpend : (pendingOf (w.getCompensations b i).reverse).Subperm (w.compensations i) :=
      (List.filter_sublist.subperm.trans (List.reverse_perm _).subperm).trans
        (World.getCompensations_subperm b w i)
    obtain ⟨found, hperm, hsub⟩ := hpend
    have hmem {c : WorkflowCompensation} (hc : c ∈ pendingOf (w.getCompensations b i).reverse) :
        c ∈ w.compensations i := hsub.subset (hperm.mem_iff.mpr hc)
    refine ⟨(hperm.map _).nodup_iff.mp ((h.comps i).sublist (hsub.map _)), fun c hc => ⟨?_, ?_⟩⟩
    · simpa using (List.mem_filter.mp hc).2
    · rw [World.mem_reverseCompensations, h.filed i c (hmem hc)]
      exact hmem hc
  · simpa only [World.mem_reverseCompensations] using h.comp

/-- **One operation keeps the tables in step.** -/
theorem Kept.step (h : Kept w bk) (hlegal : Legal bk o) (hstep : Step b w o r w') :
    Kept w' (bk.note o r) := by
  cases o with
  | uuid4 held =>
    obtain ⟨hnew, _, rfl⟩ := step_uuid4.mp hstep
    refine { h with
      rowsDrawn := fun row hrow => List.mem_cons_of_mem _ (h.rowsDrawn row hrow)
      compsDrawn := fun i comp hcomp => ⟨List.mem_cons_of_mem _ (h.compsDrawn i comp hcomp).1,
        List.mem_cons_of_mem _ (h.compsDrawn i comp hcomp).2⟩
      fresh := fun u hu => ?_ }
    obtain rfl := Option.some_inj.mp hu
    refine ⟨List.mem_cons_self .., fun row hrow heq => hnew (heq ▸ h.rowsDrawn row hrow),
      fun i comp hcomp => ⟨fun heq => ?_, fun heq => ?_⟩⟩
    · exact hnew (heq ▸ (h.compsDrawn i comp hcomp).1)
    · exact hnew (heq ▸ (h.compsDrawn i comp hcomp).2)
  | now =>
    obtain ⟨hlt, rfl⟩ := step_now.mp hstep
    refine { h with
      clock := fun i comp hcomp => (h.clock i comp hcomp).trans hlt.le
      time := fun t ht => ?_ }
    obtain rfl := Option.some_inj.mp ht
    exact ⟨le_refl _, fun i comp hcomp => (h.clock i comp hcomp).trans_lt hlt⟩
  | saveStep step =>
    obtain rfl := step_saveStep.mp hstep
    have hid : step.id ∈ w.drawn := by
      obtain ⟨_, _, _, _, ⟨_, hfresh, _⟩ | ⟨cur, hup⟩⟩ := hlegal
      · exact (h.fresh _ hfresh).1
      · rw [hup.id]
        exact h.rowsDrawn cur (h.hand cur hup.hand)
    refine { h with
      rows := nodup_upsert h.rows
      rowsDrawn := fun row hrow => ?_
      fresh := by simp [Book.note]
      hand := fun s hs => ?_ }
    · rcases mem_upsert hrow with rfl | hrow
      · exact hid
      · exact h.rowsDrawn row hrow
    · obtain rfl := Option.some_inj.mp hs
      exact (mem_upsert_iff h.rows).mpr (.inl rfl)
  | saveCompensation comp =>
    obtain rfl := step_saveCompensation.mp hstep
    rcases hlegal.saveCompensation_cases with ⟨hreg, heq⟩ | ⟨hstatus, _, _, ⟨rest, hrest⟩, heq⟩ |
      ⟨_, _, hset, heq⟩
    · rw [heq]
      exact h.register hreg
    · rw [heq]
      exact h.take hstatus hrest
    · rw [heq]
      exact h.settle hset
  | getCompensationsReversed i =>
    obtain ⟨rfl, rfl⟩ := step_getCompensationsReversed.mp hstep
    exact h.fetch i
  | _ => exact h.quiet hstep (by simp) (by simp) (by simp) (by simp) (by simp)

theorem Kept.expected (h : Kept w bk) (hstep : Step b w o r w') : Expected o r := by
  cases o with
  | saveWorkflow saved set =>
    obtain ⟨rfl, _⟩ := step_saveWorkflow.mp hstep
    unfold World.saveWorkflow
    split_ifs
    · trivial
    · rfl
    · trivial
  | saveEvent event =>
    obtain ⟨rfl, _⟩ := step_saveEvent.mp hstep
    simp only [World.saveEvent]
    split_ifs
    · rfl
    · trivial
  | getStepByIdempotencyKey i key =>
    obtain ⟨hfind, _⟩ := step_getStepByIdempotencyKey.mp hstep
    rcases r with _ | row
    · trivial
    · simpa [Expected] using (List.mem_filter.mp hfind.mem).2
  | getCompensationsReversed i =>
    obtain ⟨rfl, _⟩ := step_getCompensationsReversed.mp hstep
    intro comp hcomp
    exact h.filed i comp
      ((World.getCompensations_subperm b w i).subset (List.mem_reverse.mp hcomp))
  | _ => trivial

end Kept

/-! ## The run rule -/

/-- **The run rule.**  What every operation that is legal by the book keeps, and what survives
forgetting the book, holds after any calls one after another, the last of them stopped
anywhere. -/
theorem Serial.conduct {E : DurableWorkflowExecutor} {b : Backend} {made : List Made}
    {s : World × List Performed} (hrun : Serial E b made s)
    {I : World → List Performed → Book → Prop} (hinit : I {} [] {})
    (hstep : ∀ {w log bk o r w'}, Kept w bk → I w log bk → Legal bk o → Step b w o r w' →
      I w' (⟨w, o, r⟩ :: log) (bk.note o r))
    (hend : ∀ {w log bk}, I w log bk → I w log {}) : Kept s.1 {} ∧ I s.1 s.2 {} := by
  induction hrun with
  | nil => exact ⟨Kept.empty, hinit⟩
  | @call made s s' c out _ _ hexec ih =>
    have hsim : ∃ bk, Kept s'.1 bk ∧ I s'.1 s'.2 bk := by
      refine hexec.simulate (R := fun s bk => Kept s.1 bk ∧ I s.1 s.2 bk) ?_ ih c.orderly
      rintro ⟨w, log⟩ bk o r ⟨w', _⟩ ⟨hkept, hI⟩ hlegal ⟨hs, rfl⟩
      exact ⟨bk.note o r, ⟨hkept.expected hs, rfl⟩, hkept.step hlegal hs,
        hstep hkept hI hlegal hs⟩
    obtain ⟨bk, hkept, hI⟩ := hsim
    exact ⟨hkept.restart, hend hI⟩

/-- **The run rule for a condition on every operation.**  Where every operation of a run meets
`C`, every operation meets `G`, if an invariant carries it from one to the next. -/
theorem Serial.conduct_throughout {E : DurableWorkflowExecutor} {b : Backend} {made : List Made}
    {s : World × List Performed} (hrun : Serial E b made s)
    {I : World → List Performed → Book → Prop} {C G : List Performed → Prop}
    (hinit : I {} [] {}) (hnil : G [])
    (hstep : ∀ {w log bk o r w'}, Kept w bk → I w log bk → Legal bk o → Step b w o r w' →
      C (⟨w, o, r⟩ :: log) → I w' (⟨w, o, r⟩ :: log) (bk.note o r) ∧ G (⟨w, o, r⟩ :: log))
    (hend : ∀ {w log bk}, I w log bk → I w log {}) (hcond : Throughout C s.2) :
    Throughout G s.2 ∧ I s.1 s.2 {} := by
  refine And.symm ((hrun.conduct
    (I := fun w log bk => Throughout C log → I w log bk ∧ Throughout G log)
    (fun _ => ⟨hinit, hnil⟩) ?_ fun h hC => ⟨hend (h hC).1, (h hC).2⟩).2 hcond)
  intro w log bk o r w' hkept hI hlegal hs hC
  obtain ⟨hinv, hG⟩ := hI hC.2
  obtain ⟨hinv', hg⟩ := hstep hkept hinv hlegal hs hC.1
  exact ⟨hinv', hg, hG⟩

end EnhancedAgentBus.Persistence
