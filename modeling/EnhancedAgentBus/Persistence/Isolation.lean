import EnhancedAgentBus.Persistence.Provenance

/-!
# Isolation of activity results

`execute_activity` asks `workflow_cache` before the repository, and the cache knows neither the
tenant nor the instance: an entry is stored under the business id and the idempotency key.  The
repository path is safe, since its query names the instance.  So an instance is served another
one's result exactly when the entry it asks for was last stored by another instance
(`isolated_iff_keysApart`).

The idempotency key adds nothing that would tell them apart: it is composed of the same business
id, and joining with `:` makes even different step names and arguments collide
(`keyString_unique_iff`).
-/

namespace EnhancedAgentBus.Persistence

open Async DurableWorkflowExecutor

/-! ## What an instance is served -/

/-- What is served from a store is the asking instance's own: the entry was stored by it, and an
activity of it gave the result, under the key. -/
def OwnAnswer (before : List Performed) : (o : Op) → o.Resp → Prop
  | .getStepResult caller wid k, some d =>
    d ≠ [] → storedBy wid k before = some caller ∧ Produced before caller k d
  | .getStepByIdempotencyKey i k, some row =>
    row.status = .completed → ∃ d, row.output = .obj d ∧ Produced before i k d
  | _, _ => True

def Isolated : List (Call × Performed) → Prop :=
  Throughout fun
    | [] => True
    | (_, e) :: before => OwnAnswer (before.map Prod.snd) e.op e.resp

/-- The entry a call asks the cache for, if there is one, was last stored by the same
instance. -/
def AsksOwn (before : List Performed) (w : World) : Op → Prop
  | .getStepResult caller wid k =>
    ∀ d, w.cache wid k = some d → d ≠ [] → storedBy wid k before = some caller
  | _ => True

def KeysApart : List (Call × Performed) → Prop :=
  Throughout fun
    | [] => True
    | (_, e) :: before => AsksOwn (before.map Prod.snd) e.before e.op

def FindsEntry (w : World) : (o : Op) → o.Resp → Prop
  | .getStepResult _ wid k, r => r = w.cache wid k
  | _, _ => True

def CacheIsMap (log : List (Call × Performed)) : Prop :=
  ∀ e ∈ log, FindsEntry e.2.before e.2.op e.2.resp

theorem ownAnswer_of_asksOwn {b : Backend} {w w' : World} {before : List Performed}
    {o : Op} {r : o.Resp} (hprov : Provenance w before) (hstep : Step b w o r w')
    (hasks : AsksOwn before w o) : OwnAnswer before o r := by
  cases o with
  | getStepResult caller wid k =>
    rcases r with _ | d
    · trivial
    · intro hd
      rcases step_getStepResult.mp hstep with ⟨hr, _⟩ | ⟨hr, _⟩
      · obtain ⟨i, hi, hp⟩ := hprov.cached wid k d hr.symm
        have hown := hasks d hr.symm hd
        obtain rfl : i = caller := Option.some_inj.mp (hi.symm.trans hown)
        exact ⟨hi, hp⟩
      · cases hr
  | getStepByIdempotencyKey i k =>
    rcases r with _ | row
    · trivial
    · exact fun hdone => hprov.found (step_getStepByIdempotencyKey.mp hstep).1 hdone
  | _ => trivial

theorem asksOwn_of_ownAnswer {w : World} {before : List Performed} {o : Op}
    {r : o.Resp} (hmap : FindsEntry w o r) (hown : OwnAnswer before o r) :
    AsksOwn before w o := by
  cases o with
  | getStepResult caller wid k =>
    intro d hd hne
    rcases r with _ | d'
    · exact absurd (hmap.trans hd) (by simp)
    · obtain rfl : d' = d := Option.some_inj.mp (hmap.trans hd)
      exact (hown hne).1
  | _ => trivial

/-- **Results are isolated exactly in the runs whose keys are apart.** -/
theorem isolated_iff_keysApart {E : DurableWorkflowExecutor} {b : Backend}
    {P : Pool Call Op Op.Resp PyExc Unit World} (hreach : Interleaving E b P)
    (hmap : CacheIsMap P.log) : Isolated P.log ↔ KeysApart P.log := by
  constructor
  · refine fun h => Throughout.imp h fun l hl hown => ?_
    rcases l with _ | ⟨ce, before⟩
    · trivial
    · exact asksOwn_of_ownAnswer (hmap ce (hl.subset (List.mem_cons_self ..))) hown
  · refine fun h => Throughout.imp h fun l hl hasks => ?_
    rcases l with _ | ⟨ce, before⟩
    · trivial
    · obtain ⟨⟨threads, hbefore⟩, w', hstep⟩ := hreach.of_suffix hl
      exact ownAnswer_of_asksOwn (Interleaving.provenance hbefore) hstep hasks

/-! ## The string that is hashed -/

namespace WorkflowContext

theorem keyString_toList (wid stepName : String) (args : List String) :
    (keyString wid stepName args).toList =
      wid.toList ++ ':' :: (":".intercalate (stepName :: args)).toList := by
  simp [keyString, String.intercalate_cons_cons]

theorem keyString_cons (wid stepName arg : String) (args : List String) :
    keyString wid (stepName ++ ":" ++ arg) args = keyString wid stepName (arg :: args) := by
  cases args <;> simp [keyString, String.intercalate_cons_cons, String.append_assoc]

theorem keyString_merge (wid part stepName : String) (args : List String) :
    keyString (wid ++ ":" ++ part) stepName args = keyString wid part (stepName :: args) := by
  simp [keyString, String.intercalate_cons_cons, String.append_assoc]

theorem exists_split {s : String} (h : ':' ∈ s.toList) : ∃ u v : String, s = u ++ ":" ++ v := by
  obtain ⟨u, v, huv⟩ := List.append_of_mem h
  refine ⟨String.ofList u, String.ofList v, String.toList_inj.mp ?_⟩
  simp [huv]

/-- **When a key string determines its triple**: there are no arguments, and neither the
business id nor the step name contains the separator. -/
theorem keyString_unique_iff (wid stepName : String) (args : List String) :
    (∀ wid' stepName' args', keyString wid' stepName' args' = keyString wid stepName args →
      wid' = wid ∧ stepName' = stepName ∧ args' = args) ↔
        args = [] ∧ ':' ∉ wid.toList ∧ ':' ∉ stepName.toList := by
  constructor
  · refine fun h => ⟨?_, fun hw => ?_, fun hs => ?_⟩
    · rcases args with _ | ⟨arg, args⟩
      · rfl
      · simpa using (h _ _ _ (keyString_cons wid stepName arg args)).2.2
    · obtain ⟨u, v, rfl⟩ := exists_split hw
      simpa using (h _ _ _ (keyString_merge u v stepName args).symm).2.2
    · obtain ⟨u, v, rfl⟩ := exists_split hs
      simpa using (h _ _ _ (keyString_cons wid u v args).symm).2.2
  · rintro ⟨rfl, hw, hs⟩ wid' stepName' args' heq
    have hlist := congrArg String.toList heq
    rw [keyString_toList, keyString_toList, String.intercalate_singleton, eq_comm] at hlist
    obtain ⟨hwid, _, hrest⟩ := (List.append_cons_inj_of_notMem hw hs).mp hlist
    rcases args' with _ | ⟨arg, args'⟩
    · rw [String.intercalate_singleton] at hrest
      exact ⟨(String.toList_inj.mp hwid).symm, (String.toList_inj.mp hrest).symm, rfl⟩
    · rw [String.intercalate_cons_cons] at hrest
      exact absurd (by rw [hrest]; simp) hs

end WorkflowContext

/-! ## Two tenants with one business id -/

def receipt : Op → Except PyExc Json
  | .callActivity ⟨i⟩ _ _ _ =>
    .ok (.obj [("paid_by", .str (if i = 1 then "acme" else "globex"))])
  | _ => .ok .null

/-- Two tenants start a payment under the same business id; the first pays, then the second. -/
def sharedOrderRun : Pool Call Op Op.Resp PyExc Unit World :=
  goOn .inMemory receipt 0 30 <| makeCall cashier (.resume "order-7" "globex") <|
    goOn .inMemory receipt 0 30 <| makeCall cashier (.resume "order-7" "acme") <|
      goOn .inMemory receipt 0 10 <| makeCall cashier (.start "pay" "order-7" "globex" none) <|
        goOn .inMemory receipt 0 10 <| makeCall cashier (.start "pay" "order-7" "acme" none)
          ⟨[], {}, []⟩

theorem sharedOrderRun_reach : Interleaving cashier .inMemory sharedOrderRun := by
  refine Interleaving.goOn (Interleaving.makeCall (Interleaving.goOn (Interleaving.makeCall
    (Interleaving.goOn (Interleaving.makeCall (Interleaving.goOn (Interleaving.makeCall
      .init ?_)) ?_)) ?_)) ?_)
  all_goals exact trivial

/-- **Whatever is served was produced**: a completed row holds what an activity of its instance has
answered under its key, and the cache what one of the instance that stored it last has. -/
theorem served_produced (E : DurableWorkflowExecutor) (b : Backend)
    (P : Pool Call Op Op.Resp PyExc Unit World) (hreach : Interleaving E b P) :
    (∀ row ∈ P.state.steps, row.status = .completed → ∃ k d, row.idempotencyKey = some k ∧
      row.output = .obj d ∧ Produced (P.log.map Prod.snd) row.workflowInstanceId k d) ∧
    ∀ wid k d, P.state.cache wid k = some d →
      ∃ i, storedBy wid k (P.log.map Prod.snd) = some i ∧ Produced (P.log.map Prod.snd) i k d :=
  ⟨hreach.provenance.rows, hreach.provenance.cached⟩

theorem served_produced_sharedOrder : ∃ i d, Produced (sharedOrderRun.log.map Prod.snd) i
    "order-7:charge" d := by
  have hcached : sharedOrderRun.state.cache "order-7" "order-7:charge" = some _ := rfl
  obtain ⟨i, -, hproduced⟩ :=
    (served_produced _ _ _ sharedOrderRun_reach).2 _ _ _ hcached
  exact ⟨i, _, hproduced⟩

theorem CacheIsMap.goOn {b : Backend} {result : Op → Except PyExc Json} {i n : ℕ}
    {P : Pool Call Op Op.Resp PyExc Unit World} (h : CacheIsMap P.log) :
    CacheIsMap (goOn b result i n P).log := by
  refine Pool.forall_log_ticks ?_ n h
  rintro l w o a r w' ⟨rfl⟩ hact
  cases o with
  | getStepResult caller wid k =>
    exact (some_eq_answer.mp hact).1
  | _ => trivial

theorem sharedOrderRun_cacheIsMap : CacheIsMap sharedOrderRun.log :=
  .goOn (.goOn (.goOn (.goOn (fun _ h => by cases h))))

/-- The second tenant is served the receipt of the first one. -/
theorem sharedOrderRun_leaks :
    Interleaving cashier .inMemory sharedOrderRun ∧ CacheIsMap sharedOrderRun.log ∧
      ¬ Isolated sharedOrderRun.log := by
  refine ⟨sharedOrderRun_reach, sharedOrderRun_cacheIsMap, fun h => ?_⟩
  have hread := (h.drop 3).here
  have hstored : storedBy "order-7" "order-7:charge"
      ((sharedOrderRun.log.drop 4).map Prod.snd) = some ⟨2⟩ :=
    (hread (List.cons_ne_nil _ _)).1
  revert hstored
  decide

/-- **Isolation, exactly.**  In a run of any interleaved calls, no instance is served another
one's result if and only if no instance asks for a key under which another instance of the same
business id has stored; and a key string determines its triple if and only if there are no
arguments and no separator in it. -/
theorem results_isolated_iff (E : DurableWorkflowExecutor) (b : Backend)
    (P : Pool Call Op Op.Resp PyExc Unit World) (hreach : Interleaving E b P)
    (hmap : CacheIsMap P.log) :
    (Isolated P.log ↔ KeysApart P.log) ∧
    ∀ (wid stepName : String) (args : List String),
      (∀ wid' stepName' args',
        WorkflowContext.keyString wid' stepName' args' =
          WorkflowContext.keyString wid stepName args →
        wid' = wid ∧ stepName' = stepName ∧ args' = args) ↔
          args = [] ∧ ':' ∉ wid.toList ∧ ':' ∉ stepName.toList :=
  ⟨isolated_iff_keysApart hreach hmap, WorkflowContext.keyString_unique_iff⟩

/-- The theorem at the run of two tenants, and at a step with an argument. -/
theorem results_isolated_iff_sharedOrder :
    (Isolated sharedOrderRun.log ↔ KeysApart sharedOrderRun.log) ∧
      ¬ ∀ wid' stepName' args',
        WorkflowContext.keyString wid' stepName' args' =
          WorkflowContext.keyString "order-7" "charge" ["eur"] →
        wid' = "order-7" ∧ stepName' = "charge" ∧ args' = ["eur"] := by
  have h := results_isolated_iff cashier .inMemory sharedOrderRun sharedOrderRun_reach
    sharedOrderRun_cacheIsMap
  exact ⟨h.1, fun hunique => absurd ((h.2 _ _ _).mp hunique).1 (by decide)⟩

end EnhancedAgentBus.Persistence
