import EnhancedAgentBus.Persistence.Executor

/-!
# Clients of the executor

A client calls the executor, and may stop a call at any await.  Two ways of making calls:

* `Interleaving` — any number of calls run at once over one world and switch at every await;
* `Serial` — one call after another, each run to its end or stopped where the process dies;
  what was performed is kept, latest first.
-/

namespace EnhancedAgentBus.Persistence

open Async Async.Prog DurableWorkflowExecutor

abbrev Performed := Entry World Op Op.Resp

inductive Call where
  | start (workflowType workflowId tenantId : String) (input : Option JSONDict)
  | execute (inst : WorkflowInstance)
  | resume (workflowId tenantId : String)
  | cancel (workflowId tenantId reason : String)
  | status (workflowId tenantId : String)

def Call.code (E : DurableWorkflowExecutor) : Call → Code Unit
  | start ty wid tid input => do
    let _ ← E.startWorkflow ty wid tid input
    return ()
  | execute inst => do
    let _ ← E.executeWorkflow inst
    return ()
  | resume wid tid => do
    let _ ← E.resumeWorkflow wid tid
    return ()
  | cancel wid tid reason => do
    let _ ← cancelWorkflow wid tid reason
    return ()
  | status wid tid => do
    let _ ← getWorkflowStatus wid tid
    return ()

def Call.Held (w : World) : Call → Prop
  | execute inst => ∃ stored ∈ w.workflows, inst.SameRun stored
  | _ => True

abbrev Interleaving (E : DurableWorkflowExecutor) (b : Backend) :
    Pool Call Op Op.Resp PyExc Unit World → Prop :=
  Pool.Reach (Step b) (fun w c p => c.Held w ∧ p = c.code E) [] {}

/-- The decisions of an uneventful environment: fresh identifiers, a ticking clock, a cache
that loses nothing, and activities and handlers that answer `result`. -/
def World.answer (result : Op → Except PyExc Json) (w : World) : Op → Answer
  | .uuid4 _ => .id ⟨w.drawn.length + 1⟩
  | .now => .time (w.clock + 1)
  | .getStepByIdempotencyKey _ _ => .row 0
  | .callActivity i k activity input => .outcome (result (.callActivity i k activity input))
  | .callHandler comp handler input => .outcome (result (.callHandler comp handler input))
  | _ => .plain

def makeCall (E : DurableWorkflowExecutor) (c : Call)
    (P : Pool Call Op Op.Resp PyExc Unit World) : Pool Call Op Op.Resp PyExc Unit World :=
  P.add c (c.code E)

/-- Up to `n` operations of the call number `i`, the latest call being number 0. -/
def goOn (b : Backend) (result : Op → Except PyExc Json) (i n : ℕ)
    (P : Pool Call Op Op.Resp PyExc Unit World) : Pool Call Op Op.Resp PyExc Unit World :=
  P.ticks (fun w o a => w.perform b o a) (fun _ w o => some (w.answer result o)) i n

section Run

variable {E : DurableWorkflowExecutor} {b : Backend}
variable {P : Pool Call Op Op.Resp PyExc Unit World}

theorem Interleaving.makeCall {c : Call} (h : Interleaving E b P) (hheld : c.Held P.state) :
    Interleaving E b (makeCall E c P) :=
  Pool.Reach.add h ⟨hheld, rfl⟩

theorem Interleaving.goOn {result : Op → Except PyExc Json} {i n : ℕ}
    (h : Interleaving E b P) : Interleaving E b (goOn b result i n P) :=
  Pool.Reach.ticks n h

end Run

/-! ## One call after another -/

structure Made where
  world : World
  call : Call
  ended : Bool

/-- The runs of calls made one after another from the empty world: the calls, latest first, and
the world they leave with all that was performed. -/
inductive Serial (E : DurableWorkflowExecutor) (b : Backend) :
    List Made → World × List Performed → Prop
  | nil : Serial E b [] ({}, [])
  | call {made : List Made} {s s' : World × List Performed} {c : Call} {out : Outcome PyExc Unit}
      (hrun : Serial E b made s) (hheld : c.Held s.1)
      (hexec : Exec (traced (Step b)) (c.code E) s out s') :
      Serial E b (⟨s.1, c, out.ended⟩ :: made) s'

/-- Make one call, a policy deciding for the environment and where the process dies. -/
def serve (E : DurableWorkflowExecutor) (b : Backend) (policy : World → Op → Option Answer)
    (c : Call) (s : World × List Performed) :
    Outcome PyExc Unit × World × List Performed :=
  replay (fun w o a => w.perform b o a) policy (c.code E) s

theorem Serial.serve {E : DurableWorkflowExecutor} {b : Backend} {made : List Made}
    {s : World × List Performed} (hrun : Serial E b made s)
    (policy : World → Op → Option Answer) {c : Call} (hheld : c.Held s.1) :
    Serial E b (⟨s.1, c, (serve E b policy c s).1.ended⟩ :: made) (serve E b policy c s).2 :=
  .call hrun hheld (replay_sound _ policy _ s)

/-- Make calls one after another, the latest first in the list, each under its own policy. -/
def serveAll (E : DurableWorkflowExecutor) (b : Backend) :
    List (Call × (World → Op → Option Answer)) → List Made × World × List Performed
  | [] => ([], {}, [])
  | (c, policy) :: earlier =>
    let (made, s) := serveAll E b earlier
    let (out, s') := serve E b policy c s
    (⟨s.1, c, out.ended⟩ :: made, s')

theorem Serial.serveAll_cons {E : DurableWorkflowExecutor} {b : Backend}
    {calls : List (Call × (World → Op → Option Answer))}
    (hrun : Serial E b (serveAll E b calls).1 (serveAll E b calls).2)
    (policy : World → Op → Option Answer) {c : Call} (hheld : c.Held (serveAll E b calls).2.1) :
    Serial E b (serveAll E b ((c, policy) :: calls)).1 (serveAll E b ((c, policy) :: calls)).2 :=
  hrun.serve policy hheld

def Call.isExecute : Call → Bool
  | execute _ => true
  | _ => false

theorem Call.held_of_not_execute {w : World} {c : Call} (h : c.isExecute = false) : c.Held w := by
  cases c with
  | execute inst => cases h
  | _ => trivial

theorem Serial.serveAll {E : DurableWorkflowExecutor} {b : Backend}
    {calls : List (Call × (World → Op → Option Answer))}
    (h : calls.all (fun c => !c.1.isExecute) = true) :
    Serial E b (serveAll E b calls).1 (serveAll E b calls).2 := by
  induction calls with
  | nil => exact .nil
  | cons c earlier ih =>
    rw [List.all_cons, Bool.and_eq_true, Bool.not_eq_true'] at h
    exact (ih h.2).serveAll_cons c.2 (Call.held_of_not_execute h.1)

/-- An uneventful environment, in which activities and handlers answer `None`. -/
def calm (w : World) (o : Op) : Option Answer := some (w.answer (fun _ => .ok .null) o)

def diesAt (last : Op → Bool) (w : World) (o : Op) : Option Answer :=
  if last o then none else calm w o

def greeter : DurableWorkflowExecutor where
  constitutionalHash := "608508a9bd224290"
  workflows
    | "greet" => some fun _ => .ret (.str "hello")
    | _ => none
  digest key := key

def cashier : DurableWorkflowExecutor where
  constitutionalHash := "608508a9bd224290"
  workflows
    | "pay" => some fun _ =>
      .activity { stepName := "charge", activity := 1 } fun
        | .ok receipt => .ret receipt
        | .error e => .raise e
    | _ => none
  digest key := key

end EnhancedAgentBus.Persistence
