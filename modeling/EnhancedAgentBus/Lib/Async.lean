import Mathlib.Data.List.Basic

/-!
# Programs that await their environment

An asynchronous function is the tree of the operations it awaits: it returns, it
raises, or it awaits one operation and goes on with the answer.  Nothing here
says what the operations are or what they do; a *step relation* does, and it may
be nondeterministic.

* `Prog` — the trees, with sequencing (`bind`) and `try` (`attempt`);
* `Exec` — a program run against a step relation, *stopped anywhere*, returned or
  raised: `stopped` is what a process that dies leaves behind;
* `Safe` — every awaited operation meets a precondition and every end meets its
  postcondition.  It is a weakest precondition, so it computes through `bind`;
* `Exec.invariant` — what the operations preserve holds wherever the run stops;
* `traced` — the step relation that also keeps the list of what was performed;
* `replay` — an executable run, with its soundness;
* `Pool` — any number of programs interleaved at their operations.

### What is load-bearing

`Safe` only constrains operations and ends, never the states in between.  It is
`Exec.invariant` that turns a precondition of every operation into a fact about
every state a run can stop in, so a crash needs no rule of its own.
-/

namespace Async

variable {Op : Type} {Resp : Op → Type} {ε ε' α β σ : Type}

/-- A program: the tree of the operations it awaits. -/
inductive Prog (Op : Type) (Resp : Op → Type) (ε α : Type) where
  | done (a : α)
  | raise (e : ε)
  | await (o : Op) (k : Resp o → Prog Op Resp ε α)

namespace Prog

/-- Run a program, then another with its value; an exception skips the second. -/
def bind : Prog Op Resp ε α → (α → Prog Op Resp ε β) → Prog Op Resp ε β
  | done a, f => f a
  | raise e, _ => raise e
  | await o k, f => await o fun r => (k r).bind f

/-- `try`: the exception becomes a value. -/
def attempt : Prog Op Resp ε α → Prog Op Resp ε' (Except ε α)
  | done a => done (.ok a)
  | raise e => done (.error e)
  | await o k => await o fun r => (k r).attempt

def ended : Prog Op Resp ε α → Bool
  | done _ | raise _ => true
  | await _ _ => false

def perform (o : Op) : Prog Op Resp ε (Resp o) := await o done

instance : Monad (Prog Op Resp ε) where
  pure := done
  bind := bind

theorem bind_assoc {γ : Type} (p : Prog Op Resp ε α) (f : α → Prog Op Resp ε β)
    (g : β → Prog Op Resp ε γ) : (p.bind f).bind g = p.bind fun a => (f a).bind g := by
  induction p with
  | done a => rfl
  | raise e => rfl
  | await o k ih => exact congrArg (await o) (funext ih)

theorem pure_eq (a : α) : (pure a : Prog Op Resp ε α) = done a := rfl

end Prog

open Prog

/-! ## Runs -/

/-- How a run ends.  A run may stop at any point, its program unfinished. -/
inductive Outcome (ε α : Type) where
  | stopped
  | returned (a : α)
  | raised (e : ε)

def Outcome.ended : Outcome ε α → Bool
  | .stopped => false
  | .returned _ | .raised _ => true

/-- A program run against a step relation, up to a stop, a return or an exception. -/
inductive Exec (step : σ → (o : Op) → Resp o → σ → Prop) :
    Prog Op Resp ε α → σ → Outcome ε α → σ → Prop
  | stop (p : Prog Op Resp ε α) (s : σ) : Exec step p s .stopped s
  | done (a : α) (s : σ) : Exec step (.done a) s (.returned a) s
  | raise (e : ε) (s : σ) : Exec step (.raise e) s (.raised e) s
  | await {o : Op} {k : Resp o → Prog Op Resp ε α} {r : Resp o} {s s' s'' : σ}
      {out : Outcome ε α} (hstep : step s o r s') (hrest : Exec step (k r) s' out s'') :
      Exec step (.await o k) s out s''

/-- The run of a program that never raises, when each operation has one answer. -/
def Prog.run (answer : σ → (o : Op) → Resp o × σ) : Prog Op Resp Empty α → σ → α × σ
  | done a, s => (a, s)
  | raise e, _ => e.elim
  | await o k, s => (k (answer s o).1).run answer (answer s o).2

theorem Prog.run_bind (answer : σ → (o : Op) → Resp o × σ) (p : Prog Op Resp Empty α)
    (f : α → Prog Op Resp Empty β) (s : σ) :
    (p >>= f).run answer s = (f (p.run answer s).1).run answer (p.run answer s).2 := by
  induction p generalizing s with
  | done a => rfl
  | raise e => exact e.elim
  | await o k ih => exact ih _ _

theorem Exec.of_run {step : σ → (o : Op) → Resp o → σ → Prop}
    (answer : σ → (o : Op) → Resp o × σ) (hanswer : ∀ s o, step s o (answer s o).1 (answer s o).2)
    (p : Prog Op Resp Empty α) (s : σ) :
    Exec step p s (.returned (p.run answer s).1) (p.run answer s).2 := by
  induction p generalizing s with
  | done a => exact .done a s
  | raise e => exact e.elim
  | await o k ih => exact .await (hanswer s o) (ih _ _)

theorem Exec.bind {step : σ → (o : Op) → Resp o → σ → Prop} {p : Prog Op Resp ε α}
    {f : α → Prog Op Resp ε β} {s s' s'' : σ} {a : α} {out : Outcome ε β}
    (hp : Exec step p s (.returned a) s') (hf : Exec step (f a) s' out s'') :
    Exec step (p >>= f) s out s'' := by
  generalize hreturned : Outcome.returned a = first at hp
  induction hp with
  | stop p s => cases hreturned
  | done b s =>
    cases hreturned
    exact hf
  | raise e s => cases hreturned
  | await hstep _ ih => exact .await hstep (ih hf hreturned)

theorem Exec.exists_ended {step : σ → (o : Op) → Resp o → σ → Prop}
    (htotal : ∀ s o, ∃ r s', step s o r s') (p : Prog Op Resp ε α) (s : σ) :
    ∃ out s', Exec step p s out s' ∧ out.ended = true := by
  induction p generalizing s with
  | done a => exact ⟨.returned a, s, .done a s, rfl⟩
  | raise e => exact ⟨.raised e, s, .raise e s, rfl⟩
  | await o k ih =>
    obtain ⟨r, t, hstep⟩ := htotal s o
    obtain ⟨out, s', hrun, hended⟩ := ih r t
    exact ⟨out, s', .await hstep hrun, hended⟩

theorem Exec.run_of_stopped {step : σ → (o : Op) → Resp o → σ → Prop}
    (answer : σ → (o : Op) → Resp o × σ)
    (hanswer : ∀ s o r s', step s o r s' → (r, s') = answer s o) {p : Prog Op Resp Empty α}
    {s s' : σ} {out : Outcome Empty α} (hrun : Exec step p s out s') :
    ∃ q : Prog Op Resp Empty α, q.run answer s' = p.run answer s := by
  induction hrun with
  | stop p s => exact ⟨p, rfl⟩
  | done a s => exact ⟨.done a, rfl⟩
  | raise e s => exact e.elim
  | await hstep _ ih =>
    obtain ⟨q, hq⟩ := ih
    refine ⟨q, hq.trans ?_⟩
    rw [Prog.run, ← hanswer _ _ _ _ hstep]

/-! ## Weakest preconditions -/

/-- **Safety of a program.**  Every operation it awaits meets `pre` where it is
awaited, a return meets `Q` and an exception meets `E`. -/
def Safe (step : σ → (o : Op) → Resp o → σ → Prop) (pre : σ → Op → Prop) :
    Prog Op Resp ε α → σ → (α → σ → Prop) → (ε → σ → Prop) → Prop
  | .done a, s, Q, _ => Q a s
  | .raise e, s, _, E => E e s
  | .await o k, s, Q, E => pre s o ∧ ∀ r s', step s o r s' → Safe step pre (k r) s' Q E

section Safe

variable {step : σ → (o : Op) → Resp o → σ → Prop} {pre : σ → Op → Prop}
variable {s s' : σ} {Q Q' : α → σ → Prop} {E E' : ε → σ → Prop}

@[simp] theorem safe_done (a : α) : Safe step pre (.done a) s Q E ↔ Q a s := Iff.rfl

@[simp] theorem safe_pure (a : α) : Safe step pre (pure a) s Q E ↔ Q a s := Iff.rfl

@[simp] theorem safe_raise (e : ε) : Safe step pre (.raise e) s Q E ↔ E e s := Iff.rfl

theorem safe_await {o : Op} {k : Resp o → Prog Op Resp ε α} :
    Safe step pre (.await o k) s Q E ↔
      pre s o ∧ ∀ r s', step s o r s' → Safe step pre (k r) s' Q E := Iff.rfl

@[simp] theorem safe_perform (o : Op) {Q : Resp o → σ → Prop} :
    Safe step pre (perform o) s Q E ↔ pre s o ∧ ∀ r s', step s o r s' → Q r s' := Iff.rfl

theorem safe_bind' (p : Prog Op Resp ε α) (f : α → Prog Op Resp ε β) (s : σ)
    {Q : β → σ → Prop} :
    Safe step pre (p.bind f) s Q E ↔ Safe step pre p s (fun a t => Safe step pre (f a) t Q E) E := by
  induction p generalizing s with
  | done a => rfl
  | raise e => rfl
  | await o k ih => simp only [Prog.bind, safe_await, ih]

@[simp] theorem safe_bind (p : Prog Op Resp ε α) (f : α → Prog Op Resp ε β)
    {Q : β → σ → Prop} :
    Safe step pre (p >>= f) s Q E ↔
      Safe step pre p s (fun a t => Safe step pre (f a) t Q E) E :=
  safe_bind' p f s

@[simp] theorem safe_attempt (p : Prog Op Resp ε α) {Q : Except ε α → σ → Prop}
    {E : ε' → σ → Prop} :
    Safe step pre p.attempt s Q E ↔
      Safe step pre p s (fun a => Q (.ok a)) (fun e => Q (.error e)) := by
  induction p generalizing s with
  | done a => rfl
  | raise e => rfl
  | await o k ih => simp only [Prog.attempt, safe_await, ih]

theorem Safe.mono {p : Prog Op Resp ε α} (h : Safe step pre p s Q E)
    (hQ : ∀ a t, Q a t → Q' a t) (hE : ∀ e t, E e t → E' e t) :
    Safe step pre p s Q' E' := by
  induction p generalizing s with
  | done a => exact hQ _ _ h
  | raise e => exact hE _ _ h
  | await o k ih => exact ⟨h.1, fun r s' hstep => ih r (h.2 r s' hstep)⟩

theorem Safe.invariant {p : Prog Op Resp ε α} (I : σ → Prop) (h : Safe step pre p s Q E) (hs : I s)
    (hI : ∀ s o r s', I s → pre s o → step s o r s' → I s') :
    Safe step pre p s (fun a t => Q a t ∧ I t) (fun e t => E e t ∧ I t) := by
  induction p generalizing s with
  | done a => exact ⟨h, hs⟩
  | raise e => exact ⟨h, hs⟩
  | await o k ih =>
    exact ⟨h.1, fun r s' hstep => ih r (h.2 r s' hstep) (hI s o r s' hs h.1 hstep)⟩

theorem Safe.weaken {step' : σ → (o : Op) → Resp o → σ → Prop} {pre' : σ → Op → Prop}
    {p : Prog Op Resp ε α} (h : Safe step pre p s Q E)
    (hstep : ∀ s o r s', step' s o r s' → step s o r s') (hpre : ∀ s o, pre s o → pre' s o) :
    Safe step' pre' p s Q E := by
  induction p generalizing s with
  | done a => exact h
  | raise e => exact h
  | await o k ih =>
    exact ⟨hpre _ _ h.1, fun r s' hs => ih r (h.2 r s' (hstep _ _ _ _ hs))⟩

/-- **Simulation.**  A program safe for abstract steps is safe for the concrete steps they
simulate. -/
theorem Safe.simulate {τ : Type} {step' : τ → (o : Op) → Resp o → τ → Prop}
    {pre' : τ → Op → Prop} {R : σ → τ → Prop} {p : Prog Op Resp ε α} {t : τ}
    {Q : α → τ → Prop} {E : ε → τ → Prop}
    (hpre : ∀ s t o, R s t → pre' t o → pre s o)
    (hstep : ∀ s t o r s', R s t → pre' t o → step s o r s' → ∃ t', step' t o r t' ∧ R s' t')
    (hR : R s t) (h : Safe step' pre' p t Q E) :
    Safe step pre p s (fun a s' => ∃ t', R s' t' ∧ Q a t') (fun e s' => ∃ t', R s' t' ∧ E e t') := by
  induction p generalizing s t with
  | done a => exact ⟨t, hR, h⟩
  | raise e => exact ⟨t, hR, h⟩
  | await o k ih =>
    refine ⟨hpre s t o hR h.1, fun r s' hs => ?_⟩
    obtain ⟨t', ht, hR'⟩ := hstep s t o r s' hR h.1 hs
    exact ih r hR' (h.2 r t' ht)

/-! ### Among others -/

/-- A step of a program among others, which may have moved before it. -/
def Amid (rely : σ → σ → Prop) (step : σ → (o : Op) → Resp o → σ → Prop) (s : σ) (o : Op)
    (r : Resp o) (s' : σ) : Prop :=
  ∃ t, rely s t ∧ step t o r s'

/-- **The others may move.**  What is safe among others stays so where they have moved. -/
theorem Safe.amid {rely : σ → σ → Prop} {p : Prog Op Resp ε α}
    (htrans : ∀ s t u, rely s t → rely t u → rely s u)
    (hpre : ∀ s t o, rely s t → pre s o → pre t o)
    (hQ : ∀ a s t, rely s t → Q a s → Q a t) (hE : ∀ e s t, rely s t → E e s → E e t)
    (h : Safe (Amid rely step) pre p s Q E) (hrely : rely s s') :
    Safe (Amid rely step) pre p s' Q E := by
  cases p with
  | done a => exact hQ a s s' hrely h
  | raise e => exact hE e s s' hrely h
  | await o k =>
    refine ⟨hpre s s' o hrely h.1, fun r u hstep => ?_⟩
    obtain ⟨t, ht, hanswer⟩ := hstep
    exact h.2 r u ⟨t, htrans s s' t hrely ht, hanswer⟩

/-- A program that awaits only what it may, whatever it is answered. -/
abbrev Prog.Asks (p : Prog Op Resp ε α) (may : Op → Prop) : Prop :=
  Safe (fun _ _ _ _ => True) (fun (_ : Unit) => may) p () (fun _ _ => True) fun _ _ => True

theorem Prog.Asks.bind {may : Op → Prop} {p : Prog Op Resp ε α} {f : α → Prog Op Resp ε β}
    (hp : p.Asks may) (hf : ∀ a, (f a).Asks may) : (p >>= f).Asks may := by
  rw [Prog.Asks, safe_bind]
  exact hp.mono (fun a _ _ => hf a) fun _ _ => id

namespace Exec

variable {p : Prog Op Resp ε α} {out : Outcome ε α}

theorem returned {a : α} (hrun : Exec step p s (.returned a) s')
    (h : Safe step pre p s Q E) : Q a s' := by
  generalize hout : Outcome.returned a = out at hrun
  induction hrun with
  | stop p s => cases hout
  | done b s => cases hout; exact h
  | raise e s => cases hout
  | await hstep _ ih => exact ih (h.2 _ _ hstep) hout

theorem raised {e : ε} (hrun : Exec step p s (.raised e) s')
    (h : Safe step pre p s Q E) : E e s' := by
  generalize hout : Outcome.raised e = out at hrun
  induction hrun with
  | stop p s => cases hout
  | done b s => cases hout
  | raise e s => cases hout; exact h
  | await hstep _ ih => exact ih (h.2 _ _ hstep) hout

/-- **What the operations preserve holds wherever the run ends**, a stop included. -/
theorem invariant {I : σ → Prop} (hrun : Exec step p s out s')
    (hI : ∀ s o r s', I s → pre s o → step s o r s' → I s') (hs : I s)
    (h : Safe step pre p s Q E) : I s' := by
  induction hrun with
  | stop p s => exact hs
  | done b s => exact hs
  | raise e s => exact hs
  | await hstep _ ih => exact ih (hI _ _ _ _ hs h.1 hstep) (h.2 _ _ hstep)

/-- **Simulation of a run**, wherever it ends: some abstract state corresponds to the state it
leaves. -/
theorem simulate {τ : Type} {step' : τ → (o : Op) → Resp o → τ → Prop} {pre' : τ → Op → Prop}
    {R : σ → τ → Prop} {t : τ} {Q : α → τ → Prop} {E : ε → τ → Prop}
    (hrun : Exec step p s out s')
    (hstep : ∀ s t o r s', R s t → pre' t o → step s o r s' → ∃ t', step' t o r t' ∧ R s' t')
    (hR : R s t) (h : Safe step' pre' p t Q E) : ∃ t', R s' t' := by
  induction hrun generalizing t with
  | stop p s => exact ⟨t, hR⟩
  | done b s => exact ⟨t, hR⟩
  | raise e s => exact ⟨t, hR⟩
  | await hs _ ih =>
    obtain ⟨t', ht, hR'⟩ := hstep _ _ _ _ _ hR h.1 hs
    exact ih hR' (h.2 _ _ ht)

end Exec

end Safe

/-! ## Keeping what was performed -/

/-- One performed operation: the state it found, and its answer. -/
structure Entry (σ Op : Type) (Resp : Op → Type) where
  before : σ
  op : Op
  resp : Resp op

/-- The step relation that also keeps what was performed, latest first. -/
def traced (step : σ → (o : Op) → Resp o → σ → Prop) :
    σ × List (Entry σ Op Resp) → (o : Op) → Resp o → σ × List (Entry σ Op Resp) → Prop :=
  fun s o r s' => step s.1 o r s'.1 ∧ s'.2 = ⟨s.1, o, r⟩ :: s.2

theorem Safe.traced {step : σ → (o : Op) → Resp o → σ → Prop} {pre : σ → Op → Prop}
    {p : Prog Op Resp ε α} {s : σ} {Q : α → σ → Prop} {E : ε → σ → Prop}
    (h : Safe step pre p s Q E) (log : List (Entry σ Op Resp)) :
    Safe (traced step) (fun t => pre t.1) p (s, log) (fun a t => Q a t.1)
      (fun e t => E e t.1) := by
  induction p generalizing s log with
  | done a => exact h
  | raise e => exact h
  | await o k ih =>
    refine ⟨h.1, fun r t ht => ?_⟩
    obtain ⟨s', log'⟩ := t
    exact ih r (h.2 r s' ht.1) log'

theorem Exec.log_mono {step : σ → (o : Op) → Resp o → σ → Prop} {p : Prog Op Resp ε α}
    {s s' : σ × List (Entry σ Op Resp)} {out : Outcome ε α}
    (hrun : Exec (Async.traced step) p s out s') : s.2 <:+ s'.2 := by
  induction hrun with
  | stop p s => exact List.suffix_refl _
  | done a s => exact List.suffix_refl _
  | raise e s => exact List.suffix_refl _
  | await hstep _ ih =>
    rw [hstep.2] at ih
    exact (List.suffix_cons _ _).trans ih

theorem Exec.mono {step step' : σ → (o : Op) → Resp o → σ → Prop} {p : Prog Op Resp ε α} {s s' : σ}
    {out : Outcome ε α} (hrun : Exec step p s out s')
    (hstep : ∀ s o r s', step s o r s' → step' s o r s') : Exec step' p s out s' := by
  induction hrun with
  | stop p s => exact .stop p s
  | done a s => exact .done a s
  | raise e s => exact .raise e s
  | await h _ ih => exact .await (hstep _ _ _ _ h) ih

theorem Exec.untraced {step : σ → (o : Op) → Resp o → σ → Prop} {p : Prog Op Resp ε α}
    {s s' : σ × List (Entry σ Op Resp)} {out : Outcome ε α}
    (hrun : Exec (Async.traced step) p s out s') : Exec step p s.1 out s'.1 := by
  induction hrun with
  | stop p s => exact .stop p s.1
  | done a s => exact .done a s.1
  | raise e s => exact .raise e s.1
  | await hstep _ ih => exact .await hstep.1 ih

/-- A property of a list that holds of it and of everything it grew from. -/
def Throughout {τ : Type} (P : List τ → Prop) : List τ → Prop
  | [] => P []
  | x :: xs => P (x :: xs) ∧ Throughout P xs

theorem Throughout.here {τ : Type} {P : List τ → Prop} {l : List τ} (h : Throughout P l) : P l := by
  rcases l with _ | ⟨x, xs⟩
  · exact h
  · exact h.1

theorem Throughout.drop {τ : Type} {P : List τ → Prop} {l : List τ} (h : Throughout P l) (n : ℕ) :
    Throughout P (l.drop n) := by
  induction n generalizing l with
  | zero => exact h
  | succ n ih =>
    rcases l with _ | ⟨x, xs⟩
    · exact h
    · exact ih h.2

theorem Throughout.imp {τ : Type} {P Q : List τ → Prop} {l : List τ} (h : Throughout P l)
    (himp : ∀ l', l' <:+ l → P l' → Q l') : Throughout Q l := by
  induction l with
  | nil => exact himp [] (List.suffix_refl _) h
  | cons x xs ih =>
    exact ⟨himp _ (List.suffix_refl _) h.1,
      ih h.2 fun l' hl' => himp l' (hl'.trans (List.suffix_cons x xs))⟩

theorem Throughout.of_suffix {τ : Type} {P : List τ → Prop} {l l' : List τ} (h : Throughout P l)
    (hsuffix : l' <:+ l) : Throughout P l' := by
  obtain ⟨more, rfl⟩ := hsuffix
  have hdrop := h.drop more.length
  rwa [List.drop_left] at hdrop

theorem Exec.await_traced {step : σ → (o : Op) → Resp o → σ → Prop} {s s' : σ}
    {log : List (Entry σ Op Resp)} {o : Op} {k : Resp o → Prog Op Resp ε α} {r : Resp o}
    {out : Outcome ε α} {t : σ × List (Entry σ Op Resp)} (hstep : step s o r s')
    (hrest : Exec (Async.traced step) (k r) (s', ⟨s, o, r⟩ :: log) out t) :
    Exec (Async.traced step) (.await o k) (s, log) out t :=
  .await ⟨hstep, rfl⟩ hrest

theorem Exec.along {step : σ → (o : Op) → Resp o → σ → Prop} {p : Prog Op Resp ε α}
    {C : List (Entry σ Op Resp) → Prop} {s s' : σ × List (Entry σ Op Resp)} {out : Outcome ε α}
    (hrun : Exec (Async.traced step) p s out s') (hC : Throughout C s'.2) :
    Exec (fun s o r s' => Async.traced step s o r s' ∧ C s'.2) p s out s' := by
  induction hrun with
  | stop p s => exact .stop p s
  | done a s => exact .done a s
  | raise e s => exact .raise e s
  | await hstep hrest ih => exact .await ⟨hstep, (hC.of_suffix hrest.log_mono).here⟩ (ih hC)

instance Throughout.decidable {τ : Type} {P : List τ → Prop} [DecidablePred P] :
    DecidablePred (Throughout P)
  | [] => inferInstanceAs (Decidable (P []))
  | x :: xs =>
    have := Throughout.decidable (P := P) xs
    inferInstanceAs (Decidable (P (x :: xs) ∧ Throughout P xs))

/-! ## An executable run -/

section Replay

variable {A : Type} (act : σ → (o : Op) → A → Option (Resp o × σ)) (policy : σ → Op → Option A)

/-- Run a program, a policy choosing how each operation is answered; it stops where the policy
or the operation has no answer. -/
def replay : Prog Op Resp ε α → σ × List (Entry σ Op Resp) →
    Outcome ε α × σ × List (Entry σ Op Resp)
  | .done a, s => (.returned a, s)
  | .raise e, s => (.raised e, s)
  | .await o k, s =>
    match (policy s.1 o).bind (act s.1 o) with
    | none => (.stopped, s)
    | some (r, s') => replay (k r) (s', ⟨s.1, o, r⟩ :: s.2)

theorem replay_sound (p : Prog Op Resp ε α) (s : σ × List (Entry σ Op Resp)) :
    Exec (traced fun s o r s' => ∃ a, act s o a = some (r, s')) p s
      (replay act policy p s).1 (replay act policy p s).2 := by
  induction p generalizing s with
  | done a => exact .done a s
  | raise e => exact .raise e s
  | await o k ih =>
    rw [replay]
    rcases hanswer : (policy s.1 o).bind (act s.1 o) with _ | answer
    · exact .stop _ s
    · obtain ⟨a, _, hact⟩ := Option.bind_eq_some_iff.mp hanswer
      exact .await ⟨⟨a, hact⟩, rfl⟩ (ih answer.1 (answer.2, ⟨s.1, o, answer.1⟩ :: s.2))

end Replay

/-! ## Interleaving -/

/-- Programs in flight over one state, each with a label, and what they performed so far,
latest first. -/
structure Pool (Lbl Op : Type) (Resp : Op → Type) (ε α σ : Type) where
  threads : List (Lbl × Prog Op Resp ε α)
  state : σ
  log : List (Lbl × Entry σ Op Resp)

/-- The pools reachable from some programs in flight over a state: a program that may start is
added, or one of the programs in flight performs its next operation. -/
inductive Pool.Reach {Lbl : Type} (step : σ → (o : Op) → Resp o → σ → Prop)
    (spawn : σ → Lbl → Prog Op Resp ε α → Prop) (threads₀ : List (Lbl × Prog Op Resp ε α))
    (init : σ) : Pool Lbl Op Resp ε α σ → Prop
  | init : Reach step spawn threads₀ init ⟨threads₀, init, []⟩
  | spawn {threads s log l p} (hreach : Reach step spawn threads₀ init ⟨threads, s, log⟩)
      (hspawn : spawn s l p) : Reach step spawn threads₀ init ⟨(l, p) :: threads, s, log⟩
  | step {before after l o k s s' log r}
      (hreach : Reach step spawn threads₀ init ⟨before ++ (l, .await o k) :: after, s, log⟩)
      (hstep : step s o r s') :
      Reach step spawn threads₀ init ⟨before ++ (l, k r) :: after, s', (l, ⟨s, o, r⟩) :: log⟩

section Reach

variable {Lbl : Type} {step : σ → (o : Op) → Resp o → σ → Prop}
variable {spawn : σ → Lbl → Prog Op Resp ε α → Prop} {threads₀ : List (Lbl × Prog Op Resp ε α)}
variable {init : σ} {P : Pool Lbl Op Resp ε α σ}

/-- **The invariant rule for interleaved programs.**  `I` is about the state and the log,
`T` about one program in flight; a program must keep its own `T` and `I`, and the `T` of
every other.  Any two programs in flight have labels that are `apart`. -/
theorem Pool.Reach.invariant_apart (apart : Lbl → Lbl → Prop)
    (hsymm : ∀ l l', apart l l' → apart l' l)
    (I : σ → List (Lbl × Entry σ Op Resp) → Prop)
    (T : σ → List (Lbl × Entry σ Op Resp) → Lbl → Prog Op Resp ε α → Prop)
    (hapart : threads₀.Pairwise fun t t' => apart t.1 t'.1)
    (hinit : I init []) (hthreads : ∀ t ∈ threads₀, T init [] t.1 t.2)
    (hspawn : ∀ {s log l p}, I s log → spawn s l p → (∀ l', apart l l') ∧ T s log l p)
    (hown : ∀ {s log l o k r s'}, I s log → T s log l (.await o k) → step s o r s' →
      I s' ((l, ⟨s, o, r⟩) :: log) ∧ T s' ((l, ⟨s, o, r⟩) :: log) l (k r))
    (hother : ∀ {s log l o k r s' l' p'}, I s log → T s log l (.await o k) → step s o r s' →
      apart l l' → T s log l' p' → T s' ((l, ⟨s, o, r⟩) :: log) l' p')
    (hreach : Pool.Reach step spawn threads₀ init P) :
    I P.state P.log ∧ (∀ t ∈ P.threads, T P.state P.log t.1 t.2) ∧
      P.threads.Pairwise fun t t' => apart t.1 t'.1 := by
  induction hreach with
  | init => exact ⟨hinit, hthreads, hapart⟩
  | spawn _ hsp ih =>
    obtain ⟨hI, hT, hpair⟩ := ih
    obtain ⟨hnew, hTnew⟩ := hspawn hI hsp
    refine ⟨hI, fun t ht => ?_, List.pairwise_cons.mpr ⟨fun t _ => hnew t.1, hpair⟩⟩
    rcases List.mem_cons.mp ht with rfl | ht
    · exact hTnew
    · exact hT t ht
  | @step before after l o k s s' log r _ hstep ih =>
    obtain ⟨hI, hT, hpair⟩ := ih
    have hself := hT (l, .await o k) (by simp)
    obtain ⟨hI', hT'⟩ := hown hI hself hstep
    obtain ⟨hbefore, hafter, hcross⟩ := List.pairwise_append.mp hpair
    obtain ⟨hhead, htail⟩ := List.pairwise_cons.mp hafter
    refine ⟨hI', fun t ht => ?_, ?_⟩
    · rcases List.mem_append.mp ht with ht | ht
      · exact hother hI hself hstep (hsymm _ _ (hcross t ht _ (List.mem_cons_self ..)))
          (hT t (List.mem_append_left _ ht))
      · rcases List.mem_cons.mp ht with rfl | ht
        · exact hT'
        · exact hother hI hself hstep (hhead t ht)
            (hT t (List.mem_append_right _ (List.mem_cons_of_mem _ ht)))
    · refine List.pairwise_append.mpr ⟨hbefore, List.pairwise_cons.mpr ⟨hhead, htail⟩, ?_⟩
      intro t ht t' ht'
      rcases List.mem_cons.mp ht' with rfl | ht'
      · exact hcross t ht (l, .await o k) (List.mem_cons_self ..)
      · exact hcross t ht t' (List.mem_cons_of_mem _ ht')

theorem Pool.Reach.invariant_solo (solo : Lbl → Prop)
    (I : σ → List (Lbl × Entry σ Op Resp) → Prop)
    (T : σ → List (Lbl × Entry σ Op Resp) → Lbl → Prog Op Resp ε α → Prop)
    (hsolo : threads₀.Pairwise fun t t' => ¬ (solo t.1 ∧ solo t'.1))
    (hinit : I init []) (hthreads : ∀ t ∈ threads₀, T init [] t.1 t.2)
    (hspawn : ∀ {s log l p}, I s log → spawn s l p → ¬ solo l ∧ T s log l p)
    (hown : ∀ {s log l o k r s'}, I s log → T s log l (.await o k) → step s o r s' →
      I s' ((l, ⟨s, o, r⟩) :: log) ∧ T s' ((l, ⟨s, o, r⟩) :: log) l (k r))
    (hother : ∀ {s log l o k r s' l' p'}, I s log → T s log l (.await o k) → step s o r s' →
      ¬ (solo l ∧ solo l') → T s log l' p' → T s' ((l, ⟨s, o, r⟩) :: log) l' p')
    (hreach : Pool.Reach step spawn threads₀ init P) :
    I P.state P.log ∧ (∀ t ∈ P.threads, T P.state P.log t.1 t.2) ∧
      P.threads.Pairwise fun t t' => ¬ (solo t.1 ∧ solo t'.1) := by
  refine hreach.invariant_apart (fun l l' => ¬ (solo l ∧ solo l')) (fun _ _ h h' => h h'.symm)
    I T hsolo hinit hthreads (fun hI hsp => ?_) hown hother
  obtain ⟨hnew, hTnew⟩ := hspawn hI hsp
  exact ⟨fun _ h => hnew h.1, hTnew⟩

theorem Pool.Reach.invariant (I : σ → List (Lbl × Entry σ Op Resp) → Prop)
    (T : σ → List (Lbl × Entry σ Op Resp) → Lbl → Prog Op Resp ε α → Prop)
    (hinit : I init []) (hthreads : ∀ t ∈ threads₀, T init [] t.1 t.2)
    (hspawn : ∀ {s log l p}, I s log → spawn s l p → T s log l p)
    (hown : ∀ {s log l o k r s'}, I s log → T s log l (.await o k) → step s o r s' →
      I s' ((l, ⟨s, o, r⟩) :: log) ∧ T s' ((l, ⟨s, o, r⟩) :: log) l (k r))
    (hother : ∀ {s log l o k r s' l' p'}, I s log → T s log l (.await o k) → step s o r s' →
      T s log l' p' → T s' ((l, ⟨s, o, r⟩) :: log) l' p')
    (hreach : Pool.Reach step spawn threads₀ init P) :
    I P.state P.log ∧ ∀ t ∈ P.threads, T P.state P.log t.1 t.2 := by
  have hrule := hreach.invariant_solo (fun _ => False) I T
    (List.pairwise_of_forall fun _ _ h => h.1) hinit hthreads
    (fun hI hsp => ⟨id, hspawn hI hsp⟩) hown (fun hI hT hstep _ hT' => hother hI hT hstep hT')
  exact ⟨hrule.1, hrule.2.1⟩

/-- A condition on every performed operation: on what was performed before it, and on the state
it left. -/
def Pool.Along (C : List (Lbl × Entry σ Op Resp) → Lbl × Entry σ Op Resp → σ → Prop) :
    σ → List (Lbl × Entry σ Op Resp) → Prop
  | _, [] => True
  | s, e :: log => C log e s ∧ Pool.Along C e.2.before log

instance Pool.Along.decidable
    {C : List (Lbl × Entry σ Op Resp) → Lbl × Entry σ Op Resp → σ → Prop}
    [∀ before e s, Decidable (C before e s)] (s : σ) :
    (log : List (Lbl × Entry σ Op Resp)) → Decidable (Pool.Along C s log)
  | [] => .isTrue trivial
  | e :: log =>
    have := Pool.Along.decidable (C := C) e.2.before log
    inferInstanceAs (Decidable (C log e s ∧ Pool.Along C e.2.before log))

variable {C : List (Lbl × Entry σ Op Resp) → Lbl × Entry σ Op Resp → σ → Prop}
  {log : List (Lbl × Entry σ Op Resp)}
  {C' : List (Lbl × Entry σ Op Resp) → Lbl × Entry σ Op Resp → σ → Prop}

theorem Pool.Along.of_suffix {s : σ} {before : List (Lbl × Entry σ Op Resp)}
    {e : Lbl × Entry σ Op Resp} (h : Pool.Along C s log) (hsuffix : e :: before <:+ log) :
    (∃ s', C before e s') ∧ Pool.Along C e.2.before before := by
  induction log generalizing s with
  | nil => simp at hsuffix
  | cons x log ih =>
    rcases List.suffix_cons_iff.mp hsuffix with heq | hsuffix
    · cases heq
      exact ⟨⟨s, h.1⟩, h.2⟩
    · exact ih h.2 hsuffix

theorem Pool.Reach.invariant_along (I : σ → List (Lbl × Entry σ Op Resp) → Prop)
    (T : σ → List (Lbl × Entry σ Op Resp) → Lbl → Prog Op Resp ε α → Prop) (hinit : I init [])
    (hthreads : ∀ t ∈ threads₀, T init [] t.1 t.2)
    (hspawn : ∀ {s log l p}, I s log → spawn s l p → T s log l p)
    (hown : ∀ {s log l o k r s'}, I s log → T s log l (.await o k) → step s o r s' → C log (l, ⟨s, o, r⟩) s' → I s' ((l, ⟨s, o, r⟩) :: log) ∧ T s' ((l, ⟨s, o, r⟩) :: log) l (k r))
    (hother : ∀ {s log l o k r s' l' p'}, I s log → T s log l (.await o k) → step s o r s' → C log (l, ⟨s, o, r⟩) s' → T s log l' p' → T s' ((l, ⟨s, o, r⟩) :: log) l' p')
    (hreach : Pool.Reach step spawn threads₀ init P) (hcond : Pool.Along C P.state P.log) :
    I P.state P.log ∧ ∀ t ∈ P.threads, T P.state P.log t.1 t.2 := by
  have hrule := hreach.invariant
    (fun s log => Pool.Along C s log → I s log)
    (fun s log l p => Pool.Along C s log → I s log → T s log l p)
    (fun _ => hinit) (fun t ht _ _ => hthreads t ht)
    (fun hI hsp hC _ => hspawn (hI hC) hsp)
    (fun hI hT hstep =>
      ⟨fun hC => (hown (hI hC.2) (hT hC.2 (hI hC.2)) hstep hC.1).1,
        fun hC _ => (hown (hI hC.2) (hT hC.2 (hI hC.2)) hstep hC.1).2⟩)
    (fun hI hT hstep hT' hC _ =>
      hother (hI hC.2) (hT hC.2 (hI hC.2)) hstep hC.1 (hT' hC.2 (hI hC.2)))
  exact ⟨hrule.1 hcond, fun t ht => hrule.2 t ht hcond (hrule.1 hcond)⟩

theorem Pool.Reach.invariant_apart_along (apart : Lbl → Lbl → Prop)
    (hsymm : ∀ l l', apart l l' → apart l' l) (I : σ → List (Lbl × Entry σ Op Resp) → Prop)
    (T : σ → List (Lbl × Entry σ Op Resp) → Lbl → Prog Op Resp ε α → Prop)
    (hapart : threads₀.Pairwise fun t t' => apart t.1 t'.1) (hinit : I init [])
    (hthreads : ∀ t ∈ threads₀, T init [] t.1 t.2) (hspawn : ∀ s l p, ¬spawn s l p)
    (hown : ∀ {s log l o k r s'}, I s log → T s log l (.await o k) → step s o r s' → C log (l, ⟨s, o, r⟩) s' → I s' ((l, ⟨s, o, r⟩) :: log) ∧ T s' ((l, ⟨s, o, r⟩) :: log) l (k r))
    (hother : ∀ {s log l o k r s' l' p'}, I s log → T s log l (.await o k) → step s o r s' → C log (l, ⟨s, o, r⟩) s' → apart l l' → T s log l' p' → T s' ((l, ⟨s, o, r⟩) :: log) l' p')
    (hreach : Pool.Reach step spawn threads₀ init P) (hcond : Pool.Along C P.state P.log) :
    I P.state P.log ∧ ∀ t ∈ P.threads, T P.state P.log t.1 t.2 := by
  have hrule := hreach.invariant_apart apart hsymm
    (fun s log => Pool.Along C s log → I s log)
    (fun s log l p => Pool.Along C s log → I s log → T s log l p)
    hapart (fun _ => hinit) (fun t ht _ _ => hthreads t ht)
    (fun _ hsp => absurd hsp (hspawn _ _ _))
    (fun hI hT hstep =>
      ⟨fun hC => (hown (hI hC.2) (hT hC.2 (hI hC.2)) hstep hC.1).1,
        fun hC _ => (hown (hI hC.2) (hT hC.2 (hI hC.2)) hstep hC.1).2⟩)
    (fun hI hT hstep hlabels hT' hC _ =>
      hother (hI hC.2) (hT hC.2 (hI hC.2)) hstep hC.1 hlabels (hT' hC.2 (hI hC.2)))
  exact ⟨hrule.1 hcond, fun t ht => hrule.2.1 t ht hcond (hrule.1 hcond)⟩

theorem Pool.Along.and {s : σ} (h : Pool.Along C s log) (h' : Pool.Along C' s log) :
    Pool.Along (fun log e s' => C log e s' ∧ C' log e s') s log := by
  induction log generalizing s with
  | nil => trivial
  | cons e log ih => exact ⟨⟨h.1, h'.1⟩, ih h.2 h'.2⟩

theorem Pool.Along.imp_mem {s : σ} (h : Pool.Along C s log)
    (himp : ∀ before e s', e ∈ log → C before e s' → C' before e s') : Pool.Along C' s log := by
  induction log generalizing s with
  | nil => trivial
  | cons e log ih =>
    exact ⟨himp _ _ _ List.mem_cons_self h.1,
      ih h.2 fun before e' s' he => himp before e' s' (List.mem_cons_of_mem _ he)⟩

theorem Pool.Reach.along_step (hreach : Pool.Reach step spawn threads₀ init P) :
    Pool.Along (fun _ e s' => step e.2.before e.2.op e.2.resp s') P.state P.log :=
  (hreach.invariant
    (fun s log => Pool.Along (fun _ e s' => step e.2.before e.2.op e.2.resp s') s log)
    (fun _ _ _ _ => True) trivial (fun _ _ => trivial) (fun _ _ => trivial)
    (fun halong _ hstep => ⟨⟨hstep, halong⟩, trivial⟩) fun _ _ _ _ => trivial).1

theorem Pool.Along.imp_forall {X : Type}
    {C : X → List (Lbl × Entry σ Op Resp) → Lbl × Entry σ Op Resp → σ → Prop} {s : σ}
    (h : ∀ x, Pool.Along (C x) s log) (himp : ∀ log e s', (∀ x, C x log e s') → C' log e s') :
    Pool.Along C' s log := by
  induction log generalizing s with
  | nil => trivial
  | cons e log ih => exact ⟨himp _ _ _ fun x => (h x).1, ih fun x => (h x).2⟩

def Pool.own {K : Type} [DecidableEq K] (who : Lbl → K) (client : K)
    (log : List (Lbl × Entry σ Op Resp)) : List (Entry σ Op Resp) :=
  (log.filter fun e => who e.1 = client).map Prod.snd

theorem Pool.mem_own {K : Type} [DecidableEq K] {who : Lbl → K} {client : K} {e : Entry σ Op Resp} :
    e ∈ Pool.own who client log ↔ ∃ l, (l, e) ∈ log ∧ who l = client := by
  simp [Pool.own]

theorem Pool.own_first {K : Type} [DecidableEq K] {who : Lbl → K} {client : K}
    {rest : List (Entry σ Op Resp)} {first : Entry σ Op Resp}
    (h : Pool.own who client log = rest ++ [first]) :
    ∃ later l earlier, log = later ++ (l, first) :: earlier ∧ who l = client ∧
      ∀ p ∈ earlier, who p.1 ≠ client := by
  induction log generalizing rest with
  | nil => simp [Pool.own] at h
  | cons e log ih =>
    by_cases hwho : who e.1 = client
    · have hcons : Pool.own who client (e :: log) = e.2 :: Pool.own who client log := by
        simp [Pool.own, hwho]
      rw [hcons] at h
      rcases rest with _ | ⟨x, rest⟩
      · obtain ⟨hfirst, hnil⟩ := List.cons_eq_cons.mp h
        refine ⟨[], e.1, log, by rw [← hfirst]; rfl, hwho, fun p hp hclient => ?_⟩
        have hmem := Pool.mem_own.mpr ⟨p.1, hp, hclient⟩
        rw [hnil] at hmem
        cases hmem
      · obtain ⟨later, l, earlier, hlog, hrest⟩ := ih (List.cons_eq_cons.mp h).2
        exact ⟨e :: later, l, earlier, by rw [hlog]; rfl, hrest⟩
    · have hskip : Pool.own who client (e :: log) = Pool.own who client log := by
        simp [Pool.own, hwho]
      rw [hskip] at h
      obtain ⟨later, l, earlier, hlog, hrest⟩ := ih h
      exact ⟨e :: later, l, earlier, by rw [hlog]; rfl, hrest⟩

/-- One operation of a client that only sees what it performs itself. -/
def Pool.OwnStep (step : σ → (o : Op) → Resp o → σ → Prop) (own : List (Entry σ Op Resp)) (o : Op)
    (r : Resp o) (own' : List (Entry σ Op Resp)) : Prop :=
  ∃ s s', step s o r s' ∧ own' = ⟨s, o, r⟩ :: own

/-- **Every client keeps to what it does alone**, whatever the others do in between: what is safe
to ask in view of one's own operations is asked so in every interleaving. -/
theorem Pool.Reach.own_safe {K : Type} [DecidableEq K] (who : Lbl → K)
    (may : Lbl → List (Entry σ Op Resp) → Op → Prop) (Q : Lbl → α → List (Entry σ Op Resp) → Prop)
    (E : Lbl → ε → List (Entry σ Op Resp) → Prop)
    (hdistinct : threads₀.Pairwise fun t t' => who t.1 ≠ who t'.1)
    (hsafe : ∀ t ∈ threads₀, Safe (Pool.OwnStep step) (may t.1) t.2 [] (Q t.1) (E t.1))
    (hreach : Pool.Reach step (fun _ _ _ => False) threads₀ init P) :
    Pool.Along (fun log e _ => may e.1 (Pool.own who (who e.1) log) e.2.op) P.state P.log ∧
      ∀ t ∈ P.threads, Safe (Pool.OwnStep step) (may t.1) t.2 (Pool.own who (who t.1) P.log)
        (Q t.1) (E t.1) := by
  have hrule := hreach.invariant_apart (fun l l' => who l ≠ who l') (fun _ _ h => h.symm)
    (fun s log => Pool.Along (fun log e _ => may e.1 (Pool.own who (who e.1) log) e.2.op) s log)
    (fun _ log l p => Safe (Pool.OwnStep step) (may l) p (Pool.own who (who l) log) (Q l) (E l))
    hdistinct trivial hsafe (fun _ h => h.elim)
    (fun {s log l o k r s'} halong hT hstep => by
      refine ⟨⟨hT.1, halong⟩, ?_⟩
      have howns : Pool.own who (who l) ((l, ⟨s, o, r⟩) :: log) =
          ⟨s, o, r⟩ :: Pool.own who (who l) log := by simp [Pool.own]
      rw [howns]
      exact hT.2 r _ ⟨s, s', hstep, rfl⟩)
    (fun {s log l o k r s' l' p'} _ _ _ hne hT => by
      have howns : Pool.own who (who l') ((l, ⟨s, o, r⟩) :: log) =
          Pool.own who (who l') log := by simp [Pool.own, hne]
      rw [howns]
      exact hT)
  exact ⟨hrule.1, hrule.2.1⟩

theorem Pool.Reach.mono {step' : σ → (o : Op) → Resp o → σ → Prop}
    (hstep : ∀ s o r s', step s o r s' → step' s o r s')
    (hreach : Pool.Reach step spawn threads₀ init P) :
    Pool.Reach step' spawn threads₀ init P := by
  induction hreach with
  | init => exact .init
  | spawn _ hspawn ih => exact .spawn ih hspawn
  | step _ h ih => exact .step ih (hstep _ _ _ _ h)

theorem Pool.Reach.ended {l : Lbl} {a : α} (hdone : (l, Prog.done a) ∈ threads₀)
    (hreach : Pool.Reach step spawn threads₀ init P) : (l, Prog.done a) ∈ P.threads := by
  induction hreach with
  | init => exact hdone
  | spawn _ _ ih => exact List.mem_cons_of_mem _ ih
  | step _ _ ih =>
    rcases List.mem_append.mp ih with h | h
    · exact List.mem_append_left _ h
    · rcases List.mem_cons.mp h with h | h
      · cases h
      · exact List.mem_append_right _ (List.mem_cons_of_mem _ h)

theorem Pool.Reach.trans {P' : Pool Lbl Op Resp ε α σ}
    (hreach : Pool.Reach step spawn threads₀ init P)
    (hreach' : Pool.Reach step spawn P.threads P.state P') :
    Pool.Reach step spawn threads₀ init ⟨P'.threads, P'.state, P'.log ++ P.log⟩ := by
  induction hreach' with
  | init => exact hreach
  | spawn _ hspawn ih => exact .spawn ih hspawn
  | step _ hstep ih => exact .step ih hstep

theorem Pool.Reach.of_suffix (hreach : Pool.Reach step spawn threads₀ init P) {l : Lbl}
    {e : Entry σ Op Resp} {before : List (Lbl × Entry σ Op Resp)}
    (hsuffix : (l, e) :: before <:+ P.log) :
    (∃ threads, Pool.Reach step spawn threads₀ init ⟨threads, e.before, before⟩) ∧
      ∃ s', step e.before e.op e.resp s' := by
  induction hreach with
  | init => simp at hsuffix
  | spawn _ _ ih => exact ih hsuffix
  | step hreach hstep ih =>
    rcases List.suffix_cons_iff.mp hsuffix with heq | hsuffix
    · cases heq
      exact ⟨⟨_, hreach⟩, _, hstep⟩
    · exact ih hsuffix

end Reach

/-! ### An executable schedule -/

namespace Pool

variable {Lbl A : Type} (act : σ → (o : Op) → A → Option (Resp o × σ))
variable (policy : Lbl → σ → Op → Option A)

/-- One program in flight performs its next operation. -/
def tick (i : ℕ) (P : Pool Lbl Op Resp ε α σ) : Option (Pool Lbl Op Resp ε α σ) :=
  match P.threads[i]? with
  | some (l, .await o k) =>
    (policy l P.state o).bind fun a =>
      (act P.state o a).map fun (r, s') =>
        ⟨P.threads.set i (l, k r), s', (l, ⟨P.state, o, r⟩) :: P.log⟩
  | _ => none

/-- Up to `n` operations of one program. -/
def ticks (i : ℕ) : ℕ → Pool Lbl Op Resp ε α σ → Pool Lbl Op Resp ε α σ
  | 0, P => P
  | n + 1, P =>
    match tick act policy i P with
    | some P' => ticks i n P'
    | none => P

def add (l : Lbl) (p : Prog Op Resp ε α) (P : Pool Lbl Op Resp ε α σ) :
    Pool Lbl Op Resp ε α σ :=
  { P with threads := (l, p) :: P.threads }

variable {act policy} {spawn : σ → Lbl → Prog Op Resp ε α → Prop}
variable {threads₀ : List (Lbl × Prog Op Resp ε α)} {init : σ}

theorem Reach.tick {i : ℕ} {P P' : Pool Lbl Op Resp ε α σ}
    (hreach : Reach (fun s o r s' => ∃ a, act s o a = some (r, s')) spawn threads₀ init P)
    (htick : P.tick act policy i = some P') :
    Reach (fun s o r s' => ∃ a, act s o a = some (r, s')) spawn threads₀ init P' := by
  unfold Pool.tick at htick
  split at htick
  · rename_i l o k hget
    simp only [Option.bind_eq_some_iff, Option.map_eq_some_iff] at htick
    obtain ⟨a, _, ⟨r, s'⟩, hact, rfl⟩ := htick
    obtain ⟨hi, hget⟩ := List.getElem?_eq_some_iff.mp hget
    obtain ⟨threads, state, log⟩ := P
    have hsplit : threads = threads.take i ++ (l, .await o k) :: threads.drop (i + 1) := by
      rw [← hget, List.getElem_cons_drop, List.take_append_drop]
    rw [hsplit] at hreach
    have := Reach.step hreach ⟨a, hact⟩
    rwa [List.set_eq_take_append_cons_drop, if_pos hi]
  · cases htick

theorem Reach.ticks {i : ℕ} (n : ℕ) {P : Pool Lbl Op Resp ε α σ}
    (hreach : Reach (fun s o r s' => ∃ a, act s o a = some (r, s')) spawn threads₀ init P) :
    Reach (fun s o r s' => ∃ a, act s o a = some (r, s')) spawn threads₀ init
      (P.ticks act policy i n) := by
  induction n generalizing P with
  | zero => exact hreach
  | succ n ih =>
    rw [Pool.ticks]
    rcases htick : P.tick act policy i with _ | P'
    · exact hreach
    · exact ih (hreach.tick htick)

theorem forall_log_ticks {F : Lbl × Entry σ Op Resp → Prop}
    (hF : ∀ l s o a r s', policy l s o = some a → act s o a = some (r, s') → F (l, ⟨s, o, r⟩))
    {i : ℕ} (n : ℕ) {P : Pool Lbl Op Resp ε α σ} (hlog : ∀ e ∈ P.log, F e) :
    ∀ e ∈ (P.ticks act policy i n).log, F e := by
  induction n generalizing P with
  | zero => exact hlog
  | succ n ih =>
    rw [Pool.ticks]
    rcases htick : P.tick act policy i with _ | P'
    · exact hlog
    · refine ih fun e he => ?_
      unfold Pool.tick at htick
      split at htick
      · simp only [Option.bind_eq_some_iff, Option.map_eq_some_iff] at htick
        obtain ⟨a, hpol, ⟨r, s'⟩, hact, rfl⟩ := htick
        rcases List.mem_cons.mp he with rfl | he
        · exact hF _ _ _ _ _ _ hpol hact
        · exact hlog e he
      · cases htick

theorem Reach.add {step : σ → (o : Op) → Resp o → σ → Prop} {l : Lbl} {p : Prog Op Resp ε α}
    {P : Pool Lbl Op Resp ε α σ} (hreach : Reach step spawn threads₀ init P)
    (hspawn : spawn P.state l p) : Reach step spawn threads₀ init (P.add l p) :=
  .spawn hreach hspawn

def returned (P : Pool Lbl Op Resp ε α σ) (i : ℕ) : Option α :=
  match P.threads[i]? with
  | some (_, .done a) => some a
  | _ => none

def Quiescent (P : Pool Lbl Op Resp ε α σ) : Prop :=
  P.threads.all (fun t => t.2.ended) = true

end Pool

end Async
