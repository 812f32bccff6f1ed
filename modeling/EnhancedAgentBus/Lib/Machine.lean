import Mathlib.Data.List.Basic
import Mathlib.Data.List.Induction

/-!
# Machines

A machine takes one step for each event.  What a run of it does is said of the state after a list of
events (`run`), what is asked of its events of the state that each of them finds (`Along`), and an
invariant is proved for one step (`Along.invariant`).

What a state remembers of its past is `Since`: something has happened, and nothing has undone it
since.  `since_iff` proves it of a property of the state from what one step does to the property.
-/

namespace Machine

universe u v

variable {σ : Type u} {ε : Type v} {step : σ → ε → σ} {cond cond' : σ → ε → Prop} {s : σ}

def run (step : σ → ε → σ) : σ → List ε → σ
  | s, [] => s
  | s, e :: es => run step (step s e) es

@[simp] theorem run_nil (s : σ) : run step s [] = s := rfl

@[simp] theorem run_cons (s : σ) (e : ε) (es : List ε) :
    run step s (e :: es) = run step (step s e) es := rfl

theorem run_append (s : σ) (es es' : List ε) :
    run step s (es ++ es') = run step (run step s es) es' := by
  induction es generalizing s with
  | nil => rfl
  | cons e es ih => exact ih (step s e)

/-- Every event meets a condition in the state that it finds. -/
def Along (step : σ → ε → σ) (cond : σ → ε → Prop) : σ → List ε → Prop
  | _, [] => True
  | s, e :: es => cond s e ∧ Along step cond (step s e) es

theorem along_append {es es' : List ε} :
    Along step cond s (es ++ es') ↔
      Along step cond s es ∧ Along step cond (run step s es) es' := by
  induction es generalizing s with
  | nil => simp [Along]
  | cons e es ih => simp only [List.cons_append, Along, run_cons, ih, and_assoc]

theorem Along.imp (inv : σ → Prop) {es : List ε} (h : Along step cond s es) (hs : inv s)
    (hstep : ∀ s e, inv s → cond s e → cond' s e ∧ inv (step s e)) : Along step cond' s es := by
  induction es generalizing s with
  | nil => trivial
  | cons e es ih =>
    obtain ⟨hcond', hinv⟩ := hstep s e hs h.1
    exact ⟨hcond', ih h.2 hinv⟩

theorem along_iff (inv : σ → Prop) {es : List ε} (hs : inv s)
    (hcond : ∀ s e, inv s → (cond s e ↔ cond' s e))
    (hstep : ∀ s e, inv s → cond s e → inv (step s e)) :
    Along step cond s es ↔ Along step cond' s es := by
  constructor
  · intro h
    exact h.imp inv hs fun s e hs he => ⟨(hcond s e hs).mp he, hstep s e hs he⟩
  · intro h
    refine h.imp inv hs fun s e hs he => ?_
    have hcond := (hcond s e hs).mpr he
    exact ⟨hcond, hstep s e hs hcond⟩

theorem Along.and {es : List ε} (h : Along step cond s es) (h' : Along step cond' s es) :
    Along step (fun s e => cond s e ∧ cond' s e) s es := by
  induction es generalizing s with
  | nil => trivial
  | cons e es ih => exact ⟨⟨h.1, h'.1⟩, ih h.2 h'.2⟩

theorem Along.and_forall {P : ε → Prop} {es : List ε} (h : Along step cond s es)
    (hes : ∀ e ∈ es, P e) : Along step (fun s e => cond s e ∧ P e) s es := by
  induction es generalizing s with
  | nil => trivial
  | cons e es ih =>
    exact ⟨⟨h.1, hes e (List.mem_cons_self ..)⟩, ih h.2 fun e' he' =>
      hes e' (List.mem_cons_of_mem e he')⟩

/-- **Invariants**: what holds at first, and is kept by every step that meets the condition, holds
at the end. -/
theorem Along.invariant (inv : σ → Prop) {es : List ε} (h : Along step cond s es) (hs : inv s)
    (hstep : ∀ s e, inv s → cond s e → inv (step s e)) : inv (run step s es) := by
  induction es generalizing s with
  | nil => exact hs
  | cons e es ih => exact ih h.2 (hstep s e hs h.1)

/-! ## The past -/

/-- An event of the kind `P` has happened, and none of the kind `Q` since. -/
def Since (step : σ → ε → σ) (s : σ) (P Q : σ → ε → Prop) (es : List ε) : Prop :=
  ∃ before e after, es = before ++ e :: after ∧ P (run step s before) e ∧
    ∀ between e' rest, after = between ++ e' :: rest →
      ¬Q (run step s (before ++ e :: between)) e'

/-- An event of the kind `P` has happened. -/
def Once (step : σ → ε → σ) (s : σ) (P : σ → ε → Prop) (es : List ε) : Prop :=
  ∃ before e after, es = before ++ e :: after ∧ P (run step s before) e

section Past

variable {P Q : σ → ε → Prop}

theorem since_nil : ¬Since step s P Q [] := by
  rintro ⟨before, e, after, heq, -⟩
  exact absurd heq (by simp)

theorem since_concat {es : List ε} {e : ε} :
    Since step s P Q (es ++ [e]) ↔
      P (run step s es) e ∨ Since step s P Q es ∧ ¬Q (run step s es) e := by
  constructor
  · rintro ⟨before, e', after, heq, hP, hQ⟩
    rcases List.eq_nil_or_concat after with rfl | ⟨after, last, rfl⟩
    · obtain ⟨rfl, hlast⟩ := List.append_inj' heq rfl
      obtain rfl := (List.cons.inj hlast).1
      exact .inl hP
    · rw [List.concat_eq_append] at heq hQ
      have heq' : es ++ [e] = before ++ e' :: after ++ [last] := by
        rw [heq, List.append_assoc, List.cons_append]
      obtain ⟨rfl, hlast⟩ := List.append_inj' heq' rfl
      obtain rfl := (List.cons.inj hlast).1
      refine .inr ⟨⟨before, e', after, rfl, hP, fun between e'' rest hsplit => ?_⟩, ?_⟩
      · exact hQ between e'' (rest ++ [e]) (by rw [hsplit, List.append_assoc, List.cons_append])
      · exact hQ after e [] rfl
  · rintro (hP | ⟨⟨before, e', after, rfl, hP, hQ⟩, hlast⟩)
    · exact ⟨es, e, [], rfl, hP, fun between e' rest h => absurd h (by simp)⟩
    · refine ⟨before, e', after ++ [e], by rw [List.append_assoc, List.cons_append], hP,
        fun between e'' rest hsplit => ?_⟩
      rcases List.eq_nil_or_concat rest with rfl | ⟨rest, last, rfl⟩
      · obtain ⟨rfl, he⟩ := List.append_inj' hsplit rfl
        obtain rfl := (List.cons.inj he).1
        exact hlast
      · rw [List.concat_eq_append] at hsplit
        have hsplit' : after ++ [e] = between ++ e'' :: rest ++ [last] := by
          rw [hsplit, List.append_assoc, List.cons_append]
        obtain ⟨rfl, -⟩ := List.append_inj' hsplit' rfl
        exact hQ between e'' rest rfl

/-- **What a state remembers.**  A property of the state that every step gives or takes away tells
what has happened since. -/
theorem since_iff (inv X : σ → Prop) (hs : inv s) (h0 : ¬X s)
    (hinv : ∀ s e, inv s → inv (step s e))
    (hX : ∀ s e, inv s → (X (step s e) ↔ P s e ∨ X s ∧ ¬Q s e)) (es : List ε) :
    inv (run step s es) ∧ (X (run step s es) ↔ Since step s P Q es) := by
  induction es using List.reverseRecOn with
  | nil => exact ⟨hs, iff_of_false h0 since_nil⟩
  | append_singleton es e ih =>
    obtain ⟨hinvEs, hXes⟩ := ih
    rw [run_append, since_concat]
    refine ⟨hinv _ e hinvEs, ?_⟩
    rw [show run step (run step s es) [e] = step (run step s es) e from rfl,
      hX _ e hinvEs, hXes]

end Past

end Machine
