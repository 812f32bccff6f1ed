import Mathlib.Algebra.Ring.Nat
import Mathlib.Data.List.Basic
import Mathlib.Logic.Relation

/-!
# Tasks that are gathered

Tasks that are started together wait for one of the places of a semaphore, run, and finish in any
order.  What is gathered are their results in the order of the tasks (`Reach.returned`).  With one
place or more the tasks come to rest only when all of them have finished (`Reach.finished_of_rest`),
and they do come to rest, since every step gets a task further (`Step.left_lt`).
-/

namespace Gather

universe u

variable {ρ : Type u}

inductive Slot (ρ : Type u) where
  | waiting
  | running
  | finished (r : ρ)

namespace Slot

def isRunning : Slot ρ → Bool
  | .running => true
  | _ => false

def left : Slot ρ → ℕ
  | .waiting => 2
  | .running => 1
  | .finished _ => 0

end Slot

inductive Step (places : ℤ) (results : List ρ) : List (Slot ρ) → List (Slot ρ) → Prop
  | start {slots : List (Slot ρ)} {i : ℕ} (htask : slots[i]? = some .waiting)
      (hroom : (slots.countP Slot.isRunning : ℤ) < places) :
      Step places results slots (slots.set i .running)
  | finish {slots : List (Slot ρ)} {i : ℕ} {r : ρ} (htask : slots[i]? = some .running)
      (hresult : results[i]? = some r) : Step places results slots (slots.set i (.finished r))

/-- What can be reached from the start, where all tasks wait. -/
def Reach (places : ℤ) (results : List ρ) : List (Slot ρ) → Prop :=
  Relation.ReflTransGen (Step places results) (results.map fun _ => .waiting)

def AtRest (places : ℤ) (results : List ρ) (slots : List (Slot ρ)) : Prop :=
  ∀ slots', ¬Step places results slots slots'

def AllFinished (slots : List (Slot ρ)) : Prop := ∀ slot ∈ slots, ∃ r, slot = .finished r

variable {places : ℤ} {results : List ρ} {slots slots' : List (Slot ρ)}

theorem sum_left_set {slot slot' : Slot ρ} {i : ℕ} (htask : slots[i]? = some slot)
    (hlt : slot'.left < slot.left) :
    ((slots.set i slot').map Slot.left).sum < (slots.map Slot.left).sum := by
  induction slots generalizing i with
  | nil => simp at htask
  | cons first rest ih =>
    cases i with
    | zero =>
      obtain rfl := Option.some_inj.mp htask
      simpa using hlt
    | succ i =>
      have hrest := ih htask
      simpa using hrest

theorem Step.left_lt (h : Step places results slots slots') :
    (slots'.map Slot.left).sum < (slots.map Slot.left).sum := by
  cases h with
  | start htask _ => exact sum_left_set htask (by simp [Slot.left])
  | finish htask _ => exact sum_left_set htask (by simp [Slot.left])

theorem exists_atRest (slots : List (Slot ρ)) :
    ∃ slots', Relation.ReflTransGen (Step places results) slots slots' ∧
      AtRest places results slots' := by
  induction hn : (slots.map Slot.left).sum using Nat.strongRecOn generalizing slots with
  | _ n ih =>
    by_cases hrest : AtRest places results slots
    · exact ⟨slots, .refl, hrest⟩
    · simp only [AtRest, not_forall, not_not] at hrest
      obtain ⟨next, hstep⟩ := hrest
      obtain ⟨slots', hreach, hrest⟩ := ih _ (hn ▸ hstep.left_lt) next rfl
      exact ⟨slots', .head hstep hreach, hrest⟩

theorem exists_reach_atRest (places : ℤ) (results : List ρ) :
    ∃ slots, Reach places results slots ∧ AtRest places results slots :=
  exists_atRest _

/-- A task that has finished has its own result. -/
structure Own (results : List ρ) (slots : List (Slot ρ)) : Prop where
  length_eq : slots.length = results.length
  own : ∀ (i : ℕ) (r : ρ), slots[i]? = some (.finished r) → results[i]? = some r

theorem Own.step (h : Own results slots) (hstep : Step places results slots slots') :
    Own results slots' := by
  cases hstep with
  | start htask _ =>
    refine ⟨by rw [List.length_set, h.length_eq], fun j r' hfinished => ?_⟩
    rw [List.getElem?_set] at hfinished
    split at hfinished
    · split at hfinished
      · cases hfinished
      · cases hfinished
    · exact h.own j r' hfinished
  | finish htask hresult =>
    refine ⟨by rw [List.length_set, h.length_eq], fun j r' hfinished => ?_⟩
    rw [List.getElem?_set] at hfinished
    split at hfinished
    · split at hfinished
      · rename_i hij _
        obtain rfl := Slot.finished.inj (Option.some_inj.mp hfinished)
        exact hij ▸ hresult
      · cases hfinished
    · exact h.own j r' hfinished

theorem Reach.own (h : Reach places results slots) : Own results slots := by
  induction h with
  | refl =>
    refine ⟨List.length_map _, fun i r hfinished => ?_⟩
    rw [List.getElem?_map] at hfinished
    rcases hr : results[i]? with _ | r'
    · rw [hr] at hfinished
      cases hfinished
    · rw [hr] at hfinished
      cases hfinished
  | tail _ hstep ih => exact ih.step hstep

/-- **In the order of the tasks.**  Whichever task finishes first, what is gathered are the results
in their order. -/
theorem Reach.returned (h : Reach places results slots) (hall : AllFinished slots) :
    slots = results.map .finished := by
  refine List.ext_getElem? fun i => ?_
  rw [List.getElem?_map]
  rcases hslot : slots[i]? with _ | slot
  · rw [List.getElem?_eq_none_iff, h.own.length_eq, ← List.getElem?_eq_none_iff] at hslot
    rw [hslot]
    rfl
  · obtain ⟨r, rfl⟩ := hall slot (List.mem_of_getElem? hslot)
    rw [h.own.own i r hslot]
    rfl

theorem Reach.results_eq {gathered : List ρ}
    (h : Reach places results (gathered.map .finished)) : gathered = results := by
  have hall : AllFinished (gathered.map .finished) := by
    intro slot hslot
    obtain ⟨r, -, rfl⟩ := List.mem_map.mp hslot
    exact ⟨r, rfl⟩
  exact List.map_injective_iff.mpr (fun r r' => Slot.finished.inj) (h.returned hall)

/-- **No task is left.** -/
theorem Reach.finished_of_rest (h : Reach places results slots) (hplaces : 1 ≤ places)
    (hrest : AtRest places results slots) : AllFinished slots := by
  have hnone : ∀ slot ∈ slots, slot.isRunning = false := by
    intro slot hslot
    obtain ⟨i, hi⟩ := List.mem_iff_getElem?.mp hslot
    cases slot with
    | waiting => rfl
    | finished r => rfl
    | running =>
      have hlt : i < results.length := by
        rw [← h.own.length_eq]
        exact (List.getElem?_eq_some_iff.mp hi).1
      exact absurd (.finish hi (List.getElem?_eq_getElem hlt)) (hrest _)
  have hcount : slots.countP Slot.isRunning = 0 :=
    List.countP_eq_zero.mpr fun slot hslot => by rw [hnone slot hslot]; exact Bool.false_ne_true
  intro slot hslot
  obtain ⟨i, hi⟩ := List.mem_iff_getElem?.mp hslot
  cases hkind : slot with
  | finished r => exact ⟨r, rfl⟩
  | running => exact absurd (hkind ▸ hnone slot hslot) (by simp [Slot.isRunning])
  | waiting => exact absurd (.start (hkind ▸ hi) (by omega)) (hrest _)

theorem atRest_start (hplaces : places ≤ 0) :
    AtRest places results (results.map fun _ => .waiting) := by
  rintro slots' (⟨-, hroom⟩ | ⟨htask, -⟩)
  · omega
  · rw [List.getElem?_map, Option.map_eq_some_iff] at htask
    obtain ⟨r, -, hr⟩ := htask
    cases hr

theorem Reach.eq_start (h : Reach places results slots) (hplaces : places ≤ 0) :
    slots = results.map fun _ => .waiting := by
  induction h with
  | refl => rfl
  | tail _ hstep ih =>
    subst ih
    exact absurd hstep (atRest_start hplaces _)

theorem allFinished_start_iff :
    AllFinished (results.map fun _ => (.waiting : Slot ρ)) ↔ results = [] := by
  rcases results with _ | ⟨r, rest⟩
  · exact iff_of_true (fun slot h => absurd h List.not_mem_nil) rfl
  · refine iff_of_false (fun h => ?_) (List.cons_ne_nil _ _)
    obtain ⟨r', hr⟩ := h .waiting List.mem_cons_self
    cases hr

end Gather
