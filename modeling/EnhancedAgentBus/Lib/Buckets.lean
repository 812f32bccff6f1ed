import EnhancedAgentBus.Lib.Dict
import Mathlib.Data.Finset.Basic

/-!
# Sets under keys

An index is a dictionary of sets: under each key, the members that were added and not discarded.  A
set is dropped with its last member, so that the dictionary says nothing of a key without members.

`Buckets.mem_members_add` and `Buckets.mem_members_discard` say what is where after an operation,
and `Buckets.discard_add` that adding a new member can be undone.
-/

universe u v

namespace Buckets

variable {κ : Type u} {ν : Type v} [DecidableEq κ] [DecidableEq ν]

/-- `d.get(k, set())` -/
def members (d : Dict κ (Finset ν)) (k : κ) : Finset ν := (d.get k).getD ∅

/-- `d.setdefault(k, set()).add(v)` -/
def add (d : Dict κ (Finset ν)) (k : κ) (v : ν) : Dict κ (Finset ν) :=
  d.set k (insert v (members d k))

/-- `d[k].discard(v)`, and `del d[k]` if nothing is left there. -/
def discard (d : Dict κ (Finset ν)) (k : κ) (v : ν) : Dict κ (Finset ν) :=
  match d.get k with
  | none => d
  | some s => if s.erase v = ∅ then d.erase k else d.set k (s.erase v)

def NoneEmpty (d : Dict κ (Finset ν)) : Prop := ∀ k, d.get k ≠ some ∅

variable {d : Dict κ (Finset ν)} {k k' : κ} {v w : ν}

theorem mem_members_add :
    w ∈ members (add d k v) k' ↔ (k' = k ∧ w = v) ∨ w ∈ members d k' := by
  unfold members add
  rw [Dict.get_set]
  by_cases hk : k' = k
  · subst hk
    rw [if_pos rfl, Option.getD_some, Finset.mem_insert]
    simp [members]
  · rw [if_neg hk]
    simp [hk]

theorem members_discard_self : members (discard d k v) k = (members d k).erase v := by
  unfold members discard
  rcases hget : d.get k with _ | s
  · dsimp only
    rw [hget]
    rfl
  · dsimp only
    by_cases hs : s.erase v = ∅
    · rw [if_pos hs, Dict.get_erase, if_pos rfl, Option.getD_some, hs]
      rfl
    · rw [if_neg hs, Dict.get_set, if_pos rfl]
      rfl

theorem members_discard_of_ne (h : k' ≠ k) : members (discard d k v) k' = members d k' := by
  unfold members discard
  rcases d.get k with _ | s
  · rfl
  · dsimp only
    by_cases hs : s.erase v = ∅
    · rw [if_pos hs, Dict.get_erase, if_neg h]
    · rw [if_neg hs, Dict.get_set, if_neg h]

theorem mem_members_discard :
    w ∈ members (discard d k v) k' ↔ w ∈ members d k' ∧ ¬(k' = k ∧ w = v) := by
  by_cases hk : k' = k
  · subst hk
    rw [members_discard_self, Finset.mem_erase]
    simp [and_comm]
  · rw [members_discard_of_ne hk]
    simp [hk]

omit [DecidableEq ν] in
theorem noneEmpty_empty : NoneEmpty (Dict.empty : Dict κ (Finset ν)) := by
  intro k h
  cases h

theorem NoneEmpty.add (h : NoneEmpty d) (k : κ) (v : ν) : NoneEmpty (add d k v) := by
  intro k' heq
  rcases Dict.get_set_cases heq with ⟨-, heq⟩ | ⟨-, heq⟩
  · exact Finset.insert_ne_empty _ _ heq
  · exact h k' heq

theorem NoneEmpty.discard (h : NoneEmpty d) (k : κ) (v : ν) : NoneEmpty (discard d k v) := by
  intro k' heq
  unfold Buckets.discard at heq
  rcases hget : d.get k with _ | s
  · rw [hget] at heq
    exact h k' heq
  · rw [hget] at heq
    dsimp only at heq
    by_cases hs : s.erase v = ∅
    · rw [if_pos hs, Dict.get_erase] at heq
      by_cases hk : k' = k
      · rw [if_pos hk] at heq
        cases heq
      · rw [if_neg hk] at heq
        exact h k' heq
    · rw [if_neg hs] at heq
      rcases Dict.get_set_cases heq with ⟨-, heq⟩ | ⟨-, heq⟩
      · exact hs heq
      · exact h k' heq

theorem add_of_mem (h : v ∈ members d k) : add d k v = d := by
  unfold members at h
  unfold add members
  rcases hget : d.get k with _ | s
  · rw [hget] at h
    cases Finset.notMem_empty v h
  · rw [hget] at h
    have hv : v ∈ s := h
    rw [Option.getD_some, Finset.insert_eq_of_mem hv]
    exact Dict.set_of_get hget

/-- **Undoing.**  A new member that is discarded again leaves nothing behind. -/
theorem discard_add (hd : NoneEmpty d) (h : v ∉ members d k) : discard (add d k v) k v = d := by
  have herase : (insert v (members d k)).erase v = members d k := Finset.erase_insert h
  unfold discard add
  rw [Dict.get_set, if_pos rfl]
  dsimp only
  rw [herase, Dict.set_set]
  unfold members
  rcases hget : d.get k with _ | s
  · rw [Option.getD_none, if_pos rfl]
    exact Dict.erase_set_of_new hget
  · rw [Option.getD_some, if_neg fun hs : s = ∅ => hd k (hs ▸ hget)]
    exact Dict.set_of_get hget

end Buckets
