import Mathlib.Data.Finset.Card
import Mathlib.Data.Fintype.Basic

/-!
# Forests

A relation from parents to their children is a forest when a child has one parent and nothing is
below itself.  Then what is below one child of a node is not below another (`sibling_unique`), and
over finitely many nodes the number of those below a node goes down from parent to child
(`size_lt`), which is what a recursion over the forest goes by.
-/

namespace Forest

open Relation

universe u

variable {α : Type u} {child : α → α → Prop}

/-- Children have one parent each, and nothing is below itself. -/
structure IsForest (child : α → α → Prop) : Prop where
  parent_unique : ∀ {p q c}, child p c → child q c → p = q
  acyclic : ∀ a, ¬ TransGen child a a

namespace IsForest

variable (h : IsForest child)

include h

theorem comparable {a b d : α} (ha : ReflTransGen child a d) (hb : ReflTransGen child b d) :
    ReflTransGen child a b ∨ ReflTransGen child b a := by
  have hunique : Relator.RightUnique (Function.swap child) :=
    fun _ _ _ hp hq => h.parent_unique hp hq
  rcases ReflTransGen.total_of_right_unique hunique (reflTransGen_swap.mpr ha)
    (reflTransGen_swap.mpr hb) with hab | hba
  · exact .inr (reflTransGen_swap.mp hab)
  · exact .inl (reflTransGen_swap.mp hba)

theorem eq_of_sibling {p a b : α} (ha : child p a) (hb : child p b)
    (hab : ReflTransGen child a b) : a = b := by
  rcases ReflTransGen.cases_tail hab with heq | ⟨q, haq, hqb⟩
  · exact heq.symm
  · obtain rfl := h.parent_unique hb hqb
    exact absurd (TransGen.head' ha haq) (h.acyclic p)

theorem sibling_unique {p a b d : α} (ha : child p a) (hb : child p b)
    (had : ReflTransGen child a d) (hbd : ReflTransGen child b d) : a = b := by
  rcases h.comparable had hbd with hab | hba
  · exact h.eq_of_sibling ha hb hab
  · exact (h.eq_of_sibling hb ha hba).symm

theorem not_above {p a : α} (ha : child p a) : ¬ ReflTransGen child a p :=
  fun hap => h.acyclic p (TransGen.head' ha hap)

end IsForest

open Classical in
/-- The number of nodes below a node. -/
noncomputable def size (child : α → α → Prop) (nodes : Finset α) (a : α) : ℕ :=
  (nodes.filter (TransGen child a)).card

theorem size_le (child : α → α → Prop) (nodes : Finset α) (a : α) :
    size child nodes a ≤ nodes.card := by
  classical
  exact Finset.card_filter_le _ _

theorem IsForest.size_lt (h : IsForest child) {nodes : Finset α} {a b : α} (hab : child a b)
    (hb : b ∈ nodes) : size child nodes b < size child nodes a := by
  classical
  refine Finset.card_lt_card (Finset.ssubset_iff_of_subset ?_ |>.mpr ⟨b, ?_, ?_⟩)
  · intro d hd
    rw [Finset.mem_filter] at hd ⊢
    exact ⟨hd.1, TransGen.head hab hd.2⟩
  · rw [Finset.mem_filter]
    exact ⟨hb, TransGen.single hab⟩
  · rw [Finset.mem_filter]
    exact fun hmem => h.acyclic b hmem.2

end Forest
