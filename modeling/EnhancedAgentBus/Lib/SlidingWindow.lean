import Mathlib.Algebra.Order.Group.Defs
import Mathlib.Algebra.Order.Group.Basic
import Mathlib.Data.List.Count
import Mathlib.Tactic.Abel

/-!
# Sliding windows

A list of instants, latest first, is spaced if each of them found fewer than `limit` others within
the window that it ends.  Then no interval of the window's width has more than `limit`, wherever it
begins (`Spaced.countP_Ico_le`, `Spaced.countP_Ioc_le`): its latest instant found all the others.
-/

namespace SlidingWindow

universe u

variable {T : Type u} [AddCommGroup T] [LinearOrder T]

/-- How many of the instants are within the window that ends at `now`. -/
def recent (width now : T) (times : List T) : ℕ := times.countP fun t => now - width < t

/-- Instants, latest first, each with fewer than `limit` others in the window that it ends. -/
def Spaced (width : T) (limit : ℤ) : List T → Prop
  | [] => True
  | now :: times => recent width now times < limit ∧ Spaced width limit times

variable {width : T} {limit : ℤ} {times : List T}

theorem Spaced.countP_le (h : Spaced width limit times) {p : T → Bool}
    (hp : ∀ t u, p t = true → p u = true → t - width < u) :
    (times.countP p : ℤ) ≤ max limit 0 := by
  induction times with
  | nil => simp
  | cons now times ih =>
    obtain ⟨hrecent, hrest⟩ := h
    rcases hnow : p now with _ | _
    · rw [List.countP_cons_of_neg (by simp [hnow])]
      exact ih hrest
    · have hle : times.countP p ≤ recent width now times :=
        List.countP_mono_left fun t _ ht => decide_eq_true (hp now t hnow ht)
      rw [List.countP_cons_of_pos hnow]
      refine le_max_of_le_left ?_
      omega

variable [IsOrderedAddMonoid T]

theorem Spaced.countP_Ico_le (h : Spaced width limit times) (start : T) :
    (times.countP (fun t => start ≤ t ∧ t < start + width) : ℤ) ≤ max limit 0 := by
  refine h.countP_le fun t u ht hu => ?_
  exact lt_of_lt_of_le (sub_lt_iff_lt_add.mpr (of_decide_eq_true ht).2) (of_decide_eq_true hu).1

theorem Spaced.countP_Ioc_le (h : Spaced width limit times) (start : T) :
    (times.countP (fun t => start < t ∧ t ≤ start + width) : ℤ) ≤ max limit 0 := by
  refine h.countP_le fun t u ht hu => ?_
  exact lt_of_le_of_lt (sub_le_iff_le_add.mpr (of_decide_eq_true ht).2) (of_decide_eq_true hu).1

end SlidingWindow
