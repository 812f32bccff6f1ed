import Mathlib.Data.List.Basic

/-!
# Paths written with separators

A path is a word, and a separator ends each of its components but the last.  One path lies *below*
another when it continues it after a separator, so `maci/x` lies below `maci` and `macix` does
not.

* `Paths.comparable` — two paths with a common descendant are comparable;
* `Paths.Joins` — the words that write a sequence of components, the separator chosen freely at
  each joint;
* `Paths.Joins.atOrBelow_head` — such a word lies at or below its first component.

Nothing is assumed of the components, which may contain separators themselves.
-/

universe u

namespace Paths

variable {α : Type u} {sep : α → Prop} {p q r : List α}

/-- `p` lies strictly below `q`. -/
def Below (sep : α → Prop) (p q : List α) : Prop := ∃ c, sep c ∧ q ++ [c] <+: p

/-- `p` is `q` or lies below it. -/
def AtOrBelow (sep : α → Prop) (p q : List α) : Prop := p = q ∨ Below sep p q

def Related (sep : α → Prop) (p q : List α) : Prop := AtOrBelow sep p q ∨ AtOrBelow sep q p

theorem AtOrBelow.refl (sep : α → Prop) (p : List α) : AtOrBelow sep p p := Or.inl rfl

theorem Below.isPrefix (h : Below sep p q) : q <+: p := by
  obtain ⟨c, _, hc⟩ := h
  exact (List.prefix_append q [c]).trans hc

theorem Below.length_lt (h : Below sep p q) : q.length < p.length := by
  obtain ⟨c, _, hc⟩ := h
  have hlength := hc.length_le
  rw [List.length_append, List.length_singleton] at hlength
  exact hlength

theorem Below.trans (hpq : Below sep p q) (hqr : Below sep q r) : Below sep p r := by
  obtain ⟨c, hsep, hc⟩ := hqr
  exact ⟨c, hsep, hc.trans hpq.isPrefix⟩

theorem AtOrBelow.trans (hpq : AtOrBelow sep p q) (hqr : AtOrBelow sep q r) :
    AtOrBelow sep p r := by
  rcases hpq with rfl | hpq
  · exact hqr
  · rcases hqr with rfl | hqr
    · exact Or.inr hpq
    · exact Or.inr (hpq.trans hqr)

theorem Below.comparable (hp : Below sep r p) (hq : Below sep r q) : Related sep p q := by
  obtain ⟨c, hsepc, hc⟩ := hp
  obtain ⟨d, hsepd, hd⟩ := hq
  have shorter {p q : List α} {c d : α} (hsepc : sep c) (h : p ++ [c] <+: q ++ [d]) :
      AtOrBelow sep q p := by
    rcases List.prefix_concat_iff.mp h with heq | hinside
    · exact Or.inl (List.append_inj_left' heq rfl).symm
    · exact Or.inr ⟨c, hsepc, hinside⟩
  rcases List.prefix_or_prefix_of_prefix hc hd with h | h
  · exact Or.inr (shorter hsepc h)
  · exact Or.inl (shorter hsepd h)

theorem comparable (hp : AtOrBelow sep r p) (hq : AtOrBelow sep r q) : Related sep p q := by
  rcases hp with rfl | hp
  · exact Or.inl hq
  · rcases hq with rfl | hq
    · exact Or.inr (Or.inr hp)
    · exact hp.comparable hq

theorem Related.of_atOrBelow (h : Related sep p q) (hpr : AtOrBelow sep p r) :
    Related sep r q := by
  rcases h with hpq | hqp
  · exact comparable hpr hpq
  · exact Or.inr (hqp.trans hpr)

/-- The words that write a sequence of components, with a separator at each joint. -/
inductive Joins (sep : α → Prop) : List (List α) → List α → Prop
  | single (part : List α) : Joins sep [part] part
  | cons (part : List α) {rest : List (List α)} {word : List α} {c : α} (hsep : sep c)
      (hrest : Joins sep rest word) : Joins sep (part :: rest) (part ++ c :: word)

theorem Joins.atOrBelow_head {part : List α} {rest : List (List α)} {word : List α}
    (h : Joins sep (part :: rest) word) : AtOrBelow sep word part := by
  cases h with
  | single => exact AtOrBelow.refl sep part
  | cons _ hsep hrest => exact Or.inr ⟨_, hsep, _, List.append_assoc part [_] _⟩

end Paths
