import Mathlib.Data.List.Basic
import Mathlib.Data.List.Induction

/-!
# Filters that remember what they let pass

A filter marks the arrivals it removes: those that one it let pass *covers*.  What it should remove
is another matter, the arrivals that *repeat* an earlier one, let pass or not.  The filter is right
along a list of arrivals exactly when the list is `Faithful`: of two arrivals that repeat nothing
neither covers the other, and what repeats something is covered by an arrival that repeats nothing.
-/

namespace Repeats

universe u

variable {α : Type u}

/-- Every mark stands to the marks before it as `P` says. -/
def Along (P : List (α × Bool) → α → Bool → Prop) (marks : List (α × Bool)) : Prop :=
  ∀ before a removed after, marks = before ++ (a, removed) :: after → P before a removed

/-- A filter's marks: an arrival is removed exactly when one that was let pass covers it. -/
def Swept (covers : α → α → Prop) : List (α × Bool) → Prop :=
  Along fun before a removed => removed = true ↔ ∃ b, (b, false) ∈ before ∧ covers b a

/-- An arrival is removed exactly when it repeats an earlier one. -/
def Right (repeats : α → α → Prop) : List (α × Bool) → Prop :=
  Along fun before a removed => removed = true ↔ ∃ b ∈ before.map Prod.fst, repeats b a

def First (repeats : α → α → Prop) (earlier : List α) (a : α) : Prop :=
  ∀ b ∈ earlier, ¬repeats b a

structure Faithful (covers repeats : α → α → Prop) (arrivals : List α) : Prop where
  /-- Of two arrivals that repeat nothing neither covers the other. -/
  apart : ∀ before b between a after, arrivals = before ++ b :: between ++ a :: after →
    First repeats before b → First repeats (before ++ b :: between) a → ¬covers b a
  /-- What repeats something is covered by an arrival that repeats nothing. -/
  lasting : ∀ earlier a after, arrivals = earlier ++ a :: after → ¬First repeats earlier a →
    ∃ before b between, earlier = before ++ b :: between ∧ First repeats before b ∧ covers b a

variable {covers repeats : α → α → Prop}

theorem exists_repeats_iff_not_first {earlier : List α} {a : α} :
    (∃ b ∈ earlier, repeats b a) ↔ ¬First repeats earlier a := by
  simp [First]

theorem along_nil (P : List (α × Bool) → α → Bool → Prop) : Along P [] := by
  intro before a removed after h
  exact absurd h (by simp)

theorem along_concat {P : List (α × Bool) → α → Bool → Prop} {marks : List (α × Bool)} {a : α}
    {removed : Bool} :
    Along P (marks ++ [(a, removed)]) ↔ Along P marks ∧ P marks a removed := by
  constructor
  · intro h
    refine ⟨fun before x mark after heq => ?_, h marks a removed [] rfl⟩
    exact h before x mark (after ++ [(a, removed)])
      (by rw [heq, List.append_assoc, List.cons_append])
  · rintro ⟨h, hlast⟩ before x mark after heq
    rcases List.eq_nil_or_concat after with rfl | ⟨after, last, rfl⟩
    · obtain ⟨rfl, hx⟩ := List.append_inj' heq rfl
      obtain ⟨rfl, rfl⟩ := Prod.mk.inj (List.cons.inj hx).1
      exact hlast
    · have heq' : marks ++ [(a, removed)] = before ++ (x, mark) :: after ++ [last] := by
        rw [heq, List.append_assoc, List.cons_append, List.concat_eq_append]
      obtain ⟨rfl, -⟩ := List.append_inj' heq' rfl
      exact h before x mark after rfl

theorem Right.passed_iff {marks : List (α × Bool)} (h : Right repeats marks)
    {before after : List (α × Bool)} {a : α} {removed : Bool}
    (heq : marks = before ++ (a, removed) :: after) :
    removed = false ↔ First repeats (before.map Prod.fst) a := by
  have hmark : removed = true ↔ ∃ b ∈ before.map Prod.fst, repeats b a :=
    h before a removed after heq
  rw [← Bool.not_eq_true, hmark, exists_repeats_iff_not_first, not_not]

theorem map_fst_split {marks : List (α × Bool)} {before after : List α} {b : α}
    (h : marks.map Prod.fst = before ++ b :: after) :
    ∃ before' removed after', marks = before' ++ (b, removed) :: after' ∧
      before'.map Prod.fst = before ∧ after'.map Prod.fst = after := by
  obtain ⟨before', rest, rfl, hbefore, hrest⟩ := List.map_eq_append_iff.mp h
  obtain ⟨⟨c, removed⟩, after', rfl, rfl, hafter⟩ := List.map_eq_cons_iff.mp hrest
  exact ⟨before', removed, after', rfl, hbefore, hafter⟩

theorem Swept.faithful {marks : List (α × Bool)} (h : Swept covers marks)
    (hright : Right repeats marks) : Faithful covers repeats (marks.map Prod.fst) := by
  refine ⟨fun before b between a after heq hb ha hcovers => ?_,
    fun earlier a after heq hrepeats => ?_⟩
  · obtain ⟨earlier, removed, after, rfl, hearlier, -⟩ := map_fst_split heq
    obtain ⟨before, passed, between, rfl, rfl, -⟩ := map_fst_split hearlier
    rw [← hearlier] at ha
    obtain rfl : passed = false :=
      (hright.passed_iff (List.append_assoc _ _ _)).mpr hb
    have hremoved := (h _ a removed after rfl).mpr
      ⟨b, List.mem_append_right _ List.mem_cons_self, hcovers⟩
    rw [(hright.passed_iff rfl).mpr ha] at hremoved
    cases hremoved
  · obtain ⟨earlier, removed, after, rfl, rfl, -⟩ := map_fst_split heq
    have hremoved : removed = true :=
      (hright _ a removed after rfl).mpr (exists_repeats_iff_not_first.mpr hrepeats)
    obtain ⟨b, hb, hcovers⟩ := (h _ a removed after rfl).mp hremoved
    obtain ⟨before, between, rfl⟩ := List.append_of_mem hb
    refine ⟨before.map Prod.fst, b, between.map Prod.fst, by rw [List.map_append, List.map_cons],
      ?_, hcovers⟩
    exact (hright.passed_iff (List.append_assoc _ _ _)).mp rfl

theorem Faithful.of_concat {arrivals : List α} {a : α}
    (h : Faithful covers repeats (arrivals ++ [a])) : Faithful covers repeats arrivals := by
  refine ⟨fun before b between x after heq => ?_, fun earlier x after heq => ?_⟩
  · exact h.apart before b between x (after ++ [a])
      (by rw [heq, List.append_assoc, List.cons_append])
  · exact h.lasting earlier x (after ++ [a])
      (by rw [heq, List.append_assoc, List.cons_append])

theorem Faithful.covered_iff {marks : List (α × Bool)} {a : α}
    (h : Faithful covers repeats (marks.map Prod.fst ++ [a])) (hright : Right repeats marks) :
    (∃ b, (b, false) ∈ marks ∧ covers b a) ↔ ∃ b ∈ marks.map Prod.fst, repeats b a := by
  rw [exists_repeats_iff_not_first]
  constructor
  · rintro ⟨b, hb, hcovers⟩ hfirst
    obtain ⟨before, between, rfl⟩ := List.append_of_mem hb
    rw [List.map_append, List.map_cons] at h hfirst
    exact h.apart _ b _ a [] rfl ((hright.passed_iff rfl).mp rfl) hfirst hcovers
  · intro hrepeats
    obtain ⟨before, b, between, heq, hb, hcovers⟩ := h.lasting _ a [] rfl hrepeats
    obtain ⟨before, passed, between, rfl, rfl, -⟩ := map_fst_split heq
    obtain rfl : passed = false := (hright.passed_iff rfl).mpr hb
    exact ⟨b, List.mem_append_right _ List.mem_cons_self, hcovers⟩

theorem Swept.right_iff {marks : List (α × Bool)} (h : Swept covers marks) :
    Right repeats marks ↔ Faithful covers repeats (marks.map Prod.fst) := by
  refine ⟨h.faithful, fun hfaithful => ?_⟩
  -- along the list: what has been marked so far is marked rightly
  induction marks using List.reverseRecOn with
  | nil => exact along_nil _
  | append_singleton marks last ih =>
    obtain ⟨a, removed⟩ := last
    obtain ⟨hinit, hlast⟩ := along_concat.mp h
    rw [List.map_append] at hfaithful
    have hright : Right repeats marks := ih hinit hfaithful.of_concat
    exact along_concat.mpr ⟨hright, hlast.trans (hfaithful.covered_iff hright)⟩

end Repeats
