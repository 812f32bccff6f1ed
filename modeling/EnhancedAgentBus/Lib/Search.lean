import Mathlib.Data.List.Basic

/-!
# Searching through attempts

Attempts are looked at one after the other, until one of them has succeeded.  An attempt that fails
is passed by if its error is caught; else the search ends with that error.

The search finds the first success exactly where no error before it goes uncaught
(`search_first_iff`).
-/

namespace Search

universe u v

variable {ε : Type u} {α : Type v}

/-- `for attempt in attempts: try: return attempt() except caught: continue` -/
def search (caught : ε → Bool) : List (Except ε α) → Except ε (Option α)
  | [] => .ok none
  | .ok a :: _ => .ok (some a)
  | .error e :: rest => if caught e then search caught rest else .error e

def taken (caught : ε → Bool) : List (Except ε α) → ℕ
  | [] => 0
  | .ok _ :: _ => 1
  | .error e :: rest => if caught e then taken caught rest + 1 else 1

def Fails (attempts : List (Except ε α)) : Prop := ∀ attempt ∈ attempts, ∃ e, attempt = .error e

/-- No error that comes before the first success goes uncaught. -/
def Unhindered (caught : ε → Bool) (attempts : List (Except ε α)) : Prop :=
  ∀ before a after, attempts = before ++ .ok a :: after → Fails before →
    ∀ e, .error e ∈ before → caught e = true

variable {caught : ε → Bool} {attempts before after : List (Except ε α)} {a : α} {e : ε}

theorem search_error_cons :
    search caught (.error e :: attempts) =
      if caught e then search caught attempts else .error e := rfl

theorem taken_error_cons :
    taken caught (.error e :: attempts) = if caught e then taken caught attempts + 1 else 1 := rfl

theorem fails_nil : Fails ([] : List (Except ε α)) := nofun

theorem fails_cons {attempt : Except ε α} :
    Fails (attempt :: attempts) ↔ (∃ e, attempt = .error e) ∧ Fails attempts := by
  unfold Fails
  rw [List.forall_mem_cons]

theorem exists_first (h : ¬Fails attempts) :
    ∃ before a after, attempts = before ++ .ok a :: after ∧ Fails before := by
  induction attempts with
  | nil => exact absurd fails_nil h
  | cons attempt rest ih =>
    cases attempt with
    | ok a => exact ⟨[], a, rest, rfl, fails_nil⟩
    | error e =>
      have hrest : ¬Fails rest := fun hfails => h (fails_cons.mpr ⟨⟨e, rfl⟩, hfails⟩)
      obtain ⟨before, a, after, rfl, hbefore⟩ := ih hrest
      exact ⟨.error e :: before, a, after, rfl, fails_cons.mpr ⟨⟨e, rfl⟩, hbefore⟩⟩

theorem search_append (before after : List (Except ε α)) :
    search caught (before ++ after) =
      match search caught before with
      | .ok none => search caught after
      | .ok (some a) => .ok (some a)
      | .error e => .error e := by
  induction before with
  | nil => rfl
  | cons attempt rest ih =>
    cases attempt with
    | ok a => rfl
    | error e =>
      rw [List.cons_append, search_error_cons, search_error_cons]
      by_cases hcaught : caught e = true
      · rw [if_pos hcaught, if_pos hcaught, ih]
      · rw [if_neg hcaught, if_neg hcaught]

theorem mem_of_search (h : search caught attempts = .ok (some a)) : .ok a ∈ attempts := by
  induction attempts with
  | nil => cases h
  | cons attempt rest ih =>
    cases attempt with
    | ok a' =>
      cases h
      exact List.mem_cons_self
    | error e =>
      rw [search_error_cons] at h
      split at h
      · exact List.mem_cons_of_mem _ (ih h)
      · cases h

theorem search_of_caught (hfails : Fails before)
    (hcaught : ∀ e, .error e ∈ before → caught e = true) : search caught before = .ok none := by
  induction before with
  | nil => rfl
  | cons attempt rest ih =>
    obtain ⟨⟨e, rfl⟩, hrest⟩ := fails_cons.mp hfails
    rw [search_error_cons, if_pos (hcaught e List.mem_cons_self)]
    exact ih hrest fun e' he' => hcaught e' (List.mem_cons_of_mem _ he')

theorem taken_of_caught (hfails : Fails before)
    (hcaught : ∀ e, .error e ∈ before → caught e = true) :
    taken caught (before ++ .ok a :: after) = before.length + 1 := by
  induction before with
  | nil => rfl
  | cons attempt rest ih =>
    obtain ⟨⟨e, rfl⟩, hrest⟩ := fails_cons.mp hfails
    rw [List.cons_append, taken_error_cons, if_pos (hcaught e List.mem_cons_self),
      ih hrest fun e' he' => hcaught e' (List.mem_cons_of_mem _ he')]
    rfl

theorem search_of_uncaught (hfails : Fails before) (hmem : .error e ∈ before)
    (huncaught : caught e = false) : ∃ e', search caught (before ++ after) = .error e' := by
  induction before with
  | nil => cases hmem
  | cons attempt rest ih =>
    obtain ⟨⟨e', rfl⟩, hrest⟩ := fails_cons.mp hfails
    rw [List.cons_append, search_error_cons]
    by_cases hcaught : caught e' = true
    · rw [if_pos hcaught]
      refine ih hrest ?_
      rcases List.mem_cons.mp hmem with heq | hlater
      · cases heq
        rw [hcaught] at huncaught
        cases huncaught
      · exact hlater
    · rw [if_neg hcaught]
      exact ⟨e', rfl⟩

/-- **The search finds the first success exactly where it is unhindered.** -/
theorem search_first_iff :
    (∀ before a after, attempts = before ++ .ok a :: after → Fails before →
      search caught attempts = .ok (some a)) ↔ Unhindered caught attempts := by
  constructor
  · intro h before a after heq hfails e hmem
    by_contra huncaught
    have hfirst := h before a after heq hfails
    obtain ⟨e', hsearch⟩ : ∃ e', search caught (before ++ .ok a :: after) = .error e' :=
      search_of_uncaught hfails hmem (Bool.eq_false_iff.mpr huncaught)
    rw [heq, hsearch] at hfirst
    cases hfirst
  · intro h before a after heq hfails
    rw [heq, search_append, search_of_caught hfails (h before a after heq hfails)]
    rfl

theorem unhindered_iff_found :
    Unhindered caught attempts ↔
      (¬Fails attempts → ∃ a, search caught attempts = .ok (some a)) := by
  constructor
  · intro h hsome
    obtain ⟨before, a, after, heq, hfails⟩ := exists_first hsome
    exact ⟨a, search_first_iff.mpr h before a after heq hfails⟩
  · intro h before a after heq hfails e hmem
    by_contra huncaught
    have hsome : ¬Fails attempts := by
      intro hall
      obtain ⟨e', he'⟩ := hall (.ok a) (by simp [heq])
      cases he'
    obtain ⟨a', hfound⟩ := h hsome
    obtain ⟨e', hsearch⟩ : ∃ e', search caught (before ++ .ok a :: after) = .error e' :=
      search_of_uncaught hfails hmem (Bool.eq_false_iff.mpr huncaught)
    rw [heq, hsearch] at hfound
    cases hfound

theorem unhindered_map_iff {ι : Type*} {f : ι → Except ε α} {tasks : List ι} :
    Unhindered caught (tasks.map f) ↔
      ∀ before task after, tasks = before ++ task :: after → (∃ a, f task = .ok a) →
        (∀ t ∈ before, ∃ e, f t = .error e) → ∀ t ∈ before, ∀ e, f t = .error e →
          caught e = true := by
  constructor
  · rintro h before task after rfl ⟨a, ha⟩ hfails t ht e he
    refine h (before.map f) a (after.map f) (by simp [ha]) ?_ e (List.mem_map.mpr ⟨t, ht, he⟩)
    intro attempt hattempt
    obtain ⟨t', ht', rfl⟩ := List.mem_map.mp hattempt
    exact hfails t' ht'
  · intro h attempted a after heq hfails e hmem
    obtain ⟨before, rest, rfl, rfl, hrest⟩ := List.map_eq_append_iff.mp heq
    obtain ⟨task, later, rfl, htask, -⟩ := List.map_eq_cons_iff.mp hrest
    obtain ⟨t, ht, he⟩ := List.mem_map.mp hmem
    have hbefore : ∀ t' ∈ before, ∃ e, f t' = .error e := fun t' ht' =>
      hfails (f t') (List.mem_map.mpr ⟨t', ht', rfl⟩)
    exact h before task later rfl ⟨a, htask⟩ hbefore t ht e he

end Search
