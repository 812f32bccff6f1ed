import EnhancedAgentBus.Lib.Dict

/-!
# Memoised checks

A loop goes through its items and ends at the first that does not pass.  An item is checked under a
key, and what is stored for the key stands in for the check of the items that come after it.  So an
item passes by what was stored for the first item under its key (`run_iff`).
-/

namespace EnhancedAgentBus.Memo

universe u v

/-- The turn of an item: it is passed over, it ends the loop, or it is checked under a key, passes
or does not, and something is stored. -/
inductive Turn (κ : Type v) where
  | skip
  | stop
  | check (key : κ) (passes stored : Bool)

variable {α : Type u} {κ : Type v} [DecidableEq κ]

theorem get_set_eq_update (d : Dict κ Bool) (key : κ) (stored : Bool) :
    (d.set key stored).get = Function.update d.get key (some stored) := by
  funext k
  rw [Dict.get_set, Function.update_apply]

variable (turn : α → Turn κ)

/-- Whether all items pass, given what is stored. -/
def run (cache : κ → Option Bool) : List α → Bool
  | [] => true
  | a :: rest =>
    match turn a with
    | .skip => run cache rest
    | .stop => false
    | .check key passes stored =>
      match cache key with
      | some verdict => verdict && run cache rest
      | none => passes && run (Function.update cache key (some stored)) rest

def Under (key : κ) (a : α) : Prop := ∃ passes stored, turn a = .check key passes stored

/-- Whether an item passes, given what is stored. -/
def passesAt (cache : κ → Option Bool) (a : α) : Bool :=
  match turn a with
  | .skip => true
  | .stop => false
  | .check key passes _ => (cache key).getD passes

def storedAfter (cache : κ → Option Bool) : List α → κ → Option Bool
  | [] => cache
  | a :: rest =>
    match turn a with
    | .skip | .stop => storedAfter cache rest
    | .check key _ stored =>
      storedAfter (Function.update cache key (some ((cache key).getD stored))) rest

variable {turn} {cache : κ → Option Bool}

theorem run_iff {items : List α} :
    run turn cache items = true ↔
      ∀ before a after, items = before ++ a :: after →
        passesAt turn (storedAfter turn cache before) a = true := by
  induction items generalizing cache with
  | nil =>
    refine iff_of_true rfl fun before a after h => ?_
    rcases before with _ | ⟨b, rest⟩
    · cases h
    · cases h
  | cons first rest ih =>
    have hsplit : (∀ before a after, first :: rest = before ++ a :: after →
        passesAt turn (storedAfter turn cache before) a = true) ↔
        passesAt turn cache first = true ∧ ∀ before a after, rest = before ++ a :: after →
          passesAt turn (storedAfter turn cache (first :: before)) a = true := by
      constructor
      · intro h
        refine ⟨h [] first rest rfl, fun before a after hrest => ?_⟩
        exact h (first :: before) a after (by rw [hrest, List.cons_append])
      · rintro ⟨hfirst, hrest⟩ before a after hitems
        rcases before with _ | ⟨b, before⟩
        · cases hitems
          exact hfirst
        · cases hitems
          exact hrest before a after rfl
    rw [hsplit, run, passesAt]
    cases hturn : turn first with
    | skip =>
      simp only [storedAfter, hturn]
      rw [ih]
      exact (and_iff_right trivial).symm
    | stop => exact iff_of_false Bool.false_ne_true fun h => Bool.false_ne_true h.1
    | check key passes stored =>
      simp only [storedAfter, hturn]
      cases hcache : cache key with
      | some verdict =>
        have hsame : Function.update cache key (some verdict) = cache := by
          rw [← hcache]
          exact Function.update_eq_self key cache
        simp only [Option.getD_some, hsame]
        rw [Bool.and_eq_true, ih]
      | none =>
        simp only [Option.getD_none]
        rw [Bool.and_eq_true, ih]

theorem storedAfter_of_fresh {items : List α} {key : κ} (h : ∀ a ∈ items, ¬Under turn key a) :
    storedAfter turn cache items key = cache key := by
  induction items generalizing cache with
  | nil => rfl
  | cons a rest ih =>
    have hrest := fun b hb => h b (List.mem_cons_of_mem _ hb)
    rw [storedAfter]
    cases hturn : turn a with
    | skip => exact ih hrest
    | stop => exact ih hrest
    | check key' passes stored =>
      have hne : key ≠ key' := by
        rintro rfl
        exact h a (List.mem_cons_self ..) ⟨passes, stored, hturn⟩
      show storedAfter turn (Function.update cache key' _) rest key = _
      rw [ih hrest, Function.update_of_ne hne]

theorem storedAfter_of_stored {items : List α} {key : κ} {verdict : Bool}
    (h : cache key = some verdict) : storedAfter turn cache items key = some verdict := by
  induction items generalizing cache with
  | nil => exact h
  | cons a rest ih =>
    rw [storedAfter]
    cases hturn : turn a with
    | skip => exact ih h
    | stop => exact ih h
    | check key' passes stored =>
      refine ih ?_
      by_cases hkey : key = key'
      · subst hkey
        rw [Function.update_self, h, Option.getD_some]
      · rw [Function.update_of_ne hkey, h]

theorem storedAfter_append (before after : List α) :
    storedAfter turn cache (before ++ after) =
      storedAfter turn (storedAfter turn cache before) after := by
  induction before generalizing cache with
  | nil => rfl
  | cons a rest ih =>
    rw [List.cons_append, storedAfter, storedAfter]
    cases turn a with
    | skip => exact ih
    | stop => exact ih
    | check key passes stored => exact ih

theorem storedAfter_of_first {before after : List α} {a : α} {key : κ} {passes stored : Bool}
    (hturn : turn a = .check key passes stored) (hfresh : ∀ b ∈ before, ¬Under turn key b)
    (hempty : cache key = none) :
    storedAfter turn cache (before ++ a :: after) key = some stored := by
  rw [storedAfter_append, storedAfter, hturn]
  refine storedAfter_of_stored ?_
  rw [Function.update_self, storedAfter_of_fresh hfresh, hempty, Option.getD_none]

omit [DecidableEq κ] in
theorem exists_first {items : List α} {key : κ} (h : ∃ a ∈ items, Under turn key a) :
    ∃ before a after, items = before ++ a :: after ∧ Under turn key a ∧
      ∀ b ∈ before, ¬Under turn key b := by
  induction items with
  | nil =>
    obtain ⟨a, ha, -⟩ := h
    cases ha
  | cons first rest ih =>
    by_cases hfirst : Under turn key first
    · exact ⟨[], first, rest, rfl, hfirst, fun b hb => absurd hb List.not_mem_nil⟩
    · have hrest : ∃ a ∈ rest, Under turn key a := by
        obtain ⟨a, ha, hunder⟩ := h
        rcases List.mem_cons.mp ha with rfl | ha
        · exact absurd hunder hfirst
        · exact ⟨a, ha, hunder⟩
      obtain ⟨before, a, after, rfl, hunder, hfresh⟩ := ih hrest
      refine ⟨first :: before, a, after, rfl, hunder, fun b hb => ?_⟩
      rcases List.mem_cons.mp hb with rfl | hb
      · exact hfirst
      · exact hfresh b hb

variable (turn) in
def First (before : List α) (key : κ) : Prop := ∀ b ∈ before, ¬Under turn key b

theorem passesAt_storedAfter {before : List α} {a : α} {key : κ} {passes stored : Bool}
    (hturn : turn a = .check key passes stored) :
    passesAt turn (storedAfter turn (fun _ => none) before) a = true ↔
      (First turn before key → passes = true) ∧
        ∀ earlier b later passes' stored', before = earlier ++ b :: later →
          First turn earlier key → turn b = .check key passes' stored' → stored' = true := by
  simp only [passesAt, hturn]
  by_cases hfresh : First turn before key
  · rw [storedAfter_of_fresh hfresh, Option.getD_none]
    refine ⟨fun hpasses => ⟨fun _ => hpasses, ?_⟩, fun h => h.1 hfresh⟩
    rintro earlier b later passes' stored' rfl - hb
    have hmem : b ∈ earlier ++ b :: later := List.mem_append_right _ (List.mem_cons_self ..)
    exact absurd ⟨passes', stored', hb⟩ (hfresh b hmem)
  · have hexists : ∃ b ∈ before, Under turn key b := by
      by_contra hnone
      exact hfresh fun b hb hunder => hnone ⟨b, hb, hunder⟩
    obtain ⟨earlier, b, later, rfl, ⟨passes', stored', hb⟩, hfirst⟩ := exists_first hexists
    rw [storedAfter_of_first hb hfirst rfl, Option.getD_some]
    refine ⟨fun hstored => ⟨fun h => absurd h hfresh, ?_⟩,
      fun h => h.2 earlier b later passes' stored' rfl hfirst hb⟩
    intro earlier₂ b₂ later₂ passes₂ stored₂ hbefore hfirst₂ hb₂
    have h₂ : storedAfter turn (fun _ => none) (earlier₂ ++ b₂ :: later₂) key = some stored₂ :=
      storedAfter_of_first hb₂ hfirst₂ rfl
    rw [← hbefore, storedAfter_of_first hb hfirst rfl] at h₂
    exact (Option.some.inj h₂).symm.trans hstored

end EnhancedAgentBus.Memo
