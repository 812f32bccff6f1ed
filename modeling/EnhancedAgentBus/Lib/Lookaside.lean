import EnhancedAgentBus.Lib.Dict

/-!
# A cache beside a computation

An item is answered from a cache if something is kept under its key, else it is computed, and what
comes of it may be kept.  The cache holds the entries that were used last.

The cache cannot be told from the answers just if what an item keeps is the answer of every item
under the key (`transparent_iff`).
-/

namespace EnhancedAgentBus.Lookaside

universe u v w z

/-- The turn of an item: it is answered without the cache, or has a key, what it makes of a value
that is kept, its own answer, and the value that it keeps, if any. -/
inductive Turn (κ : Type u) (ν : Type v) (ρ : Type w) where
  | bypass (answer : ρ)
  | look (key : κ) (found : ν → ρ) (fresh : ρ) (kept : Option ν)

variable {α : Type z} {κ : Type u} {ν : Type v} {ρ : Type w}

def Turn.fresh : Turn κ ν ρ → ρ
  | .bypass answer => answer
  | .look _ _ fresh _ => fresh

variable [DecidableEq κ] (maxsize : ℕ)

/-- `cache[key] = value`, which removes the entry that was used least recently if there is no room
for a new one. -/
def store (cache : Dict κ ν) (key : κ) (value : ν) : Dict κ ν :=
  match cache.get key with
  | some _ => (cache.set key value).moveToEnd key
  | none => (if cache.entries.length < maxsize then cache else cache.drop 1).set key value

/-- What one item gets, and the cache after it. -/
def step (cache : Dict κ ν) : Turn κ ν ρ → ρ × Dict κ ν
  | .bypass answer => (answer, cache)
  | .look key found fresh kept =>
    match cache.get key with
    | some value => (found value, cache.moveToEnd key)
    | none =>
      match kept with
      | none => (fresh, cache)
      | some value => (fresh, store maxsize cache key value)

def run (cache : Dict κ ν) : List (Turn κ ν ρ) → List ρ
  | [] => []
  | turn :: rest => (step maxsize cache turn).1 :: run (step maxsize cache turn).2 rest

variable {maxsize} {cache : Dict κ ν} {key key' : κ} {value value' : ν}

theorem get_store (h : (store maxsize cache key value).get key' = some value') :
    key' = key ∧ value' = value ∨ cache.get key' = some value' := by
  have hset (d : Dict κ ν) (hd : (d.set key value).get key' = some value') :
      key' = key ∧ value' = value ∨ d.get key' = some value' := by
    rcases Dict.get_set_cases hd with ⟨hkey, hvalue⟩ | ⟨-, hd⟩
    · exact .inl ⟨hkey, hvalue.symm⟩
    · exact .inr hd
  unfold store at h
  cases hget : cache.get key with
  | some old =>
    rw [hget] at h
    dsimp only at h
    rw [Dict.get_moveToEnd] at h
    exact hset cache h
  | none =>
    rw [hget] at h
    dsimp only at h
    refine (hset _ h).imp id fun hin => ?_
    by_cases hroom : cache.entries.length < maxsize
    · rwa [if_pos hroom] at hin
    · rw [if_neg hroom, Dict.get_eq_some_iff] at hin
      exact Dict.get_eq_some_iff.mpr (List.mem_of_mem_drop hin)

theorem get_store_self : (store maxsize cache key value).get key = some value := by
  unfold store
  cases cache.get key with
  | some old =>
    dsimp only
    rw [Dict.get_moveToEnd, Dict.get_set, if_pos rfl]
  | none =>
    dsimp only
    rw [Dict.get_set, if_pos rfl]

/-! ## Transparency -/

variable (turn : α → Turn κ ν ρ)

def KeptUnder (key : κ) (value : ν) : Prop :=
  ∃ a found fresh, turn a = .look key found fresh (some value)

/-- What an item makes of a value that may be kept under its key is its own answer. -/
def KeysDecide : Prop :=
  ∀ b key found fresh kept value, turn b = .look key found fresh kept →
    KeptUnder turn key value → found value = fresh

def Sound (cache : Dict κ ν) : Prop :=
  ∀ key value, cache.get key = some value → KeptUnder turn key value

variable {turn}

variable (maxsize) in
theorem Sound.step (h : Sound turn cache) (hkeys : KeysDecide turn) (a : α) :
    (Lookaside.step maxsize cache (turn a)).1 = (turn a).fresh ∧
      Sound turn (Lookaside.step maxsize cache (turn a)).2 := by
  unfold Lookaside.step Turn.fresh
  cases hturn : turn a with
  | bypass answer => exact ⟨rfl, h⟩
  | look key found fresh kept =>
    dsimp only
    cases hget : cache.get key with
    | some value =>
      refine ⟨hkeys a key found fresh kept value hturn (h key value hget), ?_⟩
      intro key' value' hin
      rw [Dict.get_moveToEnd] at hin
      exact h key' value' hin
    | none =>
      rcases kept with _ | value
      · exact ⟨rfl, h⟩
      · refine ⟨rfl, fun key' value' hin => ?_⟩
        rcases get_store hin with ⟨rfl, rfl⟩ | hin
        · exact ⟨a, found, fresh, hturn⟩
        · exact h key' value' hin

theorem Sound.run (h : Sound turn cache) (hkeys : KeysDecide turn) (items : List α) :
    Lookaside.run maxsize cache (items.map turn) = items.map fun a => (turn a).fresh := by
  induction items generalizing cache with
  | nil => rfl
  | cons a rest ih =>
    obtain ⟨hanswer, hsound⟩ := h.step maxsize hkeys a
    rw [List.map_cons, List.map_cons, Lookaside.run, hanswer, ih hsound]

variable (maxsize turn) in
/-- **Transparency.**  Whatever the items, each gets its own answer, just if the keys decide what
that is. -/
theorem transparent_iff :
    (∀ items : List α, Lookaside.run maxsize Dict.empty (items.map turn) =
      items.map fun a => (turn a).fresh) ↔ KeysDecide turn := by
  constructor
  · rintro h b key found fresh kept value hb ⟨a, found', fresh', ha⟩
    have hpair := h [a, b]
    simp only [List.map_cons, List.map_nil, Lookaside.run, Lookaside.step, ha, hb, Dict.get_empty,
      get_store_self, List.cons.injEq] at hpair
    exact hpair.2.1
  · intro hkeys items
    refine Sound.run (fun key value hget => ?_) hkeys items
    rw [Dict.get_empty] at hget
    cases hget

end EnhancedAgentBus.Lookaside
