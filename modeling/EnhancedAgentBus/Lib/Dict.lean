import Mathlib.Data.List.Nodup
import Mathlib.Data.Option.Basic

/-!
# Dictionaries that keep insertion order

A dictionary is the list of its entries, whose keys are distinct.  Assigning under a key that is
there keeps the entry's place, and a new key comes last, so iteration is insertion order.

`Dict.get_set` and `Dict.get_erase` say what a dictionary holds after an update.  Where the
*order* matters, `Dict.entries_set_of_new` gives the list itself.
-/

universe u v

/-- A dictionary: entries with distinct keys, in insertion order. -/
structure Dict (κ : Type u) (ν : Type v) where
  entries : List (κ × ν)
  nodup : (entries.map Prod.fst).Nodup

namespace Dict

variable {κ : Type u} {ν : Type v} [DecidableEq κ]

def empty : Dict κ ν := ⟨[], List.nodup_nil⟩

def keys (d : Dict κ ν) : List κ := d.entries.map Prod.fst

def values (d : Dict κ ν) : List ν := d.entries.map Prod.snd

/-- The entry list after an assignment: overwrite in place, or append. -/
def assign (k : κ) (v : ν) : List (κ × ν) → List (κ × ν)
  | [] => [(k, v)]
  | e :: rest => if e.1 = k then (k, v) :: rest else e :: assign k v rest

theorem map_fst_assign (k : κ) (v : ν) (l : List (κ × ν)) :
    (assign k v l).map Prod.fst =
      if k ∈ l.map Prod.fst then l.map Prod.fst else l.map Prod.fst ++ [k] := by
  induction l with
  | nil => simp [assign]
  | cons e rest ih =>
    by_cases he : e.1 = k
    · simp [assign, he]
    · have hne : ¬ k = e.1 := fun h => he h.symm
      rw [assign, if_neg he, List.map_cons, List.map_cons, ih]
      by_cases hk : k ∈ rest.map Prod.fst
      · rw [if_pos hk, if_pos (List.mem_cons_of_mem _ hk)]
      · rw [if_neg hk, if_neg (not_or.mpr ⟨hne, hk⟩ ∘ List.mem_cons.mp), List.cons_append]

/-- `d[k] = v` -/
def set (d : Dict κ ν) (k : κ) (v : ν) : Dict κ ν where
  entries := assign k v d.entries
  nodup := by
    rw [map_fst_assign]
    split
    · exact d.nodup
    · rename_i hk
      refine List.nodup_append.mpr ⟨d.nodup, List.nodup_singleton k, ?_⟩
      rintro a ha b hb rfl
      exact hk (List.mem_singleton.mp hb ▸ ha)

/-- `d.pop(k, None)` -/
def erase (d : Dict κ ν) (k : κ) : Dict κ ν where
  entries := d.entries.filter fun e => e.1 ≠ k
  nodup := d.nodup.sublist (List.filter_sublist.map _)

def mapValues (d : Dict κ ν) (f : ν → ν) : Dict κ ν where
  entries := d.entries.map fun e => (e.1, f e.2)
  nodup := by
    rw [List.map_map]
    exact d.nodup

/-- The dictionary without the entries whose value fails `p`. -/
def filterValues (d : Dict κ ν) (p : ν → Bool) : Dict κ ν where
  entries := d.entries.filter fun e => p e.2
  nodup := d.nodup.sublist (List.filter_sublist.map _)

/-- The dictionary without its oldest entries: `n` times `d.popitem(last=False)`. -/
def drop (d : Dict κ ν) (n : ℕ) : Dict κ ν where
  entries := d.entries.drop n
  nodup := d.nodup.sublist ((List.drop_sublist n _).map _)

def lookup (k : κ) : List (κ × ν) → Option ν
  | [] => none
  | e :: rest => if e.1 = k then some e.2 else lookup k rest

/-- `d.get(k)` -/
def get (d : Dict κ ν) (k : κ) : Option ν := lookup k d.entries

@[simp] theorem get_empty (k : κ) : (empty : Dict κ ν).get k = none := rfl

theorem lookup_assign (k k' : κ) (v : ν) (l : List (κ × ν)) :
    lookup k' (assign k v l) = if k' = k then some v else lookup k' l := by
  induction l with
  | nil => simp only [assign, lookup, eq_comm]
  | cons e rest ih =>
    by_cases he : e.1 = k
    · rw [assign, if_pos he, lookup, lookup, he]
      by_cases hk : k' = k
      · rw [if_pos hk, if_pos hk.symm]
      · rw [if_neg hk, if_neg fun h => hk h.symm, if_neg fun h => hk h.symm]
    · rw [assign, if_neg he, lookup, lookup, ih]
      by_cases hk : k' = k
      · rw [if_pos hk, if_pos hk, if_neg fun h => he (h.trans hk)]
      · rw [if_neg hk, if_neg hk]

@[simp] theorem get_set (d : Dict κ ν) (k k' : κ) (v : ν) :
    (d.set k v).get k' = if k' = k then some v else d.get k' :=
  lookup_assign k k' v d.entries

/-- What is found after an assignment is what was assigned, or was there before. -/
theorem get_set_cases {d : Dict κ ν} {k k' : κ} {v v' : ν} (h : (d.set k v).get k' = some v') :
    k' = k ∧ v = v' ∨ k' ≠ k ∧ d.get k' = some v' := by
  rw [get_set] at h
  split at h
  · next hk => exact .inl ⟨hk, Option.some_inj.mp h⟩
  · next hk => exact .inr ⟨hk, h⟩

theorem get_set_ne_none {d : Dict κ ν} {k' : κ} (h : d.get k' ≠ none) (k : κ) (v : ν) :
    (d.set k v).get k' ≠ none := by
  rw [get_set]
  split
  · exact Option.some_ne_none v
  · exact h

theorem lookup_map (f : ν → ν) (k : κ) (l : List (κ × ν)) :
    lookup k (l.map fun e => (e.1, f e.2)) = (lookup k l).map f := by
  induction l with
  | nil => rfl
  | cons e rest ih =>
    rw [List.map_cons, lookup, lookup, ih]
    split <;> rfl

@[simp] theorem get_mapValues (d : Dict κ ν) (f : ν → ν) (k : κ) :
    (d.mapValues f).get k = (d.get k).map f :=
  lookup_map f k d.entries

theorem lookup_filter_ne (k k' : κ) (l : List (κ × ν)) :
    lookup k' (l.filter fun e => e.1 ≠ k) = if k' = k then none else lookup k' l := by
  induction l with
  | nil => simp only [List.filter_nil, lookup, ite_self]
  | cons e rest ih =>
    by_cases he : e.1 = k
    · rw [List.filter_cons_of_neg (by simpa using he), ih, lookup, he]
      by_cases hk : k' = k
      · rw [if_pos hk, if_pos hk]
      · rw [if_neg hk, if_neg hk, if_neg fun h => hk h.symm]
    · rw [List.filter_cons_of_pos (by simpa using he), lookup, ih, lookup]
      by_cases hk : k' = k
      · rw [if_pos hk, if_pos hk, if_neg fun h => he (h.trans hk)]
      · rw [if_neg hk, if_neg hk]

@[simp] theorem get_erase (d : Dict κ ν) (k k' : κ) :
    (d.erase k).get k' = if k' = k then none else d.get k' :=
  lookup_filter_ne k k' d.entries

variable {d : Dict κ ν} {k : κ} {l : List (κ × ν)}

theorem mem_keys_iff : k ∈ d.keys ↔ ∃ v, d.get k = some v := by
  have key (l : List (κ × ν)) : k ∈ l.map Prod.fst ↔ ∃ v, lookup k l = some v := by
    induction l with
    | nil => simp [lookup]
    | cons e rest ih =>
      rw [List.map_cons, List.mem_cons, ih, lookup]
      by_cases he : e.1 = k
      · simp [he]
      · have hne : k ≠ e.1 := fun h => he h.symm
        simp only [he, hne, false_or, if_false]
  exact key d.entries

theorem lookup_of_mem {v : ν} (hnodup : (l.map Prod.fst).Nodup) (h : (k, v) ∈ l) :
    lookup k l = some v := by
  induction l with
  | nil => cases h
  | cons e rest ih =>
    rw [List.map_cons, List.nodup_cons] at hnodup
    rcases List.mem_cons.mp h with rfl | h
    · rw [lookup, if_pos rfl]
    · have hne : e.1 ≠ k := fun he => hnodup.1 (he ▸ List.mem_map_of_mem h)
      rw [lookup, if_neg hne, ih hnodup.2 h]

theorem mem_of_lookup {v : ν} (h : lookup k l = some v) : (k, v) ∈ l := by
  induction l with
  | nil => cases h
  | cons e rest ih =>
    rw [lookup] at h
    split at h
    · rename_i he
      rw [← he, ← Option.some_inj.mp h]
      exact List.mem_cons_self
    · exact List.mem_cons_of_mem _ (ih h)

theorem mem_entries_of_get {v : ν} (h : d.get k = some v) :
    (k, v) ∈ d.entries := mem_of_lookup h

theorem get_eq_some_iff {v : ν} : d.get k = some v ↔ (k, v) ∈ d.entries :=
  ⟨mem_entries_of_get, lookup_of_mem d.nodup⟩

@[simp] theorem get_filterValues (d : Dict κ ν) (p : ν → Bool) (k : κ) :
    (d.filterValues p).get k = (d.get k).filter p := by
  ext v
  rw [get_eq_some_iff, filterValues, List.mem_filter, ← get_eq_some_iff, Option.filter_eq_some_iff]

theorem get_foldl_set (hnodup : (l.map Prod.fst).Nodup) (d : Dict κ ν) (k : κ) :
    (l.foldl (fun d e => d.set e.1 e.2) d).get k = (lookup k l).or (d.get k) := by
  induction l generalizing d with
  | nil => rfl
  | cons e rest ih =>
    rw [List.map_cons, List.nodup_cons] at hnodup
    rw [List.foldl_cons, ih hnodup.2, get_set, lookup]
    by_cases hk : k = e.1
    · have hnone : lookup k rest = none := by
        rw [Option.eq_none_iff_forall_ne_some]
        intro v hv
        exact hnodup.1 (hk ▸ List.mem_map_of_mem (mem_of_lookup hv))
      rw [if_pos hk, if_pos hk.symm, hnone]
      rfl
    · rw [if_neg hk, if_neg fun h => hk h.symm]

theorem exists_get_of_mem_values {v : ν} (h : v ∈ d.values) : ∃ k, d.get k = some v := by
  obtain ⟨⟨k, v'⟩, hmem, rfl⟩ := List.mem_map.mp h
  exact ⟨k, lookup_of_mem d.nodup hmem⟩

theorem entries_set_of_new {v : ν} (h : k ∉ d.keys) :
    (d.set k v).entries = d.entries ++ [(k, v)] := by
  have key (l : List (κ × ν)) (hl : k ∉ l.map Prod.fst) : assign k v l = l ++ [(k, v)] := by
    induction l with
    | nil => rfl
    | cons e rest ih =>
      rw [List.map_cons, List.mem_cons, not_or] at hl
      rw [assign, if_neg fun he => hl.1 he.symm, ih hl.2, List.cons_append]
  exact key d.entries h

theorem assign_of_lookup {v : ν} (h : lookup k l = some v) : assign k v l = l := by
  induction l with
  | nil => cases h
  | cons e rest ih =>
    by_cases he : e.1 = k
    · rw [lookup, if_pos he, Option.some_inj] at h
      rw [assign, if_pos he, ← he, ← h]
    · rw [lookup, if_neg he] at h
      rw [assign, if_neg he, ih h]

theorem set_of_get {v : ν} (h : d.get k = some v) : d.set k v = d := by
  cases d
  simp only [set, mk.injEq]
  exact assign_of_lookup h

theorem assign_assign (k : κ) (v v' : ν) (l : List (κ × ν)) :
    assign k v (assign k v' l) = assign k v l := by
  induction l with
  | nil => simp only [assign, if_true]
  | cons e rest ih =>
    by_cases he : e.1 = k
    · simp only [assign, if_pos he, if_true]
    · simp only [assign, if_neg he, ih]

@[simp] theorem set_set (d : Dict κ ν) (k : κ) (v v' : ν) : (d.set k v').set k v = d.set k v := by
  simp only [set, mk.injEq]
  exact assign_assign k v v' d.entries

theorem erase_set_of_new {v : ν} (h : d.get k = none) : (d.set k v).erase k = d := by
  have hkeys : k ∉ d.keys := fun hk => by
    obtain ⟨v', hv'⟩ := mem_keys_iff.mp hk
    rw [h] at hv'
    cases hv'
  have hentries := entries_set_of_new (v := v) hkeys
  cases d with
  | mk entries nodup =>
    simp only [erase, mk.injEq]
    rw [hentries, List.filter_append, List.filter_cons_of_neg (by simp), List.filter_nil,
      List.append_nil, List.filter_eq_self]
    intro e he
    simp only [decide_eq_true_eq]
    exact fun hek => hkeys (hek ▸ List.mem_map_of_mem he)

/-- `d.move_to_end(k)`, of a key that is there. -/
def moveToEnd (d : Dict κ ν) (k : κ) : Dict κ ν :=
  match d.get k with
  | none => d
  | some v => (d.erase k).set k v

@[simp] theorem get_moveToEnd (d : Dict κ ν) (k k' : κ) : (d.moveToEnd k).get k' = d.get k' := by
  rw [moveToEnd]
  split
  · rfl
  · rename_i v hget
    rw [get_set, get_erase]
    split
    · next heq => rw [heq, hget]
    · rfl

theorem keys_set_of_new {v : ν} (h : k ∉ d.keys) : (d.set k v).keys = d.keys ++ [k] := by
  rw [keys, entries_set_of_new h, List.map_append]
  rfl

theorem keys_erase (d : Dict κ ν) (k : κ) : (d.erase k).keys = d.keys.filter (· ≠ k) := by
  rw [keys, erase, keys, List.filter_map]
  rfl

theorem keys_moveToEnd (h : k ∈ d.keys) : (d.moveToEnd k).keys = d.keys.filter (· ≠ k) ++ [k] := by
  obtain ⟨v, hget⟩ := mem_keys_iff.mp h
  have hnew : k ∉ (d.erase k).keys := by simp [keys_erase]
  rw [moveToEnd, hget]
  exact (keys_set_of_new hnew).trans (congrArg (· ++ [k]) (keys_erase d k))

theorem keys_moveToEnd_set (d : Dict κ ν) (k : κ) (v : ν) :
    ((d.set k v).moveToEnd k).keys = d.keys.filter (· ≠ k) ++ [k] := by
  have hmem : k ∈ (d.set k v).keys := mem_keys_iff.mpr ⟨v, by simp⟩
  have hkeys : (d.set k v).keys = if k ∈ d.keys then d.keys else d.keys ++ [k] :=
    map_fst_assign k v d.entries
  rw [keys_moveToEnd hmem, hkeys]
  split <;> simp

theorem values_set_of_new {v : ν} (h : k ∉ d.keys) : (d.set k v).values = d.values ++ [v] := by
  rw [values, entries_set_of_new h, List.map_append]
  rfl

theorem countP_values_set (d : Dict κ ν) (k : κ) (v : ν) (p : ν → Bool) :
    (d.set k v).values.countP p + (d.get k).toList.countP p = d.values.countP p + [v].countP p := by
  have key (l : List (κ × ν)) : ((assign k v l).map Prod.snd).countP p +
      (lookup k l).toList.countP p = (l.map Prod.snd).countP p + [v].countP p := by
    induction l with
    | nil => simp [assign, lookup]
    | cons e rest ih =>
      by_cases he : e.1 = k
      · rw [assign, if_pos he, lookup, if_pos he]
        simp only [List.map_cons, List.countP_cons, List.countP_nil, Option.toList_some]
        omega
      · rw [assign, if_neg he, lookup, if_neg he, List.map_cons, List.map_cons,
          List.countP_cons, List.countP_cons]
        omega
  exact key d.entries

/-! ## Dictionaries of dictionaries -/

section Nested

variable {κ' : Type*} {ν' : Type*}

/-- `d.get(k, {})` -/
def nested (d : Dict κ (Dict κ' ν')) (k : κ) : Dict κ' ν' := (d.get k).getD empty

theorem nested_of_get_eq_none {d : Dict κ (Dict κ' ν')} {k : κ} (h : d.get k = none) :
    d.nested k = empty := by
  rw [nested, h]
  rfl

@[simp] theorem nested_set (d : Dict κ (Dict κ' ν')) (k k' : κ) (inner : Dict κ' ν') :
    (d.set k inner).nested k' = if k' = k then inner else d.nested k' := by
  rw [nested, get_set]
  split
  · rfl
  · rfl

@[simp] theorem nested_erase (d : Dict κ (Dict κ' ν')) (k k' : κ) :
    (d.erase k).nested k' = if k' = k then empty else d.nested k' := by
  rw [nested, get_erase]
  split
  · rfl
  · rfl

/-- `d[k] = inner`, or `d.pop(k, None)` where `inner` is empty. -/
def setOrErase (d : Dict κ (Dict κ' ν')) (k : κ) (inner : Dict κ' ν') : Dict κ (Dict κ' ν') :=
  match inner.entries with
  | [] => d.erase k
  | _ :: _ => d.set k inner

@[simp] theorem nested_setOrErase (d : Dict κ (Dict κ' ν')) (k k' : κ) (inner : Dict κ' ν') :
    (d.setOrErase k inner).nested k' = if k' = k then inner else d.nested k' := by
  obtain ⟨entries, hnodup⟩ := inner
  rcases entries with _ | ⟨e, rest⟩
  · exact nested_erase d k k'
  · exact nested_set d k k' _

end Nested

end Dict
