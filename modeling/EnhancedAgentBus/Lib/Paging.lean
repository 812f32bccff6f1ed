import Mathlib.Data.List.Sort

/-!
# Lists that are read page by page

A list is cut into pages of one size, and read up to the first page that is not live (`reached`).
What is sorted page by page is filtered before or after (`filter_mergeSort`), and a list is
determined by its slices (`eq_of_slices`).
-/

namespace Paging

variable {α β : Type}

/-! ## Sorting and filtering -/

variable {xs : List α} {read : α → Option β}

theorem takeWhile_of_split {p : α → Bool} {ys : List α} (hxs : ∀ x ∈ xs, p x = true)
    (hys : ∀ y ∈ ys, p y = false) : (xs ++ ys).takeWhile p = xs := by
  rw [List.takeWhile_append_of_pos hxs]
  rcases ys with _ | ⟨y, ys⟩
  · rw [List.takeWhile_nil, List.append_nil]
  · rw [List.takeWhile_cons, if_neg (by rw [hys y List.mem_cons_self]; exact Bool.false_ne_true),
      List.append_nil]

theorem filter_mergeSort {le : α → α → Bool} (trans : ∀ a b c, le a b → le b c → le a c)
    (total : ∀ a b, le a b || le b a) (p : α → Bool) (l : List α) :
    (l.mergeSort le).filter p = (l.filter p).mergeSort le := by
  induction l with
  | nil => simp
  | cons a l ih =>
    obtain ⟨xs, ys, hcons, hl, hxs⟩ := List.mergeSort_cons trans total a l
    have hsorted := List.pairwise_mergeSort trans total (a :: l)
    rw [hcons, List.pairwise_append] at hsorted
    have hys : ∀ y ∈ ys, le a y = true := (List.pairwise_cons.mp hsorted.2.1).1
    rw [hl, List.filter_append] at ih
    rw [hcons, List.filter_append, List.filter_cons]
    rcases hp : p a with _ | _
    · rw [List.filter_cons, hp]; exact ih
    · obtain ⟨xs', ys', hcons', hl', hxs'⟩ := List.mergeSort_cons trans total a (l.filter p)
      have hsorted' := List.pairwise_mergeSort trans total (a :: l.filter p)
      rw [hcons', List.pairwise_append] at hsorted'
      have hys' : ∀ y ∈ ys', le a y = true := (List.pairwise_cons.mp hsorted'.2.1).1
      -- both are the elements that `a` does not come before, and then the others
      have hsplit : xs.filter p ++ ys.filter p = xs' ++ ys' := ih.trans hl'
      have hbefore : xs.filter p = xs' := by
        have h := congrArg (List.takeWhile fun b => !le a b) hsplit
        rwa [takeWhile_of_split (fun x hx => hxs x (List.mem_filter.mp hx).1)
          (fun y hy => by rw [hys y (List.mem_filter.mp hy).1, Bool.not_true]),
          takeWhile_of_split hxs' fun y hy => by rw [hys' y hy, Bool.not_true]] at h
      have hafter : ys.filter p = ys' := List.append_cancel_left (hbefore ▸ hsplit)
      rw [List.filter_cons, hp, if_pos rfl, if_pos rfl, hcons', hbefore, hafter]

/-! ## Slices -/

/-- The slice of `limit` elements from `offset` on. -/
abbrev slice (xs : List α) (limit offset : ℕ) : List α := (xs.drop offset).take limit

theorem slice_append (xs ys : List α) (limit offset : ℕ) :
    slice (xs ++ ys) limit offset =
      slice xs limit offset ++
        slice ys (limit - (xs.length - offset)) (offset - xs.length) := by
  rw [slice, List.drop_append, List.take_append, List.length_drop]

theorem slice_append_of_full {limit offset : ℕ} (h : limit ≤ (slice xs limit offset).length)
    (ys : List α) : slice (xs ++ ys) limit offset = slice xs limit offset := by
  rw [slice, List.length_take, List.length_drop] at h
  rw [slice_append, Nat.sub_eq_zero_of_le (Nat.le_min.mp h).2]
  exact (congrArg _ List.take_zero).trans (List.append_nil _)

/-- The elements from one place to before another. -/
abbrev piece (xs : List α) (first last : ℕ) : List α := (xs.take last).drop first

theorem eq_of_slices {ys : List α} {limit : ℕ} (hlimit : 0 < limit)
    (h : ∀ offset, slice xs limit offset = slice ys limit offset) : xs = ys := by
  refine List.ext_getElem? fun i => ?_
  have hhead := congrArg List.head? (h i)
  rw [slice, slice, List.head?_take, List.head?_take, if_neg hlimit.ne', if_neg hlimit.ne',
    List.head?_drop, List.head?_drop] at hhead
  exact hhead

theorem flatten_slices (xs : List α) (limit n : ℕ) :
    ((List.range n).map fun i => slice xs limit (i * limit)).flatten = xs.take (n * limit) := by
  induction n with
  | zero => simp
  | succ n ih =>
    rw [List.range_succ, List.map_append, List.flatten_append, ih, List.map_singleton,
      List.flatten_singleton, Nat.succ_mul, List.take_add]

theorem mapM_eq_some_iff {ys : List β} : xs.mapM read = some ys ↔ xs.map read = ys.map some := by
  induction xs generalizing ys with
  | nil => cases ys <;> simp
  | cons x xs ih =>
    rw [List.mapM_cons, List.map_cons]
    rcases hx : read x with _ | y
    · cases ys <;> simp
    · rcases ys with _ | ⟨z, zs⟩
      · cases xs.mapM read <;> simp
      · rw [List.map_cons, List.cons.injEq, ← ih]
        cases xs.mapM read <;> simp

theorem map_eq_of_read {γ : Type} {f : α → γ} {g : β → γ}
    (hfg : ∀ x y, read x = some y → f x = g y) {ys : List β} (h : xs.map read = ys.map some) :
    xs.map f = ys.map g := by
  induction xs generalizing ys with
  | nil =>
    rcases ys with _ | ⟨y, ys⟩
    · rfl
    · cases h
  | cons x xs ih =>
    rcases ys with _ | ⟨y, ys⟩
    · cases h
    · obtain ⟨hx, hxs⟩ := List.cons.inj h
      rw [List.map_cons, List.map_cons, hfg x y hx, ih hxs]

theorem filterMap_of_read {ys : List β} (h : xs.map read = ys.map some) :
    xs.filterMap read = ys := by
  calc xs.filterMap read = (xs.map read).filterMap id := by
        rw [List.filterMap_map, Function.id_comp]
    _ = (ys.map some).filterMap id := by rw [h]
    _ = ys := by rw [List.filterMap_map, Function.id_comp, List.filterMap_some]

theorem exists_map_eq_of_isSome (h : ∀ x ∈ xs, (read x).isSome) :
    ∃ ys : List β, xs.map read = ys.map some := by
  induction xs with
  | nil => exact ⟨[], rfl⟩
  | cons x xs ih =>
    obtain ⟨y, hy⟩ := Option.isSome_iff_exists.mp (h x List.mem_cons_self)
    obtain ⟨ys, hys⟩ := ih fun x hx => h x (List.mem_cons_of_mem _ hx)
    exact ⟨y :: ys, by rw [List.map_cons, List.map_cons, hy, hys]⟩

/-! ## Pages -/

/-- The `k`-th page. -/
abbrev page (xs : List α) (size k : ℕ) : List α := slice xs size (k * size)

theorem page_eq_nil {size k : ℕ} (hsize : 0 < size) (hk : xs.length ≤ k) : page xs size k = [] := by
  rw [page, slice, List.drop_eq_nil_of_le (hk.trans (Nat.le_mul_of_pos_right k hsize)),
    List.take_nil]

/-- The pages from the `k`-th on, up to the first that is not live; at most `n` of them. -/
def reachedFrom (live : List α → Bool) (xs : List α) (size : ℕ) : ℕ → ℕ → List (List α)
  | 0, _ => []
  | n + 1, k =>
    if live (page xs size k) then page xs size k :: reachedFrom live xs size n (k + 1) else []

/-- The pages up to the first that is not live. -/
def reached (live : List α → Bool) (xs : List α) (size : ℕ) : List (List α) :=
  reachedFrom live xs size xs.length 0

theorem flatten_reachedFrom (live : List α → Bool) (xs : List α) (size n k : ℕ) :
    (reachedFrom live xs size n k).flatten.Sublist (xs.drop (k * size)) := by
  induction n generalizing k with
  | zero => exact List.nil_sublist _
  | succ n ih =>
    rw [reachedFrom]
    split
    · rw [List.flatten_cons, ← List.take_append_drop size (xs.drop (k * size)), List.drop_drop,
        ← Nat.succ_mul]
      exact (List.Sublist.refl _).append (ih (k + 1))
    · exact List.nil_sublist _

theorem flatten_reached (live : List α → Bool) (xs : List α) (size : ℕ) :
    (reached live xs size).flatten.Sublist xs := by
  have h := flatten_reachedFrom live xs size xs.length 0
  rwa [Nat.zero_mul, List.drop_zero] at h

end Paging
