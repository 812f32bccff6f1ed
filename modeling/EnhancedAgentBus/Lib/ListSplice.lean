import Mathlib.Data.List.Basic
import Mathlib.Order.Lattice

/-!
# Splicing lists: when do two edits of one list agree?

Two primitive edits of a list are considered: `List.insertIdx` puts one element
in front of a position, and `removeSpan` removes a span of consecutive
positions.  The file answers, for each of them, when the same edit at two
different positions gives the same list.

## Main results

* `insertIdx_eq_insertIdx_iff` — inserting `v` at `a` and `w` at `b ≥ a` agree
  exactly when `v = w` and every element the position moved over equals `v`.
* `removeSpan_eq_removeSpan_iff` — removing `k` elements at `a` and at `b ≥ a`
  agree exactly when the list is `k`-periodic on the positions between.

Both are proved through the position-wise reading of the edit
(`getElem?_removeSpan`, `List.getElem?_insertIdx`), so an edit is only ever
compared with another edit at one position at a time.
-/

namespace ListSplice

universe u

variable {α : Type u}

/-- Remove the `k` elements from position `p` on (fewer when the list ends first). -/
def removeSpan (xs : List α) (p k : ℕ) : List α :=
  xs.take p ++ xs.drop (p + k)

@[simp] theorem removeSpan_zero (xs : List α) (p : ℕ) : removeSpan xs p 0 = xs := by
  simp [removeSpan]

theorem length_removeSpan (xs : List α) (p k : ℕ) :
    (removeSpan xs p k).length = min p xs.length + (xs.length - (p + k)) := by
  simp [removeSpan]

theorem getElem?_removeSpan (xs : List α) (p k j : ℕ) :
    (removeSpan xs p k)[j]? = if j < p then xs[j]? else xs[j + k]? := by
  rw [removeSpan, List.getElem?_append, List.getElem?_take, List.getElem?_drop,
    List.length_take]
  by_cases hj : j < p
  · by_cases hl : j < xs.length
    · have hin : j < min p xs.length := by omega
      rw [if_pos hin, if_pos hj, if_pos hj]
    · have hnot : ¬ j < min p xs.length := by omega
      rw [if_neg hnot, if_pos hj, List.getElem?_eq_none (by omega),
        List.getElem?_eq_none (by omega)]
  · have hnot : ¬ j < min p xs.length := by omega
    rw [if_neg hnot, if_neg hj]
    by_cases hp : p ≤ xs.length
    · congr 1
      omega
    · rw [List.getElem?_eq_none (by omega), List.getElem?_eq_none (by omega)]

variable {xs : List α} {p q k : ℕ}

theorem removeSpan_of_length_le (h : xs.length ≤ p) (k : ℕ) : removeSpan xs p k = xs := by
  simp [removeSpan, List.take_of_length_le h, List.drop_of_length_le (by omega : xs.length ≤ p + k)]

theorem removeSpan_one (xs : List α) (p : ℕ) : removeSpan xs p 1 = xs.eraseIdx p := by
  rw [removeSpan, List.eraseIdx_eq_take_drop_succ]

theorem removeSpan_removeSpan_same (xs : List α) (p k m : ℕ) :
    removeSpan (removeSpan xs p k) p m = removeSpan xs p (k + m) := by
  apply List.ext_getElem?
  intro j
  simp only [getElem?_removeSpan]
  by_cases hj : j < p
  · simp [hj]
  · rw [if_neg hj, if_neg hj, if_neg (by omega : ¬ j + m < p)]
    congr 1
    omega

/-- **Insertion at two positions.**  The element travels from `a` to `b` without
changing the list exactly when everything it passes equals it. -/
theorem insertIdx_eq_insertIdx_iff {a b : ℕ} (hab : a ≤ b) (hb : b ≤ xs.length) (v w : α) :
    xs.insertIdx a v = xs.insertIdx b w ↔
      v = w ∧ ∀ i, a ≤ i → i < b → xs[i]? = some v := by
  induction a generalizing xs b v with
  | zero =>
    induction b generalizing xs v with
    | zero => simp
    | succ b ih =>
      rcases xs with _ | ⟨x, xs⟩
      · simp at hb
      · have hlen : b ≤ xs.length := by simpa using hb
        have hstep := ih (Nat.zero_le b) hlen x
        rw [List.insertIdx_zero] at hstep
        rw [List.insertIdx_zero, List.insertIdx_succ_cons, List.cons.injEq, hstep]
        constructor
        · rintro ⟨rfl, rfl, hall⟩
          refine ⟨rfl, fun i _ hi => ?_⟩
          cases i with
          | zero => rfl
          | succ i => simpa using hall i (Nat.zero_le i) (by omega)
        · rintro ⟨rfl, hall⟩
          have hx : x = v := by simpa using hall 0 le_rfl (by omega)
          subst hx
          refine ⟨rfl, rfl, fun i _ hi => ?_⟩
          simpa using hall (i + 1) (Nat.zero_le _) (by omega)
  | succ a ih =>
    obtain ⟨b, rfl⟩ : ∃ c, b = c + 1 := ⟨b - 1, by omega⟩
    rcases xs with _ | ⟨x, xs⟩
    · simp at hb
    · have hstep := ih (by omega : a ≤ b) (by simpa using hb : b ≤ xs.length) v
      rw [List.insertIdx_succ_cons, List.insertIdx_succ_cons, List.cons.injEq, hstep]
      constructor
      · rintro ⟨-, rfl, hall⟩
        refine ⟨rfl, fun i hai hib => ?_⟩
        obtain ⟨i, rfl⟩ : ∃ c, i = c + 1 := ⟨i - 1, by omega⟩
        simpa using hall i (by omega) (by omega)
      · rintro ⟨rfl, hall⟩
        refine ⟨rfl, rfl, fun i hai hib => ?_⟩
        simpa using hall (i + 1) (by omega) (by omega)

/-- **Removal at two positions.**  Both spans inside the list: the removals agree
exactly when the elements between are repeated `k` further on. -/
theorem removeSpan_eq_removeSpan_iff {a b : ℕ} (hab : a ≤ b) (k : ℕ) :
    removeSpan xs a k = removeSpan xs b k ↔
      ∀ i, a ≤ i → i < b → xs[i]? = xs[i + k]? := by
  constructor
  · intro h i hai hib
    have hi := congrArg (fun ys => ys[i]?) h
    simp only [getElem?_removeSpan, if_neg (by omega : ¬ i < a), if_pos hib] at hi
    exact hi.symm
  · intro h
    apply List.ext_getElem?
    intro i
    rw [getElem?_removeSpan, getElem?_removeSpan]
    by_cases hia : i < a
    · rw [if_pos hia, if_pos (by omega)]
    · by_cases hib : i < b
      · rw [if_neg hia, if_pos hib]
        exact (h i (by omega) hib).symm
      · rw [if_neg hia, if_neg hib]

theorem removeSpan_insertIdx_of_le (hpq : p ≤ q) (hp : p ≤ xs.length) (v : α) (k : ℕ) :
    removeSpan (xs.insertIdx p v) (q + 1) k = (removeSpan xs q k).insertIdx p v := by
  apply List.ext_getElem?
  intro j
  have hlen := length_removeSpan xs q k
  rw [getElem?_removeSpan, List.getElem?_insertIdx, List.getElem?_insertIdx,
    List.getElem?_insertIdx, getElem?_removeSpan, getElem?_removeSpan]
  rcases Nat.lt_trichotomy j p with hj | rfl | hj
  · simp [hj, show j < q + 1 by omega, show j < q by omega]
  · simp [show j < q + 1 by omega, hp, hlen]
    omega
  · simp only [show ¬ j < p by omega, show ¬ j = p by omega, if_false,
      show ¬ j + k < p by omega, show ¬ j + k = p by omega]
    by_cases hq : j < q + 1
    · rw [if_pos hq, if_pos (by omega)]
    · rw [if_neg hq, if_neg (by omega)]
      congr 1
      omega

theorem removeSpan_insertIdx_of_add_le (hqp : q + k ≤ p) (hp : p ≤ xs.length) (v : α) :
    removeSpan (xs.insertIdx p v) q k = (removeSpan xs q k).insertIdx (p - k) v := by
  apply List.ext_getElem?
  intro j
  have hlen := length_removeSpan xs q k
  rw [getElem?_removeSpan, List.getElem?_insertIdx, List.getElem?_insertIdx,
    List.getElem?_insertIdx, getElem?_removeSpan, getElem?_removeSpan]
  by_cases hjq : j < q
  · simp [hjq, show j < p by omega, show j < p - k by omega]
  · rcases Nat.lt_trichotomy (j + k) p with hj | hj | hj
    · simp [hjq, hj, show j < p - k by omega]
    · obtain ⟨i, rfl⟩ : ∃ i, p = i + k := ⟨j, by omega⟩
      obtain rfl : j = i := by omega
      have hin : j ≤ (removeSpan xs q k).length := by omega
      simp [hjq, hp, hin]
    · simp only [hjq, if_false, show ¬ j + k < p by omega, show ¬ j + k = p by omega,
        show ¬ j < p - k by omega, show ¬ j = p - k by omega, show ¬ j - 1 < q by omega]
      congr 1
      omega

theorem removeSpan_insertIdx_of_mem (hqp : q < p) (hpk : p < q + k) (v : α) :
    removeSpan (xs.insertIdx p v) q k = removeSpan xs q (k - 1) := by
  apply List.ext_getElem?
  intro j
  rw [getElem?_removeSpan, List.getElem?_insertIdx, List.getElem?_insertIdx,
    getElem?_removeSpan]
  by_cases hjq : j < q
  · simp [hjq, show j < p by omega]
  · simp only [hjq, if_false, show ¬ j + k < p by omega, show ¬ j + k = p by omega]
    congr 1
    omega

theorem removeSpan_pred {w : α} (hk : 0 < k) (hw : xs[q + k - 1]? = some w) :
    removeSpan xs q (k - 1) = (removeSpan xs q k).insertIdx q w := by
  have hlt : q + k - 1 < xs.length := (List.getElem?_eq_some_iff.mp hw).1
  apply List.ext_getElem?
  intro j
  have hlen := length_removeSpan xs q k
  rw [getElem?_removeSpan, List.getElem?_insertIdx, getElem?_removeSpan, getElem?_removeSpan]
  rcases Nat.lt_trichotomy j q with hj | rfl | hj
  · simp [hj]
  · have hin : j ≤ (removeSpan xs j k).length := by omega
    rw [if_neg (lt_irrefl j), if_neg (lt_irrefl j), if_pos rfl, if_pos hin, ← hw]
    congr 1
    omega
  · simp only [show ¬ j < q by omega, show ¬ j = q by omega, if_false,
      show ¬ j - 1 < q by omega]
    congr 1
    omega

/-! ## Two edits in both orders -/

theorem insertIdx_push_iff {w : ℕ} (hpq : p ≤ q) (hq : q ≤ xs.length) (hw : 1 ≤ w) (u v : α) :
    (xs.insertIdx p u).insertIdx (min (q + w) (xs.length + 1)) v
        = (xs.insertIdx q v).insertIdx p u ↔
      ∀ i, q ≤ i → i + 1 < q + w → i < xs.length → xs[i]? = some v := by
  have hlen : (xs.insertIdx p u).length = xs.length + 1 :=
    List.length_insertIdx_of_le_length (by omega) u
  rw [← List.insertIdx_comm u v hpq hq, eq_comm,
    insertIdx_eq_insertIdx_iff (by omega) (by omega)]
  simp only [true_and]
  constructor
  · intro h i hqi hiw hi
    have := h (i + 1) (by omega) (by omega)
    rwa [List.getElem?_insertIdx_of_gt (by omega)] at this
  · intro h i hqi hiw
    rw [List.getElem?_insertIdx_of_gt (by omega)]
    exact h (i - 1) (by omega) (by omega) (by omega)

theorem removeSpan_push_iff {w : ℕ} (hpq : p ≤ q) (hp : p ≤ xs.length) (hw : 1 ≤ w) (u : α) (k : ℕ)
    :
    removeSpan (xs.insertIdx p u) (q + w) k = (removeSpan xs q k).insertIdx p u ↔
      ∀ i, q ≤ i → i + 1 < q + w → xs[i]? = xs[i + k]? := by
  rw [← removeSpan_insertIdx_of_le hpq hp, eq_comm,
    removeSpan_eq_removeSpan_iff (by omega)]
  constructor
  · intro h i hqi hiw
    have := h (i + 1) (by omega) (by omega)
    rw [List.getElem?_insertIdx_of_gt (by omega), List.getElem?_insertIdx_of_gt (by omega)] at this
    simpa [Nat.add_right_comm i 1 k] using this
  · intro h i hqi hiw
    rw [List.getElem?_insertIdx_of_gt (by omega), List.getElem?_insertIdx_of_gt (by omega)]
    have := h (i - 1) (by omega) (by omega)
    rwa [show i - 1 + k = i + k - 1 by omega] at this

theorem insertIdx_inside_iff (hqp : q < p) (hpk : p < q + k) (hk : q + k ≤ xs.length) (v : α) :
    removeSpan (xs.insertIdx p v) q k =
        (removeSpan xs q k).insertIdx (min (p - k) (removeSpan xs q k).length) v ↔
      xs[q + k - 1]? = some v ∧ ∀ i, p - k ≤ i → i < q → xs[i]? = some v := by
  obtain ⟨w, hw⟩ : ∃ w, xs[q + k - 1]? = some w :=
    ⟨_, List.getElem?_eq_getElem (by omega : q + k - 1 < xs.length)⟩
  have hlen := length_removeSpan xs q k
  rw [removeSpan_insertIdx_of_mem hqp hpk v, removeSpan_pred (by omega) hw,
    show min (p - k) (removeSpan xs q k).length = p - k by omega, eq_comm,
    insertIdx_eq_insertIdx_iff (by omega) (by omega), hw, Option.some_inj]
  have hbelow : (∀ i, p - k ≤ i → i < q → (removeSpan xs q k)[i]? = some v) ↔
      ∀ i, p - k ≤ i → i < q → xs[i]? = some v := by
    refine forall_congr' fun i => forall_congr' fun _ => forall_congr' fun hi => ?_
    rw [getElem?_removeSpan, if_pos hi]
  rw [hbelow]
  exact and_congr_left fun _ => eq_comm

theorem removeSpan_comm {m : ℕ} (h : p + k ≤ q) :
    removeSpan (removeSpan xs p k) (q - k) m = removeSpan (removeSpan xs q m) p k := by
  apply List.ext_getElem?
  intro j
  simp only [getElem?_removeSpan]
  by_cases hjp : j < p
  · simp [hjp, show j < q - k by omega, show j < q by omega]
  · by_cases hjq : j < q - k
    · simp [hjp, hjq, show j + k < q by omega]
    · simp only [hjp, hjq, if_false, show ¬ j + m < p by omega, show ¬ j + k < q by omega]
      congr 1
      omega

theorem removeSpan_removeSpan_inner {m : ℕ} (hpq : p ≤ q) (hq : q ≤ p + k) :
    removeSpan (removeSpan xs q m) p k = removeSpan xs p (k + m) := by
  apply List.ext_getElem?
  intro j
  simp only [getElem?_removeSpan]
  by_cases hjp : j < p
  · simp [hjp, show j < q by omega]
  · simp only [hjp, if_false, show ¬ j + k < q by omega]
    congr 1
    omega

theorem removeSpan_one_eq_self_iff (xs : List α) (p : ℕ) :
    removeSpan xs p 1 = xs ↔ xs.length ≤ p := by
  constructor
  · intro h
    have hlen := congrArg List.length h
    rw [length_removeSpan] at hlen
    omega
  · intro h
    exact removeSpan_of_length_le h 1

theorem removeSpan_nested_iff {m : ℕ} (hpq : p ≤ q) (hm : q + m < p + k ∨ (p < q ∧ q + m = p + k))
    (hk : p + k ≤ xs.length) :
    removeSpan (removeSpan xs p k) q 1 = removeSpan (removeSpan xs q m) p (k - m) ↔
      xs.length ≤ q + k := by
  have hlen := length_removeSpan xs p k
  rw [removeSpan_removeSpan_inner hpq (by omega), Nat.sub_add_cancel (by omega),
    removeSpan_one_eq_self_iff, hlen]
  omega

theorem removeSpan_straddle_iff {m : ℕ} (hpq : p < q) (hm : p + k < q + m) :
    removeSpan (removeSpan xs p k) q (q + m - (p + k))
        = removeSpan (removeSpan xs q m) p (q - p) ↔
      ∀ j, j < q - p → xs[p + k + j]? = xs[q + m + j]? := by
  have hinner : removeSpan (removeSpan xs q m) p (q - p)
      = removeSpan (removeSpan xs p k) p (q + m - (p + k)) := by
    rw [removeSpan_removeSpan_inner (by omega) (by omega), removeSpan_removeSpan_same]
    congr 1
    omega
  rw [hinner, eq_comm, removeSpan_eq_removeSpan_iff (by omega)]
  constructor
  · intro h j hj
    have := h (p + j) (by omega) (by omega)
    rw [getElem?_removeSpan, getElem?_removeSpan, if_neg (by omega), if_neg (by omega)] at this
    rwa [show p + j + k = p + k + j by omega,
      show p + j + (q + m - (p + k)) + k = q + m + j by omega] at this
  · intro h i hpi hiq
    rw [getElem?_removeSpan, getElem?_removeSpan, if_neg (by omega), if_neg (by omega)]
    have := h (i - p) (by omega)
    rwa [show p + k + (i - p) = i + k by omega,
      show q + m + (i - p) = i + (q + m - (p + k)) + k by omega] at this

end ListSplice
