import Mathlib.Algebra.Order.Ring.Nat
import Mathlib.Data.List.Chain

/-!
# Hash chains

A record of a hash chain has the hash of the record before it.  `Grown` is a chain as it comes about
by appending, and `Grown.linked_iff` says which of its records are linked: those at neighbouring
positions.  So a list that is picked out of a grown chain is itself linked exactly when it is a
stretch of it (`Grown.linked_iff_consecutive`).

What is hashed is a text of several fields; `join_inj` takes the first field off such a text, and
the fields are those of no other text exactly where they are free of the separator.
-/

namespace HashChain

universe u v

/-! ## Texts of several fields -/

theorem append_separator_inj {α : Type u} {c : α} {a a' b b' : List α} (ha : c ∉ a) (ha' : c ∉ a')
    (h : a ++ c :: b = a' ++ c :: b') : a = a' ∧ b = b' := by
  induction a generalizing a' with
  | nil =>
    rcases a' with _ | ⟨x, a'⟩
    · exact ⟨rfl, (List.cons.inj h).2⟩
    · have hx : c = x := (List.cons.inj h).1
      exact absurd (hx ▸ List.mem_cons_self) ha'
  | cons x a ih =>
    rcases a' with _ | ⟨y, a'⟩
    · have hx : x = c := (List.cons.inj h).1
      exact absurd (hx ▸ List.mem_cons_self) ha
    · obtain ⟨hxy, hrest⟩ := List.cons.inj h
      have hih := ih (fun hmem => ha (List.mem_cons_of_mem x hmem))
        (fun hmem => ha' (List.mem_cons_of_mem y hmem)) hrest
      exact ⟨by rw [hxy, hih.1], hih.2⟩

theorem append_separator_inj_right {α : Type u} {c : α} {a a' b b' : List α} (hb : c ∉ b)
    (hb' : c ∉ b') (h : a ++ c :: b = a' ++ c :: b') : a = a' ∧ b = b' := by
  have hreverse := congrArg List.reverse h
  simp only [List.reverse_append, List.reverse_cons, List.append_assoc, List.singleton_append]
    at hreverse
  obtain ⟨hb, ha⟩ := append_separator_inj (by rwa [List.mem_reverse])
    (by rwa [List.mem_reverse]) hreverse
  exact ⟨List.reverse_injective ha, List.reverse_injective hb⟩

theorem join_inj {c : Char} {a a' b b' : String} {l l' : List String} (ha : c ∉ a.toList)
    (ha' : c ∉ a'.toList)
    (h : (String.singleton c).intercalate (a :: b :: l) =
      (String.singleton c).intercalate (a' :: b' :: l')) :
    a = a' ∧ (String.singleton c).intercalate (b :: l) =
      (String.singleton c).intercalate (b' :: l') := by
  rw [String.intercalate_cons_cons, String.intercalate_cons_cons] at h
  have hlist := congrArg String.toList h
  simp only [String.toList_append, String.toList_singleton, List.append_assoc,
    List.cons_append, List.nil_append] at hlist
  obtain ⟨hfield, hrest⟩ := append_separator_inj ha ha' hlist
  exact ⟨String.toList_inj.mp hfield, String.toList_inj.mp hrest⟩

theorem count_join (c : Char) {l : List String} (hne : l ≠ []) :
    ((String.singleton c).intercalate l).toList.count c + 1 =
      (l.map fun a => a.toList.count c).sum + l.length := by
  induction l with
  | nil => exact absurd rfl hne
  | cons a l ih =>
    rcases l with _ | ⟨b, l⟩
    · simp
    · have hrest := ih (List.cons_ne_nil b l)
      rw [String.intercalate_cons_cons]
      simp only [String.toList_append, String.toList_singleton, List.count_append,
        List.count_singleton_self, List.map_cons, List.sum_cons, List.length_cons] at hrest ⊢
      omega

theorem join_inj_of_free {c : Char} {l l' : List String} (hlength : l.length = l'.length)
    (hfree : ∀ a ∈ l, c ∉ a.toList)
    (h : (String.singleton c).intercalate l = (String.singleton c).intercalate l') : l = l' := by
  have hfree' : ∀ a ∈ l', c ∉ a.toList := by
    intro a ha hmem
    have hne' := List.ne_nil_of_mem ha
    have hne : l ≠ [] := by
      rw [← List.length_pos_iff, hlength]
      exact List.length_pos_iff.mpr hne'
    have hcount := count_join c hne
    have hcount' := count_join c hne'
    have hzero : (l.map fun a => a.toList.count c).sum = 0 := by
      rw [List.sum_eq_zero_iff_forall_eq_nat]
      simpa [List.count_eq_zero] using hfree
    have hpos : 0 < (l'.map fun a => a.toList.count c).sum := by
      rw [List.sum_pos_iff_exists_pos_nat]
      exact ⟨_, List.mem_map_of_mem ha, List.count_pos_iff.mpr hmem⟩
    rw [h] at hcount
    omega
  induction l generalizing l' with
  | nil => exact (List.length_eq_zero_iff.mp hlength.symm).symm
  | cons a l ih =>
    obtain ⟨a', l', rfl⟩ := List.exists_cons_of_length_eq_add_one hlength.symm
    have hrest : l.length = l'.length := by simpa using hlength
    rcases l with _ | ⟨b, l⟩
    · obtain rfl := List.length_eq_zero_iff.mp hrest.symm
      rw [String.intercalate_singleton, String.intercalate_singleton] at h
      rw [h]
    · obtain ⟨b', l', rfl⟩ := List.exists_cons_of_length_eq_add_one hrest.symm
      obtain ⟨rfl, htail⟩ := join_inj (hfree a List.mem_cons_self)
        (hfree' a' List.mem_cons_self) h
      rw [ih hrest (fun x hx => hfree x (List.mem_cons_of_mem _ hx)) htail
        fun x hx => hfree' x (List.mem_cons_of_mem _ hx)]

theorem exists_join_ne {c : Char} {a b : String} (h : c ∈ a.toList ∨ c ∈ b.toList) :
    ∃ a' b', (String.singleton c).intercalate [a', b'] = (String.singleton c).intercalate [a, b] ∧
      ¬(a' = a ∧ b' = b) := by
  rcases h with h | h
  · obtain ⟨u, v, huv⟩ := List.append_of_mem h
    refine ⟨String.ofList u, String.ofList v ++ (String.singleton c ++ b), ?_, ?_⟩
    · rw [← String.toList_inj]
      simp [huv, String.intercalate_cons_cons]
    · rintro ⟨hu, -⟩
      have hlist := congrArg List.length (congrArg String.toList hu)
      simp [huv] at hlist
  · obtain ⟨u, v, huv⟩ := List.append_of_mem h
    refine ⟨a ++ (String.singleton c ++ String.ofList u), String.ofList v, ?_, ?_⟩
    · rw [← String.toList_inj]
      simp [huv, String.intercalate_cons_cons]
    · rintro ⟨-, hv⟩
      have hlist := congrArg List.length (congrArg String.toList hv)
      simp only [huv, String.toList_ofList, List.length_append, List.length_cons] at hlist
      omega

theorem intercalate_congr_pair {sep a b a' b' : String} (l r : List String)
    (h : sep.intercalate [a', b'] = sep.intercalate [a, b]) :
    sep.intercalate (l ++ a' :: b' :: r) = sep.intercalate (l ++ a :: b :: r) := by
  have hpair : sep.intercalate (a' :: b' :: r) = sep.intercalate (a :: b :: r) := by
    have hsplit (x y : String) : x :: y :: r = [x, y] ++ r := rfl
    by_cases hr : r = []
    · rw [hr, h]
    · rw [hsplit, hsplit, String.intercalate_append_of_ne_nil (by simp) hr, h,
        String.intercalate_append_of_ne_nil (by simp) hr]
  by_cases hl : l = []
  · rw [hl, List.nil_append, List.nil_append, hpair]
  · rw [String.intercalate_append_of_ne_nil hl (by simp), hpair,
      String.intercalate_append_of_ne_nil hl (by simp)]

theorem append_inj_of_length {a a' b b' : String} (h : a ++ b = a' ++ b')
    (hlength : a.length = a'.length) : a = a' ∧ b = b' := by
  have hlist := congrArg String.toList h
  rw [String.toList_append, String.toList_append] at hlist
  obtain ⟨ha, hb⟩ := List.append_inj hlist (by
    rw [String.length_toList, String.length_toList, hlength])
  exact ⟨String.toList_inj.mp ha, String.toList_inj.mp hb⟩

theorem append_inj_of_length' {a a' b b' : String} (h : a ++ b = a' ++ b')
    (hlength : b.length = b'.length) : a = a' ∧ b = b' := by
  refine append_inj_of_length h ?_
  have htotal := congrArg String.length h
  rw [String.length_append, String.length_append] at htotal
  omega

theorem length_intercalate_congr (sep : String) {l l' : List String}
    (hlengths : l.map String.length = l'.map String.length) :
    (sep.intercalate l).length = (sep.intercalate l').length := by
  induction l generalizing l' with
  | nil =>
    obtain rfl := List.map_eq_nil_iff.mp hlengths.symm
    rfl
  | cons a l ih =>
    obtain ⟨a', l', rfl, ha, hl⟩ := List.map_eq_cons_iff.mp hlengths.symm
    have hrest := ih hl.symm
    rcases l with _ | ⟨b, l⟩
    · obtain rfl := List.map_eq_nil_iff.mp hl
      rw [String.intercalate_singleton, String.intercalate_singleton, ha]
    · obtain ⟨b', l', rfl, -, -⟩ := List.map_eq_cons_iff.mp hl
      rw [String.intercalate_cons_cons, String.intercalate_cons_cons, String.length_append,
        String.length_append, String.length_append, String.length_append, ha, hrest]

theorem intercalate_inj_of_lengths (sep : String) {l l' : List String}
    (hlengths : l.map String.length = l'.map String.length)
    (h : sep.intercalate l = sep.intercalate l') : l = l' := by
  induction l generalizing l' with
  | nil => exact (List.map_eq_nil_iff.mp hlengths.symm).symm
  | cons a l ih =>
    obtain ⟨a', l', rfl, ha, hl⟩ := List.map_eq_cons_iff.mp hlengths.symm
    rcases l with _ | ⟨b, l⟩
    · obtain rfl := List.map_eq_nil_iff.mp hl
      rw [String.intercalate_singleton, String.intercalate_singleton] at h
      rw [h]
    · obtain ⟨b', l', rfl, -, -⟩ := List.map_eq_cons_iff.mp hl
      rw [String.intercalate_cons_cons, String.intercalate_cons_cons, String.append_assoc,
        String.append_assoc] at h
      obtain ⟨rfl, hrest⟩ := append_inj_of_length h ha.symm
      obtain ⟨-, hrest⟩ := append_inj_of_length hrest rfl
      rw [ih hl.symm hrest]

/-! ## Chains -/

section Chains

variable {α : Type u} {H : Type v} (hash prev : α → H) (position : α → ℤ)

/-- Every record has the hash of the one before it. -/
def Linked (l : List α) : Prop := l.IsChain fun p q => prev q = hash p

def Consecutive (l : List α) : Prop := l.IsChain fun p q => position q = position p + 1

theorem consecutive_iff_map (l : List α) :
    Consecutive position l ↔ (l.map position).IsChain fun m n => n = m + 1 := by
  rw [List.isChain_map]
  rfl

/-- A chain that has grown record by record, from a hash that no record has. -/
structure Grown (genesis : H) (l : List α) : Prop where
  position_eq : ∀ i (h : i < l.length), position l[i] = i + 1
  first : ∀ h : 0 < l.length, prev l[0] = genesis
  next : ∀ i (h : i + 1 < l.length), prev l[i + 1] = hash l[i]

variable {hash prev position}

theorem grown_nil (genesis : H) : Grown hash prev position genesis [] :=
  ⟨fun _ h => absurd h (Nat.not_lt_zero _), fun h => absurd h (Nat.not_lt_zero _),
    fun _ h => absurd h (Nat.not_lt_zero _)⟩

theorem Grown.append {genesis : H} {l : List α} (h : Grown hash prev position genesis l) {q : α}
    (hposition : position q = l.length + 1)
    (hprev : prev q = (l.getLast?.map hash).getD genesis) :
    Grown hash prev position genesis (l ++ [q]) := by
  refine ⟨fun i hi => ?_, fun hpos => ?_, fun i hi => ?_⟩
  · rw [List.length_append, List.length_singleton] at hi
    rcases Nat.lt_or_ge i l.length with hlt | hge
    · rw [List.getElem_append_left hlt]
      exact h.position_eq i hlt
    · obtain rfl : i = l.length := by omega
      rw [List.getElem_concat_length rfl]
      exact hposition
  · rcases l with _ | ⟨p, l⟩
    · exact hprev
    · exact h.first (Nat.succ_pos _)
  · rw [List.length_append, List.length_singleton] at hi
    rw [List.getElem_append_left (by omega : i < l.length)]
    rcases Nat.lt_or_ge (i + 1) l.length with hlt | hge
    · rw [List.getElem_append_left hlt]
      exact h.next i hlt
    · have hlast : l.getLast? = some l[i] := by
        rw [List.getLast?_eq_getElem?, show l.length - 1 = i by omega, List.getElem?_eq_getElem]
      have hi : i + 1 = l.length := by omega
      rw [List.getElem_concat_length hi, hprev, hlast]
      rfl

/-- **Neighbours.**  If hashes tell positions apart, one record of a grown chain is linked to another
exactly when it is the next one. -/
theorem Grown.linked_iff {genesis : H} {l : List α} (h : Grown hash prev position genesis l)
    (hgenesis : ∀ p ∈ l, hash p ≠ genesis)
    (hapart : ∀ p ∈ l, ∀ q ∈ l, hash p = hash q → position p = position q)
    {p q : α} (hp : p ∈ l) (hq : q ∈ l) : prev q = hash p ↔ position q = position p + 1 := by
  obtain ⟨i, hi, rfl⟩ := List.mem_iff_getElem.mp hp
  obtain ⟨j, hj, rfl⟩ := List.mem_iff_getElem.mp hq
  rw [h.position_eq i hi, h.position_eq j hj]
  cases j with
  | zero =>
    rw [h.first hj]
    constructor
    · intro heq
      exact absurd heq.symm (hgenesis _ hp)
    · intro heq
      omega
  | succ k =>
    rw [h.next k hj]
    constructor
    · intro heq
      have hki := hapart _ (List.getElem_mem _) _ hp heq
      rw [h.position_eq k (by omega), h.position_eq i hi] at hki
      omega
    · intro heq
      obtain rfl : k = i := by omega
      rfl

theorem Grown.linked_iff_consecutive {genesis : H} {l : List α}
    (h : Grown hash prev position genesis l) (hgenesis : ∀ p ∈ l, hash p ≠ genesis)
    (hapart : ∀ p ∈ l, ∀ q ∈ l, hash p = hash q → position p = position q) {ps : List α}
    (hps : ∀ p ∈ ps, p ∈ l) : Linked hash prev ps ↔ Consecutive position ps := by
  induction ps with
  | nil => exact iff_of_true .nil .nil
  | cons p rest ih =>
    have hrest := ih fun q hq => hps q (List.mem_cons_of_mem p hq)
    rcases rest with _ | ⟨q, rest⟩
    · exact iff_of_true (.singleton p) (.singleton p)
    · rw [Linked, Consecutive, List.isChain_cons_cons, List.isChain_cons_cons]
      exact and_congr (h.linked_iff hgenesis hapart (hps p List.mem_cons_self)
        (hps q (List.mem_cons_of_mem p List.mem_cons_self))) hrest

end Chains

end HashChain
