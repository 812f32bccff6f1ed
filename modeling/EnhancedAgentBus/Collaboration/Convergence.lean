import EnhancedAgentBus.Collaboration.SyncEngine
import EnhancedAgentBus.Lib.ListSplice

/-!
# Do two concurrent array edits converge?

Operational transform promises that two clients which apply the same pair of
concurrent operations in opposite orders end with the same document (TP1).  The
transform computes how far an operation has to be shifted in `transform…`, while
`_insert_at_path` and `_delete_at_path` decide how far an operation really shifts
the array.  The two disagree:

* an insertion puts **one** element into an array whatever the value is, but the
  transform shifts the other operation by `len(str(value))`;
* overlapping deletions have their lengths adjusted but not their positions, and
  a length adjusted to `0` is read back as `1` (`length or 1`);
* an insertion strictly inside a deleted span is moved by the whole length of
  the span.

`ArrayConverges` states, for each pairing, exactly which arrays hide the
disagreement, and `transformOperations_converges_iff` is the equivalence.

## Layers

* `Json.follow` / `Json.put` — a document as a context around the array at a path;
* `arrayEffect` — what a valid operation does to that array, in the terms of
  `ListSplice`; `applyToDocument_eq_put` connects it with the code's edit;
* one lemma per pairing, each an instance of a `ListSplice` equivalence.
-/

namespace EnhancedAgentBus.Collaboration

open ListSplice

/-! ## Walking the path -/

theorem insertAtPath_eq_put {path : List String} {doc target : Json} (position : Option ℤ)
    (value : Json) (h : Json.follow path doc = some target) :
    insertAtPath position value path doc =
      (Json.put (insertHere position value target).1 path doc,
        (insertHere position value target).2) := by
  induction path generalizing doc with
  | nil =>
    obtain rfl : doc = target := by simpa [Json.follow] using h
    rfl
  | cons part rest ih =>
    obtain ⟨members, child, rfl, hchild, hrest⟩ := Json.follow_cons h
    simp [insertAtPath, editChild, Json.put, hchild, ih hrest]

theorem deleteAtPath_eq_put {path : List String} {doc target : Json} (op : EditOperation)
    (h : Json.follow path doc = some target) :
    deleteAtPath op path doc =
      (Json.put (deleteHere op target).1 path doc, (deleteHere op target).2) := by
  induction path generalizing doc with
  | nil =>
    obtain rfl : doc = target := by simpa [Json.follow] using h
    rfl
  | cons part rest ih =>
    obtain ⟨members, child, rfl, hchild, hrest⟩ := Json.follow_cons h
    simp [deleteAtPath, editChild, Json.put, hchild, ih hrest]

/-! ## What a valid operation does to the array -/

namespace EditOperation

def pos (op : EditOperation) : ℕ := (op.position.getD 0).toNat

def span (op : EditOperation) : ℕ := op.lengthOr1.toNat

end EditOperation

/-- An operation the editor may send for an array of length `n`: an insertion with
its position in range, or a deletion of at least one element that stays inside. -/
def ValidOn (path : String) (n : ℕ) (op : EditOperation) : Prop :=
  op.path = path ∧ ∃ p : ℤ, op.position = some p ∧ 0 ≤ p ∧
    ((op.type = .insert ∧ p ≤ n) ∨
      (op.type = .delete ∧ ∃ l : ℤ, op.length = some l ∧ 1 ≤ l ∧ p + l ≤ n))

def arrayEffect (op : EditOperation) (xs : List Json) : List Json :=
  match op.type with
  | .insert => xs.insertIdx (min op.pos xs.length) op.value
  | .delete => removeSpan xs op.pos op.span
  | _ => xs

theorem pyInsert_of_nonneg (xs : List Json) (p : ℕ) (v : Json) :
    pyInsert xs (min (p : ℤ) xs.length) v = xs.insertIdx (min p xs.length) v := by
  have hnonneg : ¬ min (p : ℤ) xs.length < 0 := by omega
  have hcast : min (min (p : ℤ) xs.length).toNat xs.length = min p xs.length := by omega
  rw [pyInsert, if_neg hnonneg, hcast]

theorem deleteLoop_of_nonneg (p : ℕ) :
    ∀ (n : ℕ) (xs : List Json), deleteLoop p n xs = (removeSpan xs p n, none) := by
  intro n
  induction n with
  | zero => intro xs; simp [deleteLoop]
  | succ n ih =>
    intro xs
    by_cases hp : p < xs.length
    · have hdel : pyDel xs p = some (xs.eraseIdx p) := by
        simp [pyDel, show ¬ (p : ℤ) < 0 by omega, hp]
      have hlt : (p : ℤ) < xs.length := by exact_mod_cast hp
      rw [deleteLoop, if_pos hlt, hdel]
      simp only [ih]
      rw [← removeSpan_one, removeSpan_removeSpan_same, Nat.add_comm]
    · have hnot : ¬ (p : ℤ) < xs.length := by exact_mod_cast hp
      rw [deleteLoop, if_neg hnot, ih, removeSpan_of_length_le (by omega),
        removeSpan_of_length_le (by omega)]

/-- **The code's edit is the array effect, put back into the document.**  It holds
for every position that is not negative, in range or not, so it also covers the
operations the transform produces. -/
theorem applyToDocument_eq_put {doc : Json} {xs : List Json} {op : EditOperation} {p : ℤ}
    (hdoc : Json.follow (pathParts op.path) doc = some (.arr xs))
    (htype : op.type = .insert ∨ op.type = .delete)
    (hpos : op.position = some p) (hp : 0 ≤ p) :
    applyToDocument op doc =
      (Json.put (.arr (arrayEffect op xs)) (pathParts op.path) doc, none) := by
  lift p to ℕ using hp
  have hopPos : op.pos = p := by simp [EditOperation.pos, hpos]
  rcases htype with htype | htype
  · have heffect : arrayEffect op xs = xs.insertIdx (min p xs.length) op.value := by
      simp only [arrayEffect, htype, hopPos]
    have hedit := insertAtPath_eq_put op.position op.value hdoc
    simp only [hpos, insertHere, pyInsert_of_nonneg] at hedit
    simp only [applyToDocument, htype, hpos, hedit, heffect]
  · have heffect : arrayEffect op xs = removeSpan xs p op.span := by
      simp only [arrayEffect, htype, hopPos]
    have hedit := deleteAtPath_eq_put op hdoc
    simp only [hpos, deleteHere, deleteLoop_of_nonneg] at hedit
    simp only [applyToDocument, htype, hedit, heffect, EditOperation.span]

/-! ## Two operations in sequence -/

/-- Apply `a`, then `b`; an error in `a` stops the sequence. -/
def applyBoth (a b : EditOperation) (doc : Json) : Edited :=
  match applyToDocument a doc with
  | (doc', none) => applyToDocument b doc'
  | failed => failed

/-- **TP1** for one pair of concurrent operations on one document. -/
def Converges [PrintTable] (doc : Json) (op1 op2 : EditOperation) : Prop :=
  applyBoth op1 (transformOperations op1 op2).2 doc =
    applyBoth op2 (transformOperations op1 op2).1 doc

theorem applyBoth_eq_put {doc : Json} {xs : List Json} {a b : EditOperation} {p q : ℤ}
    (hdoc : Json.follow (pathParts a.path) doc = some (.arr xs)) (hpath : b.path = a.path)
    (ha : a.type = .insert ∨ a.type = .delete) (hb : b.type = .insert ∨ b.type = .delete)
    (hp : a.position = some p) (hp0 : 0 ≤ p) (hq : b.position = some q) (hq0 : 0 ≤ q) :
    applyBoth a b doc =
      (Json.put (.arr (arrayEffect b (arrayEffect a xs))) (pathParts a.path) doc, none) := by
  have hfirst := applyToDocument_eq_put hdoc ha hp hp0
  have hdoc' : Json.follow (pathParts b.path)
      (Json.put (.arr (arrayEffect a xs)) (pathParts a.path) doc) =
        some (.arr (arrayEffect a xs)) := by
    rw [hpath]
    exact Json.follow_put _ hdoc
  rw [applyBoth, hfirst]
  simp only
  rw [applyToDocument_eq_put hdoc' hb hq hq0, hpath, Json.put_put _ _ hdoc]

/-! ## When each pairing converges -/

section Pairings

variable [PrintTable]

/-- Two insertions, `first` at or before `second`: the transform pushes `second` by
the printed width of `first` although only one element was inserted.  Nothing is
lost when every element it is pushed over equals the value it inserts. -/
def InsertsConverge (xs : List Json) (first second : EditOperation) : Prop :=
  ∀ i, second.pos ≤ i → i + 1 < second.pos + first.valueLen → i < xs.length →
    xs[i]? = some second.value

/-- An insertion against a deletion.  At or before the span, the span is pushed by the
printed width; strictly inside the span, the insertion is pulled back by the whole
span.  Past the span both are right. -/
def InsertDeleteConverges (xs : List Json) (ins del : EditOperation) : Prop :=
  if ins.pos ≤ del.pos then
    ∀ i, del.pos ≤ i → i + 1 < del.pos + ins.valueLen → xs[i]? = xs[i + del.span]?
  else
    del.pos + del.span ≤ ins.pos ∨
      (xs[del.pos + del.span - 1]? = some ins.value ∧
        ∀ i, ins.pos - del.span ≤ i → i < del.pos → xs[i]? = some ins.value)

omit [PrintTable] in
/-- Two overlapping deletions, `a` starting at or before `b`.  If `b` ends inside `a`
its length becomes zero, which is read back as one: only the end of the array stops
the extra removal.  Otherwise `b` keeps its old position although `a` moved it. -/
def OverlapConverges (xs : List Json) (a b : EditOperation) : Prop :=
  a.pos ≤ b.pos ∧
    if b.pos + b.span ≤ a.pos + a.span then
      xs.length ≤ b.pos + a.span
    else
      a.pos < b.pos ∧
        ∀ j, j < b.pos - a.pos → xs[a.pos + a.span + j]? = xs[b.pos + b.span + j]?

omit [PrintTable] in
/-- Two deletions: disjoint spans and equal spans converge, overlaps under `OverlapConverges`. -/
def DeletesConverge (xs : List Json) (a b : EditOperation) : Prop :=
  a.pos + a.span ≤ b.pos ∨ b.pos + b.span ≤ a.pos ∨ (a.pos = b.pos ∧ a.span = b.span) ∨
    OverlapConverges xs a b ∨ OverlapConverges xs b a

omit [PrintTable] in
/-- `op1` goes first when it is placed lower, or equally low with an earlier timestamp. -/
def GoesFirst (op1 op2 : EditOperation) : Prop :=
  op1.pos < op2.pos ∨ (op1.pos = op2.pos ∧ op1.timestamp ≤ op2.timestamp)

omit [PrintTable] in
instance (op1 op2 : EditOperation) : Decidable (GoesFirst op1 op2) :=
  inferInstanceAs (Decidable (_ ∨ _))

/-- The exact condition under which a pair of operations converges on an array. -/
def ArrayConverges (xs : List Json) (op1 op2 : EditOperation) : Prop :=
  match op1.type, op2.type with
  | .insert, .insert =>
    if GoesFirst op1 op2 then InsertsConverge xs op1 op2 else InsertsConverge xs op2 op1
  | .insert, _ => InsertDeleteConverges xs op1 op2
  | _, .insert => InsertDeleteConverges xs op2 op1
  | _, _ => DeletesConverge xs op1 op2

/-! ## The transform, seen on indices -/

/-- Everything `applyToDocument_eq_put` asks of an operation. -/
structure Addressed (path : String) (op : EditOperation) : Prop where
  path_eq : op.path = path
  type_eq : op.type = .insert ∨ op.type = .delete
  position_eq : ∃ p : ℤ, op.position = some p ∧ 0 ≤ p

omit [PrintTable] in
theorem ValidOn.addressed {path : String} {n : ℕ} {op : EditOperation}
    (h : ValidOn path n op) : Addressed path op := by
  obtain ⟨hpath, p, hp, hp0, hkind⟩ := h
  exact ⟨hpath, hkind.imp And.left And.left, p, hp, hp0⟩

variable {op1 op2 : EditOperation} {path : String}

theorem transformOperations_insert_insert (hpath : op1.path = op2.path) (h1 : op1.type = .insert)
    (h2 : op2.type = .insert) : transformOperations op1 op2 = transformInsertInsert op1 op2 := by
  simp only [transformOperations, hpath, h1, h2, ne_eq, not_true_eq_false, if_false]

theorem transformOperations_insert_delete (hpath : op1.path = op2.path) (h1 : op1.type = .insert)
    (h2 : op2.type = .delete) : transformOperations op1 op2 = transformInsertDelete op1 op2 := by
  simp only [transformOperations, hpath, h1, h2, ne_eq, not_true_eq_false, if_false]

theorem transformOperations_delete_insert (hpath : op1.path = op2.path) (h1 : op1.type = .delete)
    (h2 : op2.type = .insert) :
    transformOperations op1 op2 = (transformInsertDelete op2 op1).swap := by
  simp only [transformOperations, hpath, h1, h2, ne_eq, not_true_eq_false, if_false]
  rfl

theorem transformOperations_delete_delete (hpath : op1.path = op2.path) (h1 : op1.type = .delete)
    (h2 : op2.type = .delete) : transformOperations op1 op2 = transformDeleteDelete op1 op2 := by
  simp only [transformOperations, hpath, h1, h2, ne_eq, not_true_eq_false, if_false]

omit [PrintTable] in
theorem Addressed.moved {path : String} {op : EditOperation} (h : Addressed path op) {p : ℤ}
    (hp : 0 ≤ p) : Addressed path { op with position := some p } :=
  ⟨h.path_eq, h.type_eq, p, rfl, hp⟩

theorem transformInsertInsert_addressed (h1 : Addressed path op1) (h2 : Addressed path op2) :
    Addressed path (transformInsertInsert op1 op2).1 ∧
      Addressed path (transformInsertInsert op1 op2).2 := by
  obtain ⟨p1, hp1, hp10⟩ := h1.position_eq
  obtain ⟨p2, hp2, hp20⟩ := h2.position_eq
  simp only [transformInsertInsert, hp1, hp2]
  split
  · exact ⟨h1, h2.moved (by omega)⟩
  · split
    · exact ⟨h1.moved (by omega), h2⟩
    · split
      · exact ⟨h1, h2.moved (by omega)⟩
      · exact ⟨h1.moved (by omega), h2⟩

theorem transformInsertDelete_addressed (h1 : Addressed path op1) (h2 : Addressed path op2) :
    Addressed path (transformInsertDelete op1 op2).1 ∧
      Addressed path (transformInsertDelete op1 op2).2 := by
  obtain ⟨p1, hp1, hp10⟩ := h1.position_eq
  obtain ⟨p2, hp2, hp20⟩ := h2.position_eq
  simp only [transformInsertDelete, hp1, hp2]
  split
  · exact ⟨h1, h2.moved (by omega)⟩
  · exact ⟨h1.moved (le_max_left _ _), h2⟩

omit [PrintTable] in
theorem transformDeleteDelete_addressed {path : String} {op1 op2 : EditOperation}
    (h1 : Addressed path op1) (h2 : Addressed path op2) :
    Addressed path (transformDeleteDelete op1 op2).1 ∧
      Addressed path (transformDeleteDelete op1 op2).2 := by
  obtain ⟨p1, hp1, hp10⟩ := h1.position_eq
  obtain ⟨p2, hp2, hp20⟩ := h2.position_eq
  simp only [transformDeleteDelete, hp1, hp2]
  split
  · exact ⟨h1, h2.moved (by omega)⟩
  · split
    · exact ⟨h1.moved (by omega), h2⟩
    · exact ⟨⟨h1.path_eq, h1.type_eq, p1, rfl, hp10⟩, ⟨h2.path_eq, h2.type_eq, p2, rfl, hp20⟩⟩

omit [PrintTable] in
theorem ValidOn.of_insert {path : String} {n : ℕ} {op : EditOperation}
    (h : ValidOn path n op) (ht : op.type = .insert) :
    op.position = some (op.pos : ℤ) ∧ op.pos ≤ n := by
  obtain ⟨-, p, hp, hp0, ⟨-, hle⟩ | ⟨ht', -⟩⟩ := h
  · lift p to ℕ using hp0
    have hpos : op.pos = p := by simp [EditOperation.pos, hp]
    rw [hp, hpos]
    exact ⟨rfl, by omega⟩
  · rw [ht] at ht'
    cases ht'

omit [PrintTable] in
theorem ValidOn.of_delete {path : String} {n : ℕ} {op : EditOperation}
    (h : ValidOn path n op) (ht : op.type = .delete) :
    op.position = some (op.pos : ℤ) ∧ op.lengthOr1 = (op.span : ℤ) ∧ 1 ≤ op.span ∧
      op.pos + op.span ≤ n := by
  obtain ⟨-, p, hp, hp0, ⟨ht', -⟩ | ⟨-, l, hl, hl1, hle⟩⟩ := h
  · rw [ht] at ht'
    cases ht'
  · lift p to ℕ using hp0
    lift l to ℕ using (by omega)
    have hpos : op.pos = p := by simp [EditOperation.pos, hp]
    have hlen := EditOperation.lengthOr1_of_pos hl (by omega)
    have hspan : op.span = l := by simp [EditOperation.span, hlen]
    rw [hp, hpos, hlen, hspan]
    exact ⟨rfl, rfl, by omega, by omega⟩

/-- The transform keeps the path and the kind of both operations, and no position
becomes negative: only a deletion entirely before the other one pulls a position
back without `max 0`, and then by no more than the position. -/
theorem transformOperations_addressed {n : ℕ} (h1 : ValidOn path n op1) (h2 : ValidOn path n op2) :
    Addressed path (transformOperations op1 op2).1 ∧
      Addressed path (transformOperations op1 op2).2 := by
  have a1 := h1.addressed
  have a2 := h2.addressed
  have hpath : op1.path = op2.path := a1.path_eq.trans a2.path_eq.symm
  rcases a1.type_eq with ht1 | ht1 <;> rcases a2.type_eq with ht2 | ht2
  · rw [transformOperations_insert_insert hpath ht1 ht2]
    exact transformInsertInsert_addressed a1 a2
  · rw [transformOperations_insert_delete hpath ht1 ht2]
    exact transformInsertDelete_addressed a1 a2
  · rw [transformOperations_delete_insert hpath ht1 ht2]
    exact (transformInsertDelete_addressed a2 a1).symm
  · rw [transformOperations_delete_delete hpath ht1 ht2]
    exact transformDeleteDelete_addressed a1 a2

/-- **From documents to arrays.**  Both orders put an array back at the same path, so
TP1 is an equation between arrays. -/
theorem converges_iff_arrayEffect {doc : Json} {xs : List Json}
    (hdoc : Json.follow (pathParts path) doc = some (.arr xs)) (h1 : ValidOn path xs.length op1)
    (h2 : ValidOn path xs.length op2) :
    Converges doc op1 op2 ↔
      arrayEffect (transformOperations op1 op2).2 (arrayEffect op1 xs) =
        arrayEffect (transformOperations op1 op2).1 (arrayEffect op2 xs) := by
  obtain ⟨a1', a2'⟩ := transformOperations_addressed h1 h2
  obtain ⟨hpath1, ht1, p1, hp1, hp10⟩ := h1.addressed
  obtain ⟨hpath2, ht2, p2, hp2, hp20⟩ := h2.addressed
  obtain ⟨hpath1', ht1', q1, hq1, hq10⟩ := a1'
  obtain ⟨hpath2', ht2', q2, hq2, hq20⟩ := a2'
  have left := applyBoth_eq_put (by rw [hpath1]; exact hdoc) (hpath2'.trans hpath1.symm)
    ht1 ht2' hp1 hp10 hq2 hq20
  have right := applyBoth_eq_put (by rw [hpath2]; exact hdoc) (hpath1'.trans hpath2.symm)
    ht2 ht1' hp2 hp20 hq1 hq10
  rw [Converges, left, right, hpath1, hpath2, Prod.mk.injEq, Json.put_inj hdoc]
  simp

/-! ## The four pairings -/

omit [PrintTable] in
theorem arrayEffect_insert {op : EditOperation} (ht : op.type = .insert) (xs : List Json) :
    arrayEffect op xs = xs.insertIdx (min op.pos xs.length) op.value := by
  simp only [arrayEffect, ht]

omit [PrintTable] in
theorem arrayEffect_delete {op : EditOperation} (ht : op.type = .delete) (xs : List Json) :
    arrayEffect op xs = removeSpan xs op.pos op.span := by
  simp only [arrayEffect, ht]

omit [PrintTable] in
theorem arrayEffect_moved_insert {op : EditOperation} (ht : op.type = .insert) (p : ℤ)
    (xs : List Json) :
    arrayEffect { op with position := some p } xs =
      xs.insertIdx (min p.toNat xs.length) op.value := by
  simp only [arrayEffect, ht, EditOperation.pos, Option.getD_some]

omit [PrintTable] in
theorem arrayEffect_moved_delete {op : EditOperation} (ht : op.type = .delete) (p : ℤ)
    (xs : List Json) :
    arrayEffect { op with position := some p } xs = removeSpan xs p.toNat op.span := by
  simp only [arrayEffect, ht, EditOperation.pos, Option.getD_some]
  rfl

omit [PrintTable] in
theorem arrayEffect_resized_delete {op : EditOperation} (ht : op.type = .delete) (l : ℕ)
    (xs : List Json) :
    arrayEffect { op with length := some (l : ℤ) } xs =
      removeSpan xs op.pos (if l = 0 then 1 else l) := by
  have hspan : ({ op with length := some (l : ℤ) } : EditOperation).span =
      if l = 0 then 1 else l := by
    by_cases hl : l = 0 <;> simp [EditOperation.span, EditOperation.lengthOr1, hl]
  simp only [arrayEffect, ht]
  rw [← hspan]
  rfl

theorem transformInsertInsert_of_goesFirst (h1 : op1.position = some (op1.pos : ℤ))
    (h2 : op2.position = some (op2.pos : ℤ)) (hfirst : GoesFirst op1 op2) :
    transformInsertInsert op1 op2 =
      (op1, { op2 with position := some ((op2.pos + op1.valueLen : ℕ) : ℤ) }) := by
  simp only [transformInsertInsert, h1, h2]
  rcases hfirst with hlt | ⟨heq, hts⟩
  · rw [if_pos (by omega)]
    rfl
  · rw [if_neg (by omega), if_neg (by omega), if_pos hts]
    rfl

theorem transformInsertInsert_of_not_goesFirst (h1 : op1.position = some (op1.pos : ℤ))
    (h2 : op2.position = some (op2.pos : ℤ)) (hfirst : ¬ GoesFirst op1 op2) :
    transformInsertInsert op1 op2 =
      ({ op1 with position := some ((op1.pos + op2.valueLen : ℕ) : ℤ) }, op2) := by
  have hle : op2.pos ≤ op1.pos := by
    by_contra hlt
    exact hfirst (Or.inl (by omega))
  simp only [transformInsertInsert, h1, h2]
  rw [if_neg (by omega)]
  by_cases hgt : op2.pos < op1.pos
  · rw [if_pos (by omega)]
    rfl
  · have hts : ¬ op1.timestamp ≤ op2.timestamp := fun hts => hfirst (Or.inr ⟨by omega, hts⟩)
    rw [if_neg (by omega), if_neg hts]
    rfl

theorem insert_insert_iff {xs : List Json} {first second : EditOperation}
    (h1 : first.type = .insert) (h2 : second.type = .insert)
    (hle : first.pos ≤ second.pos) (hn : second.pos ≤ xs.length) :
    arrayEffect { second with position := some ((second.pos + first.valueLen : ℕ) : ℤ) }
        (arrayEffect first xs) = arrayEffect first (arrayEffect second xs) ↔
      InsertsConverge xs first second := by
  have hlen1 : (xs.insertIdx first.pos first.value).length = xs.length + 1 :=
    List.length_insertIdx_of_le_length (by omega) _
  have hlen2 : (xs.insertIdx second.pos second.value).length = xs.length + 1 :=
    List.length_insertIdx_of_le_length hn _
  rw [arrayEffect_moved_insert h2, arrayEffect_insert h1, arrayEffect_insert h2,
    arrayEffect_insert h1, Int.toNat_natCast, Nat.min_eq_left (hle.trans hn), Nat.min_eq_left hn, hlen1, hlen2,
    Nat.min_eq_left (by omega : first.pos ≤ xs.length + 1)]
  exact insertIdx_push_iff hle hn first.one_le_valueLen first.value second.value

theorem insert_delete_iff {xs : List Json} {ins del : EditOperation}
    (hins : ValidOn path xs.length ins) (hdel : ValidOn path xs.length del)
    (hi : ins.type = .insert) (hd : del.type = .delete) :
    arrayEffect (transformInsertDelete ins del).2 (arrayEffect ins xs) =
        arrayEffect (transformInsertDelete ins del).1 (arrayEffect del xs) ↔
      InsertDeleteConverges xs ins del := by
  obtain ⟨hpi, hin⟩ := hins.of_insert hi
  obtain ⟨hpd, hld, hspan, hend⟩ := hdel.of_delete hd
  have hlenDel := length_removeSpan xs del.pos del.span
  rw [arrayEffect_insert hi, arrayEffect_delete hd, Nat.min_eq_left hin]
  simp only [transformInsertDelete, hpi, hpd, hld]
  by_cases hle : ins.pos ≤ del.pos
  · rw [if_pos (by omega), InsertDeleteConverges, if_pos hle, arrayEffect_insert hi,
        arrayEffect_moved_delete hd, Nat.min_eq_left (by omega)]
    exact removeSpan_push_iff hle hin ins.one_le_valueLen ins.value del.span
  · rw [if_neg (by omega), InsertDeleteConverges, if_neg hle, arrayEffect_delete hd,
      arrayEffect_moved_insert hi,
      show (max (0 : ℤ) (ins.pos - del.span)).toNat = ins.pos - del.span by omega]
    by_cases hpast : del.pos + del.span ≤ ins.pos
    · rw [Nat.min_eq_left (by omega), removeSpan_insertIdx_of_add_le hpast hin]
      simp [hpast]
    · have hinside := insertIdx_inside_iff (by omega : del.pos < ins.pos) (by omega) hend ins.value
      simpa [hpast] using hinside

omit [PrintTable] in
theorem overlap_iff {xs : List Json} {a b : EditOperation} (hab : a.pos ≤ b.pos)
    (hover : b.pos < a.pos + a.span) (hcover : a.pos < b.pos ∨ b.span < a.span)
    (ha : a.pos + a.span ≤ xs.length) (la lb : ℕ)
    (hla : la = a.span - (min (a.pos + a.span) (b.pos + b.span) - b.pos))
    (hlb : lb = b.span - (min (a.pos + a.span) (b.pos + b.span) - b.pos)) :
    removeSpan (removeSpan xs a.pos a.span) b.pos (if lb = 0 then 1 else lb) =
        removeSpan (removeSpan xs b.pos b.span) a.pos (if la = 0 then 1 else la) ↔
      OverlapConverges xs a b := by
  by_cases hnested : b.pos + b.span ≤ a.pos + a.span
  · rw [OverlapConverges, if_pos hnested, if_pos (by omega : lb = 0),
      if_neg (by omega : ¬ la = 0), show la = a.span - b.span by omega,
      removeSpan_nested_iff hab (by omega) ha]
    simp [hab]
  · have hlt : a.pos < b.pos := by omega
    rw [OverlapConverges, if_neg hnested, if_neg (by omega : ¬ lb = 0),
      if_neg (by omega : ¬ la = 0), show la = b.pos - a.pos by omega,
      show lb = b.pos + b.span - (a.pos + a.span) by omega,
      removeSpan_straddle_iff hlt (by omega)]
    simp [hab, hlt]

omit [PrintTable] in
theorem transformDeleteDelete_of_overlap {a b : EditOperation}
    (hpa : a.position = some (a.pos : ℤ)) (hpb : b.position = some (b.pos : ℤ))
    (hla : a.lengthOr1 = (a.span : ℤ)) (hlb : b.lengthOr1 = (b.span : ℤ))
    (hab : ¬ a.pos + a.span ≤ b.pos) (hba : ¬ b.pos + b.span ≤ a.pos) (common : ℕ)
    (hcommon : common = min (a.pos + a.span) (b.pos + b.span) - max a.pos b.pos) :
    transformDeleteDelete a b =
      ({ a with length := some ((a.span - common : ℕ) : ℤ) },
        { b with length := some ((b.span - common : ℕ) : ℤ) }) := by
  have hlenA : (a.span : ℤ) - max 0 (min (a.pos + a.span : ℤ) (b.pos + b.span)
      - max (a.pos : ℤ) b.pos) = ((a.span - common : ℕ) : ℤ) := by omega
  have hlenB : (b.span : ℤ) - max 0 (min (a.pos + a.span : ℤ) (b.pos + b.span)
      - max (a.pos : ℤ) b.pos) = ((b.span - common : ℕ) : ℤ) := by omega
  simp only [transformDeleteDelete, hpa, hpb, hla, hlb]
  rw [if_neg (by omega), if_neg (by omega), hlenA, hlenB]

omit [PrintTable] in
theorem delete_delete_iff {path : String} {xs : List Json} {a b : EditOperation}
    (ha : ValidOn path xs.length a) (hb : ValidOn path xs.length b)
    (hta : a.type = .delete) (htb : b.type = .delete) :
    arrayEffect (transformDeleteDelete a b).2 (arrayEffect a xs) =
        arrayEffect (transformDeleteDelete a b).1 (arrayEffect b xs) ↔
      DeletesConverge xs a b := by
  obtain ⟨hpa, hla, hsa, hea⟩ := ha.of_delete hta
  obtain ⟨hpb, hlb, hsb, heb⟩ := hb.of_delete htb
  rw [arrayEffect_delete hta, arrayEffect_delete htb, DeletesConverge]
  by_cases hab : a.pos + a.span ≤ b.pos
  · have hmove : transformDeleteDelete a b =
        (a, { b with position := some ((b.pos - a.span : ℕ) : ℤ) }) := by
      simp only [transformDeleteDelete, hpa, hpb, hla]
      rw [if_pos (by omega), show (b.pos : ℤ) - a.span = ((b.pos - a.span : ℕ) : ℤ) by omega]
    rw [hmove, arrayEffect_delete hta, arrayEffect_moved_delete htb, Int.toNat_natCast]
    simp [hab, removeSpan_comm hab]
  by_cases hba : b.pos + b.span ≤ a.pos
  · have hmove : transformDeleteDelete a b =
        ({ a with position := some ((a.pos - b.span : ℕ) : ℤ) }, b) := by
      simp only [transformDeleteDelete, hpa, hpb, hla, hlb]
      rw [if_neg (by omega), if_pos (by omega),
        show (a.pos : ℤ) - b.span = ((a.pos - b.span : ℕ) : ℤ) by omega]
    rw [hmove, arrayEffect_delete htb, arrayEffect_moved_delete hta, Int.toNat_natCast]
    simp [hba, removeSpan_comm hba]
  rw [transformDeleteDelete_of_overlap hpa hpb hla hlb hab hba _ rfl,
    arrayEffect_resized_delete hta, arrayEffect_resized_delete htb]
  simp only [hab, hba, false_or]
  by_cases hsame : a.pos = b.pos ∧ a.span = b.span
  · simp [hsame]
  simp only [hsame, false_or]
  -- `a` is the span that starts first, or the longer one of two with a common start
  by_cases hfirst : a.pos < b.pos ∨ (a.pos = b.pos ∧ b.span < a.span)
  · rw [overlap_iff (by omega) (by omega) (by omega) hea _ _ (by omega) (by omega)]
    have hnot : ¬ OverlapConverges xs b a := by
      rintro ⟨hle, hrest⟩
      rw [if_neg (by omega)] at hrest
      omega
    simp [hnot]
  · rw [eq_comm, overlap_iff (by omega) (by omega) (by omega) heb _ _ (by omega) (by omega)]
    have hnot : ¬ OverlapConverges xs a b := by
      rintro ⟨hle, hrest⟩
      rw [if_neg (by omega)] at hrest
      omega
    simp [hnot]

/-! ## The equivalence -/

/-- **When two concurrent operations converge.**  For every document, every array at a
path in it and every two valid operations on that path, the two orders give the same
document exactly when `ArrayConverges` holds of the array. -/
theorem transformOperations_converges_iff {doc : Json} {xs : List Json} {path : String}
    {op1 op2 : EditOperation} (hdoc : Json.follow (pathParts path) doc = some (.arr xs))
    (h1 : ValidOn path xs.length op1) (h2 : ValidOn path xs.length op2) :
    Converges doc op1 op2 ↔ ArrayConverges xs op1 op2 := by
  have hpath : op1.path = op2.path := h1.addressed.path_eq.trans h2.addressed.path_eq.symm
  rw [converges_iff_arrayEffect hdoc h1 h2, ArrayConverges]
  rcases h1.addressed.type_eq with ht1 | ht1 <;> rcases h2.addressed.type_eq with ht2 | ht2
  · obtain ⟨hp1, hn1⟩ := h1.of_insert ht1
    obtain ⟨hp2, hn2⟩ := h2.of_insert ht2
    rw [transformOperations_insert_insert hpath ht1 ht2]
    simp only [ht1, ht2]
    by_cases hfirst : GoesFirst op1 op2
    · rw [transformInsertInsert_of_goesFirst hp1 hp2 hfirst, if_pos hfirst]
      exact insert_insert_iff ht1 ht2 (by rcases hfirst with h | h <;> omega) hn2
    · have hle : op2.pos ≤ op1.pos := by
        by_contra hlt
        exact hfirst (Or.inl (by omega))
      rw [transformInsertInsert_of_not_goesFirst hp1 hp2 hfirst, if_neg hfirst, eq_comm]
      exact insert_insert_iff ht2 ht1 hle hn1
  · rw [transformOperations_insert_delete hpath ht1 ht2]
    simp only [ht1, ht2]
    exact insert_delete_iff h1 h2 ht1 ht2
  · rw [transformOperations_delete_insert hpath ht1 ht2, eq_comm]
    simp only [ht1, ht2]
    exact insert_delete_iff h2 h1 ht2 ht1
  · rw [transformOperations_delete_delete hpath ht1 ht2]
    simp only [ht1, ht2]
    exact delete_delete_iff h1 h2 ht1 ht2

end Pairings

/-! ## A diverging pair

Two one-element insertions into `["a", "b", "c"]`.  The value `"XYZ"` is one element,
but the other insertion is pushed by three. -/

@[reducible] def asciiTable : PrintTable := ⟨fun _ => false⟩

/-- `{"content": ["a", "b", "c"]}` -/
def sampleDoc : Json := .obj [("content", .arr [.str "a", .str "b", .str "c"])]

/-- Insert `"XYZ"` at the front. -/
def insertWide : EditOperation where
  operationId := "op-1"
  type := .insert
  path := "/content"
  value := .str "XYZ"
  position := some 0
  timestamp := 1000
  userId := "user-1"
  clientId := "client-1"
  version := 1

/-- Insert `"Q"` at position one. -/
def insertNarrow : EditOperation where
  operationId := "op-2"
  type := .insert
  path := "/content"
  value := .str "Q"
  position := some 1
  timestamp := 1001
  userId := "user-2"
  clientId := "client-2"
  version := 1

theorem transformOperations_converges_iff_sample :
    @Converges asciiTable sampleDoc insertNarrow insertNarrow ↔
      @ArrayConverges asciiTable [.str "a", .str "b", .str "c"] insertNarrow insertNarrow :=
  @transformOperations_converges_iff asciiTable sampleDoc _ "/content" insertNarrow insertNarrow
    rfl ⟨rfl, 1, rfl, by decide, Or.inl ⟨rfl, by decide⟩⟩
    ⟨rfl, 1, rfl, by decide, Or.inl ⟨rfl, by decide⟩⟩

/-- Applying the wide insertion first ends in `["XYZ", "a", "b", "c", "Q"]`, applying it
second in `["XYZ", "a", "Q", "b", "c"]`. -/
theorem insertWide_insertNarrow_diverge :
    Json.follow (pathParts "/content") sampleDoc = some (.arr [.str "a", .str "b", .str "c"]) ∧
      ValidOn "/content" 3 insertWide ∧ ValidOn "/content" 3 insertNarrow ∧
      ¬ @Converges asciiTable sampleDoc insertWide insertNarrow := by
  refine ⟨rfl, ⟨rfl, 0, rfl, by decide, Or.inl ⟨rfl, by decide⟩⟩,
    ⟨rfl, 1, rfl, by decide, Or.inl ⟨rfl, by decide⟩⟩, fun h => ?_⟩
  have hdocs : ((.obj [("content", .arr [.str "XYZ", .str "a", .str "b", .str "c", .str "Q"])],
      none) : Edited) =
      (.obj [("content", .arr [.str "XYZ", .str "a", .str "Q", .str "b", .str "c"])], none) := h
  simp at hdocs

end EnhancedAgentBus.Collaboration
