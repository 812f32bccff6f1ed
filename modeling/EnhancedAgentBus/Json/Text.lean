import EnhancedAgentBus.Json.Scan
import Mathlib.Data.List.Sort

/-!
# The text of a JSON value

`json.dumps` and `json.loads`.  A value is written in a layout, which says where the white space
goes: `compact` is the default one and `indented` the one of `indent=2`.

What is written is read back (`loads_write`), so two values with one text are the same
(`write_inj`).

The scanner has a bound on its recursion, which the length of the text always meets.  An object is a
list of members in the order they came, and `dumpable` says which values `json.dumps` can be given:
those whose objects have no key twice and whose floats are texts of floats.
-/

namespace EnhancedAgentBus

namespace JsonText

/-! ## Writing -/

def isSpace (c : Char) : Bool := c ∈ [' ', '\t', '\n', '\r']

def Blank (w : List Char) : Prop := ∀ c ∈ w, isSpace c = true

/-- White space: before the first item of a list or an object, after the comma before the next one,
and after the last, at a level of nesting. -/
structure Layout where
  first : ℕ → List Char
  next : ℕ → List Char
  last : ℕ → List Char
  first_blank : ∀ level, Blank (first level)
  next_blank : ∀ level, Blank (next level)
  last_blank : ∀ level, Blank (last level)

theorem blank_nil : Blank [] := fun _ h => absurd h List.not_mem_nil

/-- No `indent`: `[1, 2]`. -/
def compact : Layout where
  first _ := []
  next _ := [' ']
  last _ := []
  first_blank _ := blank_nil
  next_blank _ := by simp [Blank, isSpace]
  last_blank _ := blank_nil

def newline (width level : ℕ) : List Char := '\n' :: List.replicate (width * level) ' '

theorem blank_newline (width level : ℕ) : Blank (newline width level) := by
  intro c hc
  rcases List.mem_cons.mp hc with rfl | hc
  · rfl
  · obtain rfl := List.eq_of_mem_replicate hc
    rfl

/-- `indent=width` -/
def indented (width : ℕ) : Layout where
  first := newline width
  next := newline width
  last := newline width
  first_blank := blank_newline width
  next_blank := blank_newline width
  last_blank := blank_newline width

/-- `json.dumps` of a string. -/
def writeString (s : String) : List Char :=
  '\x22' :: (s.toList.flatMap escapeChar ++ ['\x22'])

mutual

/-- `json.dumps` -/
def write (layout : Layout) (level : ℕ) : Json → List Char
  | .null => "null".toList
  | .bool true => "true".toList
  | .bool false => "false".toList
  | .int i => i.repr.toList
  | .float f => floatText f
  | .str s => writeString s
  | .arr [] => ['[', ']']
  | .arr (x :: xs) =>
    '[' :: (layout.first (level + 1) ++ (write layout (level + 1) x ++
      (writeItems layout (level + 1) xs ++ (layout.last level ++ [']']))))
  | .obj [] => ['\x7b', '\x7d']
  | .obj ((k, x) :: ms) =>
    '\x7b' :: (layout.first (level + 1) ++ (writeString k ++ ([':', ' '] ++
      (write layout (level + 1) x ++
        (writeMembers layout (level + 1) ms ++ (layout.last level ++ ['\x7d']))))))

def writeItems (layout : Layout) (level : ℕ) : List Json → List Char
  | [] => []
  | x :: xs => ',' :: (layout.next level ++ (write layout level x ++ writeItems layout level xs))

def writeMembers (layout : Layout) (level : ℕ) : List (String × Json) → List Char
  | [] => []
  | (k, x) :: ms =>
    ',' :: (layout.next level ++ (writeString k ++ ([':', ' '] ++ (write layout level x ++
      writeMembers layout level ms))))

end

mutual

/-- A value of which `json.loads` returns the same: no object has a key twice, and the text of a
float is one that `float.__repr__` writes. -/
def dumpable : Json → Bool
  | .float f => isRepr f
  | .arr xs => dumpableItems xs
  | .obj ms => decide (ms.map (·.1)).Nodup && dumpableMembers ms
  | _ => true

def dumpableItems : List Json → Bool
  | [] => true
  | x :: xs => dumpable x && dumpableItems xs

def dumpableMembers : List (String × Json) → Bool
  | [] => true
  | (_, x) :: ms => dumpable x && dumpableMembers ms

end

/-! ## Reading -/

def skipSpace (s : List Char) : List Char := s.dropWhile isSpace

/-- `dict(pairs)` -/
def dictOf (pairs : List (String × Json)) : List (String × Json) :=
  pairs.foldl (fun members (k, x) => Json.assign k x members) []

mutual

/-- `scan_once` -/
def scan : ℕ → List Char → Option (Json × List Char)
  | 0, _ => none
  | _ + 1, [] => none
  | fuel + 1, c :: s =>
    if c = '\x22' then
      (scanString fuel s).map fun (cs, s) => (.str (String.ofList cs), s)
    else if c = '[' then
      if (skipSpace s).head? = some ']' then some (.arr [], (skipSpace s).tail)
      else (scanItems fuel (skipSpace s)).map fun (xs, s) => (.arr xs, s)
    else if c = '\x7b' then
      if (skipSpace s).head? = some '\x7d' then some (.obj [], (skipSpace s).tail)
      else (scanMembers fuel (skipSpace s)).map fun (ms, s) => (.obj (dictOf ms), s)
    else scanAtom (c :: s)

/-- The items of a list, to its closing bracket. -/
def scanItems : ℕ → List Char → Option (List Json × List Char)
  | 0, _ => none
  | fuel + 1, s =>
    (scan fuel s).bind fun (x, s) =>
      match skipSpace s with
      | [] => none
      | c :: s =>
        if c = ']' then some ([x], s)
        else if c = ',' then
          (scanItems fuel (skipSpace s)).map fun (xs, s) => (x :: xs, s)
        else none

/-- The members of an object, to its closing bracket. -/
def scanMembers : ℕ → List Char → Option (List (String × Json) × List Char)
  | 0, _ => none
  | _ + 1, [] => none
  | fuel + 1, c :: s =>
    if c ≠ '\x22' then none
    else
      (scanString fuel s).bind fun (k, s) =>
        match skipSpace s with
        | [] => none
        | c :: s =>
          if c ≠ ':' then none
          else
            (scan fuel (skipSpace s)).bind fun (x, s) =>
              match skipSpace s with
              | [] => none
              | c :: s =>
                if c = '\x7d' then some ([(String.ofList k, x)], s)
                else if c = ',' then
                  (scanMembers fuel (skipSpace s)).map fun (ms, s) =>
                    ((String.ofList k, x) :: ms, s)
                else none

end

/-- `json.loads`; `none` is a `JSONDecodeError`. -/
def loads (s : List Char) : Option Json :=
  (scan (s.length + 1) (skipSpace s)).bind fun (x, r) =>
    if (skipSpace r).isEmpty then some x else none

/-! ## What is written is read back -/

end JsonText

@[elab_as_elim]
theorem Json.induct {motive : Json → Prop} (null : motive .null) (bool : ∀ b, motive (.bool b))
    (int : ∀ i, motive (.int i)) (float : ∀ f, motive (.float f)) (str : ∀ s, motive (.str s))
    (arr : ∀ xs, (∀ x ∈ xs, motive x) → motive (.arr xs))
    (obj : ∀ ms, (∀ m ∈ ms, motive m.2) → motive (.obj ms)) (v : Json) : motive v :=
  match v with
  | .null => null
  | .bool b => bool b
  | .int i => int i
  | .float f => float f
  | .str s => str s
  | .arr xs => arr xs fun x _ => Json.induct null bool int float str arr obj x
  | .obj ms => obj ms fun m _ => Json.induct null bool int float str arr obj m.2
termination_by sizeOf v
decreasing_by
  · have hlt := List.sizeOf_lt_of_mem ‹x ∈ xs›
    simp only [Json.arr.sizeOf_spec]
    omega
  · have hlt := List.sizeOf_lt_of_mem ‹m ∈ ms›
    obtain ⟨k, x⟩ := m
    simp only [Json.obj.sizeOf_spec, Prod.mk.sizeOf_spec] at hlt ⊢
    omega

namespace JsonText

theorem dumpableItems_iff (xs : List Json) :
    dumpableItems xs = true ↔ ∀ x ∈ xs, dumpable x = true := by
  induction xs with
  | nil => simp [dumpableItems]
  | cons x xs ih => simp [dumpableItems, ih]

theorem dumpableMembers_iff (ms : List (String × Json)) :
    dumpableMembers ms = true ↔ ∀ m ∈ ms, dumpable m.2 = true := by
  induction ms with
  | nil => simp [dumpableMembers]
  | cons m ms ih => simp [dumpableMembers, ih]

theorem skipSpace_append {w : List Char} (hw : Blank w) (s : List Char) :
    skipSpace (w ++ s) = skipSpace s :=
  List.dropWhile_append_of_pos hw

theorem skipSpace_cons {c : Char} (hc : isSpace c = false) (s : List Char) :
    skipSpace (c :: s) = c :: s := by
  rw [skipSpace, List.dropWhile_cons, hc]
  rfl

theorem delimits_of_isSpace {c : Char} (h : isSpace c = true) : delimits c = true := by
  simp only [isSpace, List.mem_cons, List.not_mem_nil, or_false, decide_eq_true_eq] at h
  rcases h with rfl | rfl | rfl | rfl <;> rfl

theorem Ends.append {w s : List Char} (hw : Blank w) (hs : Ends s) : Ends (w ++ s) := by
  rcases w with _ | ⟨c, w⟩
  · exact hs
  · exact Ends.cons (delimits_of_isSpace (hw c List.mem_cons_self)) _

/-- The first character of a value: no white space, and no closing bracket. -/
def Opens (s : List Char) : Prop :=
  ∃ c l, s = c :: l ∧ isSpace c = false ∧ c ≠ ']' ∧ c ≠ '\x7d'

theorem Opens.of_isNumberChar {s : List Char} (hs : s ≠ [])
    (h : ∀ c ∈ s, isNumberChar c = true) : Opens s := by
  rcases s with _ | ⟨c, s⟩
  · exact absurd rfl hs
  · have hc := h c List.mem_cons_self
    refine ⟨c, s, rfl, ?_, ?_, ?_⟩
    · by_contra hspace
      rw [not_isNumberChar_of_delimits (delimits_of_isSpace (by simpa using hspace))] at hc
      cases hc
    · rintro rfl
      cases hc
    · rintro rfl
      cases hc

theorem Opens.skipSpace {s : List Char} (h : Opens s) (t : List Char) :
    skipSpace (s ++ t) = s ++ t := by
  obtain ⟨c, l, rfl, hspace, -⟩ := h
  exact skipSpace_cons hspace _

theorem floatText_cases {f : PyFloat} (h : isRepr f = true) :
    (floatText f, .float f) ∈ constants ∨
      (∀ c ∈ floatText f, isNumberChar c = true) ∧ readNumber (floatText f) = some (.float f) := by
  obtain ⟨text, hne⟩ := f
  unfold floatText
  dsimp only
  split_ifs with hnan hinf hneg
  · subst hnan
    exact .inl (by simp [constants])
  · subst hinf
    exact .inl (by simp [constants])
  · subst hneg
    exact .inl (by simp [constants])
  · simp only [isRepr, List.mem_cons, hnan, hinf, hneg, List.not_mem_nil, or_self, decide_false,
      Bool.false_or, Bool.and_eq_true] at h
    exact .inr ⟨List.all_eq_true.mp h.1, readNumber_float (f := ⟨text, hne⟩) h.2⟩

theorem floatText_opens {f : PyFloat} (h : isRepr f = true) : Opens (floatText f) := by
  rcases floatText_cases h with hmem | ⟨hall, hread⟩
  · simp only [constants, List.mem_cons, List.not_mem_nil, or_false, Prod.mk.injEq] at hmem
    rcases hmem with ⟨-, h⟩ | ⟨-, h⟩ | ⟨-, h⟩ | ⟨heq, -⟩ | ⟨heq, -⟩ | ⟨heq, -⟩
    · cases h
    · cases h
    · cases h
    · exact heq ▸ ⟨_, _, rfl, rfl, by decide, by decide⟩
    · exact heq ▸ ⟨_, _, rfl, rfl, by decide, by decide⟩
    · exact heq ▸ ⟨_, _, rfl, rfl, by decide, by decide⟩
  · refine Opens.of_isNumberChar ?_ hall
    intro hnil
    rw [hnil] at hread
    cases hread

theorem write_opens (layout : Layout) (level : ℕ) {v : Json} (hv : dumpable v = true) :
    Opens (write layout level v) := by
  cases v with
  | null => exact ⟨_, _, rfl, rfl, by decide, by decide⟩
  | bool b =>
    rcases b with _ | _
    · exact ⟨_, _, rfl, rfl, by decide, by decide⟩
    · exact ⟨_, _, rfl, rfl, by decide, by decide⟩
  | int i => exact Opens.of_isNumberChar (Json.int_repr_ne_nil i) (all_isNumberChar_int i)
  | float f => exact floatText_opens hv
  | str s => exact ⟨_, _, rfl, rfl, by decide, by decide⟩
  | arr xs => cases xs <;> exact ⟨_, _, rfl, rfl, by decide, by decide⟩
  | obj ms => cases ms <;> exact ⟨_, _, rfl, rfl, by decide, by decide⟩

def ReadsBack (layout : Layout) (x : Json) : Prop :=
  ∀ level fuel s, (write layout level x).length ≤ fuel → Ends s →
    scan fuel (write layout level x ++ s) = some (x, s)

section RoundTrip

variable {layout : Layout} {level fuel : ℕ} {s : List Char}

theorem scan_atom {c : Char} (hquote : c ≠ '\x22') (hlist : c ≠ '[') (hobject : c ≠ '\x7b') :
    scan (fuel + 1) (c :: s) = scanAtom (c :: s) := by
  rw [scan, if_neg hquote, if_neg hlist, if_neg hobject]

variable {w : List Char} {ms : List (String × Json)}

theorem readsBack_constant {x : Json} (h : (w, x) ∈ constants)
    (hw : ∀ level, write layout level x = w) : ReadsBack layout x := by
  intro level fuel s hfuel hs
  rw [hw] at hfuel ⊢
  rw [← scanAtom_constant h s]
  simp only [constants, List.mem_cons, List.not_mem_nil, or_false, Prod.mk.injEq] at h
  rcases h with ⟨rfl, -⟩ | ⟨rfl, -⟩ | ⟨rfl, -⟩ | ⟨rfl, -⟩ | ⟨rfl, -⟩ | ⟨rfl, -⟩ <;>
    obtain ⟨fuel, rfl⟩ := Nat.exists_eq_add_of_lt hfuel <;>
    exact scan_atom (by decide) (by decide) (by decide)

theorem readsBack_number {x : Json} (hall : ∀ c ∈ w, isNumberChar c = true)
    (hread : readNumber w = some x) (hw : ∀ level, write layout level x = w) :
    ReadsBack layout x := by
  intro level fuel s hfuel hs
  rw [hw] at hfuel ⊢
  rw [← scanAtom_number hall hread hs]
  rcases w with _ | ⟨c, w⟩
  · cases hread
  · obtain ⟨fuel, rfl⟩ := Nat.exists_eq_add_of_lt hfuel
    have hc := hall c List.mem_cons_self
    refine scan_atom ?_ ?_ ?_
    · rintro rfl
      cases hc
    · rintro rfl
      cases hc
    · rintro rfl
      cases hc

theorem length_le_escape (cs : List Char) : cs.length ≤ (cs.flatMap escapeChar).length := by
  induction cs with
  | nil => exact Nat.le_refl 0
  | cons c cs ih =>
    obtain ⟨d, l, hd, -⟩ := escapeChar_ne_quote c
    rw [List.flatMap_cons, hd, List.length_append, List.length_cons, List.length_cons]
    omega

theorem scanString_write {k : String} (hfuel : (writeString k).length ≤ fuel + 1) :
    ∃ rest, writeString k ++ s = '\x22' :: rest ∧ scanString fuel rest = some (k.toList, s) := by
  have hlength := length_le_escape k.toList
  rw [writeString, List.length_cons, List.length_append, List.length_singleton] at hfuel
  refine ⟨k.toList.flatMap escapeChar ++ '\x22' :: s, ?_, scanString_escape (by omega) s⟩
  simp [writeString]

theorem ends_items {xs : List Json} (hw : Blank w) :
    Ends (writeItems layout level xs ++ (w ++ ']' :: s)) := by
  rcases xs with _ | ⟨x, xs⟩
  · exact Ends.append (w := w) hw (Ends.cons (c := ']') rfl s)
  · exact Ends.cons rfl _

theorem ends_members (hw : Blank w) :
    Ends (writeMembers layout level ms ++ (w ++ '\x7d' :: s)) := by
  rcases ms with _ | ⟨m, ms⟩
  · exact Ends.append (w := w) hw (Ends.cons (c := '\x7d') rfl s)
  · exact Ends.cons rfl _

theorem scanItems_write {x : Json} {xs : List Json}
    (h : ∀ y ∈ x :: xs, dumpable y = true ∧ ReadsBack layout y)
    (hfuel : (write layout level x).length + (writeItems layout level xs).length < fuel)
    (hw : Blank w) :
    scanItems fuel (write layout level x ++ (writeItems layout level xs ++ (w ++ ']' :: s))) =
      some (x :: xs, s) := by
  induction xs generalizing x fuel with
  | nil =>
    obtain ⟨fuel, rfl⟩ := Nat.exists_eq_succ_of_ne_zero (by omega : fuel ≠ 0)
    rw [scanItems, (h x List.mem_cons_self).2 level _ _ (by omega) (ends_items hw),
      Option.bind_some]
    dsimp only
    rw [writeItems, List.nil_append, skipSpace_append hw, skipSpace_cons rfl]
    rfl
  | cons y ys ih =>
    obtain ⟨fuel, rfl⟩ := Nat.exists_eq_succ_of_ne_zero (by omega : fuel ≠ 0)
    have hrest := fun z hz => h z (List.mem_cons_of_mem x hz)
    rw [scanItems, (h x List.mem_cons_self).2 level _ _ (by omega) (ends_items hw),
      Option.bind_some]
    dsimp only
    rw [writeItems] at hfuel ⊢
    simp only [List.length_cons, List.length_append] at hfuel
    rw [List.cons_append, skipSpace_cons rfl]
    dsimp only
    rw [if_neg (by decide), if_pos rfl, List.append_assoc, skipSpace_append (layout.next_blank _),
      List.append_assoc,
      (write_opens layout level (hrest y List.mem_cons_self).1).skipSpace,
      ih hrest (by omega), Option.map_some]

theorem scanMembers_member {k : String} {x : Json} {r : List Char}
    (hx : ReadsBack layout x) (hv : dumpable x = true)
    (hfuel : (writeString k).length + (write layout level x).length ≤ fuel) (hr : Ends r) :
    scanMembers (fuel + 1) (writeString k ++ ([':', ' '] ++ (write layout level x ++ r))) =
      match skipSpace r with
      | [] => none
      | c :: s =>
        if c = '\x7d' then some ([(k, x)], s)
        else if c = ',' then
          (scanMembers fuel (skipSpace s)).map fun (ms, s) => ((k, x) :: ms, s)
        else none := by
  obtain ⟨rest, hstring, hscan⟩ : ∃ rest, writeString k ++ ([':', ' '] ++
      (write layout level x ++ r)) = '\x22' :: rest ∧ scanString fuel rest =
        some (k.toList, [':', ' '] ++ (write layout level x ++ r)) := scanString_write (by omega)
  have hopen := (write_opens layout level hv).skipSpace r
  have hcolon : skipSpace ([':', ' '] ++ (write layout level x ++ r)) =
      ':' :: ' ' :: (write layout level x ++ r) := rfl
  have hspace : skipSpace (' ' :: (write layout level x ++ r)) = write layout level x ++ r := hopen
  rw [hstring, scanMembers, if_neg (not_not.mpr rfl), hscan, Option.bind_some]
  dsimp only
  rw [hcolon]
  dsimp only
  rw [if_neg (not_not.mpr rfl), hspace, hx level fuel r (by omega) hr, Option.bind_some,
    String.ofList_toList]

theorem scanMembers_write {k : String} {x : Json}
    (h : ∀ m ∈ (k, x) :: ms, dumpable m.2 = true ∧ ReadsBack layout m.2)
    (hfuel : (writeString k).length + (write layout level x).length + (writeMembers layout level ms).length < fuel)
    (hw : Blank w) :
    scanMembers fuel (writeString k ++ ([':', ' '] ++ (write layout level x ++
      (writeMembers layout level ms ++ (w ++ '\x7d' :: s))))) = some ((k, x) :: ms, s) := by
  induction ms generalizing k x fuel with
  | nil =>
    obtain ⟨fuel, rfl⟩ := Nat.exists_eq_succ_of_ne_zero (by omega : fuel ≠ 0)
    obtain ⟨hv, hx⟩ : dumpable x = true ∧ ReadsBack layout x := h (k, x) List.mem_cons_self
    rw [scanMembers_member hx hv (by omega) (ends_members hw), writeMembers, List.nil_append,
      skipSpace_append hw, skipSpace_cons rfl]
    rfl
  | cons m ms ih =>
    obtain ⟨fuel, rfl⟩ := Nat.exists_eq_succ_of_ne_zero (by omega : fuel ≠ 0)
    obtain ⟨hv, hx⟩ : dumpable x = true ∧ ReadsBack layout x := h (k, x) List.mem_cons_self
    obtain ⟨l, y⟩ := m
    have hrest := fun m hm => h m (List.mem_cons_of_mem (k, x) hm)
    rw [scanMembers_member hx hv (by omega) (ends_members hw)]
    rw [writeMembers] at hfuel ⊢
    simp only [List.length_cons, List.length_append, List.length_nil] at hfuel
    have hih : scanMembers fuel (writeString l ++ ([':', ' '] ++ (write layout level y ++
        (writeMembers layout level ms ++ (w ++ '\x7d' :: s))))) = some ((l, y) :: ms, s) :=
      ih hrest (by omega)
    rw [List.cons_append, skipSpace_cons rfl]
    dsimp only
    rw [if_neg (by decide), if_pos rfl]
    simp only [List.append_assoc]
    rw [skipSpace_append (layout.next_blank _)]
    have hopen (r : List Char) : skipSpace (writeString l ++ r) = writeString l ++ r :=
      skipSpace_cons rfl _
    rw [hopen, hih, Option.map_some]

theorem assign_of_lookup_none {k : String} (x : Json) (h : k ∉ ms.map (·.1)) :
    Json.assign k x ms = ms ++ [(k, x)] := by
  induction ms with
  | nil => rfl
  | cons m ms ih =>
    obtain ⟨l, y⟩ := m
    rw [List.map_cons, List.mem_cons, not_or] at h
    rw [Json.assign, if_neg (Ne.symm h.1), ih h.2, List.cons_append]

theorem dictOf_of_nodup (h : (ms.map (·.1)).Nodup) : dictOf ms = ms := by
  suffices hfold : ∀ acc : List (String × Json), ((acc ++ ms).map (·.1)).Nodup →
      ms.foldl (fun members m => Json.assign m.1 m.2 members) acc = acc ++ ms from
    hfold [] h
  clear h
  induction ms with
  | nil => exact fun acc _ => (List.append_nil acc).symm
  | cons m ms ih =>
    intro acc hacc
    have hnew : m.1 ∉ acc.map (·.1) := by
      rw [List.map_append, List.nodup_append] at hacc
      exact fun hmem => hacc.2.2 m.1 hmem m.1 (List.mem_cons_self) rfl
    rw [List.append_cons] at hacc
    rw [List.foldl_cons, assign_of_lookup_none m.2 hnew, ih _ hacc, List.append_assoc,
      List.singleton_append]

theorem readsBack_arr {xs : List Json} (hv : dumpable (.arr xs) = true)
    (ih : ∀ x ∈ xs, dumpable x = true → ReadsBack layout x) : ReadsBack layout (.arr xs) := by
  have hitems := (dumpableItems_iff xs).mp hv
  intro level fuel s hfuel hs
  rcases xs with _ | ⟨x, xs⟩
  · obtain ⟨fuel, rfl⟩ := Nat.exists_eq_add_of_lt hfuel
    rfl
  · rw [write] at hfuel ⊢
    simp only [List.length_cons, List.length_append, List.length_nil] at hfuel
    obtain ⟨fuel, rfl⟩ := Nat.exists_eq_succ_of_ne_zero (by omega : fuel ≠ 0)
    have hx := write_opens layout (level + 1) (hitems x List.mem_cons_self)
    simp only [List.cons_append, List.append_assoc, List.nil_append]
    rw [scan, if_neg (by decide), if_pos rfl, skipSpace_append (layout.first_blank _),
      hx.skipSpace, if_neg, scanItems_write (fun y hy => ⟨hitems y hy, ih y hy (hitems y hy)⟩)
        (by omega) (layout.last_blank _), Option.map_some]
    obtain ⟨c, l, hc, -, hbracket, -⟩ := hx
    rw [hc]
    exact fun heq => hbracket (Option.some_inj.mp heq)

theorem readsBack_obj (hv : dumpable (.obj ms) = true)
    (ih : ∀ m ∈ ms, dumpable m.2 = true → ReadsBack layout m.2) : ReadsBack layout (.obj ms) := by
  obtain ⟨hkeys, hmembers⟩ : (ms.map (·.1)).Nodup ∧ dumpableMembers ms = true := by
    simpa [dumpable] using hv
  rw [dumpableMembers_iff] at hmembers
  intro level fuel s hfuel hs
  rcases ms with _ | ⟨m, ms⟩
  · obtain ⟨fuel, rfl⟩ := Nat.exists_eq_add_of_lt hfuel
    rfl
  · obtain ⟨k, x⟩ := m
    rw [write] at hfuel ⊢
    simp only [List.length_cons, List.length_append, List.length_nil] at hfuel
    obtain ⟨fuel, rfl⟩ := Nat.exists_eq_succ_of_ne_zero (by omega : fuel ≠ 0)
    have hopen (r : List Char) : skipSpace (writeString k ++ r) = writeString k ++ r :=
      skipSpace_cons rfl _
    have hread : scanMembers fuel (writeString k ++ ([':', ' '] ++
        (write layout (level + 1) x ++ (writeMembers layout (level + 1) ms ++
          (layout.last level ++ '\x7d' :: s))))) = some ((k, x) :: ms, s) :=
      scanMembers_write (fun m hm => ⟨hmembers m hm, ih m hm (hmembers m hm)⟩) (by omega)
        (layout.last_blank level)
    simp only [List.cons_append, List.append_assoc, List.nil_append] at hread ⊢
    rw [scan, if_neg (by decide), if_neg (by decide), if_pos rfl,
      skipSpace_append (layout.first_blank _), hopen, if_neg, hread, Option.map_some]
    · dsimp only
      rw [dictOf_of_nodup hkeys]
    · exact fun heq => absurd (Option.some_inj.mp heq) (by decide)

/-- **What is written is read back**, whatever follows that ends it. -/
theorem readsBack {v : Json} (hv : dumpable v = true) : ReadsBack layout v := by
  induction v using Json.induct with
  | null => exact readsBack_constant (.head _) fun _ => rfl
  | bool b =>
    rcases b with _ | _
    · exact readsBack_constant (.tail _ (.tail _ (.head _))) fun _ => rfl
    · exact readsBack_constant (.tail _ (.head _)) fun _ => rfl
  | int i => exact readsBack_number (all_isNumberChar_int i) (readNumber_int i) fun _ => rfl
  | float f =>
    rcases floatText_cases hv with hmem | ⟨hall, hread⟩
    · exact readsBack_constant hmem fun _ => rfl
    · exact readsBack_number hall hread fun _ => rfl
  | str text =>
    intro level fuel s hfuel hs
    have hpos : (writeString text).length ≠ 0 := Nat.succ_ne_zero _
    rw [write] at hfuel ⊢
    obtain ⟨fuel, rfl⟩ := Nat.exists_eq_succ_of_ne_zero (by omega : fuel ≠ 0)
    obtain ⟨rest, hstring, hscan⟩ := scanString_write (s := s) hfuel
    rw [hstring, scan, if_pos rfl, hscan, Option.map_some]
    dsimp only
    rw [String.ofList_toList]
  | arr xs ih => exact readsBack_arr hv ih
  | obj ms ih => exact readsBack_obj hv ih

end RoundTrip

theorem loads_write (layout : Layout) {v : Json} (hv : dumpable v = true) :
    loads (write layout 0 v) = some v := by
  have hread := readsBack hv 0 ((write layout 0 v).length + 1) [] (Nat.le_succ _) Ends.nil
  have hopen := (write_opens layout 0 hv).skipSpace []
  rw [List.append_nil] at hread hopen
  rw [loads, hopen, hread]
  rfl

theorem write_inj {layout : Layout} {v v' : Json} (hv : dumpable v = true)
    (hv' : dumpable v' = true) (h : write layout 0 v = write layout 0 v') : v = v' := by
  have hread := loads_write layout hv
  rw [h, loads_write layout hv'] at hread
  exact (Option.some_inj.mp hread).symm

/-! ## A text that is cut short -/

variable {fuel : ℕ}

/-! ### What has been read can be written -/

theorem dumpable_scanAtom {s r : List Char} {x : Json} (h : scanAtom s = some (x, r)) :
    dumpable x = true := by
  rw [scanAtom] at h
  split at h
  · rename_i y hread
    cases h
    rw [readNumber] at hread
    split_ifs at hread with _ _ hfloat
    · cases hread
      rfl
    · cases hread
      rfl
    · cases hread
      have hall : (s.takeWhile isNumberChar).all isNumberChar = true :=
        List.all_eq_true.mpr fun c hc => List.mem_takeWhile_imp hc
      rw [dumpable, isRepr, String.toList_ofList, hall, hfloat]
      exact Bool.or_true _
  · obtain ⟨⟨w, y⟩, hfind, heq⟩ := Option.map_eq_some_iff.mp h
    obtain ⟨rfl, rfl⟩ := Prod.mk.inj heq
    have hmem := List.mem_of_find?_eq_some hfind
    simp only [constants, List.mem_cons, List.not_mem_nil, or_false, Prod.mk.injEq] at hmem
    rcases hmem with ⟨-, rfl⟩ | ⟨-, rfl⟩ | ⟨-, rfl⟩ | ⟨-, rfl⟩ | ⟨-, rfl⟩ | ⟨-, rfl⟩ <;> rfl

theorem dumpable_assign {k : String} {x : Json} {ms : List (String × Json)}
    (hms : dumpable (.obj ms) = true) (hx : dumpable x = true) :
    dumpable (.obj (Json.assign k x ms)) = true := by
  simp only [dumpable, Bool.and_eq_true, decide_eq_true_eq, dumpableMembers_iff] at hms ⊢
  by_cases hk : k ∈ ms.map (·.1)
  · have hkeys : (Json.assign k x ms).map (·.1) = ms.map (·.1) := by
      clear hms
      induction ms with
      | nil => cases hk
      | cons m ms ih =>
        rw [Json.assign]
        split_ifs with heq
        · rw [List.map_cons, List.map_cons, heq]
        · rw [List.map_cons, List.mem_cons] at hk
          rw [List.map_cons, List.map_cons, ih (hk.resolve_left (Ne.symm heq))]
    refine ⟨hkeys ▸ hms.1, ?_⟩
    clear hkeys hk
    replace hms := hms.2
    induction ms with
    | nil =>
      rintro m hm
      obtain rfl := List.mem_singleton.mp hm
      exact hx
    | cons m ms ih =>
      obtain ⟨hm, hms⟩ := List.forall_mem_cons.mp hms
      rw [Json.assign]
      split_ifs with heq
      · exact List.forall_mem_cons.mpr ⟨hx, hms⟩
      · exact List.forall_mem_cons.mpr ⟨hm, ih hms⟩
  · rw [assign_of_lookup_none x hk]
    refine ⟨?_, fun m hm => ?_⟩
    · rw [List.map_append, List.nodup_append]
      refine ⟨hms.1, List.nodup_singleton _, fun l hl l' hl' heq => ?_⟩
      obtain rfl := List.mem_singleton.mp hl'
      exact hk (heq ▸ hl)
    · rcases List.mem_append.mp hm with hm | hm
      · exact hms.2 m hm
      · obtain rfl := List.mem_singleton.mp hm
        exact hx

theorem dumpable_dictOf {pairs : List (String × Json)}
    (h : ∀ m ∈ pairs, dumpable m.2 = true) : dumpable (.obj (dictOf pairs)) = true := by
  suffices hfold : ∀ acc : List (String × Json), dumpable (.obj acc) = true →
      dumpable (.obj (pairs.foldl (fun members m => Json.assign m.1 m.2 members) acc)) = true from
    hfold [] rfl
  induction pairs with
  | nil => exact fun acc hacc => hacc
  | cons m pairs ih =>
    obtain ⟨hm, hpairs⟩ := List.forall_mem_cons.mp h
    exact fun acc hacc => ih hpairs _ (dumpable_assign hacc hm)

structure Dumps (fuel : ℕ) : Prop where
  value : ∀ {s x r}, scan fuel s = some (x, r) → dumpable x = true
  items : ∀ {s xs r}, scanItems fuel s = some (xs, r) → ∀ x ∈ xs, dumpable x = true
  members : ∀ {s ms r}, scanMembers fuel s = some (ms, r) →
    ∀ m ∈ ms, dumpable (Prod.snd m) = true

theorem Dumps.scanItems (h : Dumps fuel) {s r : List Char} {xs : List Json}
    (hs : scanItems (fuel + 1) s = some (xs, r)) : ∀ x ∈ xs, dumpable x = true := by
  obtain ⟨⟨y, s'⟩, hy, hs⟩ := Option.bind_eq_some_iff.mp hs
  dsimp only at hs
  split at hs
  · cases hs
  · split_ifs at hs
    · cases hs
      exact List.forall_mem_singleton.mpr (h.value hy)
    · obtain ⟨⟨ys, s''⟩, hys, heq⟩ := Option.map_eq_some_iff.mp hs
      cases heq
      exact List.forall_mem_cons.mpr ⟨h.value hy, h.items hys⟩

theorem Dumps.scanMembers (h : Dumps fuel) {s r : List Char} {ms : List (String × Json)}
    (hs : scanMembers (fuel + 1) s = some (ms, r)) : ∀ m ∈ ms, dumpable m.2 = true := by
  rcases s with _ | ⟨c, s⟩
  · cases hs
  · rw [JsonText.scanMembers] at hs
    split_ifs at hs
    obtain ⟨⟨k, s₁⟩, -, hs⟩ := Option.bind_eq_some_iff.mp hs
    dsimp only at hs
    split at hs
    · cases hs
    · split_ifs at hs
      obtain ⟨⟨y, s₂⟩, hy, hs⟩ := Option.bind_eq_some_iff.mp hs
      dsimp only at hs
      split at hs
      · cases hs
      · split_ifs at hs
        · cases hs
          exact List.forall_mem_singleton.mpr (h.value hy)
        · obtain ⟨⟨ns, s₃⟩, hns, heq⟩ := Option.map_eq_some_iff.mp hs
          cases heq
          exact List.forall_mem_cons.mpr ⟨h.value hy, h.members hns⟩

theorem dumps (fuel : ℕ) : Dumps fuel := by
  induction fuel with
  | zero =>
    refine ⟨fun hs => ?_, fun hs => ?_, fun hs => ?_⟩
    · cases hs
    · cases hs
    · cases hs
  | succ fuel ih =>
    refine ⟨?_, fun hs => ih.scanItems hs, fun hs => ih.scanMembers hs⟩
    intro s x r hs
    rcases s with _ | ⟨c, s⟩
    · cases hs
    · rw [scan] at hs
      split_ifs at hs
      · obtain ⟨_, -, heq⟩ := Option.map_eq_some_iff.mp hs
        cases heq
        rfl
      · cases hs
        rfl
      · obtain ⟨⟨xs, s'⟩, hxs, heq⟩ := Option.map_eq_some_iff.mp hs
        cases heq
        exact (dumpableItems_iff xs).mpr (ih.items hxs)
      · cases hs
        rfl
      · obtain ⟨⟨ms, s'⟩, hms, heq⟩ := Option.map_eq_some_iff.mp hs
        cases heq
        exact dumpable_dictOf (ih.members hms)
      · exact dumpable_scanAtom hs

/-- **What is read can be written.** -/
theorem dumpable_loads {s : List Char} {x : Json} (h : loads s = some x) : dumpable x = true := by
  obtain ⟨⟨y, r⟩, hy, hx⟩ := Option.bind_eq_some_iff.mp h
  dsimp only at hx
  split_ifs at hx
  cases hx
  exact (dumps _).value hy

/-! ## Sorted keys -/

mutual

/-- A value as `sort_keys=True` has it written. -/
def sortKeys : Json → Json
  | .arr xs => .arr (sortItems xs)
  | .obj ms => .obj ((sortMembers ms).insertionSort fun m m' => m.1 ≤ m'.1)
  | v => v

def sortItems : List Json → List Json
  | [] => []
  | x :: xs => sortKeys x :: sortItems xs

def sortMembers : List (String × Json) → List (String × Json)
  | [] => []
  | (k, x) :: ms => (k, sortKeys x) :: sortMembers ms

end

/-- `json.dumps(v, sort_keys=True)` -/
def dumpsSorted (v : Json) : String := String.ofList (write compact 0 (sortKeys v))

theorem sortItems_eq_map (xs : List Json) : sortItems xs = xs.map sortKeys := by
  induction xs with
  | nil => rfl
  | cons x xs ih => rw [sortItems, ih, List.map_cons]

theorem sortMembers_eq_map (ms : List (String × Json)) :
    sortMembers ms = ms.map fun m => (m.1, sortKeys m.2) := by
  induction ms with
  | nil => rfl
  | cons m ms ih => rw [sortMembers, ih, List.map_cons]

theorem keys_sortMembers (ms : List (String × Json)) :
    (sortMembers ms).map (·.1) = ms.map (·.1) := by
  rw [sortMembers_eq_map, List.map_map]
  rfl

theorem dumpable_sortKeys {v : Json} (hv : dumpable v = true) : dumpable (sortKeys v) = true := by
  induction v using Json.induct with
  | arr xs ih =>
    refine (dumpableItems_iff _).mpr fun y hy => ?_
    rw [sortItems_eq_map] at hy
    obtain ⟨x, hx, rfl⟩ := List.mem_map.mp hy
    exact ih x hx ((dumpableItems_iff xs).mp hv x hx)
  | obj ms ih =>
    obtain ⟨hkeys, hmembers⟩ : (ms.map (·.1)).Nodup ∧ dumpableMembers ms = true := by
      simpa [dumpable] using hv
    have hperm := List.perm_insertionSort (fun m m' : String × Json => m.1 ≤ m'.1)
      (sortMembers ms)
    rw [sortKeys, dumpable, Bool.and_eq_true, decide_eq_true_eq]
    constructor
    · rw [(hperm.map (·.1)).nodup_iff, keys_sortMembers]
      exact hkeys
    · refine (dumpableMembers_iff _).mpr fun m hm => ?_
      have hm' := hperm.mem_iff.mp hm
      rw [sortMembers_eq_map] at hm'
      obtain ⟨n, hn, rfl⟩ := List.mem_map.mp hm'
      exact ih n hn ((dumpableMembers_iff ms).mp hmembers n hn)
  | _ => exact hv

theorem lookup_eq_some_iff {ms : List (String × Json)} (h : (ms.map (·.1)).Nodup) {k : String}
    {x : Json} : Json.lookup k ms = some x ↔ (k, x) ∈ ms := by
  induction ms with
  | nil => simp [Json.lookup]
  | cons m ms ih =>
    obtain ⟨l, y⟩ := m
    rw [List.map_cons, List.nodup_cons] at h
    by_cases hl : l = k
    · subst hl
      rw [Json.lookup, if_pos rfl, List.mem_cons]
      constructor
      · exact fun heq => .inl (by rw [Option.some_inj.mp heq])
      · rintro (heq | hmem)
        · rw [(Prod.mk.inj heq).2]
        · exact absurd (List.mem_map_of_mem (f := fun m : String × Json => m.1) hmem) h.1
    · rw [Json.lookup, if_neg hl, ih h.2, List.mem_cons, Prod.mk.injEq]
      exact ⟨.inr, fun hor => hor.resolve_left fun heq => hl heq.1.symm⟩

theorem lookup_sortKeys {ms ms' : List (String × Json)} (h : (ms.map (·.1)).Nodup)
    (hsort : sortKeys (.obj ms) = .obj ms') {k : String} {x : Json}
    (hx : Json.lookup k ms = some x) : Json.lookup k ms' = some (sortKeys x) := by
  have heq : (sortMembers ms).insertionSort (fun m m' => m.1 ≤ m'.1) = ms' := by
    injection hsort
  have hperm := List.perm_insertionSort (fun m m' : String × Json => m.1 ≤ m'.1) (sortMembers ms)
  rw [heq] at hperm
  have hkeys : (ms'.map (·.1)).Nodup := by
    rw [(hperm.map (·.1)).nodup_iff, keys_sortMembers]
    exact h
  rw [lookup_eq_some_iff hkeys, hperm.mem_iff, sortMembers_eq_map]
  exact List.mem_map_of_mem (f := fun m => (m.1, sortKeys m.2)) ((lookup_eq_some_iff h).mp hx)

theorem dumpsSorted_inj {v v' : Json} (hv : dumpable v = true) (hv' : dumpable v' = true) :
    dumpsSorted v = dumpsSorted v' ↔ sortKeys v = sortKeys v' := by
  refine ⟨fun h => ?_, fun h => by rw [dumpsSorted, h, dumpsSorted]⟩
  exact write_inj (dumpable_sortKeys hv) (dumpable_sortKeys hv') (String.ofList_injective h)

end JsonText

end EnhancedAgentBus
