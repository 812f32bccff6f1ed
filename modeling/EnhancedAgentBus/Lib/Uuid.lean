import Mathlib.Data.List.Basic
import Mathlib.Tactic.IntervalCases

/-!
# The text of a UUID

`str(uuid.UUID(text))`: the prefixes `urn:` and `uuid:`, braces and hyphens are taken out, what
remains are 32 characters that `int(_, 16)` reads, and the number is written in the canonical form.
`int` skips white space, a sign, a prefix `0x` and single underscores between digits.  Texts are
ASCII.

A canonical text is its own canonical text (`text_text`).
-/

namespace Uuid

/-- `text.replace(pattern, "")`; the number is that of the characters of a match still to skip. -/
def removeFrom (pattern : List Char) : ℕ → List Char → List Char
  | _, [] => []
  | skip + 1, _ :: cs => removeFrom pattern skip cs
  | 0, c :: cs =>
    if pattern.isPrefixOf (c :: cs) then removeFrom pattern (pattern.length - 1) cs
    else c :: removeFrom pattern 0 cs

def isBrace (c : Char) : Bool := c = '\x7b' || c = '\x7d'

/-- `text.strip` of braces -/
def stripBraces (cs : List Char) : List Char :=
  ((cs.dropWhile isBrace).reverse.dropWhile isBrace).reverse

def isSpace (c : Char) : Bool := c = ' ' || (9 ≤ c.toNat && c.toNat ≤ 13) ||
  (28 ≤ c.toNat && c.toNat ≤ 31)

def hexDigit (c : Char) : Option Char :=
  if ('0' ≤ c ∧ c ≤ '9') ∨ ('a' ≤ c ∧ c ≤ 'f') then some c
  else if 'A' ≤ c ∧ c ≤ 'F' then some c.toLower
  else none

/-- Digits with single underscores between them; `after` tells whether a digit comes before. -/
def digitsFrom : Bool → List Char → Option (List Char)
  | after, [] => if after then some [] else none
  | after, c :: cs =>
    match hexDigit c with
    | some digit => (digit :: ·) <$> digitsFrom true cs
    | none => if c = '_' ∧ after then digitsFrom false cs else none

def dropSign : List Char → List Char
  | '+' :: cs => cs
  | cs => cs

def dropPrefix : List Char → List Char
  | '0' :: c :: cs =>
    if c = 'x' ∨ c = 'X' then
      match cs with
      | '_' :: cs => cs
      | cs => cs
    else '0' :: c :: cs
  | cs => cs

/-- `int(text, 16)`, as its digits. -/
def intDigits (cs : List Char) : Option (List Char) :=
  digitsFrom false (dropPrefix (dropSign
    ((cs.dropWhile isSpace).reverse.dropWhile isSpace).reverse))

def layout (digits : List Char) : List Char :=
  digits.take 8 ++ '-' :: ((digits.drop 8).take 4 ++ '-' :: ((digits.drop 12).take 4 ++
    '-' :: ((digits.drop 16).take 4 ++ '-' :: digits.drop 20)))

/-- `str(uuid.UUID(text))`; `none` is the `ValueError`. -/
@[irreducible] def text (t : String) : Option String :=
  let hex := (stripBraces (removeFrom "uuid:".toList 0 (removeFrom "urn:".toList 0 t.toList))).filter
    (· ≠ '-')
  if hex.length ≠ 32 then none
  else (intDigits hex).map fun digits =>
    String.ofList (layout (List.replicate (32 - digits.length) '0' ++ digits))

/-! ## Canonical texts -/

def isDigit (c : Char) : Bool := ('0' ≤ c ∧ c ≤ '9') ∨ ('a' ≤ c ∧ c ≤ 'f')

variable {c : Char} {cs digits : List Char}

theorem hexDigit_of_isDigit (h : isDigit c = true) : hexDigit c = some c := by
  simp only [isDigit, decide_eq_true_eq] at h
  simp [hexDigit, h]

theorem isDigit_toLower (h : 'A' ≤ c ∧ c ≤ 'F') : isDigit c.toLower = true := by
  obtain ⟨hlow, hhigh⟩ := h
  have hnat : 65 ≤ c.toNat ∧ c.toNat ≤ 70 := ⟨hlow, hhigh⟩
  have hc : c = Char.ofNat c.toNat := (Char.ofNat_toNat c).symm
  rw [hc]
  obtain ⟨hlow, hhigh⟩ := hnat
  generalize c.toNat = n at hlow hhigh
  interval_cases n <;> decide

theorem isDigit_of_hexDigit {digit : Char} (h : hexDigit c = some digit) :
    isDigit digit = true := by
  unfold hexDigit at h
  split at h
  · rename_i hdigit
    obtain rfl := Option.some_inj.mp h
    simpa [isDigit] using hdigit
  · split at h
    · rename_i hupper
      obtain rfl := Option.some_inj.mp h
      exact isDigit_toLower hupper
    · cases h

theorem isDigit_of_digitsFrom {after : Bool} (h : digitsFrom after cs = some digits) :
    ∀ c ∈ digits, isDigit c = true := by
  induction cs generalizing after digits with
  | nil =>
    unfold digitsFrom at h
    split at h
    · obtain rfl := Option.some_inj.mp h
      simp
    · cases h
  | cons c cs ih =>
    unfold digitsFrom at h
    split at h
    · rename_i digit hdigit
      obtain ⟨rest, hrest, rfl⟩ := Option.map_eq_some_iff.mp h
      intro x hx
      rcases List.mem_cons.mp hx with rfl | hx
      · exact isDigit_of_hexDigit hdigit
      · exact ih hrest x hx
    · split at h
      · exact ih h
      · cases h

theorem digitsFrom_self (after : Bool) (h : ∀ c ∈ cs, isDigit c = true)
    (hne : after = true ∨ cs ≠ []) : digitsFrom after cs = some cs := by
  induction cs generalizing after with
  | nil => simpa [digitsFrom] using hne
  | cons c cs ih =>
    rw [digitsFrom, hexDigit_of_isDigit (h c (List.mem_cons_self ..))]
    simp [ih true (fun x hx => h x (List.mem_cons_of_mem c hx)) (.inl rfl)]

theorem dropWhile_self {p : Char → Bool} (h : ∀ c ∈ cs, p c = false) : cs.dropWhile p = cs := by
  rcases cs with _ | ⟨c, cs⟩
  · rfl
  · rw [List.dropWhile_cons, h c (List.mem_cons_self ..), if_neg Bool.false_ne_true]

theorem dropWhile_ends_self {p : Char → Bool} (h : ∀ c ∈ cs, p c = false) :
    ((cs.dropWhile p).reverse.dropWhile p).reverse = cs := by
  rw [dropWhile_self h, dropWhile_self fun c hc => h c (List.mem_reverse.mp hc), List.reverse_reverse]

theorem removeFrom_self {pattern : List Char} (h : ∀ x ∈ cs, x ≠ c) :
    removeFrom (c :: pattern) 0 cs = cs := by
  induction cs with
  | nil => rfl
  | cons x cs ih =>
    have hx : (c == x) = false := beq_eq_false_iff_ne.mpr (h x (List.mem_cons_self ..)).symm
    rw [removeFrom, List.isPrefixOf, hx, Bool.false_and, if_neg Bool.false_ne_true,
      ih fun y hy => h y (List.mem_cons_of_mem x hy)]

theorem ne_of_isDigit {d : Char} (h : isDigit c = true) (hd : isDigit d = false) : c ≠ d := by
  rintro rfl
  rw [h] at hd
  cases hd

theorem isSpace_of_isDigit (h : isDigit c = true) : isSpace c = false := by
  simp only [isDigit, decide_eq_true_eq, Char.le_def, UInt32.le_iff_toNat_le] at h
  simp only [isSpace, Char.toNat, Bool.or_eq_false_iff, decide_eq_false_iff_not,
    Bool.and_eq_false_iff]
  have hlow : 48 ≤ c.val.toNat := by
    rcases h with h | h
    · exact h.1
    · exact le_trans (by decide) h.1
  refine ⟨⟨?_, .inr (by omega)⟩, .inr (by omega)⟩
  rintro rfl
  exact absurd hlow (by decide)

theorem intDigits_self (h : ∀ c ∈ cs, isDigit c = true) (hne : cs ≠ []) :
    intDigits cs = some cs := by
  have hsign : dropSign cs = cs := by
    unfold dropSign
    split
    · exact absurd (h '+' (List.mem_cons_self ..)) (by decide)
    · rfl
  have hdrop : dropPrefix cs = cs := by
    unfold dropPrefix
    split
    · rename_i c rest
      have hc := h c (List.mem_cons_of_mem _ (List.mem_cons_self ..))
      have hx : ¬ (c = 'x' ∨ c = 'X') := by
        rintro (rfl | rfl) <;> exact absurd hc (by decide)
      rw [if_neg hx]
    · rfl
  rw [intDigits, dropWhile_ends_self fun c hc => isSpace_of_isDigit (h c hc), hsign, hdrop]
  exact digitsFrom_self false h (.inr hne)

theorem length_digitsFrom {after : Bool} (h : digitsFrom after cs = some digits) :
    digits.length ≤ cs.length := by
  induction cs generalizing after digits with
  | nil =>
    unfold digitsFrom at h
    split at h
    · obtain rfl := Option.some_inj.mp h
      exact le_rfl
    · cases h
  | cons c cs ih =>
    unfold digitsFrom at h
    split at h
    · obtain ⟨rest, hrest, rfl⟩ := Option.map_eq_some_iff.mp h
      exact Nat.succ_le_succ (ih hrest)
    · split at h
      · exact (ih h).trans (Nat.le_succ _)
      · cases h

theorem length_intDigits (h : intDigits cs = some digits) : digits.length ≤ cs.length := by
  have hsign : ∀ cs, (dropSign cs).length ≤ cs.length := by
    intro cs
    unfold dropSign
    split
    · exact Nat.le_succ _
    · exact le_rfl
  have hdrop : ∀ cs, (dropPrefix cs).length ≤ cs.length := by
    intro cs
    unfold dropPrefix
    split
    · split
      · split <;> simp only [List.length_cons] <;> omega
      · exact le_rfl
    · exact le_rfl
  have hends : ((cs.dropWhile isSpace).reverse.dropWhile isSpace).reverse.length ≤ cs.length := by
    rw [List.length_reverse]
    refine (List.dropWhile_suffix _).length_le.trans ?_
    rw [List.length_reverse]
    exact (List.dropWhile_suffix _).length_le
  exact (length_digitsFrom h).trans ((hdrop _).trans ((hsign _).trans hends))

theorem mem_layout (h : c ∈ layout digits) : c ∈ digits ∨ c = '-' := by
  simp only [layout, List.mem_append, List.mem_cons] at h
  rcases h with h | rfl | h | rfl | h | rfl | h | rfl | h
  · exact .inl (List.mem_of_mem_take h)
  · exact .inr rfl
  · exact .inl (List.mem_of_mem_drop (List.mem_of_mem_take h))
  · exact .inr rfl
  · exact .inl (List.mem_of_mem_drop (List.mem_of_mem_take h))
  · exact .inr rfl
  · exact .inl (List.mem_of_mem_drop (List.mem_of_mem_take h))
  · exact .inr rfl
  · exact .inl (List.mem_of_mem_drop h)

theorem filter_layout (h : ∀ c ∈ digits, isDigit c = true) :
    (layout digits).filter (· ≠ '-') = digits := by
  have hkeep : ∀ cs : List Char, (∀ c ∈ cs, c ∈ digits) → cs.filter (· ≠ '-') = cs := by
    intro cs hcs
    refine List.filter_eq_self.mpr fun c hc => decide_eq_true ?_
    exact ne_of_isDigit (h c (hcs c hc)) (by decide)
  have htake : ∀ n m, ∀ c ∈ (digits.drop n).take m, c ∈ digits :=
    fun n m c hc => List.mem_of_mem_drop (List.mem_of_mem_take hc)
  simp only [layout, List.filter_append, List.filter_cons, ne_eq, not_true_eq_false, decide_false,
    Bool.false_eq_true, if_false]
  rw [hkeep _ fun c hc => List.mem_of_mem_take hc, hkeep _ (htake 8 4), hkeep _ (htake 12 4),
    hkeep _ (htake 16 4), hkeep _ fun c hc => List.mem_of_mem_drop hc]
  have hsplit : ∀ n m, (digits.drop n).take m ++ digits.drop (n + m) = digits.drop n := by
    intro n m
    rw [← List.drop_drop, List.take_append_drop]
  rw [hsplit 16 4, hsplit 12 4, hsplit 8 4, List.take_append_drop]

theorem eq_layout_of_text {t u : String} (h : text t = some u) : ∃ digits : List Char,
    digits.length = 32 ∧ (∀ c ∈ digits, isDigit c = true) ∧ u = String.ofList (layout digits) := by
  unfold text at h
  simp only at h
  split at h
  · cases h
  · rename_i hlength
    obtain ⟨digits, hdigits, rfl⟩ := Option.map_eq_some_iff.mp h
    have hle : digits.length ≤ 32 := (length_intDigits hdigits).trans (not_not.mp hlength).le
    refine ⟨List.replicate (32 - digits.length) '0' ++ digits, ?_, fun c hc => ?_, rfl⟩
    · rw [List.length_append, List.length_replicate]
      omega
    · rcases List.mem_append.mp hc with hc | hc
      · rw [List.eq_of_mem_replicate hc]
        decide
      · exact isDigit_of_digitsFrom hdigits c hc

theorem mem_of_text {t u : String} (h : text t = some u) (hc : c ∈ u.toList) :
    isDigit c = true ∨ c = '-' := by
  obtain ⟨digits, -, hdigit, rfl⟩ := eq_layout_of_text h
  rw [String.toList_ofList] at hc
  exact (mem_layout hc).imp_left (hdigit c)

/-- **A canonical text is its own.** -/
theorem text_text {t u : String} (h : text t = some u) : text u = some u := by
  obtain ⟨all, hlen, hdigit, rfl⟩ := eq_layout_of_text h
  have hchar : ∀ d, isDigit d = false → d ≠ '-' → ∀ c ∈ layout all, c ≠ d := by
    intro d hd hhyphen c hc
    rcases mem_layout hc with hc | rfl
    · exact ne_of_isDigit (hdigit c hc) hd
    · exact hhyphen.symm
  have hhex : (stripBraces (removeFrom "uuid:".toList 0 (removeFrom "urn:".toList 0
      (String.ofList (layout all)).toList))).filter (· ≠ '-') = all := by
    have hurn : removeFrom "urn:".toList 0 (layout all) = layout all :=
      removeFrom_self (hchar 'u' (by decide) (by decide))
    have huuid : removeFrom "uuid:".toList 0 (layout all) = layout all :=
      removeFrom_self (hchar 'u' (by decide) (by decide))
    have hlist : (String.ofList (layout all)).toList = layout all := String.toList_ofList
    rw [hlist, hurn, huuid, stripBraces, dropWhile_ends_self,
      filter_layout hdigit]
    intro c hc
    simp only [isBrace, Bool.or_eq_false_iff, decide_eq_false_iff_not]
    exact ⟨hchar _ (by decide) (by decide) c hc, hchar _ (by decide) (by decide) c hc⟩
  have hne : all ≠ [] := by
    rintro rfl
    cases hlen
  unfold text
  simp only [hhex, hlen, ne_eq, not_true_eq_false, if_false, intDigits_self hdigit hne,
    Option.map_some, Nat.sub_self, List.replicate_zero, List.nil_append]

end Uuid
