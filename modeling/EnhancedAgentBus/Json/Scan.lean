import EnhancedAgentBus.Json
import Mathlib.Data.List.TakeWhile
import Mathlib.Tactic.IntervalCases

/-!
# The atoms of a JSON text

How `json` writes a string, a number and a constant, and how its scanner reads them back.

A scanner takes a text to what it has read and to the text that is left.  A string ends at its
closing quote.  A number ends where no character of a number follows, so what is read there depends
on what comes next: `atom_append` asks for a character that ends it, which is what follows a value
inside a list or an object.

Strings are sequences of Unicode scalar values, so an escaped surrogate that is not half of a pair
is not read; `json.dumps` never writes one for such a string.  A number with a fraction or an
exponent is kept as it is written, which for what `float.__repr__` writes is the float's own text.
-/

namespace EnhancedAgentBus

namespace JsonText

/-! ## Strings -/

def hexValue (c : Char) : Option ℕ :=
  if c.isDigit then some (c.toNat - '0'.toNat)
  else if 'a' ≤ c ∧ c ≤ 'f' then some (c.toNat - 'a'.toNat + 10)
  else if 'A' ≤ c ∧ c ≤ 'F' then some (c.toNat - 'A'.toNat + 10)
  else none

theorem hexValue_digitChar {d : ℕ} (h : d < 16) : hexValue d.digitChar = some d := by
  interval_cases d <;> rfl

/-- `'{0:04x}'.format(n)`, for `n` below 2 ^ 16. -/
def hex4 (n : ℕ) : List Char :=
  [(n / 4096 % 16).digitChar, (n / 256 % 16).digitChar, (n / 16 % 16).digitChar,
    (n % 16).digitChar]

/-- `_decode_uXXXX` -/
def readHex4 : List Char → Option (ℕ × List Char)
  | a :: b :: c :: d :: s => do
    let a ← hexValue a
    let b ← hexValue b
    let c ← hexValue c
    let d ← hexValue d
    some (a * 4096 + b * 256 + c * 16 + d, s)
  | _ => none

theorem readHex4_hex4 {n : ℕ} (h : n < 65536) (s : List Char) :
    readHex4 (hex4 n ++ s) = some (n, s) := by
  simp only [hex4, List.cons_append, List.nil_append, readHex4]
  rw [hexValue_digitChar (Nat.mod_lt _ (by decide)), hexValue_digitChar (Nat.mod_lt _ (by decide)),
    hexValue_digitChar (Nat.mod_lt _ (by decide)), hexValue_digitChar (Nat.mod_lt _ (by decide))]
  have hn : n / 4096 % 16 * 4096 + n / 256 % 16 * 256 + n / 16 % 16 * 16 + n % 16 = n := by omega
  exact congrArg (fun n => some (n, s)) hn

/-- `ESCAPE_DCT` for the characters that have a short escape. -/
def shortEscape (c : Char) : Option Char :=
  if c = '\x22' then some '\x22'
  else if c = '\x5c' then some '\x5c'
  else if c = '\n' then some 'n'
  else if c = '\r' then some 'r'
  else if c = '\t' then some 't'
  else if c.toNat = 12 then some 'f'
  else if c.toNat = 8 then some 'b'
  else none

/-- `BACKSLASH` -/
def unescape (c : Char) : Option Char :=
  if c = '\x22' then some '\x22'
  else if c = '\x5c' then some '\x5c'
  else if c = '/' then some '/'
  else if c = 'b' then some (Char.ofNat 8)
  else if c = 'f' then some (Char.ofNat 12)
  else if c = 'n' then some '\n'
  else if c = 'r' then some '\r'
  else if c = 't' then some '\t'
  else none

theorem unescape_shortEscape {c e : Char} (h : shortEscape c = some e) :
    e ≠ 'u' ∧ unescape e = some c := by
  unfold shortEscape at h
  split_ifs at h with h1 h2 h3 h4 h5 h6 h7
  · obtain rfl := Option.some_inj.mp h
    exact ⟨by decide, congrArg some h1.symm⟩
  · obtain rfl := Option.some_inj.mp h
    exact ⟨by decide, congrArg some h2.symm⟩
  · obtain rfl := Option.some_inj.mp h
    exact ⟨by decide, congrArg some h3.symm⟩
  · obtain rfl := Option.some_inj.mp h
    exact ⟨by decide, congrArg some h4.symm⟩
  · obtain rfl := Option.some_inj.mp h
    exact ⟨by decide, congrArg some h5.symm⟩
  · obtain rfl := Option.some_inj.mp h
    exact ⟨by decide, congrArg some (h6 ▸ Char.ofNat_toNat c)⟩
  · obtain rfl := Option.some_inj.mp h
    exact ⟨by decide, congrArg some (h7 ▸ Char.ofNat_toNat c)⟩

/-- One character of a string, as `py_encode_basestring_ascii` writes it. -/
def escapeChar (c : Char) : List Char :=
  let n := c.toNat
  match shortEscape c with
  | some e => ['\x5c', e]
  | none =>
    if 0x20 ≤ n ∧ n ≤ 0x7e then [c]
    else if n < 0x10000 then ['\x5c', 'u'] ++ hex4 n
    else
      ['\x5c', 'u'] ++ hex4 (0xd800 + (n - 0x10000) / 0x400) ++
        (['\x5c', 'u'] ++ hex4 (0xdc00 + (n - 0x10000) % 0x400))

/-- What follows `\u`: one character, or a pair of surrogates. -/
def scanUnicode (s : List Char) : Option (Char × List Char) :=
  (readHex4 s).bind fun (n, s) =>
    if 0xd800 ≤ n ∧ n ≤ 0xdbff then
      match s with
      | b :: u :: s =>
        if b = '\x5c' ∧ u = 'u' then
          (readHex4 s).bind fun (m, s) =>
            if 0xdc00 ≤ m ∧ m ≤ 0xdfff then
              some (Char.ofNat (0x10000 + (n - 0xd800) * 0x400 + (m - 0xdc00)), s)
            else none
        else none
      | _ => none
    else if 0xdc00 ≤ n ∧ n ≤ 0xdfff then none
    else some (Char.ofNat n, s)

def scanEscape : List Char → Option (Char × List Char)
  | [] => none
  | e :: s => if e = 'u' then scanUnicode s else (unescape e).map (·, s)

def scanChar : List Char → Option (Char × List Char)
  | [] => none
  | c :: s =>
    if c = '\x5c' then scanEscape s
    else if c.toNat < 0x20 then none
    else some (c, s)

/-- `scanstring`, after the opening quote. -/
def scanString : ℕ → List Char → Option (List Char × List Char)
  | 0, _ => none
  | _ + 1, [] => none
  | fuel + 1, c :: s =>
    if c = '\x22' then some ([], s)
    else
      (scanChar (c :: s)).bind fun (c, s) =>
        (scanString fuel s).map fun (cs, s) => (c :: cs, s)

theorem scanUnicode_hex4 {c : Char} (h : c.toNat < 0x10000) (s : List Char) :
    scanUnicode (hex4 c.toNat ++ s) = some (c, s) := by
  have hvalid := c.valid
  have hsurrogate : ¬(0xd800 ≤ c.toNat ∧ c.toNat ≤ 0xdfff) := by
    rcases hvalid with hlt | ⟨hgt, -⟩
    · exact fun h => absurd hlt (Nat.not_lt.mpr h.1)
    · exact fun h => absurd hgt (Nat.not_lt.mpr h.2)
  rw [scanUnicode, readHex4_hex4 h, Option.bind_some]
  dsimp only
  rw [if_neg (by omega), if_neg (by omega), Char.ofNat_toNat]

theorem scanUnicode_surrogates {n : ℕ} (hn : 0x10000 ≤ n) (hlt : n < 0x110000) (s : List Char) :
    scanUnicode (hex4 (0xd800 + (n - 0x10000) / 0x400) ++
      '\x5c' :: 'u' :: (hex4 (0xdc00 + (n - 0x10000) % 0x400) ++ s)) = some (Char.ofNat n, s) := by
  have hpair : 0x10000 + (0xd800 + (n - 0x10000) / 0x400 - 0xd800) * 0x400 +
      (0xdc00 + (n - 0x10000) % 0x400 - 0xdc00) = n := by omega
  rw [scanUnicode, readHex4_hex4 (by omega), Option.bind_some]
  dsimp only
  rw [if_pos (by omega), if_pos ⟨rfl, rfl⟩, readHex4_hex4 (by omega), Option.bind_some]
  dsimp only
  rw [if_pos (by omega), hpair]

theorem scanChar_escapeChar (c : Char) (s : List Char) :
    scanChar (escapeChar c ++ s) = some (c, s) := by
  unfold escapeChar
  cases hshort : shortEscape c with
  | some e =>
    obtain ⟨hu, hc⟩ := unescape_shortEscape hshort
    show scanEscape (e :: s) = some (c, s)
    rw [scanEscape, if_neg hu, hc, Option.map_some]
  | none =>
    have hslash : c ≠ '\x5c' := by
      rintro rfl
      cases hshort
    have hlt : c.toNat < 0x110000 := by
      rcases c.valid with h | ⟨-, h⟩
      · exact Nat.lt_trans h (by decide)
      · exact h
    dsimp only
    split_ifs with hplain hsmall
    · rw [List.singleton_append, scanChar, if_neg hslash, if_neg (by omega)]
    · exact scanUnicode_hex4 hsmall s
    · have hpair := scanUnicode_surrogates (Nat.not_lt.mp hsmall) hlt s
      rw [Char.ofNat_toNat] at hpair
      rw [List.append_assoc, List.append_assoc]
      exact hpair

theorem escapeChar_ne_quote (c : Char) :
    ∃ d l, escapeChar c = d :: l ∧ d ≠ '\x22' := by
  unfold escapeChar
  cases hshort : shortEscape c with
  | some e => exact ⟨_, _, rfl, by decide⟩
  | none =>
    dsimp only
    split_ifs
    · refine ⟨_, _, rfl, ?_⟩
      rintro rfl
      cases hshort
    · exact ⟨_, _, rfl, by decide⟩
    · exact ⟨_, _, rfl, by decide⟩

theorem scanString_escape {fuel : ℕ} {cs : List Char} (h : cs.length < fuel) (s : List Char) :
    scanString fuel (cs.flatMap escapeChar ++ '\x22' :: s) = some (cs, s) := by
  induction cs generalizing fuel with
  | nil =>
    obtain ⟨fuel, rfl⟩ := Nat.exists_eq_succ_of_ne_zero (Nat.ne_of_gt h)
    exact if_pos rfl
  | cons c cs ih =>
    obtain ⟨fuel, rfl⟩ := Nat.exists_eq_succ_of_ne_zero (Nat.ne_of_gt (Nat.zero_lt_of_lt h))
    obtain ⟨d, l, hd, hquote⟩ := escapeChar_ne_quote c
    have hchar := scanChar_escapeChar c (cs.flatMap escapeChar ++ '\x22' :: s)
    rw [hd, List.cons_append] at hchar
    rw [List.flatMap_cons, hd, List.append_assoc, List.cons_append, scanString, if_neg hquote,
      hchar, Option.bind_some]
    dsimp only
    rw [ih (Nat.lt_of_succ_lt_succ h), Option.map_some]

/-! ## Numbers -/

def isNumberChar (c : Char) : Bool := c.isDigit || c ∈ ['+', '-', '.', 'e', 'E']

/-- `\d+` -/
def isDigits (s : List Char) : Bool := !s.isEmpty && s.all Char.isDigit

/-- `0|[1-9]\d*` -/
def isNatural (s : List Char) : Bool := isDigits s && (s == ['0'] || s.head? != some '0')

/-- `[eE][-+]?\d+` -/
def isExponent : List Char → Bool
  | [] => false
  | e :: s =>
    (e == 'e' || e == 'E') &&
      isDigits (if s.head? = some '+' ∨ s.head? = some '-' then s.tail else s)

/-- What follows the integer part of a number with a fraction or an exponent. -/
def isFloatTail : List Char → Bool
  | [] => false
  | c :: s =>
    if c = '.' then
      let rest := s.dropWhile Char.isDigit
      !(s.takeWhile Char.isDigit).isEmpty && (rest.isEmpty || isExponent rest)
    else isExponent (c :: s)

def isFloatText (s : List Char) : Bool :=
  let s := if s.head? = some '-' then s.tail else s
  isNatural (s.takeWhile Char.isDigit) && isFloatTail (s.dropWhile Char.isDigit)

theorem isFloatText_ne_nil {s : List Char} (h : isFloatText s = true) :
    (String.ofList s).toList ≠ [] := by
  rw [String.toList_ofList]
  rintro rfl
  cases h

def readNumber (s : List Char) : Option Json :=
  if isNatural s then some (.int (Nat.ofDigitChars 10 s 0))
  else if s.head? = some '-' ∧ isNatural s.tail then
    some (.int (-Nat.ofDigitChars 10 s.tail 0))
  else if h : isFloatText s = true then some (.float ⟨String.ofList s, isFloatText_ne_nil h⟩)
  else none

theorem isFloatText_of_digits {s : List Char} (h : s.all Char.isDigit = true) :
    isFloatText s = false := by
  have hall := List.all_eq_true.mp h
  have hhead : s.head? ≠ some '-' := by
    intro hhead
    cases hall _ (List.mem_of_head? hhead)
  rw [isFloatText, if_neg hhead, List.dropWhile_eq_nil_iff.mpr hall]
  exact Bool.and_false _

theorem not_isNatural_of_isFloatText {s : List Char} (h : isFloatText s = true) :
    isNatural s = false ∧ ¬(s.head? = some '-' ∧ isNatural s.tail = true) := by
  constructor
  · by_contra hnat
    rw [Bool.not_eq_false, isNatural, Bool.and_eq_true, isDigits, Bool.and_eq_true] at hnat
    rw [isFloatText_of_digits hnat.1.2] at h
    cases h
  · rintro ⟨hhead, hnat⟩
    rw [isNatural, Bool.and_eq_true, isDigits, Bool.and_eq_true] at hnat
    have hdigits := isFloatText_of_digits hnat.1.2
    have hhead' : s.tail.head? ≠ some '-' := by
      intro hhead'
      cases List.all_eq_true.mp hnat.1.2 _ (List.mem_of_head? hhead')
    rw [isFloatText, if_pos hhead] at h
    rw [isFloatText, if_neg hhead', h] at hdigits
    cases hdigits

/-- What `float.__repr__` writes. -/
def isRepr (f : PyFloat) : Bool :=
  f.text ∈ ["nan", "inf", "-inf"] || (f.text.toList.all isNumberChar && isFloatText f.text.toList)

theorem readNumber_float {f : PyFloat} (h : isFloatText f.text.toList = true) :
    readNumber f.text.toList = some (.float f) := by
  obtain ⟨hnat, hneg⟩ := not_isNatural_of_isFloatText h
  rw [readNumber, if_neg (by simp [hnat]), if_neg hneg, dif_pos h]
  congr 2
  cases f
  simp

theorem head_toDigits_ne_zero {n : ℕ} (h : 0 < n) : (Nat.toDigits 10 n).head? ≠ some '0' := by
  induction n using Nat.strong_induction_on with
  | h n ih =>
    by_cases hlt : n < 10
    · rw [Nat.toDigits_of_lt_base hlt]
      interval_cases n <;> decide
    · rw [Nat.toDigits_of_base_le (by decide) (Nat.not_lt.mp hlt)]
      have hrec := ih (n / 10) (by omega) (by omega)
      rcases hdigits : Nat.toDigits 10 (n / 10) with _ | ⟨d, ds⟩
      · exact absurd hdigits Nat.toDigits_ne_nil
      · rw [hdigits] at hrec
        exact hrec

theorem isNatural_toDigits (n : ℕ) : isNatural (Nat.toDigits 10 n) = true := by
  have hall : (Nat.toDigits 10 n).all Char.isDigit = true :=
    List.all_eq_true.mpr fun c hc => Nat.isDigit_of_mem_toDigits (by decide) (by decide) hc
  rw [isNatural, isDigits, hall]
  rcases Nat.eq_zero_or_pos n with rfl | hpos
  · rw [Nat.toDigits_zero]
    rfl
  · have hhead := head_toDigits_ne_zero hpos
    simp [hhead, Nat.toDigits_ne_nil]

theorem readNumber_int (i : ℤ) : readNumber i.repr.toList = some (.int i) := by
  rw [Int.repr_eq_if]
  split_ifs with hpos
  · rw [Nat.toList_repr, readNumber, if_pos (isNatural_toDigits _),
      Nat.ofDigitChars_ten_toDigits]
    congr 2
    omega
  · have hminus : ("-" ++ (-i).toNat.repr).toList = '-' :: Nat.toDigits 10 (-i).toNat := by
      rw [String.toList_append, Nat.toList_repr]
      rfl
    rw [hminus, readNumber, if_neg (by simp [isNatural, isDigits]),
      if_pos ⟨rfl, isNatural_toDigits _⟩, List.tail_cons, Nat.ofDigitChars_ten_toDigits]
    congr 2
    omega

theorem all_isNumberChar_int (i : ℤ) : ∀ c ∈ i.repr.toList, isNumberChar c = true := by
  have hdigits (n : ℕ) : ∀ c ∈ Nat.toDigits 10 n, isNumberChar c = true := by
    intro c hc
    rw [isNumberChar, Nat.isDigit_of_mem_toDigits (by decide) (by decide) hc]
    rfl
  rw [Int.repr_eq_if]
  split_ifs
  · rw [Nat.toList_repr]
    exact hdigits _
  · rw [String.toList_append, Nat.toList_repr]
    intro c hc
    rcases List.mem_append.mp hc with hc | hc
    · obtain rfl := List.mem_singleton.mp hc
      rfl
    · exact hdigits _ c hc

/-! ## Constants -/

/-- The constants, with the texts that stand for the floats that have no digits. -/
def constants : List (List Char × Json) :=
  [("null".toList, .null), ("true".toList, .bool true), ("false".toList, .bool false),
    ("NaN".toList, .float ⟨"nan", by decide⟩), ("Infinity".toList, .float ⟨"inf", by decide⟩),
    ("-Infinity".toList, .float ⟨"-inf", by decide⟩)]

def scanAtom (s : List Char) : Option (Json × List Char) :=
  match readNumber (s.takeWhile isNumberChar) with
  | some x => some (x, s.dropWhile isNumberChar)
  | none =>
    (constants.find? fun (w, _) => w.isPrefixOf s).map fun (w, x) => (x, s.drop w.length)

/-- `floatstr` -/
def floatText (f : PyFloat) : List Char :=
  if f.text = "nan" then "NaN".toList
  else if f.text = "inf" then "Infinity".toList
  else if f.text = "-inf" then "-Infinity".toList
  else f.text.toList

/-- What may follow a value: white space, a comma or a closing bracket. -/
def delimits (c : Char) : Bool := c ∈ [' ', '\t', '\n', '\r', ',', ']', '\x7d']

def Ends (s : List Char) : Prop := ∀ c ∈ s.head?, delimits c = true

theorem Ends.nil : Ends [] := by rintro c ⟨⟩

theorem Ends.cons {c : Char} (h : delimits c = true) (s : List Char) : Ends (c :: s) := by
  intro d hd
  obtain rfl := Option.some_inj.mp hd
  exact h

theorem not_isNumberChar_of_delimits {c : Char} (h : delimits c = true) :
    isNumberChar c = false := by
  simp only [delimits, List.mem_cons, List.not_mem_nil, or_false, decide_eq_true_eq] at h
  rcases h with rfl | rfl | rfl | rfl | rfl | rfl | rfl <;> rfl

theorem Ends.takeWhile {s : List Char} (h : Ends s) : s.takeWhile isNumberChar = [] := by
  rcases s with _ | ⟨c, s⟩
  · rfl
  · rw [List.takeWhile_cons, not_isNumberChar_of_delimits (h c rfl)]
    rfl

theorem Ends.dropWhile {s : List Char} (h : Ends s) : s.dropWhile isNumberChar = s := by
  rcases s with _ | ⟨c, s⟩
  · rfl
  · rw [List.dropWhile_cons, not_isNumberChar_of_delimits (h c rfl)]
    rfl

theorem scanAtom_number {w s : List Char} {x : Json} (hw : ∀ c ∈ w, isNumberChar c = true)
    (hread : readNumber w = some x) (hs : Ends s) : scanAtom (w ++ s) = some (x, s) := by
  rw [scanAtom, List.takeWhile_append_of_pos hw, List.dropWhile_append_of_pos hw, hs.takeWhile,
    List.append_nil, hread, hs.dropWhile]

theorem scanAtom_constant {w : List Char} {x : Json} (h : (w, x) ∈ constants) (s : List Char) :
    scanAtom (w ++ s) = some (x, s) := by
  simp only [constants, List.mem_cons, List.not_mem_nil, or_false, Prod.mk.injEq] at h
  rcases h with ⟨rfl, rfl⟩ | ⟨rfl, rfl⟩ | ⟨rfl, rfl⟩ | ⟨rfl, rfl⟩ | ⟨rfl, rfl⟩ | ⟨rfl, rfl⟩ <;> rfl

end JsonText

end EnhancedAgentBus
