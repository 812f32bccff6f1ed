import Mathlib.Data.List.Basic

/-!
# JSON values as the interpreter holds them

The bus passes documents, activity inputs and activity results around as plain
JSON data (`JSONValue`, `JSONDict`).  Three things the code asks of such a value
are not structural and are defined here:

* `Json.truthy` — the value of `if value:`;
* `Json.str` — the text of `str(value)`, whose *length* the collaborative editor
  uses as the width of an insertion;
* `Json.isDict` — the test `isinstance(value, dict)`.

A float is carried as the text `repr` gives it, so no floating-point arithmetic
enters; whether a non-ASCII character is printed or escaped is the interpreter's
own table (`PrintTable`).
-/

namespace EnhancedAgentBus

/-- A float, by the text of its `repr`, which is never empty. -/
structure PyFloat where
  text : String
  text_ne : text.toList ≠ [] := by decide

/-- A JSON value.  An object keeps its members in insertion order, as `dict` does. -/
inductive Json where
  | null
  | bool (b : Bool)
  | int (i : Int)
  | float (f : PyFloat)
  | str (s : String)
  | arr (items : List Json)
  | obj (members : List (String × Json))

instance : Inhabited Json := ⟨.null⟩

/-- `str.isprintable` for one character.  Only characters outside ASCII are looked up. -/
class PrintTable where
  printable : Char → Bool

@[reducible] def asciiPrintable : PrintTable where
  printable _ := false

namespace Json

/-- `if value:` -/
def truthy : Json → Bool
  | .null => false
  | .bool b => b
  | .int i => i != 0
  | .float f => f.text != "0.0" && f.text != "-0.0"
  | .str s => !s.toList.isEmpty
  | .arr items => !items.isEmpty
  | .obj members => !members.isEmpty

/-- `n` in hexadecimal, padded with zeros to `width` digits. -/
private def hexDigits (width n : ℕ) : List Char :=
  let digits := Nat.toDigits 16 n
  List.replicate (width - digits.length) '0' ++ digits

/-- One character of a quoted string, as `repr` writes it. -/
def reprChar [PrintTable] (quote c : Char) : List Char :=
  let n := c.toNat
  if c = quote ∨ c = '\x5c' then ['\x5c', c]
  else if c = '\t' then ['\x5c', 't']
  else if c = '\n' then ['\x5c', 'n']
  else if c = '\r' then ['\x5c', 'r']
  else if 0x20 ≤ n ∧ n < 0x7f then [c]
  else if 0x80 ≤ n ∧ PrintTable.printable c then [c]
  else if n ≤ 0xff then ['\x5c', 'x'] ++ hexDigits 2 n
  else if n ≤ 0xffff then ['\x5c', 'u'] ++ hexDigits 4 n
  else ['\x5c', 'U'] ++ hexDigits 8 n

/-- `repr` of a string: single quotes, unless only double quotes avoid escaping. -/
def reprStr [PrintTable] (s : String) : List Char :=
  let chars := s.toList
  let quote : Char := if '\x27' ∈ chars ∧ '\x22' ∉ chars then '\x22' else '\x27'
  quote :: chars.flatMap (reprChar quote) ++ [quote]

mutual

/-- `repr(value)` -/
def repr [PrintTable] : Json → List Char
  | .null => "None".toList
  | .bool true => "True".toList
  | .bool false => "False".toList
  | .int i => i.repr.toList
  | .float f => f.text.toList
  | .str s => reprStr s
  | .arr items => '[' :: reprItems items ++ [']']
  | .obj members => '\x7b' :: reprMembers members ++ ['\x7d']

def reprItems [PrintTable] : List Json → List Char
  | [] => []
  | [x] => repr x
  | x :: xs => repr x ++ [',', ' '] ++ reprItems xs

/-- The members of a dict, `key: value`, separated by a comma and a space. -/
def reprMembers [PrintTable] : List (String × Json) → List Char
  | [] => []
  | [(k, x)] => reprStr k ++ [':', ' '] ++ repr x
  | (k, x) :: xs => reprStr k ++ [':', ' '] ++ repr x ++ [',', ' '] ++ reprMembers xs

end

/-- `str(value)`: a string is its own text, everything else is its `repr`. -/
def pyStr [PrintTable] : Json → List Char
  | .str s => s.toList
  | v => repr v

example [PrintTable] : (pyStr (.arr [.int 12, .str "ab"])).length = 10 := rfl

theorem int_repr_ne_nil (i : Int) : i.repr.toList ≠ [] := by
  cases i with
  | ofNat n => simp [Int.repr]
  | negSucc n => simp [Int.repr]

theorem pyStr_ne_nil_of_truthy [PrintTable] {v : Json} (h : v.truthy = true) :
    v.pyStr ≠ [] := by
  cases v with
  | null => simp [truthy] at h
  | bool b => cases b <;> simp [pyStr, repr]
  | int i => simpa only [pyStr, repr] using int_repr_ne_nil i
  | float f => simpa only [pyStr, repr] using f.text_ne
  | str s => simpa [pyStr, truthy] using h
  | arr items => simp [pyStr, repr]
  | obj members => simp [pyStr, repr]

/-! ## Objects -/

/-- `members.get(key)`: the member stored under `key`. -/
def lookup (key : String) : List (String × Json) → Option Json
  | [] => none
  | (k, v) :: rest => if k = key then some v else lookup key rest

/-- `members[key] = value`: overwrite in place, or append. -/
def assign (key : String) (value : Json) : List (String × Json) → List (String × Json)
  | [] => [(key, value)]
  | (k, v) :: rest => if k = key then (k, value) :: rest else (k, v) :: assign key value rest

/-- `del members[key]` -/
def erase (key : String) : List (String × Json) → List (String × Json)
  | [] => []
  | (k, v) :: rest => if k = key then rest else (k, v) :: erase key rest

@[simp] theorem lookup_assign_self (key : String) (value : Json) (ms : List (String × Json)) :
    lookup key (assign key value ms) = some value := by
  induction ms with
  | nil => simp [assign, lookup]
  | cons m ms ih =>
    obtain ⟨k, v⟩ := m
    by_cases hk : k = key
    · simp [assign, lookup, hk]
    · simp [assign, lookup, hk, ih]

@[simp] theorem assign_assign (key : String) (v w : Json) (ms : List (String × Json)) :
    assign key w (assign key v ms) = assign key w ms := by
  induction ms with
  | nil => simp [assign]
  | cons m ms ih =>
    obtain ⟨k, u⟩ := m
    by_cases hk : k = key
    · simp [assign, hk]
    · simp [assign, hk, ih]

theorem assign_of_lookup {key : String} {value : Json} {ms : List (String × Json)}
    (h : lookup key ms = some value) : assign key value ms = ms := by
  induction ms with
  | nil => cases h
  | cons m ms ih =>
    obtain ⟨k, v⟩ := m
    by_cases hk : k = key
    · rw [lookup, if_pos hk] at h
      rw [assign, if_pos hk, Option.some_inj.mp h]
    · rw [lookup, if_neg hk] at h
      rw [assign, if_neg hk, ih h]

theorem lookup_assign_of_ne {key k : String} (value : Json) (ms : List (String × Json))
    (hk : k ≠ key) : lookup k (assign key value ms) = lookup k ms := by
  induction ms with
  | nil => simp [assign, lookup, hk.symm]
  | cons m ms ih =>
    obtain ⟨k', v⟩ := m
    by_cases hk' : k' = key
    · rw [assign, if_pos hk', lookup, lookup, if_neg fun h => hk (h.symm.trans hk'),
        if_neg fun h => hk (h.symm.trans hk')]
    · rw [assign, if_neg hk', lookup, lookup, ih]

def follow : List String → Json → Option Json
  | [], current => some current
  | part :: rest, .obj members => (lookup part members).bind (follow rest)
  | _ :: _, _ => none

def put (value : Json) : List String → Json → Json
  | [], _ => value
  | part :: rest, .obj members =>
    match lookup part members with
    | some child => .obj (assign part (put value rest child) members)
    | none => .obj members
  | _ :: _, current => current

theorem follow_cons {part : String} {rest : List String} {doc target : Json}
    (h : follow (part :: rest) doc = some target) :
    ∃ members child, doc = .obj members ∧ lookup part members = some child ∧
      follow rest child = some target := by
  cases doc with
  | obj members =>
    rw [follow, Option.bind_eq_some_iff] at h
    obtain ⟨child, hchild, hrest⟩ := h
    exact ⟨members, child, rfl, hchild, hrest⟩
  | _ => simp [follow] at h

theorem follow_put {path : List String} {doc target : Json} (value : Json)
    (h : follow path doc = some target) :
    follow path (put value path doc) = some value := by
  induction path generalizing doc with
  | nil => rfl
  | cons part rest ih =>
    obtain ⟨members, child, rfl, hchild, hrest⟩ := follow_cons h
    simp [put, hchild, follow, ih hrest]

theorem put_put {path : List String} {doc target : Json} (v w : Json)
    (h : follow path doc = some target) :
    put w path (put v path doc) = put w path doc := by
  induction path generalizing doc with
  | nil => rfl
  | cons part rest ih =>
    obtain ⟨members, child, rfl, hchild, hrest⟩ := follow_cons h
    simp [put, hchild, ih hrest]

theorem put_inj {path : List String} {doc target : Json} {v w : Json}
    (h : follow path doc = some target) :
    put v path doc = put w path doc ↔ v = w := by
  refine ⟨fun heq => ?_, fun heq => by rw [heq]⟩
  have hv := follow_put v h
  rw [heq, follow_put w h] at hv
  exact (Option.some_inj.mp hv).symm

end Json

end EnhancedAgentBus
