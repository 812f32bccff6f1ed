import EnhancedAgentBus.Collaboration.Models
import Mathlib.Data.List.Infix

/-!
# The sync engine: operational transform and document edits

`OperationalTransform` rewrites two concurrent operations against each other;
`SyncEngine._apply_to_document` then edits a JSON document.  Both are followed
statement by statement.

A document edit mutates the document in place and may raise half-way, so an edit
returns the document *as the code leaves it* together with the error, if any:
`Edit = Json → Json × Option EditError`.
-/

namespace EnhancedAgentBus.Collaboration

/-! ## `OperationalTransform` -/

section Transform

variable [PrintTable]

def transformInsertInsert (op1 op2 : EditOperation) : EditOperation × EditOperation :=
  match op1.position, op2.position with
  | some p1, some p2 =>
    if p1 < p2 then
      (op1, { op2 with position := some (p2 + op1.valueLen) })
    else if p1 > p2 then
      ({ op1 with position := some (p1 + op2.valueLen) }, op2)
    -- Same position: the earlier timestamp keeps its place
    else if op1.timestamp ≤ op2.timestamp then
      (op1, { op2 with position := some (p2 + op1.valueLen) })
    else
      ({ op1 with position := some (p1 + op2.valueLen) }, op2)
  | _, _ => (op1, op2)

/-- Transform concurrent insert (`op1`) and delete (`op2`) operations. -/
def transformInsertDelete (op1 op2 : EditOperation) : EditOperation × EditOperation :=
  match op1.position, op2.position with
  | some p1, some p2 =>
    if p1 ≤ p2 then
      (op1, { op2 with position := some (p2 + op1.valueLen) })
    else
      ({ op1 with position := some (max 0 (p1 - op2.lengthOr1)) }, op2)
  | _, _ => (op1, op2)

def transformDeleteDelete (op1 op2 : EditOperation) : EditOperation × EditOperation :=
  match op1.position, op2.position with
  | some p1, some p2 =>
    let len1 := op1.lengthOr1
    let len2 := op2.lengthOr1
    if p1 + len1 ≤ p2 then
      (op1, { op2 with position := some (p2 - len1) })
    else if p2 + len2 ≤ p1 then
      ({ op1 with position := some (p1 - len2) }, op2)
    else
      -- Overlapping deletes: only the lengths are adjusted
      let overlapStart := max p1 p2
      let overlapEnd := min (p1 + len1) (p2 + len2)
      let overlapLen := max 0 (overlapEnd - overlapStart)
      ({ op1 with length := some (len1 - overlapLen) },
        { op2 with length := some (len2 - overlapLen) })
  | _, _ => (op1, op2)

omit [PrintTable] in
def transformReplace (op1 op2 : EditOperation) : EditOperation × EditOperation :=
  if op1.timestamp > op2.timestamp then
    (op1, { op2 with type := .insert, value := .null })
  else
    ({ op1 with type := .insert, value := .null }, op2)

def transformOperations (op1 op2 : EditOperation) : EditOperation × EditOperation :=
  if op1.path ≠ op2.path then (op1, op2)
  else
    match op1.type, op2.type with
    | .insert, .insert => transformInsertInsert op1 op2
    | .insert, .delete => transformInsertDelete op1 op2
    | .delete, .insert =>
      let (op2T, op1T) := transformInsertDelete op2 op1
      (op1T, op2T)
    | .delete, .delete => transformDeleteDelete op1 op2
    | .replace, _ => transformReplace op1 op2
    | _, .replace => transformReplace op1 op2
    | _, _ => (op1, op2)

end Transform

/-! ## List primitives of the interpreter -/

/-- `xs.insert(i, v)`: a negative index counts from the end, and the result is clamped. -/
def pyInsert {α : Type*} (xs : List α) (i : ℤ) (v : α) : List α :=
  xs.insertIdx (if i < 0 then (i + xs.length).toNat else min i.toNat xs.length) v

/-- `del xs[i]`; `none` is the `IndexError`. -/
def pyDel {α : Type*} (xs : List α) (i : ℤ) : Option (List α) :=
  let j := if i < 0 then i + xs.length else i
  if 0 ≤ j ∧ j < xs.length then some (xs.eraseIdx j.toNat) else none

/-! ## `SyncEngine` document edits -/

inductive EditError where
  | typeError
  | attributeError
  | indexError
deriving DecidableEq, Repr

abbrev Edited := Json × Option EditError

/-- `path.strip("/").split("/")` -/
def pathParts (path : String) : List String :=
  let stripped := ((path.toList.dropWhile (· = '/')).reverse.dropWhile (· = '/')).reverse
  (stripped.splitOn '/').map String.ofList

/-- `part in current`, which every path walk asks first.  `none` is the
`TypeError` of asking a number, a boolean or `None`. -/
def hasPart (part : String) : Json → Option Bool
  | .obj members => some (Json.lookup part members).isSome
  | .arr items => some (items.any fun
      | .str s => s = part
      | _ => false)
  | .str s => some (decide (part.toList <:+: s.toList))
  | _ => none

/-- Walk into `part` and edit the child found there, putting it back afterwards.
Only a dict can be indexed by a string, so every other value is a `TypeError`. -/
def editChild (current : Json) (part : String) (missing : Option Json)
    (edit : Json → Edited) : Edited :=
  match current with
  | .obj members =>
    match (Json.lookup part members).or missing with
    | some child =>
      let (child', err) := edit child
      (.obj (Json.assign part child' members), err)
    | none => (current, none)
  | _ =>
    match missing, hasPart part current with
    | none, some false => (current, none)
    | _, _ => (current, some .typeError)

def setProperty (value : Json) : List String → Json → Edited
  | [], current => (current, none)
  | [part], current =>
    match current with
    | .obj members => (.obj (Json.assign part value members), none)
    | _ => (current, some .typeError)
  | part :: rest, current => editChild current part (some (.obj [])) (setProperty value rest)

def deleteProperty : List String → Json → Edited
  | [], current => (current, none)
  | [part], current =>
    match current, hasPart part current with
    | .obj members, _ => (.obj (Json.erase part members), none)
    | _, some false => (current, none)
    | _, _ => (current, some .typeError)
  | part :: rest, current => editChild current part none (deleteProperty rest)

/-- The text under which a non-string key is stored once the document is JSON again;
`none` is the `TypeError` of an unhashable key. -/
def keyText : Json → Option String
  | .str s => some s
  | .null => some "null"
  | .bool b => some (if b then "true" else "false")
  | .int i => some i.repr
  | .float f => some f.text
  | _ => none

def insertHere (position : Option ℤ) (value : Json) : Json → Edited
  | .arr items =>
    match position with
    | some p => (.arr (pyInsert items (min p items.length) value), none)
    | none => (.arr items, none)
  | .obj members =>
    match value with
    | .obj entry =>
      match Json.lookup "key" entry with
      | some key =>
        match keyText key with
        | some k =>
          (.obj (Json.assign k ((Json.lookup "value" entry).getD .null) members), none)
        | none => (.obj members, some .typeError)
      | none => (.obj (Json.assign (toString members.length) value members), none)
    | _ => (.obj (Json.assign (toString members.length) value members), none)
  | current => (current, none)

def insertAtPath (position : Option ℤ) (value : Json) : List String → Json → Edited
  | [], current => insertHere position value current
  | part :: rest, current =>
    editChild current part (some (.arr [])) (insertAtPath position value rest)

/-- `for _ in range(del_count): if position < len(current): del current[position]` -/
def deleteLoop (position : ℤ) : ℕ → List Json → List Json × Option EditError
  | 0, items => (items, none)
  | n + 1, items =>
    if position < items.length then
      match pyDel items position with
      | some items' => deleteLoop position n items'
      | none => (items, some .indexError)
    else deleteLoop position n items

def deleteHere (op : EditOperation) : Json → Edited
  | .arr items =>
    match op.position with
    | some p =>
      let (items', err) := deleteLoop p op.lengthOr1.toNat items
      (.arr items', err)
    | none => (.arr items, none)
  | current => (current, none)

def deleteAtPath (op : EditOperation) : List String → Json → Edited
  | [], current => deleteHere op current
  | part :: rest, current => editChild current part none (deleteAtPath op rest)

/-- Get a property at a JSON path; the outer `none` is a `TypeError`. -/
def getProperty : List String → Json → Option Json
  | [], current => some current
  | part :: rest, current =>
    match current, hasPart part current with
    | .obj members, _ =>
      match Json.lookup part members with
      | some child => getProperty rest child
      | none => some .null
    | _, some false => some .null
    | _, _ => none

def moveProperty (fromPath : String) (toPath : Json) (doc : Json) : Edited :=
  match getProperty (pathParts fromPath) doc with
  | none => (doc, some .typeError)
  | some value =>
    match deleteProperty (pathParts fromPath) doc with
    | (doc', some err) => (doc', some err)
    | (doc', none) =>
      match toPath with
      | .str target => setProperty value (pathParts target) doc'
      | .obj entry =>
        match Json.lookup "path" entry with
        | some (.str target) => setProperty value (pathParts target) doc'
        | some _ => (doc', some .attributeError)
        | none => (doc', none)
      | _ => (doc', none)

def applyToDocument (op : EditOperation) (doc : Json) : Edited :=
  match op.type with
  | .setProperty => setProperty op.value (pathParts op.path) doc
  | .deleteProperty => deleteProperty (pathParts op.path) doc
  | .insert => insertAtPath op.position op.value (pathParts op.path) doc
  | .delete => deleteAtPath op (pathParts op.path) doc
  | .replace => setProperty op.value (pathParts op.path) doc
  | .move => moveProperty op.path op.value doc

end EnhancedAgentBus.Collaboration
