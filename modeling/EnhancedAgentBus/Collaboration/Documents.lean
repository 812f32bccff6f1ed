import EnhancedAgentBus.Collaboration.Rejection
import Mathlib.Data.Option.Basic

/-!
# What can be read of a document

Two documents are the same when everything that can be read of them is: the members of an object
are found by key, so their order does not count, as it does not for `==` on dicts.  A reading is a
sequence of steps into the document and the outermost shape of what is found there (`probe`), and
`Same` is equality of all readings, so that it is an equivalence without further ado.

The second part says what the edits of a property leave to be read at a path.
-/

namespace EnhancedAgentBus.Json

inductive Step where
  | key (k : String)
  | item (i : ℕ)

inductive Shape where
  | null
  | bool (b : Bool)
  | int (i : Int)
  | float (f : PyFloat)
  | str (s : String)
  | arr (length : ℕ)
  | obj

def shape : Json → Shape
  | .null => .null
  | .bool b => .bool b
  | .int i => .int i
  | .float f => .float f
  | .str s => .str s
  | .arr items => .arr items.length
  | .obj _ => .obj

def child : Step → Json → Option Json
  | .key k, .obj members => lookup k members
  | .item i, .arr items => items[i]?
  | _, _ => none

def probe : List Step → Json → Option Shape
  | [], v => some v.shape
  | s :: steps, v => (child s v).bind (probe steps)

/-- Everything that can be read of the two documents is the same. -/
def Same (a b : Json) : Prop := ∀ steps, probe steps a = probe steps b

namespace Same

variable {a b c : Json}

theorem refl (a : Json) : Same a a := fun _ => rfl

theorem symm (h : Same a b) : Same b a := fun steps => (h steps).symm

theorem trans (hab : Same a b) (hbc : Same b c) : Same a c :=
  fun steps => (hab steps).trans (hbc steps)

end Same

/-! ## Objects and arrays -/

variable {v : Json} {path : List String}

end EnhancedAgentBus.Json

namespace EnhancedAgentBus.Collaboration

open Json

/-! ## A property, set or deleted -/

variable {members : List (String × Json)} {doc : Json} {parts : List String}

end EnhancedAgentBus.Collaboration
