import Songsmith.Number.Real

/-!
# Documents

A song is described by a document: scalars, lists, and mappings whose entries keep their order. The
accessors say what a document is taken as where a number, a text or a list is expected. A document
of another kind is not taken as anything (`Document.expect`).
-/

namespace Songsmith

/-- A value of a document. -/
inductive Document where
  | null
  | boolean (b : Bool)
  | integer (n : Int)
  | real (d : Decimal)
  | text (t : Text)
  | list (items : List Document)
  | mapping (entries : List (Text × Document))

namespace Document

/-- The value of a key of a mapping. -/
def find? (d : Document) (key : String) : Option Document :=
  match d with
  | mapping entries => (entries.find? (·.1 == key.toList)).map (·.2)
  | _ => none

/-- What a document is taken as under a key, if it is of a kind that can be taken so. -/
def expect {α : Type} (key : String) (taken : Option α) : Except Error α :=
  taken.elim (.error (.mistyped key.toList)) .ok

/-- The entries of a mapping. -/
def entries? : Document → Option (List (Text × Document))
  | mapping entries => some entries
  | _ => none

/-- What a loop runs through: the items of a list, the characters of a text or the keys of a
mapping. -/
def items? : Document → Option (List Document)
  | list items => some items
  | text t => some (t.map fun c => text [c])
  | mapping entries => some (entries.map fun entry => text entry.1)
  | _ => none

/-- The value of a key, if there is one. Only a mapping can be asked for it. -/
def lookUp (d : Document) (key : String) : Except Error (Option Document) :=
  (expect key d.entries?).map fun _ => d.find? key

/-- The value of a key that has to be there. -/
def get (d : Document) (key : String) : Except Error Document := do
  match ← d.lookUp key with
  | some value => .ok value
  | none => .error (.missingKey key.toList)

/-- The document holds nothing: it is null, false, zero, or has no characters, items or entries. -/
def isEmpty : Document → Bool
  | null => true
  | boolean b => !b
  | integer n => n == 0
  | real d => d.significand == 0
  | text t => t.isEmpty
  | list items => items.isEmpty
  | mapping entries => entries.isEmpty

/-- The document as a text. -/
def text? : Document → Option Text
  | text t => some t
  | _ => none

/-- The document as an integer. -/
def integer? : Document → Option Int
  | integer n => some n
  | boolean b => some (if b then 1 else 0)
  | _ => none

/-- The document as a number of either kind. -/
def number? : Document → Option Number
  | integer n => some (.integer n)
  | boolean b => some (.integer (if b then 1 else 0))
  | real d => some (.real d.toFloat)
  | _ => none

/-- The document as a truth value: nothing counts as false, all else as true. -/
def truth (d : Document) : Bool := !d.isEmpty

/-- The value of a key as it stands in a message, if it is an exact scalar. -/
def shown (key : String) : Document → Except Error String
  | null => .ok "None"
  | boolean true => .ok "True"
  | boolean false => .ok "False"
  | integer n => (Integer.write n).map String.ofList
  | text t => .ok t.quoted
  | _ => .error (.mistyped key.toList)

end Document

end Songsmith
