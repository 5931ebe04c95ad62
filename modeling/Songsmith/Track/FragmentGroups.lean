import Songsmith.Pattern.Alternatives
import Songsmith.Pattern.Shorthand

/-!
# Fragment groups

Fragments are short pattern texts that parts are put together from. They are kept in groups, each
under a key of one character and with at least one fragment; no key is given twice.
-/

namespace Songsmith

/-- The fragments of one key. -/
structure FragmentGroup where
  key : Char
  fragments : List Text
  nonempty : fragments ≠ []

/-- Groups of fragments, in the order in which they were added. -/
structure FragmentGroups where
  groups : List FragmentGroup := []

/-- What the fragments of a group may be given as: a list of them, or a text of alternatives. -/
inductive FragmentsInput where
  | list (fragments : List Text)
  | alternatives (text : Text)

namespace FragmentGroups

/-- The group of a key. -/
def find? (gs : FragmentGroups) (key : Char) : Option FragmentGroup :=
  gs.groups.find? (·.key == key)

/-- There is a group of this key. -/
def contains (gs : FragmentGroups) : Text → Bool
  | [key] => (gs.find? key).isSome
  | _ => false

/-- The number of groups. -/
def size (gs : FragmentGroups) : Nat := gs.groups.length

/-- The fragments of a key. -/
def get (gs : FragmentGroups) (key : Text) : Except Error (List Text) :=
  let missing : Except Error (List Text) := .error (.dangling (.group key))
  match key with
  | [c] => (gs.find? c).elim missing fun g => .ok g.fragments
  | _ => missing

/-- The groups and one more. -/
def add (gs : FragmentGroups) (key : Option Text) (fragments : List Text) :
    Except Error FragmentGroups :=
  match key with
  | some [c] =>
    if (gs.find? c).isSome then .error (.dangling (.groupDefined [c]))
    else if h : fragments = [] then .error (.malformed (.emptyGroup [c]))
    else .ok ⟨gs.groups ++ [⟨c, fragments, h⟩]⟩
  | _ => .error (.malformed (.groupKey key))

/-- The fragments that are given, before their shorthand is expanded. -/
def candidates : FragmentsInput → Except Error (List Text)
  | .list fragments => .ok fragments
  | .alternatives text => Alternatives.split text

/-- Adds a group with the shorthand in its fragments expanded. -/
def addExpanded [Machine] (gs : FragmentGroups) (entry : Text × FragmentsInput) :
    Except Error FragmentGroups := do
  let fragments ← candidates entry.2 >>= List.mapM Shorthand.expand
  gs.add (some entry.1) fragments

/-- The groups of a list of keys and their fragments, with all shorthand expanded. -/
def ofEntries [Machine] (entries : List (Text × FragmentsInput)) : Except Error FragmentGroups :=
  entries.foldlM addExpanded {}

end FragmentGroups

end Songsmith
