import Songsmith.Chord.Name

/-!
# Palettes

A palette is a list of chord names from which one is drawn. It is not empty, and every entry names a
chord.
-/

namespace Songsmith

/-- Chord names to draw from, at least one. -/
structure Palette where
  names : List ChordName
  nonempty : names ≠ []

namespace Palette

/-- The palette of a list of chord names. -/
def ofNames (names : List Text) : Except Error Palette := do
  let names ← names.mapM ChordName.read
  if h : names = [] then .error (.malformed .emptyTable) else .ok ⟨names, h⟩

/-- The palette of a text, with commas between the names and blanks allowed around them. -/
def parse (text : Text) : Except Error Palette := ofNames ((text.splitOn ',').map Text.trim)

end Palette

end Songsmith
