/-!
# Texts

A text is the list of its characters, because every reader and every printer of this library is a
recursion on it. Texts are cut at a separator (`List.splitOn`) and put together with commas
(`Text.commaJoin`); a set of characters that has no simple description is a table of ranges
(`Text.inRanges`).
-/

namespace Songsmith

/-- A text is the list of its characters. -/
abbrev Text := List Char

namespace Text

/-- The characters of a string. -/
def ofString (s : String) : Text := s.toList

/-- The texts in order, with a comma between neighbours. -/
def commaJoin (parts : List Text) : Text := List.intercalate [','] parts

/-- The text from the first occurrence of `separator` on is cut off. -/
def upTo (separator : Char) (text : Text) : Text := text.takeWhile (· != separator)

/-- The code point of `c` lies in one of the ranges, both ends included. -/
def inRanges (ranges : List (Nat × Nat)) (c : Char) : Bool :=
  ranges.any fun (low, high) => low ≤ c.toNat && c.toNat ≤ high

end Text

end Songsmith
