import Songsmith.Text.Basic

/-!
# Blanks

The characters that count as space between words, and trimming them from both ends of a text.
A text is blank when nothing but such characters is in it, which is when trimming leaves nothing.
-/

namespace Songsmith.Text

/-- The blank characters outside the first 128: next line, no-break space, the spaces of fixed
width, and the line and paragraph separators. -/
def wideBlanks : List (Nat × Nat) := [
  (0x85, 0x85), (0xa0, 0xa0), (0x1680, 0x1680), (0x2000, 0x200a), (0x2028, 0x2029),
  (0x202f, 0x202f), (0x205f, 0x205f), (0x3000, 0x3000)]

/-- Space, tab, the line breaks, the four separators `0x1c` to `0x1f`, and the wide blanks. -/
def isBlankChar (c : Char) : Bool :=
  if c.toNat < 0x80 then
    c = ' ' || (9 ≤ c.toNat && c.toNat ≤ 13) || (0x1c ≤ c.toNat && c.toNat ≤ 0x1f)
  else inRanges wideBlanks c

/-- Every character is blank. -/
def isBlank (text : Text) : Bool := text.all isBlankChar

/-- The text without the characters at its end that satisfy `p`. -/
def dropEndWhile (p : Char → Bool) (text : Text) : Text := (text.reverse.dropWhile p).reverse

/-- The text without the characters at both ends that satisfy `p`. -/
def trimBy (p : Char → Bool) (text : Text) : Text := dropEndWhile p (text.dropWhile p)

/-- The text without the blanks at both ends. -/
def trim (text : Text) : Text := trimBy isBlankChar text

end Songsmith.Text
