import Songsmith.Error
import Songsmith.Text.Blank
import Songsmith.Text.Digit

/-!
# Integers as texts

An integer is written in decimal, and read from the decimal digits of any script, with a sign in
front, blanks around and single low lines between digits. Both directions stop at
`Integer.digitLimit` digits: a longer text is not read and a longer integer is not written.
-/

namespace Songsmith

/-! ## What integers and decimal numbers share -/

namespace Numeral

/-- The blanks that may stand around a number: all but the four separators `0x1c` to `0x1f`. -/
def isMargin (c : Char) : Bool :=
  Text.isBlankChar c && !(0x1c ≤ c.toNat && c.toNat ≤ 0x1f)

/-- The text without its margins, its digits written as those of the first 128 characters. -/
def plain (text : Text) : Text :=
  (Text.trimBy isMargin text).map fun c =>
    match Text.digitValue? c with
    | some d => Nat.digitChar d
    | none => c

/-- The text without the low lines that group its digits. Each must stand between two digits;
`afterDigit` says what precedes the text. -/
def ungrouped? (afterDigit : Bool) : Text → Option Text
  | [] => some []
  | '_' :: rest =>
    match rest with
    | c :: _ => if afterDigit && c.isDigit then ungrouped? false rest else none
    | [] => none
  | c :: rest => (ungrouped? c.isDigit rest).map (c :: ·)

/-- The sign in front of a number, and what follows it. -/
def splitSign : Text → Bool × Text
  | '-' :: rest => (true, rest)
  | '+' :: rest => (false, rest)
  | text => (false, text)

/-- The value of plain digits, the most significant first. -/
def value (digits : Text) : Nat :=
  digits.foldl (fun n c => 10 * n + (c.toNat - '0'.toNat)) 0

end Numeral

/-! ## Integers -/

namespace Integer

/-- The number of digits that an integer may be read from or written with. -/
def digitLimit : Nat := 4300

/-- Reads an integer. -/
def read (text : Text) : Except Error Int :=
  let (negative, body) := Numeral.splitSign (Numeral.plain text)
  let isPlace (c : Char) : Bool := c.isDigit || c == '_'
  match Numeral.ungrouped? false (body.takeWhile isPlace) with
  | none => .error (.invalid (.integerText text))
  | some digits =>
    if digits.length > digitLimit then .error (.invalid (.integerTextLength digits.length))
    else if digits.isEmpty || !(body.dropWhile isPlace).isEmpty then
      .error (.invalid (.integerText text))
    else
      let n : Int := Numeral.value digits
      .ok (if negative then -n else n)

/-- Reads an integer that is not negative. -/
def readNat (text : Text) : Except Error Nat := (read text).map Int.toNat

/-- The decimal digits of an integer, after a minus sign if it is negative. -/
def digits (n : Int) : Text :=
  if n < 0 then '-' :: Nat.toDigits 10 n.natAbs else Nat.toDigits 10 n.natAbs

/-- Writes an integer. -/
def write (n : Int) : Except Error Text :=
  if (Nat.toDigits 10 n.natAbs).length > digitLimit then .error (.invalid .integerLength)
  else .ok (digits n)

/-- A positive integer is a positive natural number. -/
theorem toNat_pos {n : Int} (h : 0 < n) : 0 < n.toNat := Int.pos_iff_toNat_pos.mp h

end Integer

end Songsmith
