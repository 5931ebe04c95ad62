import Songsmith.Document.Basic

/-!
# Reading documents

The text form of documents is JSON. A number with a point or a power of ten is real, and any other
one is an integer. Of two entries of a mapping with the same key the later value holds, in the place
of the earlier one. Every function hands on what follows the part that it has read.
-/

namespace Songsmith.Document.Reader

/-- The blanks between the parts of a document. -/
def isSpace (c : Char) : Bool := c = ' ' || c = '\t' || c = '\n' || c = '\r'

/-- The text behind its leading blanks. -/
def skipSpace (text : Text) : Text := text.dropWhile isSpace

/-- The value of a hexadecimal digit. -/
def hexValue? (c : Char) : Option Nat :=
  if c.isDigit then some (c.toNat - '0'.toNat)
  else if 'a' ≤ c ∧ c ≤ 'f' then some (c.toNat - 'a'.toNat + 10)
  else if 'A' ≤ c ∧ c ≤ 'F' then some (c.toNat - 'A'.toNat + 10)
  else none

/-- The code unit of four hexadecimal digits. -/
def codeUnit? (a b c d : Char) : Option Nat := do
  some (4096 * (← hexValue? a) + 256 * (← hexValue? b) + 16 * (← hexValue? c) + (← hexValue? d))

/-- What stands for half of a pair whose other half is missing. -/
def replacement : Char := Char.ofNat 0xfffd

/-- The character of a code unit, after the first half of a pair if there is one, in front of the
characters read so far; and the half that is now waiting for the other. -/
def addUnit (half : Option Nat) (unit : Nat) (done : Text) : Option Nat × Text :=
  let isFirst := 0xd800 ≤ unit && unit ≤ 0xdbff
  let isSecond := 0xdc00 ≤ unit && unit ≤ 0xdfff
  match half with
  | some first =>
    if isSecond then
      (none, Char.ofNat (0x10000 + (first - 0xd800) * 0x400 + (unit - 0xdc00)) :: done)
    else if isFirst then (some unit, replacement :: done)
    else (none, Char.ofNat unit :: replacement :: done)
  | none =>
    if isFirst then (some unit, done)
    else if isSecond then (none, replacement :: done)
    else (none, Char.ofNat unit :: done)

/-- The characters read so far, with a half that waits in vain replaced. -/
def settle (half : Option Nat) (done : Text) : Text :=
  match half with
  | some _ => replacement :: done
  | none => done

/-- The character that an escape of one letter stands for. -/
def escaped? : Char → Option Char
  | '"' => some '"'
  | '\\' => some '\\'
  | '/' => some '/'
  | 'b' => some '\x08'
  | 'f' => some '\x0c'
  | 'n' => some '\n'
  | 'r' => some '\r'
  | 't' => some '\t'
  | _ => none

/-- The rest of a text up to its closing quote. -/
def readText? (half : Option Nat) (done : Text) : Text → Option (Text × Text)
  | [] => none
  | '"' :: rest => some ((settle half done).reverse, rest)
  | '\\' :: 'u' :: a :: b :: c :: d :: rest =>
    match codeUnit? a b c d with
    | some unit => readText? (addUnit half unit done).1 (addUnit half unit done).2 rest
    | none => none
  | '\\' :: c :: rest =>
    match escaped? c with
    | some e => readText? none (e :: settle half done) rest
    | none => none
  | c :: rest => readText? none (c :: settle half done) rest

/-- A number: an integer unless it has a point or a power of ten. -/
def readNumber? (text : Text) : Option (Document × Text) :=
  let isPart (c : Char) : Bool :=
    c.isDigit || c == '-' || c == '+' || c == '.' || c == 'e' || c == 'E'
  let (negative, body) : Bool × Text :=
    match text.takeWhile isPart with
    | '-' :: body => (true, body)
    | body => (false, body)
  let rest := text.dropWhile isPart
  if !body.isEmpty && body.all Char.isDigit then
    let n : Int := Numeral.value body
    some (integer (if negative then -n else n), rest)
  else (Decimal.readUnsigned? negative body).map fun d => (real d, rest)

/-- A constant. -/
def readWord? (text : Text) : Option (Document × Text) :=
  let rest := text.dropWhile Char.isAlpha
  match String.ofList (text.takeWhile Char.isAlpha) with
  | "null" => some (null, rest)
  | "true" => some (boolean true, rest)
  | "false" => some (boolean false, rest)
  | _ => none

/-- Puts an entry behind others, or in the place of the one with the same key. -/
def insert (entries : List (Text × Document)) (key : Text) (value : Document) :
    List (Text × Document) :=
  if entries.any (·.1 == key) then
    entries.map fun entry => if entry.1 == key then (key, value) else entry
  else entries ++ [(key, value)]

mutual

/-- A value, after blanks. Each step takes one unit of `fuel`, of which the length of the text is
enough. -/
def readValue? (fuel : Nat) (text : Text) : Option (Document × Text) :=
  match fuel with
  | 0 => none
  | fuel + 1 =>
    match skipSpace text with
    | [] => none
    | '"' :: rest => (readText? none [] rest).map fun (t, rest) => (.text t, rest)
    | '[' :: rest =>
      match skipSpace rest with
      | ']' :: rest => some (list [], rest)
      | rest => readItems? fuel [] rest
    | '\x7b' :: rest =>
      match skipSpace rest with
      | '\x7d' :: rest => some (mapping [], rest)
      | rest => readEntries? fuel [] rest
    | c :: rest => if c.isAlpha then readWord? (c :: rest) else readNumber? (c :: rest)

/-- The items of a list up to its closing bracket, after those in `done`, the last one first. -/
def readItems? (fuel : Nat) (done : List Document) (text : Text) : Option (Document × Text) :=
  match fuel with
  | 0 => none
  | fuel + 1 =>
    match readValue? fuel text with
    | none => none
    | some (item, rest) =>
      match skipSpace rest with
      | ',' :: rest => readItems? fuel (item :: done) rest
      | ']' :: rest => some (list (item :: done).reverse, rest)
      | _ => none

/-- The entries of a mapping up to its closing brace, after those in `done`. -/
def readEntries? (fuel : Nat) (done : List (Text × Document)) (text : Text) :
    Option (Document × Text) :=
  match fuel with
  | 0 => none
  | fuel + 1 =>
    match skipSpace text with
    | '"' :: rest =>
      match readText? none [] rest with
      | none => none
      | some (key, rest) =>
        match skipSpace rest with
        | ':' :: rest =>
          match readValue? fuel rest with
          | none => none
          | some (value, rest) =>
            match skipSpace rest with
            | ',' :: rest => readEntries? fuel (insert done key value) rest
            | '\x7d' :: rest => some (mapping (insert done key value), rest)
            | _ => none
        | _ => none
    | _ => none

end

end Reader

/-- Reads a document. A blank text is read as null. -/
def read? (text : Text) : Option Document :=
  if (Reader.skipSpace text).isEmpty then some null
  else
    match Reader.readValue? (2 * text.length + 2) text with
    | some (d, rest) => if (Reader.skipSpace rest).isEmpty then some d else none
    | none => none

end Songsmith.Document
