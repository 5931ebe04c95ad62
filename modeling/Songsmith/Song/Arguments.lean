import Songsmith.Number.Real

/-!
# Arguments

The program takes the path of a song document and options. An option may be shortened as long as it
is the only one that begins like that, takes its value from the same argument behind an equals sign
or from the next one, and may be repeated, the last one being the one that holds. Behind two hyphens
nothing is an option any more; attached to an option they leave it without a value. Arguments are
classified first (`Argument`), and then the actions of those that are understood are taken from left
to right.
-/

namespace Songsmith

/-- What the arguments settle. An option that is given without a value settles nothing. -/
structure Options where
  config : Text := []
  seed : Option Int := some 0
  output : Option Text := some "song.mid".toList
  bpm : Option Number := some (.integer 120)
  verbose : Bool := false

/-- What the arguments ask for. -/
inductive Request where
  | render (options : Options)
  | help
  /-- The arguments are not understood. -/
  | usage

/-- The options. -/
inductive OptionName where
  | help
  | seed
  | output
  | bpm
  | verbose
deriving Repr, DecidableEq

namespace OptionName

/-- The long form of an option, without the two hyphens. -/
def word : OptionName → Text
  | help => "help".toList
  | seed => "seed".toList
  | output => "output".toList
  | bpm => "bpm".toList
  | verbose => "verbose".toList

/-- All options. -/
def all : List OptionName := [help, seed, output, bpm, verbose]

/-- The options whose long form begins with a text. -/
def startingWith (start : Text) : List OptionName := all.filter fun o => start.isPrefixOf o.word

end OptionName

/-- An argument by the part that it plays. -/
inductive Argument where
  | value (text : Text)
  /-- An option, with the value that is attached to it. -/
  | option (name : OptionName) (attached : Option Text)
  /-- The short form of the help option, with what is attached to it. -/
  | shortHelp (attached : Text)
  | unknownOption
  | ambiguousOption
  /-- Two hyphens: all that follows is a value. -/
  | separator
deriving Repr, DecidableEq

namespace Argument

/-- A text cut at its first equals sign, if it has one. -/
def splitEquals (text : Text) : Text × Option Text :=
  match text.dropWhile (· != '=') with
  | [] => (text, none)
  | _ :: rest => (text.takeWhile (· != '='), some rest)

/-- A negative number, which counts as a value. -/
def isNegativeNumber (text : Text) : Bool :=
  let body := if text.getLast? = some '\n' then text.dropLast else text
  match body with
  | '-' :: rest =>
    match rest.dropWhile Text.isDecimalDigit with
    | [] => !rest.isEmpty
    | '.' :: fraction => !fraction.isEmpty && fraction.all Text.isDecimalDigit
    | _ => false
  | _ => false

/-- What looks like an option and is none: a value if it is a negative number or holds a space. -/
def other (text : Text) : Argument :=
  if isNegativeNumber text || text.contains ' ' then value text else unknownOption

/-- An argument that begins with two hyphens, `body` being what follows them. -/
def ofLong (text body : Text) : Argument :=
  let (word, attached) := splitEquals body
  match OptionName.startingWith word with
  | [] => other text
  | [name] => option name attached
  | _ => ambiguousOption

/-- Classifies an argument in front of which no separator stands. -/
def ofText : Text → Argument
  | ['-', '-'] => separator
  | '-' :: '-' :: body => ofLong ('-' :: '-' :: body) body
  | '-' :: 'h' :: rest => shortHelp rest
  | ['-'] => value ['-']
  | '-' :: rest => other ('-' :: rest)
  | text => value text

/-- Classifies arguments. -/
def classify : List Text → List Argument
  | [] => []
  | text :: rest =>
    match ofText text with
    | separator => separator :: rest.map value
    | a => a :: classify rest

end Argument

namespace Options

/-- Takes the value of an option, if the option has one and the value can be read. -/
def set? (o : Options) (name : OptionName) (value : Text) : Option Options :=
  match name with
  | .help | .verbose => none
  | .output => some { o with output := some value }
  | .seed => (Integer.read value).toOption.map fun seed => { o with seed := some seed }
  | .bpm => (RealText.readFloat? value).map fun bpm => { o with bpm := some (.real bpm) }

/-- Leaves an option without a value, if it is one that has a value. -/
def unset? (o : Options) : OptionName → Option Options
  | .help | .verbose => none
  | .output => some { o with output := none }
  | .seed => some { o with seed := none }
  | .bpm => some { o with bpm := none }

/-- Takes what is attached to an option. -/
def attach? (o : Options) (name : OptionName) (attached : Text) : Option Options :=
  if attached = ['-', '-'] then o.unset? name else o.set? name attached

end Options

/-- What the arguments so far have settled. -/
structure Progress where
  options : Options := {}
  /-- The path of the document is known. -/
  configured : Bool := false
  /-- The argument just taken was the path of the document. -/
  afterConfig : Bool := false
  /-- There was an argument that nothing is known about. -/
  surplus : Bool := false

namespace Progress

/-- Takes a value that belongs to no option: the first one is the path of the document. -/
def takeValue (p : Progress) (text : Text) : Progress :=
  if p.configured then { p with surplus := true, afterConfig := false }
  else { p with options := { p.options with config := text }, configured := true,
                afterConfig := true }

/-- Takes the separator, which may only stand next to the path of the document. -/
def takeSeparator (p : Progress) (isLast : Bool) : Progress :=
  { p with
    surplus := p.surplus || (if p.configured then !p.afterConfig else isLast)
    afterConfig := false }

/-- Takes an option that was understood. -/
def takeOption (p : Progress) (options : Options) : Progress :=
  { p with options := options, afterConfig := false }

/-- What is asked for when all arguments are taken. -/
def request (p : Progress) : Request :=
  if p.configured && !p.surplus then .render p.options else .usage

/-- To the short help option the same option may be attached again, behind an equals sign or not,
and nothing else. -/
def helpRequest (attached : Text) : Request :=
  let letters : Text :=
    match attached with
    | '=' :: c :: rest => c :: rest
    | other => other
  if letters.all (· == 'h') then .help else .usage

/-- Takes the actions of arguments from left to right. -/
def take : Progress → List Argument → Request
  | p, [] => p.request
  | p, .value text :: rest => take (p.takeValue text) rest
  | p, .separator :: rest => take (p.takeSeparator rest.isEmpty) rest
  | p, .unknownOption :: rest => take { p with surplus := true, afterConfig := false } rest
  | _, .ambiguousOption :: _ => .usage
  | _, .shortHelp attached :: _ => helpRequest attached
  | _, .option .help none :: _ => .help
  | p, .option .verbose none :: rest =>
    take (p.takeOption { p.options with verbose := true }) rest
  | p, .option name (some text) :: rest =>
    match p.options.attach? name text with
    | some options => take (p.takeOption options) rest
    | none => .usage
  | p, .option name none :: .value text :: rest =>
    match p.options.set? name text with
    | some options => take (p.takeOption options) rest
    | none => .usage
  | _, .option _ none :: _ => .usage

end Progress

/-- What a list of arguments asks for. An ambiguous option is found before any action is taken. -/
def Request.ofArguments (arguments : List Text) : Request :=
  let classified := Argument.classify arguments
  if classified.contains .ambiguousOption then .usage else Progress.take {} classified

end Songsmith
