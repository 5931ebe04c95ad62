import Songsmith.Text.Quoted

/-!
# Errors

Everything that can go wrong, as causes. The constructors of `Error` are the classes that a caller
tells apart: a text that does not follow its language, a reference to something that does not exist,
a search that found nothing, a value that is not allowed, missing or of another kind, and the
failures of arithmetic, of a look-up, of a walk over a timeline, of memory and of a file.
`Error.message` holds the wording of every cause.
-/

namespace Songsmith

/-- How a text fails to follow its language. -/
inductive Malformed where
  /-- No note letter, accidental and optional `m`, or a note that has another name. -/
  | chordName (text : Text)
  | blankChordPattern
  | emptyTable
  /-- Not of the form `<chord>/<beats>`. -/
  | chordToken (token : Text)
  | chordTokenLength (token : Text)
  /-- A backreference whose position is no numeral. -/
  | backreference (reference : Text)
  | tableReference (reference : Text)
  | chordLengthTooLarge (beats : Text)
  | chordLengthNotPositive (beats : Text)
  | entryLength (ticks : Text)
  | noEntries
  | blankPattern
  | token (token : Text)
  | tokenLength (token : Text)
  | tokenLengthNotPositive (token : Text)
  | velocity (maxVelocity : Int) (token : Text)
  | wildcard (value : Text) (token : Text)
  | trailingEscape (text : Text)
  | closingParenthesis (text : Text)
  | openParenthesis (text : Text)
  | repeatCount (text : Text)
  | misplacedParenthesis (item : Text)
  /-- A group key that is absent or not exactly one character long. -/
  | groupKey (key : Option Text)
  | emptyGroup (key : Text)
  | layoutToken (token : Text)
deriving Repr, DecidableEq

/-- A reference to something that does not exist, or a name that is given twice. -/
inductive Dangling where
  | wildcard (value : Text)
  | backreference (reference : Text) (position : Nat)
  | table (index : Nat)
  | exclusion (index : Nat) (reference : Text)
  | groupDefined (key : Text)
  | group (key : Text)
deriving Repr, DecidableEq

/-- The first place at which the columns of a timeline contradict each other. -/
inductive Flaw where
  | noChord (tick : Nat)
  | chordTicksNotPositive (tick : Nat)
  | chordTicksNotDecremented (tick : Nat)
  | sectionTicksNotPositive (tick : Nat)
  | sectionTicksNotDecremented (tick : Nat)
  | chordChanged (before after : Text) (tick : Nat)
  | chordNotChanged (tick : Nat)
  | chordOpenAtEnd
  | sectionOpenAtEnd
deriving Repr, DecidableEq

/-- A bounded search that found nothing, or a result that is not consistent. -/
inductive Unsatisfied where
  | chords (pattern : Text)
  | part (ticks group : Text)
  | variation (group token : Text)
  | frameTooLong
  | notRepeatable (ticks : Text) (patternTicks : Text)
  | crescendoTooShort
  | timeline (flaw : Flaw)
deriving Repr, DecidableEq

/-- A value outside the range that its use allows. -/
inductive Invalid where
  | songTicks
  | ticksPerBeat
  | maxVelocity
  | bars
  | noChordPatterns
  | columnLengths
  | noPatterns
  | partTicks
  | chordQuality (name : Text)
  | trackChannel (channel : Text)
  | engine (quotedName quotedTrack : String)
  | integerText (text : Text)
  /-- A text of more digits than an integer may be read from. -/
  | integerTextLength (digits : Nat)
  /-- An integer of more digits than may be written. -/
  | integerLength
  | notANumber
  /-- A message that the library for messages refuses, for the reason it gives. -/
  | refused (reason : String)
  /-- A path with a null character in it. -/
  | nullCharacter
deriving Repr, DecidableEq

/-- A number that does not fit where it has to go. -/
inductive Overflow where
  | repeatCount
  | infinity
  | integer
  | quotient
  | power
deriving Repr, DecidableEq

/-- How a walk over the ticks of a timeline fails. -/
inductive Astray where
  /-- It steps on a position that does not exist. -/
  | outside
  /-- It comes to a position a second time. -/
  | endless
deriving Repr, DecidableEq

/-- A bound of the machine that a computation runs into. -/
inductive Exhausted where
  /-- Groups are nested too deeply. -/
  | nesting
  /-- A list has more items than there is memory for. -/
  | memory
deriving Repr, DecidableEq

/-- A setting that was given without a value. -/
inductive Setting where
  | seed
  | output
  | tempo
deriving Repr, DecidableEq

/-- Why a path does not lead to a file. -/
inductive Inaccessible where
  | missing
  | notFolder
  | folder
  | nameTooLong
deriving Repr, DecidableEq

/-- Why an operation fails. -/
inductive Error where
  | malformed (cause : Malformed)
  | dangling (cause : Dangling)
  | unsatisfied (cause : Unsatisfied)
  | invalid (cause : Invalid)
  | overflow (cause : Overflow)
  /-- A division by zero, of integers or of reals. -/
  | divisionByZero (real : Bool)
  | missingKey (key : Text)
  /-- The value of a key is not of a kind that its use takes, or what is asked for the key has no
  keys. -/
  | mistyped (key : Text)
  /-- The characters of a name from `first` to `last` have no single-byte code. -/
  | unencodable (character : Char) (first last : Nat)
  | astray (cause : Astray)
  | exhausted (cause : Exhausted)
  /-- The value of a setting is needed, and the setting has none. -/
  | missingValue (setting : Setting)
  | inaccessible (cause : Inaccessible) (path : Text)
deriving Repr, DecidableEq

/-- The wording: what was expected, and the text that is at fault. -/
def Malformed.message : Malformed → String
  | chordName text => s!"Invalid chord name: {text.quoted}"
  | blankChordPattern => "Chord pattern is empty"
  | emptyTable => "Chord random table is empty"
  | chordToken text =>
    s!"Invalid chord pattern token {text.quoted}, expected <chord>/<beats>"
  | chordTokenLength text => s!"Invalid length in chord pattern token {text.quoted}"
  | backreference reference => s!"Invalid reference {reference.quoted}"
  | tableReference reference => s!"Invalid chord reference {reference.quoted}"
  | chordLengthTooLarge beats => s!"Chord length {beats.quoted} beats is too long"
  | chordLengthNotPositive beats => s!"Chord length must be positive, got {beats.quoted} beats"
  | entryLength ticks => s!"Pattern entry length must be positive, got {String.ofList ticks}"
  | noEntries => "A pattern needs at least one entry"
  | blankPattern => "Pattern string is empty"
  | token text => s!"Invalid pattern token {text.quoted}"
  | tokenLength text => s!"Invalid length in pattern token {text.quoted}"
  | tokenLengthNotPositive text => s!"Length must be positive in pattern token {text.quoted}"
  | velocity maxVelocity text =>
    s!"Velocity must be between 0 and {maxVelocity} in pattern token {text.quoted}"
  | wildcard value text => s!"Unknown wildcard {value.quoted} in pattern token {text.quoted}"
  | trailingEscape text => s!"Illegal trailing escape character in {text.quoted}"
  | closingParenthesis text => s!"Unexpected closing parenthesis in {text.quoted}"
  | openParenthesis text => s!"Missing closing parenthesis in {text.quoted}"
  | repeatCount text => s!"Repeat count must be positive in {text.quoted}"
  | misplacedParenthesis item => s!"Misplaced parenthesis in {item.quoted}"
  | groupKey (some key) => s!"Group key must be exactly one character, got {key.quoted}"
  | groupKey none => "Group key must be exactly one character, got None"
  | emptyGroup key => s!"Fragments for group {key.quoted} are empty"
  | layoutToken text =>
    s!"Pattern part {text.quoted} is invalid, expected a group character and a digit"

/-- The wording: what is referred to, and by which text. -/
def Dangling.message : Dangling → String
  | wildcard value => s!"No pitch given for wildcard {value.quoted}"
  | backreference reference position =>
    s!"Invalid backreference {reference.quoted} at position {position}"
  | table index => s!"Random chord table {index} does not exist"
  | exclusion index reference => s!"Invalid exclusion position {index} in {reference.quoted}"
  | groupDefined key => s!"Fragments for group {key.quoted} defined more than once"
  | group key => s!"Fragments for group {key.quoted} not found"

/-- The wording: the rule that is broken, and the tick at which it is. -/
def Flaw.message : Flaw → String
  | noChord tick => s!"No chord at tick {tick}"
  | chordTicksNotPositive tick => s!"Chord ticks <= 0 at tick {tick}"
  | chordTicksNotDecremented tick => s!"Chord ticks not decremented at tick {tick}"
  | sectionTicksNotPositive tick => s!"Chord section ticks <= 0 at tick {tick}"
  | sectionTicksNotDecremented tick => s!"Chord section ticks not decremented at tick {tick}"
  | chordChanged before after tick =>
    s!"Chord changes unexpectedly from {String.ofList before} to {String.ofList after} " ++
      s!"at tick {tick}"
  | chordNotChanged tick => s!"Chord was not changed at tick {tick}"
  | chordOpenAtEnd => "Chord ticks is not 1 at the last tick"
  | sectionOpenAtEnd => "Chord section ticks is not 1 at the last tick"

/-- The wording: what could not be made. -/
def Unsatisfied.message : Unsatisfied → String
  | chords pattern => s!"Could not resolve random chords of pattern {pattern.quoted}"
  | part ticks group =>
    s!"Could not fill {String.ofList ticks} ticks from the fragments of group {group.quoted}"
  | variation group token =>
    s!"Could not create an unused variation of group {group.quoted} for {String.ofList token}"
  | frameTooLong => "Prefix and suffix patterns are longer than the pattern ticks"
  | notRepeatable ticks patternTicks =>
    s!"{String.ofList ticks} ticks are not a multiple of " ++
      s!"the {String.ofList patternTicks}-tick pattern"
  | crescendoTooShort => "The shaped pattern must be at least 2 ticks long"
  | timeline flaw => flaw.message

/-- The wording: the range that the value has to be in. -/
def Invalid.message : Invalid → String
  | songTicks => "Song ticks must be positive"
  | ticksPerBeat => "Ticks per beat must be positive"
  | maxVelocity => "Maximum velocity must be positive"
  | bars => "Bars and beats per bar must be positive"
  | noChordPatterns => "PatternHarmonyEngine requires at least one chord pattern"
  | columnLengths => "Harmony arrays must have the same length"
  | noPatterns => "StringPatternEngine requires at least one pattern string"
  | partTicks => "Pattern ticks must be positive"
  | chordQuality name => s!"Unknown chord quality: {String.ofList name}"
  | trackChannel channel =>
    s!"MIDI channel must be between 0 and 15, got {String.ofList channel}"
  | engine quotedName quotedTrack =>
    s!"Unknown pattern engine {quotedName} for track {quotedTrack}"
  | integerText text => s!"invalid literal for int() with base 10: {text.quotedUpTo 200}"
  | integerTextLength digits =>
    s!"Exceeds the limit (4300 digits) for integer string conversion: value has {digits} " ++
      "digits; use sys.set_int_max_str_digits() to increase the limit"
  | integerLength =>
    "Exceeds the limit (4300 digits) for integer string conversion; " ++
      "use sys.set_int_max_str_digits() to increase the limit"
  | notANumber => "cannot convert float NaN to integer"
  | refused reason => reason
  | nullCharacter => "embedded null byte"

/-- The wording: what the number did not fit into. -/
def Overflow.message : Overflow → String
  | repeatCount => "cannot fit 'int' into an index-sized integer"
  | infinity => "cannot convert float infinity to integer"
  | integer => "int too large to convert to float"
  | quotient => "integer division result too large for a float"
  | power => "(34, 'Numerical result out of range')"

/-- The wording: what the walk ran into. -/
def Astray.message : Astray → String
  | outside => "tuple index out of range"
  | endless => "walk does not end"

/-- The wording: the bound, if there is anything to say about it. -/
def Exhausted.message : Exhausted → String
  | nesting => "maximum recursion depth exceeded while calling a Python object"
  | memory => ""

/-- The wording: what takes the value does not take the empty list that stands for none. -/
def Setting.message : Setting → String
  | seed => "The only supported seed types are: None,\nint, float, str, bytes, and bytearray."
  | output => "expected str, bytes or os.PathLike object, not list"
  | tempo => "unsupported operand type(s) for /: 'float' and 'list'"

/-- The wording: the number of the system's error and what it means. -/
def Inaccessible.message : Inaccessible → String
  | missing => "[Errno 2] No such file or directory"
  | notFolder => "[Errno 20] Not a directory"
  | folder => "[Errno 21] Is a directory"
  | nameTooLong => "[Errno 36] File name too long"

/-- The wording of an error. -/
def Error.message : Error → String
  | malformed cause => cause.message
  | dangling cause => cause.message
  | unsatisfied cause => cause.message
  | invalid cause => cause.message
  | overflow cause => cause.message
  | divisionByZero false => "division by zero"
  | divisionByZero true => "float division by zero"
  | missingKey key => key.quoted
  | mistyped key => s!"The value of {key.quoted} is not of the kind that is expected"
  | unencodable character first last =>
    if first = last then
      s!"'latin-1' codec can't encode character " ++
        s!"'{String.ofList (Text.escapeCodePoint character)}' in position {first}: " ++
        "ordinal not in range(256)"
    else
      s!"'latin-1' codec can't encode characters in position {first}-{last}: " ++
        "ordinal not in range(256)"
  | astray cause => cause.message
  | exhausted cause => cause.message
  | missingValue setting => setting.message
  | inaccessible cause path => s!"{cause.message}: {path.quoted}"

end Songsmith
