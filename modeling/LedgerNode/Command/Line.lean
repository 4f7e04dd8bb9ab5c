namespace LedgerNode

/-!
# Command lines

A command line is a list of words.  Words that begin with a dash name options,
the others stand for themselves.  An option has a value or it has none; the
value follows as the next word, or in the same word behind an equals sign.
After a word of two dashes every word stands for itself.

A value is looked at only when the next option or word has been recognised, so
a word that means nothing is reported before a bad value in front of it.
-/

/-- Why a command line is not carried out. -/
inductive LineFault where
  | invalidValue
  | unknownArgument
  | invalidSubcommand
  | missingSubcommand
  | valueValidation
  | tooManyValues
  | missingRequiredArgument
  | argumentConflict
  | displayHelp
  | displayHelpOnMissingArgumentOrSubcommand
deriving DecidableEq

namespace LineFault

def name : LineFault → String
  | invalidValue => "InvalidValue"
  | unknownArgument => "UnknownArgument"
  | invalidSubcommand => "InvalidSubcommand"
  | missingSubcommand => "MissingSubcommand"
  | valueValidation => "ValueValidation"
  | tooManyValues => "TooManyValues"
  | missingRequiredArgument => "MissingRequiredArgument"
  | argumentConflict => "ArgumentConflict"
  | displayHelp => "DisplayHelp"
  | displayHelpOnMissingArgumentOrSubcommand => "DisplayHelpOnMissingArgumentOrSubcommand"

/-- One sentence about the fault. -/
def message : LineFault → String
  | invalidValue => "an option lacks its value"
  | unknownArgument => "an argument is unknown"
  | invalidSubcommand => "the command is unknown"
  | missingSubcommand => "a command is missing"
  | valueValidation => "a value is not of the form that is asked for"
  | tooManyValues => "an option has a value that takes none"
  | missingRequiredArgument => "an argument is missing"
  | argumentConflict => "an option is given twice"
  | displayHelp => "help is asked for"
  | displayHelpOnMissingArgumentOrSubcommand => "there is no command"

/-- Whether it was help that was asked for. -/
def asksForHelp (fault : LineFault) : Bool := fault == .displayHelp

end LineFault

/-- What a command line can give a value to: an option, or a word in its
turn. -/
structure Parameter where
  name : String
  /-- The letter that stands for the option after a single dash. -/
  letter : Option Char
  takesValue : Bool
  /-- Why a value is refused; nothing if it is not. -/
  refusal : String → Option LineFault

/-- What may be on a command line, or on the part of it that belongs to one
command. -/
structure LineForm where
  options : List Parameter
  /-- What the words that stand for themselves give values to, in turn. -/
  words : List Parameter
  /-- The names of the commands that may follow. -/
  commands : List String

/-- What was given so far. -/
structure LineReading where
  /-- The values by the names of their parameters.  An option without a value
  has an empty one. -/
  given : List (String × String)
  /-- What comes next is looked at together with the latest parameter. -/
  pending : Option (Parameter × Option String)
  /-- How many words stood for themselves. -/
  words : Nat
  onlyWords : Bool

/-- A part of a command line that was read, and the command that follows with
its own part. -/
abbrev LinePart := LineReading × Option (String × List String)

namespace LineReading

def start : LineReading := ⟨[], none, 0, false⟩

def value? (reading : LineReading) (name : String) : Option String := reading.given.lookup name

/-- Whether an option was given. -/
def has (reading : LineReading) (name : String) : Bool := (reading.value? name).isSome

/-- Give a value to a parameter that has none yet. -/
def give (reading : LineReading) (parameter : Parameter) (value : String) :
    Except LineFault LineReading :=
  if reading.has parameter.name then .error .argumentConflict
  else match parameter.refusal value with
    | some fault => .error fault
    | none => .ok { reading with given := reading.given ++ [(parameter.name, value)] }

/-- Look at the pending value. -/
def settle (reading : LineReading) : Except LineFault LineReading :=
  match reading.pending with
  | none => .ok reading
  | some (_, none) => .error .invalidValue
  | some (parameter, some value) => { reading with pending := none }.give parameter value

/-- Whether an option waits for its value. -/
def awaitsValue (reading : LineReading) : Bool :=
  match reading.pending with
  | some (_, none) => true
  | _ => false

/-- Take an option with the value that is in the same word, if there is
one. -/
def option (reading : LineReading) (parameter : Parameter) (value : Option String) :
    Except LineFault LineReading :=
  match parameter.takesValue, value with
  | true, some value => do (← reading.settle).give parameter value
  | true, none => do .ok { ← reading.settle with pending := some (parameter, none) }
  | false, some _ => .error .tooManyValues
  | false, none => do (← reading.settle).give parameter ""

def help (reading : LineReading) : Except LineFault LineReading := do
  let _ ← reading.settle
  .error .displayHelp

def longOption (form : LineForm) (reading : LineReading) (word : List Char) :
    Except LineFault LineReading :=
  let name := String.ofList (word.takeWhile (· != '='))
  let value :=
    match word.dropWhile (· != '=') with
    | _ :: value => some (String.ofList value)
    | [] => none
  if name = "help" then
    if value.isSome then .error .tooManyValues else reading.help
  else match form.options.find? (·.name == name) with
    | some parameter => reading.option parameter value
    | none => .error .unknownArgument

/-- Take options by their letters.  The first one that takes a value has what
is left of the word as its value. -/
def shortOptions (form : LineForm) : LineReading → List Char → Except LineFault LineReading
  | reading, [] => .ok reading
  | reading, letter :: rest =>
    if letter = 'h' then reading.help
    else match form.options.find? (·.letter == some letter) with
      | none => .error .unknownArgument
      | some parameter =>
        if parameter.takesValue then
          let value := match rest with
            | [] => none
            | '=' :: value => some (String.ofList value)
            | value => some (String.ofList value)
          reading.option parameter value
        else do shortOptions form (← reading.option parameter none) rest

/-- Take a word that stands for itself. -/
def word (form : LineForm) (reading : LineReading) (text : String) :
    Except LineFault LineReading :=
  match form.words[reading.words]? with
  | some parameter => do
    let reading ← reading.settle
    .ok { reading with
      words := reading.words + 1
      pending := some (parameter, some text) }
  | none =>
    if form.commands.isEmpty ∨ reading.onlyWords ∧ text ∈ form.commands then
      .error .unknownArgument
    else .error .invalidSubcommand

/-- Take one word of a command line. -/
def next (form : LineForm) (reading : LineReading) (text : String) :
    Except LineFault LineReading :=
  if reading.onlyWords then reading.word form text
  else match text.toList with
    | ['-', '-'] => .ok { reading with onlyWords := true }
    | '-' :: '-' :: name => reading.longOption form name
    | '-' :: letter :: letters => reading.shortOptions form (letter :: letters)
    | _ =>
      match reading.pending with
      | some (parameter, none) =>
        .ok { reading with pending := some (parameter, some text) }
      | _ => reading.word form text

/-- Read a command line up to its end or to the name of a command. -/
def read (form : LineForm) : LineReading → List String → Except LineFault LinePart
  | reading, [] => .ok (reading, none)
  | reading, text :: rest =>
    if !reading.onlyWords ∧ !reading.awaitsValue ∧ text ∈ form.commands then
      .ok (reading, some (text, rest))
    else do read form (← reading.next form text) rest

end LineReading

end LedgerNode
