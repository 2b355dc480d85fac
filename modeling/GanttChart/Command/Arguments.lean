/-
  The arguments of the command line.

  An argument that begins with a hyphen and goes on is an option, by a long name after two hyphens
  or by letters after one; any other is the input file.  The options `--width`, `--output` and
  `--today` take a value, after an equals sign or as the next argument, which then may not look
  like an option; the letters `w` and `o` may also have it directly behind them.  Letters without
  a value can be joined.  After a bare `--` nothing is an option.

  Nothing may be given twice, and the width has to be a numeral; whatever breaks a rule is refused
  as a whole.
-/
import GanttChart.Binary64.Bits

namespace GanttChart.Command

/-- What the arguments ask for, as far as they are read. -/
structure Arguments where
  input : Option String := none
  width : Option Binary64 := none
  output : Option String := none
  today : Option String := none
  plain : Bool := false
  verbose : Bool := false
  deriving DecidableEq

/-- The options with a value. -/
inductive Setting where
  | width
  | output
  | today
  deriving DecidableEq

/-- How reading the arguments ends. -/
inductive Reading where
  | request (arguments : Arguments)
  /-- Help or the version is asked for. -/
  | information
  /-- The arguments break a rule. -/
  | misuse
  deriving DecidableEq

/-- Where reading one argument leads. -/
inductive Step where
  | next (arguments : Arguments)
  /-- The value of an option has to follow. -/
  | value (setting : Setting) (arguments : Arguments)
  | information
  | misuse
  deriving DecidableEq

namespace Arguments

/-- One more argument, or misuse. -/
def next? (arguments : Option Arguments) : Step :=
  match arguments with
  | some arguments => .next arguments
  | none => .misuse

/-- The input file is set. -/
def withInput? (a : Arguments) (path : String) : Option Arguments :=
  if a.input.isSome then none else some { a with input := some path }

/-- An option is set to a value. -/
def withSetting? (a : Arguments) (setting : Setting) (value : List Char) : Option Arguments :=
  match setting with
  | .width =>
    if a.width.isSome then none
    else (Binary64.ofNumeral? value).map fun width => { a with width := some width }
  | .output =>
    if a.output.isSome then none else some { a with output := some (String.ofList value) }
  | .today => if a.today.isSome then none else some { a with today := some (String.ofList value) }

/-- The style sheet is left out. -/
def withPlain? (a : Arguments) : Option Arguments :=
  if a.plain then none else some { a with plain := true }

/-- Details are logged. -/
def withVerbose? (a : Arguments) : Option Arguments :=
  if a.verbose then none else some { a with verbose := true }

/-- The long option of a name, with the value after its equals sign. -/
def addLong (a : Arguments) (name : List Char) (value : Option (List Char)) : Step :=
  let setting (s : Setting) : Step :=
    match value with
    | some value => next? (a.withSetting? s value)
    | none => .value s a
  let flag (step : Step) : Step := if value.isSome then .misuse else step
  if name = "width".toList then setting .width
  else if name = "output".toList then setting .output
  else if name = "today".toList then setting .today
  else if name = "no-style".toList then flag (next? a.withPlain?)
  else if name = "verbose".toList then flag (next? a.withVerbose?)
  else if name = "help".toList ∨ name = "version".toList then flag .information
  else .misuse

/-- An option of one letter, with what stands directly behind it. -/
def addSetting (a : Arguments) (setting : Setting) : List Char → Step
  | [] => .value setting a
  | '=' :: value => next? (a.withSetting? setting value)
  | value => next? (a.withSetting? setting value)

/-- Options of one letter, joined. -/
def addLetters (a : Arguments) : List Char → Step
  | [] => .next a
  | c :: rest =>
    if c = 'w' then a.addSetting .width rest
    else if c = 'o' then a.addSetting .output rest
    else if c = 'v' then
      match a.withVerbose? with
      | some a => a.addLetters rest
      | none => .misuse
    else if c = 'h' ∨ c = 'V' then .information
    else .misuse

/-- One argument before a bare `--`. -/
def add (a : Arguments) (argument : String) : Step :=
  match argument.toList with
  | '-' :: '-' :: text =>
    match text.span fun c => c != '=' with
    | (name, []) => a.addLong name none
    | (name, _ :: value) => a.addLong name (some value)
  | '-' :: c :: text => a.addLetters (c :: text)
  | _ => next? (a.withInput? argument)

/-- An argument that is read as an option wherever it stands. -/
def looksLikeOption (argument : String) : Bool :=
  match argument.toList with
  | '-' :: _ :: _ => true
  | _ => false

/-- Arguments after a bare `--`. -/
def readInputs (a : Arguments) : List String → Reading
  | [] => .request a
  | path :: rest =>
    match a.withInput? path with
    | some a => a.readInputs rest
    | none => .misuse

/-- The arguments from one on. -/
def read (a : Arguments) : List String → Reading
  | [] => .request a
  | argument :: rest =>
    if argument = "--" then a.readInputs rest
    else
      match a.add argument with
      | .next a => a.read rest
      | .information => .information
      | .misuse => .misuse
      | .value setting a =>
        match rest with
        | [] => .misuse
        | value :: rest =>
          if looksLikeOption value then .misuse
          else
            match a.withSetting? setting value.toList with
            | some a => a.read rest
            | none => .misuse

example : read {} ["-vw", "5", "a", "--output=b"] =
    .request { input := some "a", width := some 5, output := some "b", verbose := true } := by
  decide +kernel

example : read {} ["-w", "-5"] = .misuse ∧ read {} ["a", "--", "b"] = .misuse := by decide +kernel

end Arguments

end GanttChart.Command
