import SchemaPlan.Command.Option

/-!
# Arguments of the command line

Reading options from a list of arguments, up to the first argument that is no option.

* `Given`: the options that were given, each at most once.
* `readOptions`: the options at the start of the arguments, and the arguments after them.

An option with a value is written `--name value` or `--name=value`; with a letter, `-n value`,
`-n=value` or `-nvalue`. A value after a blank does not start with a dash.
-/

namespace SchemaPlan

/-- The options that were given, with their values. -/
abbrev Given := List (CommandOption × String)

/-- The value given for an option. -/
def Given.value? (given : Given) (o : CommandOption) : Option String := given.lookup o

/-- The option is given. -/
def Given.has (given : Given) (o : CommandOption) : Bool := (given.value? o).isSome

/-- A question about the command itself, which is answered at once. -/
inductive Inquiry
  | help
  | version
  deriving DecidableEq, Repr

/-- Why arguments are not read to their end. -/
inductive Interruption
  | inquiry (q : Inquiry)
  | unknownOption (argument : String)
  | missingValue (o : CommandOption)
  | unwantedValue (o : CommandOption)
  | invalidValue (o : CommandOption) (value : String)
  | repeatedOption (o : CommandOption)
  | unexpectedArgument (argument : String)
  | missingCommand
  deriving DecidableEq, Repr

/-- The wording of what ends the reading of a command line. -/
def Interruption.message : Interruption → String
  | inquiry .help => "help was asked for"
  | inquiry .version => "the version was asked for"
  | unknownOption argument => "unexpected argument '" ++ argument ++ "'"
  | missingValue o => "a value is required for '--" ++ o.long ++ "'"
  | unwantedValue o => "unexpected value for '--" ++ o.long ++ "'"
  | invalidValue o value => "invalid value '" ++ value ++ "' for '--" ++ o.long ++ "'"
  | repeatedOption o => "the argument '--" ++ o.long ++ "' cannot be used multiple times"
  | unexpectedArgument argument => "unexpected argument '" ++ argument ++ "'"
  | missingCommand => "a command is required"

/-- What an argument looks like, before it is known which options there are. -/
inductive ArgumentShape
  /-- Two dashes alone: no options come after them. -/
  | endOfOptions
  | long (name : String) (value : Option String)
  /-- A dash and a letter with what is attached to it. -/
  | short (letter : Char) (attached : List Char)
  | word
  deriving DecidableEq, Repr

/-- The shape of an argument. A single dash is a word. -/
def ArgumentShape.of (argument : String) : ArgumentShape :=
  match argument.toList with
  | ['-', '-'] => .endOfOptions
  | '-' :: '-' :: rest =>
    let name := String.ofList (rest.takeWhile (· != '='))
    match rest.dropWhile (· != '=') with
    | [] => .long name none
    | _ :: value => .long name (some (String.ofList value))
  | '-' :: letter :: attached => .short letter attached
  | _ => .word

/-- The options of a place on the command line. -/
structure OptionSet where
  options : List CommandOption
  /-- The inquiry about the version may stand here. -/
  hasVersion : Bool

namespace OptionSet

/-- The inquiry a long option stands for. -/
def longInquiry? (s : OptionSet) (name : String) : Option Inquiry :=
  if name = "help" then some .help
  else if s.hasVersion && name == "version" then some .version
  else none

/-- The inquiry a letter stands for. -/
def shortInquiry? (s : OptionSet) (letter : Char) : Option Inquiry :=
  if letter = 'h' then some .help
  else if s.hasVersion && letter == 'V' then some .version
  else none

/-- The option of a set with a long name. -/
def ofLong? (s : OptionSet) (name : String) : Option CommandOption :=
  s.options.find? (·.long = name)

/-- The option of a set with a letter. -/
def ofShort? (s : OptionSet) (letter : Char) : Option CommandOption :=
  s.options.find? (·.short? = some letter)

end OptionSet

/-- One more option with its value. -/
def Given.record (given : Given) (o : CommandOption) (value : String) :
    Except Interruption Given :=
  if given.has o then .error (.repeatedOption o)
  else if o.accepts value then .ok (given ++ [(o, value)])
  else .error (.invalidValue o value)

/-- What an argument says about options. -/
inductive OptionArgument
  /-- An option whose value is the next argument. -/
  | awaiting (o : CommandOption)
  /-- An option with its value. -/
  | complete (o : CommandOption) (value : String)
  | endOfOptions
  | word

/-- What an argument says about options. -/
def OptionSet.classify (s : OptionSet) (argument : String) : Except Interruption OptionArgument :=
  let withValue (o : CommandOption) (value : Option String) :=
    match o.takesValue, value with
    | true, some value => .ok (.complete o value)
    | true, none => .ok (.awaiting o)
    | false, none => .ok (.complete o "")
    | false, some _ => .error (.unwantedValue o)
  match ArgumentShape.of argument with
  | .endOfOptions => .ok .endOfOptions
  | .word => .ok .word
  | .long name value =>
    match s.longInquiry? name, s.ofLong? name, value with
    | some q, _, none => .error (.inquiry q)
    | _, some o, value => withValue o value
    | _, none, _ => .error (.unknownOption argument)
  | .short letter attached =>
    match s.shortInquiry? letter, s.ofShort? letter, attached with
    | some q, _, _ => .error (.inquiry q)
    | none, some o, [] => withValue o none
    | none, some o, '=' :: value => withValue o (some (String.ofList value))
    | none, some o, value => withValue o (some (String.ofList value))
    | none, none, _ => .error (.unknownOption argument)

/-- The options at the start of the arguments, added to those given before, and the arguments from
the first one on that is no option. Nothing may come after the end of the options. -/
def readOptions (s : OptionSet) (given : Given) :
    List String → Except Interruption (Given × List String)
  | [] => .ok (given, [])
  | argument :: rest =>
    match s.classify argument with
    | .error e => .error e
    | .ok .word => .ok (given, argument :: rest)
    | .ok .endOfOptions =>
      match rest with
      | [] => .ok (given, [])
      | next :: _ => .error (.unexpectedArgument next)
    | .ok (.complete o value) => do readOptions s (← given.record o value) rest
    | .ok (.awaiting o) =>
      match rest with
      | [] => .error (.missingValue o)
      | value :: rest =>
        if ArgumentShape.of value = .word then do readOptions s (← given.record o value) rest
        else .error (.missingValue o)

end SchemaPlan
