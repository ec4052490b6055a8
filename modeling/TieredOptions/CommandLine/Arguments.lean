/-
The arguments of the command line. They are read from the left, and the first fault, or the first request for help or
for the version, settles what they ask for.

An option is written `--name value` or `--name=value`; those with a letter also `-l value`, `-lvalue` or `-l=value`. A
value that stands in an argument of its own does not begin with a hyphen, unless it is a lone one. After `--` nothing
may follow, since no command takes operands.
-/

namespace TieredOptions.CommandLine

inductive Verb where
  | explain
  | verify
  deriving DecidableEq, Repr

def Verb.name : Verb → String
  | explain => "explain"
  | verify => "verify"

def Verb.ofName? (name : String) : Option Verb :=
  if name = "explain" then some .explain else if name = "verify" then some .verify else none

inductive Setting where
  | config
  | assign
  | sect
  | output
  | json
  | help
  deriving DecidableEq, Repr

namespace Setting

def name : Setting → String
  | config => "config"
  | assign => "set"
  | sect => "section"
  | output => "output"
  | json => "json"
  | help => "help"

/-- the letter of an option that has one -/
def letter? : Setting → Option Char
  | config => some 'c'
  | output => some 'o'
  | help => some 'h'
  | _ => none

/-- does the option stand with a value? -/
def hasValue : Setting → Bool
  | json | help => false
  | _ => true

def all : Verb → List Setting
  | .explain => [config, assign, sect, json, output, help]
  | .verify => [config, assign, sect, help]

end Setting

/-- why arguments are refused -/
inductive UsageError where
  | noCommand
  | unknownCommand (name : String)
  | unexpected (argument : String)
  | missingValue (setting : Setting)
  | needlessValue (setting : Setting)
  | repeated (setting : Setting)
  deriving DecidableEq, Repr

def UsageError.message : UsageError → String
  | noCommand => "a command is required: explain or verify"
  | unknownCommand name => "unrecognized command `" ++ name ++ "`"
  | unexpected argument => "unexpected argument `" ++ argument ++ "`"
  | missingValue s => "a value is required for `--" ++ s.name ++ "`"
  | needlessValue s => "`--" ++ s.name ++ "` takes no value"
  | repeated s => "`--" ++ s.name ++ "` cannot be used more than once"

/-- what the options of a command say -/
structure Settings where
  files : List String
  assignments : List String
  sect : Option String
  json : Bool
  output : Option String
  deriving DecidableEq, Repr

/-- what holds without any option -/
def Settings.initial : Settings := ⟨[], [], none, false, none⟩

/-- Carry out an option. Paths are not empty; only files and assignments add up. -/
def Settings.put (s : Settings) (value : String) : Setting → Except UsageError Settings
  | .config => if value = "" then .error (.missingValue .config) else .ok { s with files := s.files ++ [value] }
  | .assign => .ok { s with assignments := s.assignments ++ [value] }
  | .sect => if s.sect.isSome then .error (.repeated .sect) else .ok { s with sect := some value }
  | .output =>
    if s.output.isSome then .error (.repeated .output)
    else if value = "" then .error (.missingValue .output)
    else .ok { s with output := some value }
  | .json => if s.json then .error (.repeated .json) else .ok { s with json := true }
  | .help => .ok s

/-- what the arguments ask for -/
inductive Invocation where
  | run (verb : Verb) (settings : Settings)
  | version
  | help
  | refused (e : UsageError)
  deriving DecidableEq, Repr

/-- what a single argument is -/
inductive Argument where
  /-- two hyphens -/
  | stop
  /-- a name after two hyphens, perhaps with a value -/
  | long (name : String) (value : Option String)
  /-- a letter after one hyphen, and what stands after it -/
  | short (letter : Char) (rest : List Char)
  | operand
  deriving DecidableEq, Repr

/-- the form of an argument; a lone hyphen is an operand -/
def Argument.ofText (text : String) : Argument :=
  match text.toList with
  | ['-', '-'] => .stop
  | '-' :: '-' :: cs =>
    let name := String.ofList (cs.takeWhile (· != '='))
    match cs.dropWhile (· != '=') with
    | [] => .long name none
    | _ :: value => .long name (some (String.ofList value))
  | '-' :: c :: cs => .short c cs
  | _ => .operand

/-- the value after the letter of an option, if any: an equals sign in front of it does not count -/
def attached? : List Char → Option String
  | [] => none
  | '=' :: cs => some (String.ofList cs)
  | cs => some (String.ofList cs)

/-- the option that an argument names, with the value that stands in the same argument -/
def Argument.setting? (verb : Verb) : Argument → Option (Setting × Option String)
  | .long name value => ((Setting.all verb).find? (·.name == name)).map (·, value)
  | .short letter rest => ((Setting.all verb).find? (·.letter? == some letter)).map fun s =>
      (s, if s.hasValue then attached? rest else none)
  | _ => none

def readSettings (verb : Verb) (s : Settings) : List String → Invocation
  | [] => .run verb s
  | arg :: rest =>
    if Argument.ofText arg = .stop then
      match rest with
      | [] => .run verb s
      | operand :: _ => .refused (.unexpected operand)
    else match (Argument.ofText arg).setting? verb with
      | none => .refused (.unexpected arg)
      | some (setting, value) =>
        if setting.hasValue then
          match value with
          | some v =>
            match s.put v setting with
            | .ok s => readSettings verb s rest
            | .error e => .refused e
          | none =>
            match rest with
            | [] => .refused (.missingValue setting)
            | v :: rest =>
              if Argument.ofText v = .operand then
                match s.put v setting with
                | .ok s => readSettings verb s rest
                | .error e => .refused e
              else .refused (.missingValue setting)
        else if value.isSome then .refused (.needlessValue setting)
        else if setting = .help then .help
        else match s.put "" setting with
          | .ok s => readSettings verb s rest
          | .error e => .refused e

/-- Help is there for every command and for help itself. -/
def helpOn : List String → Invocation
  | [] => .help
  | name :: rest =>
    if name = "help" ∨ (Verb.ofName? name).isSome then
      match rest with
      | [] => .help
      | other :: _ => .refused (.unknownCommand other)
    else .refused (.unknownCommand name)

def Invocation.ofArguments : List String → Invocation
  | [] => .refused .noCommand
  | arg :: rest =>
    match Verb.ofName? arg with
    | some verb => readSettings verb .initial rest
    | none =>
      if arg = "help" then helpOn rest
      else match Argument.ofText arg with
        | .stop =>
          match rest with
          | [] => .refused .noCommand
          | operand :: _ => .refused (.unexpected operand)
        | .long "help" none => .help
        | .long "version" none => .version
        | .short 'h' _ => .help
        | .short 'V' _ => .version
        | .operand => .refused (.unknownCommand arg)
        | _ => .refused (.unexpected arg)

end TieredOptions.CommandLine
