/-
Everything that can go wrong, by cause, and the wording of each. `BuildError` is what refuses an instance,
`ResolveError` what a read of an option can end in.
-/
import TieredOptions.Value.Type

namespace TieredOptions

/-- what is wrong with an accessor of a contract -/
inductive Flaw where
  | parameters (names : List String)
  | invalidName
  | repeated
  | other (reason : String)
  deriving DecidableEq, Repr

def Flaw.message : Flaw → String
  | parameters names => "declares parameters (" ++ ", ".intercalate names ++ ")"
  | invalidName => "is not a valid option name"
  | repeated => "is declared more than once"
  | other reason => reason

/-- why it is unclear which option an override is for -/
inductive Anonymity where
  | unnamed (type : ValueType)
  | invalidName (name : String)
  | other (reason : String)
  deriving DecidableEq, Repr

def Anonymity.message : Anonymity → String
  | unnamed t => "override producing " ++ t.name ++ " has no parameter name to bind it to an option"
  | invalidName name => "`" ++ name ++ "` is not a valid option name"
  | other reason => reason

/-- why an instance is not built -/
inductive BuildError where
  | malformedContract (contract accessor : String) (flaw : Flaw)
  | missingOption (contract : String) (names : List String)
  | unknownOption (contract name : String)
  | duplicateOption (name : String)
  | identification (cause : Anonymity)
  | typeMismatch (name : String) (expected found : ValueType)
  deriving DecidableEq, Repr

def BuildError.message : BuildError → String
  | malformedContract contract accessor flaw =>
    "options contract " ++ contract ++ " is malformed: accessor `" ++ accessor ++ "` " ++ flaw.message
  | missingOption _ names => "missing required option: " ++ ", ".intercalate names
  | unknownOption contract name => "no such option: " ++ name ++ " (contract " ++ contract ++ ")"
  | duplicateOption name => "option `" ++ name ++ "` is overridden more than once"
  | identification cause => "cannot identify override: " ++ cause.message
  | typeMismatch name expected found =>
    "override for `" ++ name ++ "` produces " ++ found.name ++ ", but the accessor returns " ++ expected.name

/-- the option that an error is about; of several missing ones the first -/
def BuildError.optionName? : BuildError → Option String
  | malformedContract _ accessor _ => some accessor
  | missingOption _ names => names.head?
  | unknownOption _ name => some name
  | duplicateOption name => some name
  | identification _ => none
  | typeMismatch name _ _ => some name

/-- why a read of an option fails -/
inductive ResolveError where
  /-- an override, the lookup or a default failed, with what led to it, nearest cause first -/
  | source (message : String) (causes : List String)
  | missing (accessor : String)
  | typeMismatch (accessor : String) (expected : ValueType)
  | noSuchAccessor (contract name : String)
  | cycle (chain : List String)
  | decode (accessor : String) (expected : ValueType) (found : String)
  deriving DecidableEq, Repr

namespace ResolveError

def message : ResolveError → String
  | source message _ => message
  | missing accessor =>
    "option `" ++ accessor ++ "` has no value: lookup returned nothing and no default is declared"
  | typeMismatch accessor expected => "option `" ++ accessor ++ "` is not of type " ++ expected.name
  | noSuchAccessor contract name => "contract " ++ contract ++ " has no option named `" ++ name ++ "`"
  | cycle chain => "cyclic option dependency: " ++ " -> ".intercalate chain
  | decode accessor expected found => "option `" ++ accessor ++ "`: cannot decode " ++ found ++ " as " ++ expected.name

/-- the message followed by its causes -/
def fullMessage : ResolveError → String
  | source message causes => ": ".intercalate (message :: causes)
  | e => e.message

def isCycle : ResolveError → Bool
  | cycle _ => true
  | _ => false

/-- a failure with a message and no cause -/
def ofMessage (message : String) : ResolveError := .source message []

/-- a failure seen through one more context -/
def withContext (context : String) : ResolveError → ResolveError
  | source message causes => source context (message :: causes)
  | e => source context [e.message]

end ResolveError

end TieredOptions
