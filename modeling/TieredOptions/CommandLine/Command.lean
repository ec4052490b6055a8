/-
The commands. Both load the configuration and report on an instance of the grammar output options that has it as its
lookup: `explain` shows the report, `verify` says only which options fail. A command succeeds if no option fails.

A command that writes a file writes it first and shows nothing if that does not work.
-/
import TieredOptions.CommandLine.Arguments
import TieredOptions.GrammarOutput
import TieredOptions.Report

namespace TieredOptions.CommandLine

/-- what a run shows, and its exit status -/
structure Outcome where
  status : Nat
  stdout : String
  stderr : String
  deriving DecidableEq, Repr

/-- why a command does not get as far as a report, or does not get it written -/
inductive Failure where
  | loading (e : Config.LoadError)
  | building (e : BuildError)
  | resolving
  | writing (path : String) (fault : IoFault)
  deriving DecidableEq, Repr

def Failure.message : Failure → String
  | loading e => "failed to load config: " ++ e.message
  | building e => "invalid options: " ++ e.message
  | resolving => "options depend on one another without end"
  | writing path fault => "failed to write " ++ path ++ ": " ++ fault.message

/-- how a run ends that fails as a whole -/
def Failure.outcome (f : Failure) : Outcome := ⟨1, "", "Error: " ++ f.message ++ "\n"⟩

def Settings.load (s : Settings) (read : String → Except IoFault (List UInt8)) :
    Except Config.LoadError Config.Layered := do
  let l ← Config.Layered.load read s.files s.assignments
  match s.sect with
  | some name => return l.withSection name
  | none => return l

/-- the report on the options of grammar output under a configuration -/
def reportOn (l : Config.Layered) (now : Instant) : Except Failure Report :=
  match Instance.build GrammarOutput.contract (some l.lookup) [] with
  | .error e => .error (.building e)
  | .ok i =>
    match (i.report 0 (some l) now (.fresh i.size [])).1 with
    | .error _ => .error .resolving
    | .ok r => .ok r

def Settings.report (s : Settings) (read : String → Except IoFault (List UInt8)) (now : Instant) :
    Except Failure Report :=
  match s.load read with
  | .error e => .error (.loading e)
  | .ok l => reportOn l now

/-- A command succeeds if no option fails. -/
def status (r : Report) : Nat := if r.isComplete then 0 else 1

/-- the report as it is shown -/
def explained (json : Bool) (r : Report) : Outcome := ⟨status r, if json then r.jsonText ++ "\n" else r.human, ""⟩

/-- the line of an option that fails -/
def failureLine (e : Entry) : String := "  " ++ e.name ++ ": " ++ e.error.getD "unresolved" ++ "\n"

/-- the options that fail, or that there is none -/
def verified (r : Report) : Outcome :=
  if r.failures = [] then ⟨0, "OK: all " ++ toString r.options.length ++ " options resolve\n", ""⟩
  else ⟨1, "", String.join (r.failures.map failureLine) ++ "FAILED: " ++ toString r.failures.length ++ " of " ++
    toString r.options.length ++ " options did not resolve\n"⟩

/-- what a run comes to: perhaps a file that has to be written, and how the run ends once it is -/
structure Effect where
  file : Option (String × String)
  outcome : Outcome
  deriving DecidableEq, Repr

def Effect.ofOutcome (o : Outcome) : Effect := ⟨none, o⟩

def command (read : String → Except IoFault (List UInt8)) (now : Instant) (verb : Verb) (s : Settings) : Effect :=
  match s.report read now with
  | .error f => .ofOutcome f.outcome
  | .ok r =>
    match verb with
    | .explain => ⟨s.output.map (·, r.jsonText), explained s.json r⟩
    | .verify => .ofOutcome (verified r)

def versionText : String := "dynopts 0.1.0\n"

def helpText : String :=
  "Resolve grammar output options from config layers\n\n" ++
  "Usage: dynopts <COMMAND>\n\n" ++
  "Commands:\n" ++
  "  explain  Show every option with its value and where it came from\n" ++
  "  verify   Check that every option resolves\n" ++
  "  help     Print this message\n\n" ++
  "Options of both commands:\n" ++
  "  -c, --config <CONFIG>  Config file (TOML); repeat to layer, later files win\n" ++
  "      --set <KEY=VALUE>  Set an option; wins over config files\n" ++
  "      --section <NAME>   Read options from this table of the config\n\n" ++
  "Options of explain:\n" ++
  "      --json             Output in JSON format\n" ++
  "  -o, --output <OUTPUT>  Also write the JSON report to this file\n\n" ++
  "Options:\n" ++
  "  -h, --help     Print help\n" ++
  "  -V, --version  Print version\n"

def Invocation.effect (read : String → Except IoFault (List UInt8)) (now : Instant) : Invocation → Effect
  | run verb s => command read now verb s
  | version => .ofOutcome ⟨0, versionText, ""⟩
  | help => .ofOutcome ⟨0, helpText, ""⟩
  | refused e => .ofOutcome ⟨2, "", "error: " ++ e.message ++ "\n\n" ++ helpText⟩

/-- a run of the program in a working directory, and the directory afterwards -/
def run (d : Disk) (now : Instant) (args : List String) : Outcome × Disk :=
  let e := (Invocation.ofArguments args).effect d.read now
  match e.file with
  | none => (e.outcome, d)
  | some (path, content) =>
    match d.write path (Text.Utf8.encode content) with
    | .ok d => (e.outcome, d)
    | .error fault => ((Failure.writing path fault).outcome, d)

end TieredOptions.CommandLine
