/-
The program. It reads the files that the arguments name, lets the command line decide what comes of them, and writes
and prints that.
-/
import Std.Time.DateTime.Timestamp
import TieredOptions.CommandLine.Command

namespace TieredOptions.CommandLine

/-- the number of a fault, which some calls of the system give negated -/
def faultNumber (code : UInt32) : Nat := if code < 0x80000000 then code.toNat else (-code).toNat

def ioFault : IO.Error → IoFault
  | .noFileOrDirectory .. => .notFound
  | .inappropriateType _ code _ => if faultNumber code = 21 then .isADirectory else .notADirectory
  | .permissionDenied .. => .other "Permission denied (os error 13)"
  | .invalidArgument _ code details => if faultNumber code = 36 then .nameTooLong else .other details
  | e => .other (toString e)

def readBytes (path : String) : IO (Except IoFault (List UInt8)) := do
  try return .ok (← IO.FS.readBinFile path).toList
  catch e => return .error (ioFault e)

def writeText (path content : String) : IO (Except IoFault Unit) := do
  try return .ok (← IO.FS.writeFile path content)
  catch e => return .error (ioFault e)

/-- the files that an invocation needs, each with its bytes -/
def readFiles : Invocation → IO (List (String × Except IoFault (List UInt8)))
  | .run _ s => s.files.mapM fun path => return (path, ← readBytes path)
  | _ => return []

def clock : IO Instant := do
  let now ← Std.Time.Timestamp.now
  return ⟨now.val.second.val, now.val.nano.val.toNat⟩

def present (o : Outcome) : IO UInt32 := do
  IO.print o.stdout
  IO.eprint o.stderr
  return o.status.toUInt32

end TieredOptions.CommandLine

open TieredOptions.CommandLine in
def main (args : List String) : IO UInt32 := do
  let invocation := Invocation.ofArguments args
  let files ← readFiles invocation
  let effect := invocation.effect (fun path => (files.lookup path).getD (.error .notFound)) (← clock)
  match effect.file with
  | none => present effect.outcome
  | some (path, content) =>
    match ← writeText path content with
    | .ok () => present effect.outcome
    | .error fault => present (Failure.writing path fault).outcome
