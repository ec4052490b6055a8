/-
An in-memory file tree, read and written by path. Paths are followed from the working directory, one component after
the other; what goes wrong on the way, or with what stands at the end of it, has the numbers and wordings of POSIX.
Outside of the working directory there is nothing but the directories that lead to it.
-/

namespace TieredOptions

/-- why a file cannot be read or written -/
inductive IoFault where
  | notFound
  | notADirectory
  | isADirectory
  | nameTooLong
  | nulInName
  /-- any other fault, with its wording -/
  | other (message : String)
  deriving DecidableEq, Repr

def IoFault.message : IoFault → String
  | notFound => "No such file or directory (os error 2)"
  | notADirectory => "Not a directory (os error 20)"
  | isADirectory => "Is a directory (os error 21)"
  | nameTooLong => "File name too long (os error 36)"
  | nulInName => "file name contained an unexpected NUL byte"
  | other message => message

/-- what a path can lead to -/
inductive Disk.Entry where
  | file (bytes : List UInt8)
  | directory
  deriving DecidableEq, Repr

/-- The entries below the working directory, each with the names that lead to it. -/
structure Disk where
  entries : List (List String × Disk.Entry)
  deriving DecidableEq, Repr

namespace Disk

def empty : Disk := ⟨[]⟩

/-- A position on the way along a path: below the working directory, or so many levels above it. -/
inductive Position where
  | below (names : List String)
  | above (levels : Nat)
  deriving DecidableEq, Repr

/-- what stands at a position -/
def entry? (d : Disk) : Position → Option Entry
  | .below [] => some .directory
  | .below names => d.entries.lookup names
  | .above _ => some .directory

/-- from a directory one component on -/
def Position.next? (p : Position) (component : String) : Option Position :=
  match p, component with
  | p, "." => some p
  | .below [], ".." => some (.above 1)
  | .below names, ".." => some (.below names.dropLast)
  | .above n, ".." => some (.above (n + 1))
  | .below names, name => some (.below (names ++ [name]))
  | .above _, _ => none

/-- the components of a path; empty ones do not count -/
def components (path : String) : List String := ((path.toList.splitOn '/').map String.ofList).filter (· ≠ "")

/-- Follow components from a position that must be a directory wherever something follows. -/
def walk (d : Disk) (p : Position) : List String → Except IoFault Position
  | [] => .ok p
  | c :: rest =>
    match d.entry? p with
    | none => .error .notFound
    | some (.file _) => .error .notADirectory
    | some .directory =>
      if 255 < c.utf8ByteSize then .error .nameTooLong
      else match p.next? c with
        | none => .error .notFound
        | some p => walk d p rest

/-- is the path written as a directory's, with a slash at its end? -/
def endsInSlash (path : String) : Bool := path.toList.getLast? == some '/'

/-- where the way along a path begins, if it is a path at all -/
def origin (path : String) : Except IoFault Position :=
  if '\x00' ∈ path.toList then .error .nulInName
  else if path = "" then .error .notFound
  else if 4096 ≤ path.utf8ByteSize then .error .nameTooLong
  else .ok (if path.toList.head? = some '/' then .above 1000 else .below [])

/-- the position of a path, and what stands there, if anything does -/
def locate (d : Disk) (path : String) : Except IoFault (Position × Option Entry) := do
  let p ← d.walk (← origin path) (components path)
  return (p, d.entry? p)

def read (d : Disk) (path : String) : Except IoFault (List UInt8) := do
  match ← d.locate path with
  | (_, none) => throw .notFound
  | (_, some .directory) => throw .isADirectory
  | (_, some (.file bytes)) => if endsInSlash path then throw .notADirectory else return bytes

/-- the tree with an entry under the given names -/
def put (d : Disk) (names : List String) (e : Entry) : Disk := ⟨(names, e) :: d.entries.filter (·.1 ≠ names)⟩

/-- The fault of writing to a path that ends in a slash. Such a path asks for a directory whatever its last component
    is, so that one is not looked at; the directory it would stand in has to be there. -/
def slashFault (d : Disk) (path : String) : IoFault :=
  match do d.walk (← origin path) (components path).dropLast with
  | .error fault => fault
  | .ok p =>
    match d.entry? p with
    | none => .notFound
    | some (.file _) => .notADirectory
    | some .directory => .isADirectory

/-- the tree after a file was written, anew or over an old one -/
def write (d : Disk) (path : String) (bytes : List UInt8) : Except IoFault Disk := do
  if endsInSlash path then throw (d.slashFault path)
  match ← d.locate path with
  | (_, some .directory) => throw .isADirectory
  | (.below names, _) => return d.put names (.file bytes)
  | (.above _, _) => throw .notFound

/-! ## Laying out a tree -/

/-- the tree with an entry at a position below the working directory -/
def place (d : Disk) (e : Entry) : Position → Disk
  | .below (name :: names) => d.put (name :: names) e
  | _ => d

/-- The tree with an entry where the components lead from a position, and with directories on the way. -/
def make (d : Disk) (e : Entry) (p : Position) : List String → Disk
  | [] => d
  | c :: rest =>
    match p.next? c with
    | none => d
    | some p => (d.place (if rest = [] then e else .directory) p).make e p rest

/-- the tree with a directory and those that lead to it -/
def makeDirectory (d : Disk) (path : String) : Disk := d.make .directory (.below []) (components path)

/-- the tree with a file, and with the directories that lead to it -/
def makeFile (d : Disk) (path : String) (bytes : List UInt8) : Disk :=
  d.make (.file bytes) (.below []) (components path)

end Disk

end TieredOptions
