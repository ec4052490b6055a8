/-
What an instance remembers. The cache holds for each option the value it was first resolved to; `active` lists what is
being resolved, on which thread, oldest first. Threads are joined before their parent goes on, so the live ones form a
stack and a thread is named by its height in it.

The journal records what happens, newest first: which options begin and end to be resolved, which sources are run and
what they come back with, what is stored, and what a read is answered with. It is written and never read by a
resolution, and every earlier moment can be read off it.
-/
import TieredOptions.Instance.Build

namespace TieredOptions

/-- a value with the tier that it came from -/
structure Resolved where
  value : Value
  tier : Tier
  deriving DecidableEq

/-- something that happens while options of an instance with `n` options are resolved -/
inductive Event (n : Nat) where
  /-- the resolution of an option begins -/
  | entered (thread : Nat) (slot : Fin n)
  /-- an option is asked for whose resolution is under way on the same thread -/
  | reentered (thread : Nat) (slot : Fin n)
  /-- a source of the option is run -/
  | ran (slot : Fin n) (tier : Tier)
  /-- the source comes back, with a value or without an opinion -/
  | returned (slot : Fin n) (tier : Tier) (opinion : Option Value)
  /-- the source fails -/
  | failed (slot : Fin n) (tier : Tier) (e : ResolveError)
  /-- the option gets its value -/
  | stored (slot : Fin n) (r : Resolved)
  /-- a read of the option gets its answer, from the cache or after resolving -/
  | answered (thread : Nat) (slot : Fin n) (value : Value)
  /-- the resolution of the option ends -/
  | left (thread : Nat) (slot : Fin n)
  deriving DecidableEq

/-- the place of a node in an expression: the branches that lead to it, innermost first -/
abbrev Place := List Nat

/-- a `once` node: the option whose source it stands in, and its place -/
structure Node where
  slot : Nat
  place : Place
  deriving DecidableEq, Repr

/-- what an instance with `n` options remembers -/
structure Memory (n : Nat) where
  cache : Vector (Option Resolved) n
  active : List (Nat × Fin n)
  /-- the `once` nodes of overrides that were evaluated -/
  spent : List Node
  /-- the `once` nodes of defaults that were evaluated, here or by another instance of the contract -/
  shared : List Node
  /-- the options that the lookup was asked for, latest first -/
  asked : List (Fin n)
  journal : List (Event n)
  deriving DecidableEq

namespace Memory

variable {n : Nat}

/-- nothing resolved yet; some nodes of the defaults may have been evaluated elsewhere -/
def fresh (n : Nat) (shared : List Node) : Memory n := ⟨Vector.replicate n none, [], [], shared, [], []⟩

/-- what an option was resolved to, if it was -/
def resolved? (m : Memory n) (slot : Fin n) : Option Resolved := m.cache[slot]

/-- write down what happened -/
def record (m : Memory n) (e : Event n) : Memory n := { m with journal := e :: m.journal }

/-- What is under way on a thread from the option `slot` on, oldest first; nothing if the option is not. -/
def chain (m : Memory n) (thread : Nat) (slot : Fin n) : List (Fin n) :=
  ((m.active.dropWhile (· != (thread, slot))).filter (·.1 == thread)).map (·.2)

/-- begin to resolve an option -/
def enter (m : Memory n) (thread : Nat) (slot : Fin n) : Memory n :=
  { m with active := m.active ++ [(thread, slot)] }.record (.entered thread slot)

/-- end to resolve an option: its last entry goes -/
def leave (m : Memory n) (thread : Nat) (slot : Fin n) : Memory n :=
  { m with active := (m.active.reverse.erase (thread, slot)).reverse }.record (.left thread slot)

/-- the cache with a value for an option that has none -/
def store (m : Memory n) (slot : Fin n) (r : Resolved) : Memory n :=
  match m.resolved? slot with
  | some _ => m
  | none => { m with cache := m.cache.set slot (some r) }.record (.stored slot r)

/-- the tier of an option, if it is resolved -/
def tier? (m : Memory n) (slot : Fin n) : Option Tier := (m.resolved? slot).map (·.tier)

/-- the sources that were run, oldest first -/
def trace (m : Memory n) : List (Fin n × Tier) :=
  m.journal.reverse.filterMap fun
    | .ran slot tier => some (slot, tier)
    | _ => none

end Memory

end TieredOptions
