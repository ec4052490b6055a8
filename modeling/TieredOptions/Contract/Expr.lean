/-
Sources. An override or a default computes its value by an expression over the options of the instance it serves: it
may read other options, try alternatives, add up, and hand work to another thread. Expressions are typed, so whatever
an expression for an option of type `t` yields has type `t`.

The one construct with a memory is `once`: its first evaluation takes the first branch, every later one the second. A
source that answers differently on each of its first runs is a nest of these (`nth`).
-/
import TieredOptions.Value.Basic
import TieredOptions.Error

namespace TieredOptions

/-- how an option computes its value -/
inductive Expr : ValueType → Type where
  /-- a fixed value -/
  | const {t : ValueType} (v : t.Carrier) : Expr t
  /-- another option, at this expression's type -/
  | get {t : ValueType} (name : String) : Expr t
  /-- another option, in the form shown to a reader -/
  | display (name : String) : Expr .string
  /-- the tier that another option was resolved at, without resolving it -/
  | tier (name : String) : Expr .string
  /-- a failure -/
  | fail {t : ValueType} (e : ResolveError) : Expr t
  /-- the first branch on the first evaluation, the second branch from then on -/
  | once {t : ValueType} (first later : Expr t) : Expr t
  /-- the second expression where the first fails -/
  | orElse {t : ValueType} (e fallback : Expr t) : Expr t
  /-- the sum, left operand first -/
  | add {t : ValueType} (how : Summable t) (a b : Expr t) : Expr t
  /-- a choice by an option of type bool -/
  | cond {t : ValueType} (name : String) (yes no : Expr t) : Expr t
  /-- the message of a failure, `ok` where there is none -/
  | errorText {t : ValueType} (e : Expr t) : Expr .string
  /-- all options of the instance first, then the expression -/
  | resolveAll {t : ValueType} (e : Expr t) : Expr t
  /-- the expression on a thread of its own, waited for -/
  | spawn {t : ValueType} (e : Expr t) : Expr t
  /-- a function of the expression's value -/
  | apply {s t : ValueType} (f : s.Carrier → Except ResolveError t.Carrier) (e : Expr s) : Expr t

namespace Expr

/-- A different expression for each of the first evaluations; the last one stays. -/
def nth {t : ValueType} (e : Expr t) : List (Expr t) → Expr t
  | [] => e
  | e' :: rest => .once e (nth e' rest)

/-- the first of several expressions that succeeds -/
def firstOf {t : ValueType} (e : Expr t) : List (Expr t) → Expr t
  | [] => e
  | e' :: rest => .orElse e (firstOf e' rest)

/-- several expressions added up from the left -/
def sum {t : ValueType} (how : Summable t) (e : Expr t) (rest : List (Expr t)) : Expr t :=
  rest.foldl (.add how) e

/-- how many `once` nodes there are -/
def onceCount : {t : ValueType} → Expr t → Nat
  | _, .once a b => onceCount a + onceCount b + 1
  | _, .orElse a b | _, .add _ a b | _, .cond _ a b => onceCount a + onceCount b
  | _, .errorText e | _, .resolveAll e | _, .spawn e | _, .apply _ e => onceCount e
  | _, .const _ | _, .get _ | _, .display _ | _, .tier _ | _, .fail _ => 0

/-- how many `spawn` nodes there are -/
def spawnCount : {t : ValueType} → Expr t → Nat
  | _, .spawn e => spawnCount e + 1
  | _, .once a b | _, .orElse a b | _, .add _ a b | _, .cond _ a b => spawnCount a + spawnCount b
  | _, .errorText e | _, .resolveAll e | _, .apply _ e => spawnCount e
  | _, .const _ | _, .get _ | _, .display _ | _, .tier _ | _, .fail _ => 0

/-- the names that occur in the reads of an expression -/
def reads : {t : ValueType} → Expr t → List String
  | _, .get name | _, .display name => [name]
  | _, .once a b | _, .orElse a b | _, .add _ a b => reads a ++ reads b
  | _, .cond name a b => name :: (reads a ++ reads b)
  | _, .errorText e | _, .resolveAll e | _, .spawn e | _, .apply _ e => reads e
  | _, .const _ | _, .tier _ | _, .fail _ => []

/-- does the expression resolve all options? -/
def surveys : {t : ValueType} → Expr t → Bool
  | _, .resolveAll _ => true
  | _, .once a b | _, .orElse a b | _, .add _ a b | _, .cond _ a b => surveys a || surveys b
  | _, .errorText e | _, .spawn e | _, .apply _ e => surveys e
  | _, .const _ | _, .get _ | _, .display _ | _, .tier _ | _, .fail _ => false

end Expr

/-- an expression with its type -/
structure Source where
  type : ValueType
  expr : Expr type

end TieredOptions
