/-
Native functions: the operations that are built in. A native function has a name and a list of
overloads, each with the number of arguments it takes and the operation it stands for.
-/
namespace Tern

/-- The number of arguments that an overload takes, a receiver not counted. -/
inductive Arity where
  | exactly (count : Nat)
  | atLeast (count : Nat)
  deriving DecidableEq, Repr

namespace Arity

/-- Whether an overload takes a number of arguments. -/
def accepts : Arity → Nat → Bool
  | .exactly n, count => count = n
  | .atLeast n, count => decide (n ≤ count)

/-- The wording of an arity. -/
def text : Arity → String
  | .exactly n => toString n
  | .atLeast n => toString n ++ "+"

end Arity

/-- The operations that are built in. -/
inductive Primitive where
  -- functions of the global frame
  | print | str | typeOf | eval | clock | range | assert | stacktrace
  -- strings and numbers
  | newString | upper | lower | trim | split | containsText | chars
  | newNumber | floor | ceil | round | abs
  -- lists
  | newList | push | pop | containsItem | each | mapItems | filter | fold | join | reverse
  -- maps and tuples
  | newMap | keys | values | hasKey | getKey | removeKey | newTuple | toList
  -- exceptions
  | initException | showException
  /-- An operation of the host. -/
  | host (number : Nat)
  deriving DecidableEq, Repr

/-- Members that are computed when they are read. -/
inductive Getter where
  | stringSize | listSize | mapSize | tupleSize
  | functionName | functionArity | className | superclass
  /-- A member that the host computes. -/
  | host (number : Nat)
  deriving DecidableEq, Repr

/-- A native function. -/
structure Native where
  name : String
  overloads : List (Arity × Primitive)

namespace Native

/-- The overload for a number of arguments: the first with exactly that number, or else the first
that takes it. -/
def select? (f : Native) (count : Nat) : Option Primitive :=
  match f.overloads.find? (·.1 = .exactly count) with
  | some (_, operation) => some operation
  | none => (f.overloads.find? (·.1.accepts count)).map (·.2)

/-- The wording of the arities of all overloads. -/
def arities (f : Native) : String :=
  " or ".intercalate (f.overloads.map (·.1.text))

end Native

end Tern
