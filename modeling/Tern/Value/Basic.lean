/-
Values. Data without identity (null, booleans, numbers, strings, tuples) is held directly;
lists, maps, objects, classes and functions are cells of a heap, and a value refers to them.
-/
namespace Tern

/-- A list cell. -/
structure ListRef where
  index : Nat
  deriving DecidableEq, Repr

/-- A map cell. -/
structure MapRef where
  index : Nat
  deriving DecidableEq, Repr

/-- An object cell. -/
structure ObjectRef where
  index : Nat
  deriving DecidableEq, Repr

/-- A class cell. -/
structure ClassRef where
  index : Nat
  deriving DecidableEq, Repr

/-- A function cell. -/
structure FunctionRef where
  index : Nat
  deriving DecidableEq, Repr

/-- A native function cell. -/
structure NativeRef where
  index : Nat
  deriving DecidableEq, Repr

/-- A value. -/
inductive Value where
  | null
  | bool (value : Bool)
  | number (value : Float)
  | text (value : String)
  | tuple (items : List Value)
  | list (ref : ListRef)
  | map (ref : MapRef)
  | object (ref : ObjectRef)
  | classOf (ref : ClassRef)
  | function (ref : FunctionRef)
  /-- A native function on its own. -/
  | native (ref : NativeRef)
  /-- A native function read off a receiver. -/
  | bound (ref : NativeRef) (receiver : Value)
  deriving Inhabited

/-- The kinds of values that messages tell apart. -/
inductive ValueKind where
  | null | bool | number | string | tuple | list | map | object | classOf | function
  deriving DecidableEq, Repr

/-- The name of a kind. -/
def ValueKind.name : ValueKind → String
  | .null => "Null"
  | .bool => "Bool"
  | .number => "Number"
  | .string => "String"
  | .tuple => "Tuple"
  | .list => "List"
  | .map => "Map"
  | .object => "Object"
  | .classOf => "Class"
  | .function => "Function"

namespace Value

/-- The kind of a value. -/
def kind : Value → ValueKind
  | .null => .null
  | .bool _ => .bool
  | .number _ => .number
  | .text _ => .string
  | .tuple _ => .tuple
  | .list _ => .list
  | .map _ => .map
  | .object _ => .object
  | .classOf _ => .classOf
  | .function _ | .native _ | .bound _ _ => .function

/-- Null and false count as false, everything else as true. -/
def isTruthy : Value → Bool
  | .null | .bool false => false
  | _ => true

/-- Whether a value is null. -/
def isNull : Value → Bool
  | .null => true
  | _ => false

/-- The native function that a value is, with or without a receiver. -/
def native? : Value → Option NativeRef
  | .native ref | .bound ref _ => some ref
  | _ => none

/-- Whether two values refer to the same cell. A native function is the same whatever its
receiver. -/
def sameRef : Value → Value → Bool
  | .list a, .list b => a = b
  | .map a, .map b => a = b
  | .object a, .object b => a = b
  | .classOf a, .classOf b => a = b
  | .function a, .function b => a = b
  | .native a, .native b | .native a, .bound b _ | .bound a _, .native b
  | .bound a _, .bound b _ => a = b
  | _, _ => false

/-- One-character strings for the characters of a text. -/
def characters (s : String) : List Value := s.toList.map fun c => .text c.toString

end Value

end Tern
