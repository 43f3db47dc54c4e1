/-
Failures of a running program: what each one is about, its kind, and its wording. Every kind is
also the name of a class of exceptions.
-/
import Tern.Value.Basic
import Tern.Expr.Basic

namespace Tern

/-- The kinds of failures. -/
inductive ErrorKind where
  | undefinedReference | alreadyDefined | invalidOperation | typeMismatch
  | arityMismatch | outOfBounds | noMatchingClause | ioFailure
  deriving DecidableEq, Repr

namespace ErrorKind

/-- All kinds. -/
def all : List ErrorKind :=
  [.undefinedReference, .alreadyDefined, .invalidOperation, .typeMismatch, .arityMismatch,
    .outOfBounds, .noMatchingClause, .ioFailure]

/-- The name of a kind and of its class. -/
def name : ErrorKind → String
  | .undefinedReference => "UndefinedReference"
  | .alreadyDefined => "AlreadyDefined"
  | .invalidOperation => "InvalidOperation"
  | .typeMismatch => "TypeMismatch"
  | .arityMismatch => "ArityMismatch"
  | .outOfBounds => "OutOfBounds"
  | .noMatchingClause => "NoMatchingClause"
  | .ioFailure => "IOFailure"

/-- The place of a kind among all kinds. -/
def index : ErrorKind → Nat
  | .undefinedReference => 0
  | .alreadyDefined => 1
  | .invalidOperation => 2
  | .typeMismatch => 3
  | .arityMismatch => 4
  | .outOfBounds => 5
  | .noMatchingClause => 6
  | .ioFailure => 7

end ErrorKind

/-- How a message speaks of a value. -/
inductive Subject where
  | instanceOf (className : String)
  | theClass (className : String)
  | plain (kind : ValueKind)

/-- The wording for a value. -/
def Subject.text : Subject → String
  | .instanceOf name => "instance of " ++ name
  | .theClass name => "class " ++ name
  | .plain kind => kind.name

/-- What a pattern was to be matched in. -/
inductive PatternUse where
  | clause | destructuring | loop

/-- A failure. Values in it are given by their displayed form. -/
inductive Fault where
  -- undefined references
  | undefinedVariable (name : String)
  | notInScope (name : String)
  | noMember (subject : Subject) (name : String)
  | noKey (key : String)
  | noModule (path : String)
  -- names that are taken
  | alreadyInScope (name : String)
  -- invalid operations
  | tooManyFrames (limit : Nat)
  | byZero (op : BinaryOp)
  | straySpread
  | immutable (kind : ValueKind)
  | nativeSuperclass (className superName : String)
  | notInstantiable (className : String)
  | readOnly (name : String) (subject : Subject)
  | functionMember (name : String) (subject : Subject)
  | notCallable (subject : Subject)
  | assertion (message : String)
  -- mismatched types
  | negand (kind : ValueKind)
  | operands (op : BinaryOp) (left right : ValueKind)
  | indexKind (kind : ValueKind)
  | notIndexable (kind : ValueKind)
  | notIndexAssignable (kind : ValueKind)
  | notIterable (kind : ValueKind)
  | notSpreadable (kind : ValueKind)
  | superclassKind (className : String) (kind : ValueKind)
  | argument (function expected : String) (kind : ValueKind)
  | notNumeric (text : String)
  -- mismatched numbers of arguments
  | functionArity (function : String) (expected : Nat) (orMore : Bool) (given : Nat)
  | nativeArity (function arities : String) (given : Nat)
  | classArity (className : String) (given : Nat)
  -- places that are not there
  | badIndex (index : String) (length : Nat)
  | emptyPop
  -- values that no pattern fits
  | noMatch (use : PatternUse) (value : String)
  -- files
  | unreadableModule (path reason : String)
  /-- A failure of any kind that a host reports. -/
  | reported (kind : ErrorKind) (message : String)

namespace Fault

/-- The kind of a failure. -/
def kind : Fault → ErrorKind
  | .undefinedVariable _ | .notInScope _ | .noMember _ _ | .noKey _ | .noModule _ =>
    .undefinedReference
  | .alreadyInScope _ => .alreadyDefined
  | .tooManyFrames _ | .byZero _ | .straySpread | .immutable _ | .nativeSuperclass _ _
  | .notInstantiable _ | .readOnly _ _ | .functionMember _ _ | .notCallable _ | .assertion _ =>
    .invalidOperation
  | .negand _ | .operands _ _ _ | .indexKind _ | .notIndexable _ | .notIndexAssignable _
  | .notIterable _ | .notSpreadable _ | .superclassKind _ _ | .argument _ _ _ | .notNumeric _ =>
    .typeMismatch
  | .functionArity _ _ _ _ | .nativeArity _ _ _ | .classArity _ _ => .arityMismatch
  | .badIndex _ _ | .emptyPop => .outOfBounds
  | .noMatch _ _ => .noMatchingClause
  | .unreadableModule _ _ => .ioFailure
  | .reported kind _ => kind

/-- The wording of a failure. -/
def message : Fault → String
  | .undefinedVariable name => "undefined variable '" ++ name ++ "'"
  | .notInScope name => "'" ++ name ++ "' is not defined in this scope"
  | .noMember subject name => subject.text ++ " has no member '" ++ name ++ "'"
  | .noKey key => "key " ++ key ++ " not found"
  | .noModule path => "module not found: " ++ path
  | .alreadyInScope name => "'" ++ name ++ "' is already defined in this scope"
  | .tooManyFrames limit => "stack overflow: more than " ++ toString limit ++ " frames"
  | .byZero op => "'" ++ op.symbol ++ "' by zero"
  | .straySpread => "'...' is only allowed in an argument list"
  | .immutable kind => kind.name ++ " is immutable"
  | .nativeSuperclass name superName =>
    "class " ++ name ++ " can not extend native class " ++ superName
  | .notInstantiable name => "class " ++ name ++ " can not be instantiated"
  | .readOnly name subject => "member '" ++ name ++ "' of " ++ subject.text ++ " is read-only"
  | .functionMember name subject =>
    "can not assign to function '" ++ name ++ "' of " ++ subject.text
  | .notCallable subject => subject.text ++ " is not callable"
  | .assertion message => message
  | .negand kind => "operand of '-' must be a Number, not " ++ kind.name
  | .operands op left right =>
    "unsupported operands for '" ++ op.symbol ++ "': " ++ left.name ++ " and " ++ right.name
  | .indexKind kind => "index must be a Number, not " ++ kind.name
  | .notIndexable kind => kind.name ++ " is not indexable"
  | .notIndexAssignable kind => kind.name ++ " does not support index assignment"
  | .notIterable kind => "can not iterate over " ++ kind.name
  | .notSpreadable kind => "can only spread a List or Tuple, not " ++ kind.name
  | .superclassKind name kind => "superclass of " ++ name ++ " must be a class, not " ++ kind.name
  | .argument function expected kind =>
    "'" ++ function ++ "' expects " ++ expected ++ " but got " ++ kind.name
  | .notNumeric text => "can not convert \"" ++ text ++ "\" to a Number"
  | .functionArity function expected orMore given =>
    "function '" ++ function ++ "' expects " ++ (if orMore then "at least " else "") ++
      toString expected ++ " arguments but got " ++ toString given
  | .nativeArity function arities given =>
    "native function '" ++ function ++ "' expects " ++ arities ++ " arguments but got " ++
      toString given
  | .classArity name given => "class " ++ name ++ " takes no arguments but got " ++ toString given
  | .badIndex index length =>
    "index " ++ index ++ " out of bounds for length " ++ toString length
  | .emptyPop => "pop from an empty list"
  | .noMatch .clause value => "no clause matches " ++ value
  | .noMatch .destructuring value => "pattern does not match " ++ value
  | .noMatch .loop value => "loop pattern does not match " ++ value
  | .unreadableModule path reason => "can not read module " ++ path ++ ": " ++ reason
  | .reported _ message => message

end Fault

end Tern
