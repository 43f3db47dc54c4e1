/-
The library: the classes and functions that are there from the start.

* `Blueprint`, `Heap.build`: what a class with native members is made of, and the class cell with
  the native functions for it.
* `BuiltinClass`: the classes of the library, each with its place in the heap.
* `Library.heap`, `Library.globals`: the heap at the start and the names bound in it.
* `Heap.classOf`, `Heap.isInstance`: the class that answers for a value.
-/
import Tern.Environment
import Tern.Heap

namespace Tern

/-- What a class with native members is made of. A member that is listed twice is one function
with two overloads. -/
structure Blueprint where
  name : String
  superclass : Option ClassRef := none
  synthetic : Bool := false
  init : List (Arity × Primitive) := []
  natives : List (String × Arity × Primitive) := []
  fields : List (String × Field) := []

namespace Heap

/-- The overloads of native members, put together by name. -/
def overloads (natives : List (String × Arity × Primitive)) :
    Bindings (List (Arity × Primitive)) :=
  natives.foldl
    (fun table (name, overload) => table.put name ((table.find? name).getD [] ++ [overload])) []

/-- Adds the native functions of a class with their qualified names. -/
def addMethods (className : String) : Heap → Bindings (List (Arity × Primitive)) →
    Bindings Method × Heap
  | h, [] => ([], h)
  | h, (name, overloads) :: rest =>
    let (ref, h) := h.addNative ⟨className ++ "." ++ name, overloads⟩
    let (methods, h) := addMethods className h rest
    ((name, .native ref) :: methods, h)

/-- Adds the constructor of a class if it has one. -/
def addInit (className : String) (h : Heap) : List (Arity × Primitive) → Option NativeRef × Heap
  | [] => (none, h)
  | overloads =>
    let (ref, h) := h.addNative ⟨className ++ ".init", overloads⟩
    (some ref, h)

/-- Adds the class of a blueprint. -/
def build (h : Heap) (b : Blueprint) : ClassRef × Heap :=
  let (methods, h) := h.addMethods b.name (overloads b.natives)
  let (init, h) := h.addInit b.name b.init
  h.addClass
    { name := b.name, methods, superclass := b.superclass, synthetic := b.synthetic, init
      fields := b.fields.foldl (fun table (name, field) => table.put name field) [] }

end Heap

/-- The classes of the library. -/
inductive BuiltinClass where
  | string | number | bool | null | list | map | tuple | function | classOf | exception
  | error (kind : ErrorKind)
  deriving DecidableEq, Repr

namespace BuiltinClass

/-- All classes, in the order in which they stand in the heap. -/
def all : List BuiltinClass :=
  [.string, .number, .bool, .null, .list, .map, .tuple, .function, .classOf, .exception] ++
    ErrorKind.all.map .error

/-- Where a class stands in the heap. -/
def ref : BuiltinClass → ClassRef
  | .string => ⟨0⟩
  | .number => ⟨1⟩
  | .bool => ⟨2⟩
  | .null => ⟨3⟩
  | .list => ⟨4⟩
  | .map => ⟨5⟩
  | .tuple => ⟨6⟩
  | .function => ⟨7⟩
  | .classOf => ⟨8⟩
  | .exception => ⟨9⟩
  | .error kind => ⟨10 + kind.index⟩

/-- What a class of the library is made of. Only exceptions have instances; the other classes
answer for values that are there without them. -/
def blueprint : BuiltinClass → Blueprint
  | .string =>
    { name := "String"
      synthetic := true
      init := [(.exactly 1, .newString)]
      fields := [("size", .computed .stringSize)]
      natives :=
        [("upper", .exactly 0, .upper), ("lower", .exactly 0, .lower), ("trim", .exactly 0, .trim),
          ("split", .exactly 1, .split), ("contains", .exactly 1, .containsText),
          ("chars", .exactly 0, .chars)] }
  | .number =>
    { name := "Number"
      synthetic := true
      init := [(.exactly 1, .newNumber)]
      natives :=
        [("floor", .exactly 0, .floor), ("ceil", .exactly 0, .ceil),
          ("round", .exactly 0, .round), ("abs", .exactly 0, .abs)] }
  | .bool => { name := "Bool", synthetic := true }
  | .null => { name := "Null", synthetic := true }
  | .list =>
    { name := "List"
      synthetic := true
      init := [(.atLeast 0, .newList)]
      fields := [("size", .computed .listSize)]
      natives :=
        [("push", .exactly 1, .push), ("pop", .exactly 0, .pop),
          ("contains", .exactly 1, .containsItem), ("each", .exactly 1, .each),
          ("map", .exactly 1, .mapItems), ("filter", .exactly 1, .filter),
          ("fold", .exactly 2, .fold), ("join", .exactly 0, .join), ("join", .exactly 1, .join),
          ("reverse", .exactly 0, .reverse)] }
  | .map =>
    { name := "Map"
      synthetic := true
      init := [(.exactly 0, .newMap)]
      fields := [("size", .computed .mapSize)]
      natives :=
        [("keys", .exactly 0, .keys), ("values", .exactly 0, .values),
          ("has", .exactly 1, .hasKey), ("get", .exactly 1, .getKey), ("get", .exactly 2, .getKey),
          ("remove", .exactly 1, .removeKey)] }
  | .tuple =>
    { name := "Tuple"
      synthetic := true
      init := [(.atLeast 0, .newTuple)]
      fields := [("size", .computed .tupleSize)]
      natives := [("toList", .exactly 0, .toList)] }
  | .function =>
    { name := "Function"
      synthetic := true
      fields := [("name", .computed .functionName), ("arity", .computed .functionArity)] }
  | .classOf =>
    { name := "Class"
      synthetic := true
      fields := [("name", .computed .className), ("superclass", .computed .superclass)] }
  | .exception =>
    { name := "Exception"
      fields := [("message", .slot none)]
      natives :=
        [("init", .exactly 0, .initException), ("init", .exactly 1, .initException),
          ("toString", .exactly 0, .showException)] }
  | .error kind => { name := kind.name, superclass := some exception.ref }

end BuiltinClass

namespace Library

/-- The functions of the library. -/
def functions : List Native :=
  [⟨"print", [(.atLeast 0, .print)]⟩,
    ⟨"str", [(.exactly 1, .str)]⟩,
    ⟨"type", [(.exactly 1, .typeOf)]⟩,
    ⟨"eval", [(.exactly 1, .eval)]⟩,
    ⟨"clock", [(.exactly 0, .clock)]⟩,
    ⟨"range", [(.exactly 1, .range), (.exactly 2, .range)]⟩,
    ⟨"assert", [(.exactly 1, .assert), (.exactly 2, .assert)]⟩,
    ⟨"stacktrace", [(.exactly 0, .stacktrace)]⟩]

/-- The heap with the classes of the library. -/
def classHeap : Heap := BuiltinClass.all.foldl (fun h c => (h.build c.blueprint).2) .empty

/-- The heap with the classes and the functions of the library. -/
def heap : Heap := functions.foldl (fun h f => (h.addNative f).2) classHeap

/-- The names bound from the start. -/
def globals : List (String × Value) :=
  BuiltinClass.all.map (fun c => (c.blueprint.name, .classOf c.ref)) ++
    functions.zipIdx.map (fun (f, i) => (f.name, .native ⟨classHeap.natives.size + i⟩))

/-- Binds the names of the library in the global frame. -/
def install (e : Environment) : Environment :=
  globals.foldl (fun e (name, value) => e.defineGlobal name value) e

end Library

namespace Heap

/-- The class that answers for a value. -/
def classOf (h : Heap) : Value → ClassRef
  | .null => BuiltinClass.null.ref
  | .bool _ => BuiltinClass.bool.ref
  | .number _ => BuiltinClass.number.ref
  | .text _ => BuiltinClass.string.ref
  | .tuple _ => BuiltinClass.tuple.ref
  | .list _ => BuiltinClass.list.ref
  | .map _ => BuiltinClass.map.ref
  | .object r => (h.classOfObject? r).getD BuiltinClass.null.ref
  | .classOf _ => BuiltinClass.classOf.ref
  | .function _ | .native _ | .bound _ _ => BuiltinClass.function.ref

/-- Whether a value is an instance of a class. -/
def isInstance (h : Heap) (v : Value) (c : ClassRef) : Bool := h.inherits (h.classOf v) c

/-- How messages speak of a value. -/
def subject (h : Heap) : Value → Subject
  | .object r => .instanceOf (h.objectClassName r)
  | .classOf r => .theClass (h.className r)
  | v => .plain v.kind

end Heap

end Tern
