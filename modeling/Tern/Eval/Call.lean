/-
Calls. A function runs in a frame of its own; a native function is an operation of the library; a
class gives a new instance.

An object of a class is built together with one object for each of its superclasses, the topmost
first, and each starts from the defaults of its own class.
-/
import Tern.Eval.Member
import Tern.Eval.Primitive

namespace Tern.Eval

/-- Binds parameters to arguments in the innermost frame. Arguments that are left over go into a
list, if there is a name for it. -/
def bindParams (rest : Option String) : List String → List Value → Eval Unit
  | name :: names, v :: vs => do
    bindName name v
    bindParams rest names vs
  | name :: names, [] => do
    bindName name .null
    bindParams rest names []
  | [], vs =>
    match rest with
    | some name => do bindName name (← newList vs.toArray)
    | none => pure ()

/-- Whether parameters take a number of arguments. -/
def accepts (p : Params) (count : Nat) : Bool :=
  if p.rest.isSome then decide (p.names.length ≤ count) else count = p.names.length

/-- Binds the object and the super-object that a function was read off, if there are any. -/
def bindReceiver : Option (Value × Value) → Eval Unit
  | some (this, parent) => do
    bindName "self" this
    bindName "super" parent
  | none => pure ()

/-- Calls a function. -/
def callFunction (run : Runner) (f : Closure) (arguments : List Value) : Eval Value :=
  let code := f.code
  if accepts code.params arguments.length then
    inFrame code.name code.body.source code.body.line do
      bindReceiver f.receiver
      bindParams code.params.rest code.params.names arguments
      catchLeave (run (.expr code.body))
  else
    fail (.functionArity code.name code.params.names.length code.params.rest.isSome
      arguments.length)

/-- Calls a native function, with a receiver if it has one. -/
def callNative (run : Runner) (f : Native) (receiver : Option Value) (arguments : List Value) :
    Eval Value :=
  match f.select? arguments.length with
  | some operation => primitive run operation (receiver.toList ++ arguments)
  | none => fail (.nativeArity f.name f.arities arguments.length)

/-! ### Instances -/

/-- The slots of a class with their defaults. -/
def slotsOf (c : Class) : List (String × Option Expr) :=
  c.fields.filterMap fun (name, field) =>
    match field with
    | .slot default => some (name, default)
    | .computed _ => none

/-- Writes the slots of a new object. -/
def fillSlots (run : Runner) (r : ObjectRef) : List (String × Option Expr) → Eval Unit
  | [] => pure ()
  | (name, default) :: rest => do
    let v ← match default with
      | some e => run (.expr e)
      | none => pure .null
    modifyHeap (·.setSlot r name v)
    fillSlots run r rest

/-- Builds the object for one class, on top of that for the superclass. -/
def buildLevel (run : Runner) (ref : ClassRef) (parent : Option ObjectRef) : Eval ObjectRef := do
  let r ← newObject ⟨ref, parent, []⟩
  let some c := (← heap).class? ref | return r
  let slots := slotsOf c
  if slots.isEmpty then return r
  inFrame ("<init " ++ c.name ++ ">") (← get).env.file 0 do
    bindName "self" (.object r)
    bindName "super" (parent.elim .null .object)
    fillSlots run r slots
  return r

/-- Builds the objects for a class and its superclasses, the topmost first. -/
def buildChain (run : Runner) : List ClassRef → Eval (Option ObjectRef)
  | [] => pure none
  | ref :: rest => do
    let parent ← buildChain run rest
    some <$> buildLevel run ref parent

/-- The first class of a chain whose superclass has no instances, with that superclass. -/
def nativeSuperclass? (h : Heap) : List ClassRef → Option (String × String)
  | [] => none
  | ref :: rest =>
    match (h.class? ref).bind (·.superclass) with
    | none => none
    | some parent =>
      match h.class? parent with
      | none => none
      | some p => if p.synthetic then some (h.className ref, p.name) else nativeSuperclass? h rest

/-- A new instance of a class before its constructor has run. -/
def construct (run : Runner) (ref : ClassRef) : Eval Value := do
  let h ← heap
  let chain := h.lineage ref
  match nativeSuperclass? h chain with
  | some (name, superName) => fail (.nativeSuperclass name superName)
  | none => return (← buildChain run chain).elim .null .object

/-- Calls a class: a synthetic one builds a value natively, any other gives a new instance, on
which its `init` is called. A class without `init` takes no arguments. -/
def instantiate (run : Runner) (ref : ClassRef) (arguments : List Value) : Eval Value := do
  let h ← heap
  let some c := h.class? ref | fail (.notInstantiable "")
  if c.synthetic then
    match c.init.bind h.native? with
    | some init => callNative run init none arguments
    | none => fail (.notInstantiable c.name)
  else
    let object ← construct run ref
    match ← findMember? object "init" with
    | some init =>
      let _ ← run (.call init arguments)
      return object
    | none =>
      if arguments.isEmpty then return object
      else fail (.classArity c.name arguments.length)

/-- Calls a value. -/
def callValue (run : Runner) (callee : Value) (arguments : List Value) : Eval Value := do
  let h ← heap
  match callee with
  | .function r =>
    let some f := h.function? r | fail (.notCallable (h.subject callee))
    callFunction run f arguments
  | .native r =>
    let some f := h.native? r | fail (.notCallable (h.subject callee))
    callNative run f none arguments
  | .bound r receiver =>
    let some f := h.native? r | fail (.notCallable (h.subject callee))
    callNative run f (some receiver) arguments
  | .classOf r => instantiate run r arguments
  | v => fail (.notCallable (h.subject v))

/-- An exception with its trace, which is that of the stack if there is none yet. -/
def withTrace (exception : Value) (trace : Trace) : Eval (Value × Trace) := do
  let env := (← get).env
  return (exception, if trace.isEmpty then env.trace else trace)

/-- The exception that a handler sees for a signal, and its trace. A failure becomes an instance
of the class of its kind; a return, a text that does not parse, and the lack of fuel go on as they
are. -/
def materialize (run : Runner) : Signal → Eval (Value × Trace)
  | .thrown value trace => withTrace value trace
  | .fault cause trace => do
    let exception ← instantiate run (BuiltinClass.error cause.kind).ref [.text cause.message]
    withTrace exception trace
  | other => throw other

end Tern.Eval
