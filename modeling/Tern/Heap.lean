/-
The heap: cells with identity, one table per kind. Cells are only ever added; lists, maps and the
slots of objects change in place, the other cells never.
-/
import Tern.Bindings
import Tern.Expr.Basic
import Tern.Native
import Tern.Value.Key

namespace Tern

/-- What a function does when it is called. -/
structure FunctionDef where
  name : String
  params : Params
  body : Expr

/-- A function cell: what it does, and the object and super-object it was read off, if any. -/
structure Closure where
  code : FunctionDef
  receiver : Option (Value × Value)

/-- A function of a class. -/
inductive Method where
  | user (code : FunctionDef)
  | native (ref : NativeRef)

/-- A field of a class: a slot of every instance with the default it starts from, or a member
that is computed. -/
inductive Field where
  | slot (default : Option Expr)
  | computed (getter : Getter)

/-- A class cell. -/
structure Class where
  name : String
  methods : Bindings Method
  fields : Bindings Field
  superclass : Option ClassRef
  /-- Whether the class has no instances of its own but builds values natively. -/
  synthetic : Bool
  /-- The constructor of a synthetic class. -/
  init : Option NativeRef

/-- An object cell: its class, its slots, and the object of the superclass that it delegates
to. -/
structure Instance where
  ofClass : ClassRef
  parent : Option ObjectRef
  slots : Bindings Value

/-- The heap. -/
structure Heap where
  lists : Array (Array Value)
  maps : Array Entries
  objects : Array Instance
  classes : Array Class
  functions : Array Closure
  natives : Array Native

namespace Heap

/-- The heap without cells. -/
def empty : Heap := ⟨#[], #[], #[], #[], #[], #[]⟩

/-! ### Reading cells -/

/-- The items of a list. -/
def items (h : Heap) (r : ListRef) : Array Value := h.lists[r.index]?.getD #[]

/-- The entries of a map. -/
def entries (h : Heap) (r : MapRef) : Entries := h.maps[r.index]?.getD []

/-- An object. -/
def object? (h : Heap) (r : ObjectRef) : Option Instance := h.objects[r.index]?

/-- A class. -/
def class? (h : Heap) (r : ClassRef) : Option Class := h.classes[r.index]?

/-- A function. -/
def function? (h : Heap) (r : FunctionRef) : Option Closure := h.functions[r.index]?

/-- A native function. -/
def native? (h : Heap) (r : NativeRef) : Option Native := h.natives[r.index]?

/-- The name of a class. -/
def className (h : Heap) (r : ClassRef) : String := ((h.class? r).map (·.name)).getD ""

/-- The class of an object. -/
def classOfObject? (h : Heap) (r : ObjectRef) : Option ClassRef := (h.object? r).map (·.ofClass)

/-- The name of the class of an object. -/
def objectClassName (h : Heap) (r : ObjectRef) : String :=
  ((h.classOfObject? r).map h.className).getD ""

/-- The name of a function. -/
def functionName (h : Heap) (r : FunctionRef) : String :=
  ((h.function? r).map (·.code.name)).getD ""

/-- The name of a native function. -/
def nativeName (h : Heap) (r : NativeRef) : String := ((h.native? r).map (·.name)).getD ""

/-! ### Adding and changing cells -/

/-- Adds a list. -/
def addList (h : Heap) (items : Array Value) : ListRef × Heap :=
  (⟨h.lists.size⟩, { h with lists := h.lists.push items })

/-- Adds a map. -/
def addMap (h : Heap) (entries : Entries) : MapRef × Heap :=
  (⟨h.maps.size⟩, { h with maps := h.maps.push entries })

/-- Adds an object. -/
def addObject (h : Heap) (o : Instance) : ObjectRef × Heap :=
  (⟨h.objects.size⟩, { h with objects := h.objects.push o })

/-- Adds a class. -/
def addClass (h : Heap) (c : Class) : ClassRef × Heap :=
  (⟨h.classes.size⟩, { h with classes := h.classes.push c })

/-- Adds a function. -/
def addFunction (h : Heap) (f : Closure) : FunctionRef × Heap :=
  (⟨h.functions.size⟩, { h with functions := h.functions.push f })

/-- Adds a native function. -/
def addNative (h : Heap) (f : Native) : NativeRef × Heap :=
  (⟨h.natives.size⟩, { h with natives := h.natives.push f })

/-- Changes the items of a list. -/
def modifyList (h : Heap) (r : ListRef) (f : Array Value → Array Value) : Heap :=
  { h with lists := h.lists.modify r.index f }

/-- Changes the entries of a map. -/
def modifyMap (h : Heap) (r : MapRef) (f : Entries → Entries) : Heap :=
  { h with maps := h.maps.modify r.index f }

/-- Writes a slot of an object. -/
def setSlot (h : Heap) (r : ObjectRef) (name : String) (value : Value) : Heap :=
  { h with objects := h.objects.modify r.index fun o => { o with slots := o.slots.put name value } }

/-- The value of a slot, if it has been written. -/
def slot? (h : Heap) (r : ObjectRef) (name : String) : Option Value :=
  (h.object? r).bind (·.slots.find? name)

/-! ### Chains

A superclass is older than its subclasses and a super-object older than the object that delegates
to it, so a chain has no more links than there are cells. -/

/-- A class and its superclasses upward, at most `fuel` of them. -/
def lineageUpTo (h : Heap) : Nat → ClassRef → List ClassRef
  | 0, _ => []
  | fuel + 1, r =>
    match h.class? r with
    | none => []
    | some c =>
      match c.superclass with
      | none => [r]
      | some s => r :: h.lineageUpTo fuel s

/-- A class and its superclasses upward. -/
def lineage (h : Heap) (r : ClassRef) : List ClassRef := h.lineageUpTo h.classes.size r

/-- An object and the objects it delegates to, at most `fuel` of them. -/
def delegatesUpTo (h : Heap) : Nat → ObjectRef → List ObjectRef
  | 0, _ => []
  | fuel + 1, r =>
    match h.object? r with
    | none => []
    | some o =>
      match o.parent with
      | none => [r]
      | some p => r :: h.delegatesUpTo fuel p

/-- An object and the objects it delegates to, in the order in which they are asked. -/
def delegates (h : Heap) (r : ObjectRef) : List ObjectRef := h.delegatesUpTo h.objects.size r

/-- Whether a class is another one or inherits from it. -/
def inherits (h : Heap) (r ancestor : ClassRef) : Bool := (h.lineage r).contains ancestor

end Heap

end Tern
