/-
Members of values. An object asks its own class first and then the objects it delegates to; any
other value asks the class that answers for it. In a class, functions come before fields when a
member is read, and only fields can be written.
-/
import Tern.Eval.Basic

namespace Tern.Eval

/-- The value of a member that is computed. -/
def compute (getter : Getter) (this : Value) : Eval Value := do
  match getter, this with
  | .stringSize, .text s => return .number (Float.ofNat s.length)
  | .stringSize, v => fail (.argument "size" "a String" v.kind)
  | .listSize, .list r => return .number (Float.ofNat ((← heap).items r).size)
  | .listSize, v => fail (.argument "size" "a List" v.kind)
  | .mapSize, .map r => return .number (Float.ofNat ((← heap).entries r).length)
  | .mapSize, v => fail (.argument "size" "a Map" v.kind)
  | .tupleSize, .tuple items => return .number (Float.ofNat items.length)
  | .tupleSize, v => fail (.argument "size" "a Tuple" v.kind)
  | .functionName, .function r => return .text ((← heap).functionName r)
  | .functionName, .native r => return .text ((← heap).nativeName r)
  | .functionName, .bound r _ => return .text ((← heap).nativeName r)
  | .functionName, v => fail (.argument "name" "a Function" v.kind)
  | .functionArity, .function r =>
    let count := (((← heap).function? r).map (·.code.params.names.length)).getD 0
    return .number (Float.ofNat count)
  | .functionArity, .native _ => return .null
  | .functionArity, .bound _ _ => return .null
  | .functionArity, v => fail (.argument "arity" "a Function" v.kind)
  | .className, .classOf r => return .text ((← heap).className r)
  | .className, v => fail (.argument "name" "a Class" v.kind)
  | .superclass, .classOf r =>
    return (((← heap).class? r).bind (·.superclass)).elim .null .classOf
  | .superclass, v => fail (.argument "superclass" "a Class" v.kind)
  | .host number, v => hostMember number v

/-- A member of a class as it reads off `this`, whose super-object is `parent`. -/
def classMember? (c : Class) (this parent : Value) (name : String) : Eval (Option Value) := do
  match c.methods.find? name with
  | some (.user code) => some <$> newFunction ⟨code, some (this, parent)⟩
  | some (.native ref) => return some (.bound ref this)
  | none =>
    match c.fields.find? name with
    | some (.slot _) =>
      match this with
      | .object r => return some (((← heap).slot? r name).getD .null)
      | _ => return some .null
    | some (.computed getter) => some <$> compute getter this
    | none => return none

/-- The class cell of an object. -/
def classOfObject? (r : ObjectRef) : Eval (Option Class) := do
  let h ← heap
  return (h.classOfObject? r).bind h.class?

/-- A member of the first object of a chain that has it. -/
def chainMember? (name : String) : List ObjectRef → Eval (Option Value)
  | [] => pure none
  | r :: rest => do
    let some c ← classOfObject? r | return none
    match ← classMember? c (.object r) (rest.head?.elim .null .object) name with
    | some v => return some v
    | none => chainMember? name rest

/-- A member of a value. -/
def findMember? (receiver : Value) (name : String) : Eval (Option Value) := do
  let h ← heap
  match receiver with
  | .object r => chainMember? name (h.delegates r)
  | v =>
    let some c := h.class? (h.classOf v) | return none
    classMember? c v .null name

/-- The value that has no member if nothing on its chain has: the last object of the chain. -/
def lastAsked (receiver : Value) : Eval Value := do
  match receiver with
  | .object r => return .object (((← heap).delegates r).getLast?.getD r)
  | v => return v

/-- Reads a member, which must be there. -/
def getMember (receiver : Value) (name : String) : Eval Value := do
  match ← findMember? receiver name with
  | some v => return v
  | none => fail (.noMember (← subject (← lastAsked receiver)) name)

/-- Writes a member that a class has as a field or refuses to as a function; whether the class has
the member at all. Computed members are read-only, since nothing can give one a setter. -/
def setClassMember (c : Class) (this : Value) (name : String) (value : Value) : Eval Bool := do
  match c.fields.find? name with
  | some (.slot _) =>
    match this with
    | .object r =>
      modifyHeap (·.setSlot r name value)
      return true
    | v => fail (.readOnly name (← subject v))
  | some (.computed _) => fail (.readOnly name (← subject this))
  | none =>
    if c.methods.has name then fail (.functionMember name (← subject this)) else return false

/-- Writes a member of the first object of a chain that has it; whether there is one. -/
def setChainMember (name : String) (value : Value) : List ObjectRef → Eval Bool
  | [] => pure false
  | r :: rest => do
    let some c ← classOfObject? r | return false
    if ← setClassMember c (.object r) name value then return true
    else setChainMember name value rest

/-- Writes a member, which must be there. -/
def setMember (receiver : Value) (name : String) (value : Value) : Eval Unit := do
  let h ← heap
  let done ← match receiver with
    | .object r => setChainMember name value (h.delegates r)
    | v =>
      match h.class? (h.classOf v) with
      | some c => setClassMember c v name value
      | none => pure false
  if !done then fail (.noMember (← subject (← lastAsked receiver)) name)

end Tern.Eval
