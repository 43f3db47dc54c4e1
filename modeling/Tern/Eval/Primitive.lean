/-
What the operations of the library do. A function that was read off a receiver gets it as its
first argument. An operation gives null for numbers of arguments that none of its overloads has.
-/
import Tern.Eval.Basic
import Tern.Number.Read
import Tern.Text.Blank
import Tern.Text.LetterCase
import Tern.Text.Split

namespace Tern.Eval

/-! ### Arguments -/

/-- An argument that has to be a string. -/
def textArgument (function : String) : Value → Eval String
  | .text s => pure s
  | v => fail (.argument function "a String" v.kind)

/-- An argument that has to be a number. -/
def numberArgument (function : String) : Value → Eval Float
  | .number x => pure x
  | v => fail (.argument function "a Number" v.kind)

/-- An argument that has to be a list. -/
def listArgument (function : String) : Value → Eval ListRef
  | .list r => pure r
  | v => fail (.argument function "a List" v.kind)

/-- The items of an argument that has to be a list. -/
def itemsArgument (function : String) (v : Value) : Eval (Array Value) := do
  let r ← listArgument function v
  return (← heap).items r

/-- An argument that has to be a map. -/
def mapArgument (function : String) : Value → Eval MapRef
  | .map r => pure r
  | v => fail (.argument function "a Map" v.kind)

/-- An argument that has to be an integer. -/
def boundArgument (v : Value) : Eval Int :=
  match v with
  | .number x =>
    match Number.toIndex? x with
    | some n => pure n
    | none => fail (.argument "range" "an integral Number" v.kind)
  | _ => fail (.argument "range" "an integral Number" v.kind)

/-! ### Calling back -/

/-- Calls a function on items one by one. -/
def callEach (run : Runner) (f : Value) : List Value → Eval Unit
  | [] => pure ()
  | item :: rest => do
    let _ ← run (.call f [item])
    callEach run f rest

/-- What a function gives on items one by one, behind what is there already. -/
def callMap (run : Runner) (f : Value) (done : Array Value) : List Value → Eval (Array Value)
  | [] => pure done
  | item :: rest => do
    let v ← run (.call f [item])
    callMap run f (done.push v) rest

/-- The items on which a function gives something true, behind what is there already. -/
def callFilter (run : Runner) (f : Value) (done : Array Value) : List Value → Eval (Array Value)
  | [] => pure done
  | item :: rest => do
    let v ← run (.call f [item])
    callFilter run f (if v.isTruthy then done.push item else done) rest

/-- Combines items from the left. -/
def callFold (run : Runner) (f : Value) (acc : Value) : List Value → Eval Value
  | [] => pure acc
  | item :: rest => do
    let acc ← run (.call f [acc, item])
    callFold run f acc rest

/-! ### Operations -/

/-- The numbers from a start up to an end, the end not included. -/
def numbersBetween (first last : Int) : Array Value :=
  let numbers := (List.range (last - first).toNat).map fun (i : Nat) => first + (i : Int)
  (numbers.map fun n => Value.number (Float.ofInt n)).toArray

/-- The displayed items of a list with a separator between them. -/
def joinItems (list : Value) (separator : String) : Eval Value := do
  let items ← itemsArgument "join" list
  let h ← heap
  return .text (separator.intercalate (items.toList.map h.display))

/-- A number from a value that is one or that writes one. -/
def toNumber : Value → Eval Value
  | .number x => pure (.number x)
  | .text s =>
    match Number.read? (Text.trim s.toList) with
    | some x => pure (.number x)
    | none => fail (.notNumeric s)
  | v => fail (.argument "Number" "a Number or String" v.kind)

/-- Reads the clock of the host. -/
def readClock : Eval Value := return .number (← ask Host.clock)

/-- Prints a line. -/
def printLine (line : String) : Eval Unit := modify fun s => { s with out := s.out ++ line ++ "\n" }

/-- A function of the global frame on its arguments. -/
def globalOperation (run : Runner) (operation : Primitive) (arguments : List Value) :
    Eval Value := do
  match operation, arguments with
  | .print, args =>
    let h ← heap
    printLine (" ".intercalate (args.map h.display))
    return .null
  | .str, [v] => return .text (← display v)
  | .typeOf, [v] => return .classOf ((← heap).classOf v)
  | .eval, [v] =>
    let text ← textArgument "eval" v
    inPlace run "<eval>" text
  | .clock, _ => readClock
  | .range, [last] => newList (numbersBetween 0 (← boundArgument last))
  | .range, [first, last] =>
    let first ← boundArgument first
    let last ← boundArgument last
    newList (numbersBetween first last)
  | .assert, [condition] =>
    if condition.isTruthy then return .null else fail (.assertion "assertion failed")
  | .assert, [condition, message] =>
    if condition.isTruthy then return .null else fail (.assertion (← display message))
  | .stacktrace, _ =>
    let trace := (← get).env.stackTrace
    newList (trace.map (Value.text ·.text)).toArray
  | _, _ => return .null

/-- An operation of strings or numbers on its arguments. -/
def scalarOperation (operation : Primitive) (arguments : List Value) : Eval Value := do
  match operation, arguments with
  | .newString, [v] => return .text (← display v)
  | .upper, [this] => return .text (Text.upper (← textArgument "upper" this))
  | .lower, [this] => return .text (Text.lower (← textArgument "lower" this))
  | .trim, [this] =>
    let s ← textArgument "trim" this
    return .text (String.ofList (Text.trim s.toList))
  | .split, [this, separator] =>
    let s ← textArgument "split" this
    let separator ← textArgument "split" separator
    let parts := Text.split separator.toList s.toList
    newList (parts.map (Value.text <| String.ofList ·)).toArray
  | .containsText, [this, part] =>
    let s ← textArgument "contains" this
    let part ← textArgument "contains" part
    return .bool (Text.occurs part.toList s.toList)
  | .chars, [this] => newList (Value.characters (← textArgument "chars" this)).toArray
  | .newNumber, [v] => toNumber v
  | .floor, [this] => return .number (← numberArgument "floor" this).floor
  | .ceil, [this] => return .number (← numberArgument "ceil" this).ceil
  | .round, [this] => return .number (← numberArgument "round" this).round
  | .abs, [this] => return .number (← numberArgument "abs" this).abs
  | _, _ => return .null

/-- An operation of lists on its arguments. -/
def listOperation (run : Runner) (operation : Primitive) (arguments : List Value) :
    Eval Value := do
  match operation, arguments with
  | .newList, items => newList items.toArray
  | .push, [this, item] =>
    let r ← listArgument "push" this
    modifyHeap (·.modifyList r (·.push item))
    return this
  | .pop, [this] =>
    let r ← listArgument "pop" this
    match ((← heap).items r).back? with
    | some item =>
      modifyHeap (·.modifyList r (·.pop))
      return item
    | none => fail .emptyPop
  | .containsItem, [this, item] =>
    let items ← itemsArgument "contains" this
    let h ← heap
    return .bool (items.any (h.equal · item))
  | .each, [this, f] =>
    callEach run f (← itemsArgument "each" this).toList
    return .null
  | .mapItems, [this, f] => newList (← callMap run f #[] (← itemsArgument "map" this).toList)
  | .filter, [this, f] => newList (← callFilter run f #[] (← itemsArgument "filter" this).toList)
  | .fold, [this, start, f] => callFold run f start (← itemsArgument "fold" this).toList
  | .join, [this] => joinItems this ""
  | .join, [this, separator] => joinItems this (← textArgument "join" separator)
  | .reverse, [this] => newList (← itemsArgument "reverse" this).reverse
  | _, _ => return .null

/-- An operation of maps or tuples on its arguments. -/
def entryOperation (operation : Primitive) (arguments : List Value) : Eval Value := do
  match operation, arguments with
  | .newMap, _ => newMap []
  | .keys, [this] =>
    let r ← mapArgument "keys" this
    newList ((← heap).entries r).keys.toArray
  | .values, [this] =>
    let r ← mapArgument "values" this
    newList ((← heap).entries r).values.toArray
  | .hasKey, [this, key] =>
    let r ← mapArgument "has" this
    return .bool (((← heap).entries r).has key)
  | .getKey, [this, key] =>
    let r ← mapArgument "get" this
    return (((← heap).entries r).find? key).getD .null
  | .getKey, [this, key, default] =>
    let r ← mapArgument "get" this
    return (((← heap).entries r).find? key).getD default
  | .removeKey, [this, key] =>
    let r ← mapArgument "remove" this
    let old := (((← heap).entries r).find? key).getD .null
    modifyHeap (·.modifyMap r (·.erase key))
    return old
  | .newTuple, items => return .tuple items
  | .toList, [this] =>
    match this with
    | .tuple items => newList items.toArray
    | v => fail (.argument "toList" "a Tuple" v.kind)
  | _, _ => return .null

/-- An operation of exceptions on its arguments. -/
def exceptionOperation (operation : Primitive) (arguments : List Value) : Eval Value := do
  match operation, arguments with
  | .initException, [this, message] =>
    match this with
    | .object r =>
      modifyHeap (·.setSlot r "message" message)
      return .null
    | v => fail (.argument "Exception.init" "an instance" v.kind)
  | .showException, [this] =>
    match this with
    | .object r =>
      let h ← heap
      match (h.slot? r "message").getD .null with
      | .null => return .text (h.objectClassName r)
      | message => return .text (h.display message)
    | v => fail (.argument "toString" "an instance" v.kind)
  | _, _ => return .null

/-- An operation of the library on its arguments. -/
def primitive (run : Runner) (operation : Primitive) (arguments : List Value) : Eval Value :=
  match operation with
  | .print | .str | .typeOf | .eval | .clock | .range | .assert | .stacktrace =>
    globalOperation run operation arguments
  | .newString | .upper | .lower | .trim | .split | .containsText | .chars
  | .newNumber | .floor | .ceil | .round | .abs => scalarOperation operation arguments
  | .newList | .push | .pop | .containsItem | .each | .mapItems | .filter | .fold | .join
  | .reverse => listOperation run operation arguments
  | .newMap | .keys | .values | .hasKey | .getKey | .removeKey | .newTuple | .toList =>
    entryOperation operation arguments
  | .initException | .showException => exceptionOperation operation arguments
  | .host number => hostOperation number arguments

end Tern.Eval
