/-
Operators, indexing, and what a loop goes through.
-/
import Tern.Eval.Basic
import Tern.Number.Remainder

namespace Tern.Eval

/-- The value of a constant. -/
def constant : Constant → Value
  | .number n => .number n.value
  | .text s => .text s
  | .bool b => .bool b
  | .null => .null

/-- An operator with one operand. -/
def unary : UnaryOp → Value → Eval Value
  | .negate, .number x => pure (.number (-x))
  | .negate, v => fail (.negand v.kind)
  | .not, v => pure (.bool !v.isTruthy)

/-- An operator on two numbers. -/
def onNumbers (op : BinaryOp) (x y : Float) : Except Fault Value :=
  match op with
  | .add => .ok (.number (x + y))
  | .subtract => .ok (.number (x - y))
  | .multiply => .ok (.number (x * y))
  | .divide => if y == 0 then .error (.byZero op) else .ok (.number (x / y))
  | .remainder => if y == 0 then .error (.byZero op) else .ok (.number (Number.rem x y))
  | .power => .ok (.number (x ^ y))
  | .less => .ok (.bool (x < y))
  | .lessEqual => .ok (.bool (x ≤ y))
  | .greater => .ok (.bool (y < x))
  | .greaterEqual => .ok (.bool (y ≤ x))
  | .concat | .equal | .notEqual => .error (.operands op .number .number)

/-- An operator on two strings. -/
def onTexts (op : BinaryOp) (s t : String) : Except Fault Value :=
  match op with
  | .add => .ok (.text (s ++ t))
  | .less => .ok (.bool (s < t))
  | .lessEqual => .ok (.bool !(t < s : Bool))
  | .greater => .ok (.bool (t < s))
  | .greaterEqual => .ok (.bool !(s < t : Bool))
  | _ => .error (.operands op .string .string)

/-- An operator with two operands. Equality and concatenation take any values, the others only
numbers, strings or lists of their own kind. -/
def binary (op : BinaryOp) (left right : Value) : Eval Value := do
  match op, left, right with
  | .equal, _, _ => return .bool ((← heap).equal left right)
  | .notEqual, _, _ => return .bool !((← heap).equal left right)
  | .concat, _, _ =>
    let h ← heap
    return .text (h.display left ++ h.display right)
  | _, .number x, .number y => orFail (onNumbers op x y)
  | _, .text s, .text t => orFail (onTexts op s t)
  | .add, .list a, .list b =>
    let h ← heap
    newList (h.items a ++ h.items b)
  | _, _, _ => fail (.operands op left.kind right.kind)

/-! ### Indexing -/

/-- The place that an index means among `length` items. -/
def position (index : Value) (length : Nat) : Eval Nat := do
  match index with
  | .number x =>
    match Number.toIndex? x with
    | some i =>
      if 0 ≤ i ∧ i < length then return i.toNat
      else fail (.badIndex ((← heap).display index) length)
    | none => fail (.badIndex ((← heap).display index) length)
  | v => fail (.indexKind v.kind)

/-- Reads at an index. -/
def getIndex (target index : Value) : Eval Value := do
  match target with
  | .list r =>
    let items := (← heap).items r
    let i ← position index items.size
    return items[i]?.getD .null
  | .tuple items =>
    let i ← position index items.length
    return items[i]?.getD .null
  | .text s =>
    let items := Value.characters s
    let i ← position index items.length
    return items[i]?.getD .null
  | .map r =>
    let h ← heap
    match (h.entries r).find? index with
    | some v => return v
    | none => fail (.noKey (h.display index))
  | v => fail (.notIndexable v.kind)

/-- Writes at an index. -/
def setIndex (target index value : Value) : Eval Unit := do
  match target with
  | .list r =>
    let i ← position index ((← heap).items r).size
    modifyHeap (·.modifyList r (·.setIfInBounds i value))
  | .map r => modifyHeap (·.modifyMap r (·.insert index value))
  | .tuple _ | .text _ => fail (.immutable target.kind)
  | v => fail (.notIndexAssignable v.kind)

/-- What a loop goes through. Later changes of the collection do not show in it. -/
def iterationItems : Value → Eval (List Value)
  | .list r => return ((← heap).items r).toList
  | .tuple items => pure items
  | .map r => return ((← heap).entries r).map fun (k, v) => .tuple [k, v]
  | .text s => pure (Value.characters s)
  | v => fail (.notIterable v.kind)

end Tern.Eval
