/-
Patterns. A pattern is an expression, read as the shape of a value: a name takes any value and is
bound to it, constants and collections are compared part by part, `p: C` with a class `C` asks for
an instance, and anything else is evaluated and compared.

Names that were bound before a match fails stay bound.
-/
import Tern.Eval.Basic

namespace Tern.Eval

/-- How the names of a pattern are bound. -/
inductive BindMode where
  /-- In the innermost frame, over what is there. -/
  | fresh
  /-- As an assignment does. -/
  | assign
  /-- In the innermost frame, where they must be new. -/
  | declare
  deriving DecidableEq, Repr

/-- Binds a name of a pattern. -/
def bindAs (mode : BindMode) (name : String) (value : Value) : Eval Unit :=
  match mode with
  | .fresh => bindName name value
  | .assign => assign name value false
  | .declare => assign name value true

/-- Whether a value is the one that a constant writes. -/
def fitsConstant : Constant → Value → Bool
  | .number n, .number x => n.value == x
  | .text s, .text t => s == t
  | .bool a, .bool b => a == b
  | .null, .null => true
  | _, _ => false

/-- The class that the right side of a pair asks for, if it is a bound name or a member and its
value is a class. -/
def classPattern? (run : Runner) (e : Expr) : Eval (Option ClassRef) := do
  match e.form with
  | .name name =>
    match (← get).env.find? name with
    | some (.classOf r) => return some r
    | _ => return none
  | .member .. =>
    match ← run (.expr e) with
    | .classOf r => return some r
    | _ => return none
  | _ => return none

mutual

/-- Matches a value with a pattern and binds the names of the pattern; whether it fits. -/
def matchPattern (run : Runner) (mode : BindMode) : Expr → Value → Eval Bool
  | .node site form, value => matchForm run mode site form value

/-- Matches a value with a pattern that is taken apart. -/
def matchForm (run : Runner) (mode : BindMode) (site : Site) : Form → Value → Eval Bool
  | .name name, value => do
    if name ≠ "_" then
      bindAs (if site.annotations.contains Expr.newName then .declare else mode) name value
    return true
  | .constant c, value => pure (fitsConstant c value)
  | .group inner, value => matchPattern run mode inner value
  | .tuple patterns, value =>
    match value with
    | .tuple items =>
      if patterns.length = items.length then matchItems run mode patterns items else pure false
    | _ => pure false
  | .list patterns, value => do
    match value with
    | .list r =>
      let items := ((← heap).items r).toList
      if patterns.length = items.length then matchItems run mode patterns items else pure false
    | _ => pure false
  | .map patterns, value =>
    match value with
    | .map r => matchEntries run mode r patterns
    | _ => pure false
  | .pair left right, value => do
    match ← classPattern? run right with
    | some c =>
      if (← heap).isInstance value c then matchPattern run mode left value else return false
    | none =>
      match value with
      | .tuple [v, w] =>
        if ← matchPattern run mode left v then matchPattern run mode right w else return false
      | _ => return false
  | form, value => do
    let expected ← run (.expr (.node site form))
    return (← heap).equal expected value

/-- Matches values with patterns one by one, until one does not fit. -/
def matchItems (run : Runner) (mode : BindMode) : List Expr → List Value → Eval Bool
  | p :: ps, v :: vs => do
    if ← matchPattern run mode p v then matchItems run mode ps vs else return false
  | _, _ => pure true

/-- Matches the values of a map with patterns for the keys that are given, until one does not
fit. -/
def matchEntries (run : Runner) (mode : BindMode) (r : MapRef) : List (Expr × Expr) → Eval Bool
  | [] => pure true
  | (key, pattern) :: rest => do
    let key ← run (.expr key)
    match ((← heap).entries r).find? key with
    | some v =>
      if ← matchPattern run mode pattern v then matchEntries run mode r rest else return false
    | none => return false

end

end Tern.Eval
