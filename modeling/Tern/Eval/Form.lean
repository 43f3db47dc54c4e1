/-
Evaluating the forms of expressions, each in terms of a runner for the expressions inside it.
-/
import Tern.Eval.Call
import Tern.Eval.Operator
import Tern.Eval.Pattern
import Tern.Module

namespace Tern.Eval

/-! ### Collections and calls -/

/-- The entries of a map that is written out, behind what is there already. -/
def evalEntries (run : Runner) (done : Entries) : List (Expr × Expr) → Eval Entries
  | [] => pure done
  | (key, value) :: rest => do
    let key ← run (.expr key)
    let value ← run (.expr value)
    evalEntries run (done.insert key value) rest

/-- The items that an argument stands for when it is spread. -/
def spreadItems : Value → Eval (List Value)
  | .list r => return ((← heap).items r).toList
  | .tuple items => pure items
  | v => fail (.notSpreadable v.kind)

/-- The arguments of a call. -/
def evalArguments (run : Runner) : List Expr → Eval (List Value)
  | [] => pure []
  | .node _ (.spread inner) :: rest => do
    let items ← spreadItems (← run (.expr inner))
    return items ++ (← evalArguments run rest)
  | e :: rest => do
    let v ← run (.expr e)
    return v :: (← evalArguments run rest)

/-! ### Assignment by patterns, clauses and loops -/

/-- Assigns to the names of a pattern. The pattern is first tried in a frame of its own, so that
nothing is assigned if it does not fit. -/
def destructure (run : Runner) (pattern : Expr) (value : Value) : Eval Unit := do
  let fits ← inFrame "<destructure>" pattern.source pattern.line
    (matchPattern run .fresh pattern value)
  if !fits then fail (.noMatch .destructuring (← display value))
  let _ ← matchPattern run (if pattern.declares then .declare else .assign) pattern value

/-- Tries a clause in a frame of its own; it has a value if its pattern fits. -/
def tryClause (run : Runner) (frame : String) (value : Value) (clause : Expr × Expr) :
    Eval (Option Value) :=
  inFrame frame clause.1.source clause.1.line do
    if ← matchPattern run .fresh clause.1 value then some <$> run (.expr clause.2)
    else return none

/-- The value of the first clause whose pattern fits. -/
def runClauses (run : Runner) (frame : String) (value : Value) :
    List (Expr × Expr) → Eval (Option Value)
  | [] => pure none
  | clause :: rest => do
    match ← tryClause run frame value clause with
    | some v => return some v
    | none => runClauses run frame value rest

/-- Runs the body of a loop for items in order, each in a frame of its own. -/
def loopItems (run : Runner) (site : Site) (pattern body : Expr) (last : Value) :
    List Value → Eval Value
  | [] => pure last
  | item :: rest => do
    let v ← inFrame "<for>" site.token.source site.token.line do
      if ← matchPattern run .fresh pattern item then run (.expr body)
      else fail (.noMatch .loop (← display item))
    loopItems run site pattern body v rest

/-- Runs the body of a loop as long as the condition holds, a number of rounds at most. -/
def loopWhile (run : Runner) (condition body : Expr) : Nat → Value → Eval Value
  | 0, _ => throw (.outOfFuel .rounds)
  | rounds + 1, last => do
    if (← run (.expr condition)).isTruthy then
      let v ← run (.expr body)
      loopWhile run condition body rounds v
    else return last

/-- Runs the first clause that fits the exception of a signal. If none fits, the exception goes on
with its trace. -/
def handle (run : Runner) (clauses : List (Expr × Expr)) (signal : Signal) : Eval Value := do
  let (exception, trace) ← materialize run signal
  match ← handling trace (runClauses run "<catch>" exception clauses) with
  | some v => return v
  | none => throw (.thrown exception trace)

/-- Runs a body and handles its failure by clauses. -/
def attempt (run : Runner) (body : Expr) (clauses : List (Expr × Expr)) : Eval Value :=
  recover (run (.expr body)) (handle run clauses)

/-! ### Classes and modules -/

/-- Adds a declared member to a class. -/
def addMember (c : Class) : Member → Class
  | .method name params body =>
    { c with methods := c.methods.put name (.user ⟨name, params, body⟩) }
  | .field name => { c with fields := c.fields.put name (.slot none) }
  | .fieldWith name default => { c with fields := c.fields.put name (.slot (some default)) }

/-- The superclass that a declaration names. -/
def superclassNamed (className : String) : Option String → Eval (Option ClassRef)
  | none => pure none
  | some name => do
    let s ← get
    match ← orFail (s.env.get name) with
    | .classOf r =>
      match s.heap.class? r with
      | some c =>
        if c.synthetic then fail (.nativeSuperclass className c.name) else return some r
      | none => return none
    | v => fail (.superclassKind className v.kind)

/-- Declares a class. -/
def declareClass (name : String) (superclass : Option String) (members : List Member) :
    Eval Value := do
  let superclass ← superclassNamed name superclass
  let blank : Class :=
    { name, methods := [], fields := [], superclass, synthetic := false, init := none }
  let c ← newClass (members.foldl addMember blank)
  assign name c false
  return c

/-- The text of a module by its path. -/
def loadModule (relative : String) : Eval String := do
  match Module.bundled? relative with
  | some text => return text
  | none =>
    let s ← get
    let path := Path.join (s.moduleRoot.getD "") relative
    modify fun s => { s with sought := path :: s.sought }
    match s.files.isFile path, s.files.read path with
    | false, _ => fail (.noModule relative)
    | true, .ok text => return text
    | true, .error e => fail (.unreadableModule path e.message)

/-- Runs a module in the innermost frame, unless it has been imported before. -/
def importModule (run : Runner) (segments : List String) : Eval Value := do
  let relative := Module.path segments
  if (← get).imported.contains relative then return .null
  let text ← loadModule relative
  modify fun s => { s with imported := relative :: s.imported }
  let _ ← inFile relative (inPlace run relative text)
  return .null

/-! ### Forms -/

/-- Evaluates a form that stands at a site. A loop has at most `rounds` rounds. -/
def evalForm (rounds : Nat) (run : Runner) (site : Site) : Form → Eval Value
  | .constant c => pure (constant c)
  | .name name => do orFail ((← get).env.get name)
  | .group inner => run (.expr inner)
  | .tuple items => return .tuple (← evalAll run items)
  | .list items => do newList (← evalAll run items).toArray
  | .map entries => do newMap (← evalEntries run [] entries)
  | .pair left right => do
    let v ← run (.expr left)
    let w ← run (.expr right)
    return .tuple [v, w]
  | .unary op operand => do unary op (← run (.expr operand))
  | .binary op left right => do
    let v ← run (.expr left)
    let w ← run (.expr right)
    mark site.token.line
    binary op v w
  | .logical op left right => do
    let v ← run (.expr left)
    match op, v.isTruthy with
    | .or, true | .and, false => return v
    | _, _ => run (.expr right)
  | .assign name value declare => do
    let v ← run (.expr value)
    assign name v declare
    return v
  | .destructure pattern value => do
    let v ← run (.expr value)
    destructure run pattern v
    return v
  | .index target index => do
    let v ← run (.expr target)
    let i ← run (.expr index)
    mark site.token.line
    getIndex v i
  | .setIndex target index value => do
    let v ← run (.expr target)
    let i ← run (.expr index)
    let w ← run (.expr value)
    mark site.token.line
    setIndex v i w
    return w
  | .member object name safe => do
    let v ← run (.expr object)
    if safe && v.isNull then return .null
    mark site.token.line
    getMember v name
  | .setMember object name value => do
    let v ← run (.expr object)
    let w ← run (.expr value)
    mark site.token.line
    setMember v name w
    return w
  | .call callee arguments => do
    let f ← run (.expr callee)
    let args ← evalArguments run arguments
    mark site.token.line
    run (.call f args)
  | .spread _ => fail .straySpread
  | .function name params body declare => do
    let f ← newFunction ⟨⟨name, params, body⟩, none⟩
    assign name f declare
    return f
  | .lambda params body => newFunction ⟨⟨lambdaName, params, body⟩, none⟩
  | .block body => inFrame "<block>" site.token.source site.token.line (sequence run body)
  | .branch condition yes => do
    if (← run (.expr condition)).isTruthy then run (.expr yes) else return .null
  | .branchElse condition yes no => do
    if (← run (.expr condition)).isTruthy then run (.expr yes) else run (.expr no)
  | .whileLoop condition body => loopWhile run condition body rounds .null
  | .forLoop pattern iterable body => do
    let items ← iterationItems (← run (.expr iterable))
    loopItems run site pattern body .null items
  | .matching scrutinee clauses => do
    let v ← run (.expr scrutinee)
    match ← runClauses run "<match>" v clauses with
    | some w => return w
    | none => fail (.noMatch .clause (← display v))
  | .attempt body clauses => attempt run body clauses
  | .raise value => do throw (.thrown (← run (.expr value)) [])
  | .leave => throw (.leave .null)
  | .leaveWith value => do throw (.leave (← run (.expr value)))
  | .classDef name superclass members => declareClass name superclass members
  | .importing path => importModule run path

/-- Evaluates an expression: notes its line, then evaluates its form. -/
def evalExpr (rounds : Nat) (run : Runner) (e : Expr) : Eval Value := do
  mark e.line
  evalForm rounds run e.site e.form

end Tern.Eval
