/-
Evaluation as a computation on sessions: the ways in which one can end without a value, and the
steps that all of the evaluator is made of.

Evaluating an expression and calling a value need each other. Every part of the evaluator is
therefore given a `Runner` for the tasks it meets on the way, and the runner is tied to the parts
in one place only.
-/
import Tern.Expr.Parser
import Tern.Session
import Tern.Value.Equality

namespace Tern

/-- What an evaluation can be given too little of. -/
inductive Shortage where
  /-- Tasks inside one another. -/
  | levels
  /-- Calls inside one another that get no frame. -/
  | calls
  /-- Rounds of a loop. -/
  | rounds
  deriving DecidableEq, Repr

/-- How an evaluation ends without a value. A trace is empty until a frame is left. -/
inductive Signal where
  /-- A failure of the program. -/
  | fault (cause : Fault) (trace : Trace)
  /-- A value that the program raised. -/
  | thrown (value : Value) (trace : Trace)
  /-- A return from the function that is running. -/
  | leave (value : Value)
  /-- A text to be run that does not parse. -/
  | fatal (error : SourceError)
  /-- The evaluation was given too little of something. -/
  | outOfFuel (lacking : Shortage)

/-- Gives a failure without a trace the trace of an environment. -/
def Signal.traced (env : Environment) : Signal → Signal
  | .fault cause [] => .fault cause env.trace
  | .thrown value [] => .thrown value env.trace
  | signal => signal

/-- A computation on a session that gives a value or ends in a signal. Either way the session
goes on. -/
abbrev Eval := EStateM Signal Session

/-- What a part of the evaluator may ask for. -/
inductive Task where
  | expr (e : Expr)
  | call (callee : Value) (arguments : List Value)

/-- A way to carry out tasks. -/
abbrev Runner := Task → Eval Value

namespace Eval

variable {α : Type}

/-- Ends in a failure. -/
def fail (fault : Fault) : Eval α := throw (.fault fault [])

/-- The value of a result, or its failure. -/
def orFail : Except Fault α → Eval α
  | .ok a => pure a
  | .error fault => fail fault

/-! ### The heap -/

/-- The heap as it is. -/
def heap : Eval Heap := return (← get).heap

/-- Changes the heap. -/
def modifyHeap (f : Heap → Heap) : Eval Unit := modify fun s => { s with heap := f s.heap }

/-- A fresh list. -/
def newList (items : Array Value) : Eval Value :=
  modifyGet fun s =>
    let (ref, heap) := s.heap.addList items
    (.list ref, { s with heap })

/-- A fresh map. -/
def newMap (entries : Entries) : Eval Value :=
  modifyGet fun s =>
    let (ref, heap) := s.heap.addMap entries
    (.map ref, { s with heap })

/-- A fresh object. -/
def newObject (o : Instance) : Eval ObjectRef :=
  modifyGet fun s =>
    let (ref, heap) := s.heap.addObject o
    (ref, { s with heap })

/-- A fresh class. -/
def newClass (c : Class) : Eval Value :=
  modifyGet fun s =>
    let (ref, heap) := s.heap.addClass c
    (.classOf ref, { s with heap })

/-- A fresh function. -/
def newFunction (f : Closure) : Eval Value :=
  modifyGet fun s =>
    let (ref, heap) := s.heap.addFunction f
    (.function ref, { s with heap })

/-- The displayed form of a value. -/
def display (v : Value) : Eval String := return (← heap).display v

/-- How messages speak of a value. -/
def subject (v : Value) : Eval Subject := return (← heap).subject v

/-! ### The host -/

/-- Asks the host for something, which counts. -/
def ask (question : Host → Nat → α) : Eval α :=
  modifyGet fun s => (question s.host s.asked, { s with asked := s.asked + 1 })

/-- The values at hand with the new lists of an answer behind them. -/
def addLists (atHand : List Value) : List (List Host.Reply) → Eval (List Value)
  | [] => pure atHand
  | items :: rest => do
    let list ← newList (Host.Reply.values atHand items).toArray
    addLists (atHand ++ [list]) rest

/-- An operation of the host on its arguments. -/
def hostOperation (number : Nat) (arguments : List Value) : Eval Value := do
  let h ← heap
  let answer ← orFail (← ask fun host asked => host.operation asked number arguments h)
  let atHand ← addLists arguments answer.lists
  return answer.value.value atHand

/-- A member that the host computes. -/
def hostMember (number : Nat) (this : Value) : Eval Value := do
  let s ← get
  let reply ← orFail (s.host.member number this s.heap)
  return reply.value [this]

/-! ### The environment -/

/-- Changes the environment. -/
def modifyEnv (f : Environment → Environment) : Eval Unit :=
  modify fun s => { s with env := f s.env }

/-- Changes the environment in a way that can fail and then changes nothing. -/
def tryEnv (f : Environment → Except Fault Environment) : Eval Unit := do
  let env ← orFail (f (← get).env)
  modifyEnv fun _ => env

/-- Notes the line at which the innermost frame stands. -/
def mark (line : Nat) : Eval Unit := modifyEnv (·.mark line)

/-- Binds a name in the innermost frame. -/
def bindName (name : String) (value : Value) : Eval Unit := modifyEnv (·.bind name value)

/-- Assigns to a name, which has to be new if the assignment declares it. -/
def assign (name : String) (value : Value) (declare : Bool) : Eval Unit :=
  if declare then tryEnv (·.define name value) else modifyEnv (·.put name value)

/-- Runs a body in a frame of its own, unless there are too many frames. The frame goes when the
body ends, however it ends, and a failure without a trace gets that of the stack it leaves. -/
def inFrame (name file : String) (line : Nat) (body : Eval α) : Eval α := fun s =>
  if s.maxDepth ≤ s.env.depth then .error (.fault (.tooManyFrames s.maxDepth) []) s
  else
    match body { s with env := s.env.push name file line } with
    | .ok a s => .ok a { s with env := s.env.pop }
    | .error signal s => .error (signal.traced s.env) { s with env := s.env.pop }

/-- Runs a body with the innermost frame in another file. -/
def inFile (file : String) (body : Eval α) : Eval α := fun s =>
  let previous := s.env.file
  match body { s with env := s.env.setFile file } with
  | .ok a s => .ok a { s with env := s.env.setFile previous }
  | .error signal s => .error (signal.traced s.env) { s with env := s.env.setFile previous }

/-- Runs a body while a failure with a trace is being handled. -/
def handling (trace : Trace) (body : Eval α) : Eval α := fun s =>
  match body { s with env := s.env.pushSnapshot trace } with
  | .ok a s => .ok a { s with env := s.env.popSnapshot }
  | .error signal s => .error signal { s with env := s.env.popSnapshot }

/-- Runs a body and, if it ends in a signal, a handler from there on. -/
def recover (body : Eval α) (handler : Signal → Eval α) : Eval α := fun s =>
  match body s with
  | .ok a s => .ok a s
  | .error signal s => handler signal s

/-- The value of a return; any other signal goes on. -/
def takeLeave : Signal → Eval Value
  | .leave value => pure value
  | signal => throw signal

/-- Takes the value of a return as that of the whole body. -/
def catchLeave (body : Eval Value) : Eval Value := recover body takeLeave

/-! ### Expressions in a row -/

/-- The values of expressions in order. -/
def evalAll (run : Runner) : List Expr → Eval (List Value)
  | [] => pure []
  | e :: rest => do
    let v ← run (.expr e)
    let vs ← evalAll run rest
    return v :: vs

/-- Evaluates expressions in order; the value is that of the last one, if there is one. -/
def sequenceFrom (run : Runner) (last : Value) : List Expr → Eval Value
  | [] => pure last
  | e :: rest => do
    let v ← run (.expr e)
    sequenceFrom run v rest

/-- Evaluates expressions in order; the value is that of the last one, null if there is none. -/
def sequence (run : Runner) (body : List Expr) : Eval Value := sequenceFrom run .null body

/-- Runs the expressions of a program; a return ends it. -/
def program (run : Runner) (body : List Expr) : Eval Value := catchLeave (sequence run body)

/-- Runs a text in the innermost frame. -/
def inPlace (run : Runner) (source text : String) : Eval Value :=
  match parse source text with
  | .error e => throw (.fatal e)
  | .ok body => program run body

end Eval

end Tern
