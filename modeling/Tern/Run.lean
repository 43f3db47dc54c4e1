/-
Running units of text in a session: texts, and files with the modules beside them. A failure that
no clause of the program takes is reported, and the session stays usable.
-/
import Tern.Eval.Perform

namespace Tern

/-- The wording of a signal. -/
def Heap.signalText (h : Heap) : Signal → String
  | .fault cause _ => cause.kind.name ++ ": " ++ cause.message
  | .thrown value _ => "Thrown " ++ h.display value
  | .leave value => "Return signal with value: " ++ h.display value
  | .fatal e => e.message
  | .outOfFuel _ => "out of fuel"

/-- Why a unit gave no value. -/
inductive Failure where
  /-- A text that does not parse. -/
  | source (error : SourceError)
  /-- An exception that the program did not handle. -/
  | uncaught (className message : String) (trace : Trace)
  /-- A file that can not be read. -/
  | file (error : FileError)
  /-- The evaluation was given too little fuel. -/
  | outOfFuel

/-- A computation on a session as a whole. -/
abbrev Run := EStateM Failure Session

namespace Session

/-- The name of the class of an exception, and its message. -/
def describe (exception : Value) (s : Session) : (String × String) × Session :=
  match exception with
  | .object r =>
    let name := s.heap.objectClassName r
    match Eval.getMember exception "message" s with
    | .ok .null s => ((name, ""), s)
    | .ok message s => ((name, s.heap.display message), s)
    | .error _ s => ((name, ""), s)
  | v => ((s.heap.className (s.heap.classOf v), s.heap.display v), s)

/-- The lines that tell of an unhandled exception. -/
def reportLines (className message : String) (trace : Trace) : List String :=
  ("Uncaught " ++ className ++ ": " ++ message) :: trace.map ("    at " ++ ·.text)

/-- Reports a signal that left the program. -/
def report (signal : Signal) (s : Session) : Failure × Session :=
  match Eval.materialize Eval.run signal s with
  | .error (.fatal e) s => (.source e, s)
  | .error (.outOfFuel _) s => (.outOfFuel, s)
  | .error other s => (.uncaught "Error" (s.heap.signalText other) s.env.trace, s)
  | .ok (exception, trace) s =>
    let ((className, message), s) := describe exception { s with env := s.env.pushSnapshot trace }
    let s := { s with env := s.env.popSnapshot }
    let text := String.join ((reportLines className message trace).map (· ++ "\n"))
    (.uncaught className message trace, { s with err := s.err ++ text })

/-- Runs a text as a unit. -/
def evalSource (name text : String) : Run Value := fun s =>
  match parse name text with
  | .error e => .error (.source e) s
  | .ok body =>
    let depth := s.env.depth
    let previous := s.env.file
    let restore (s : Session) : Session :=
      { s with env := (s.env.truncate depth).setFile previous }
    match Eval.program Eval.run body { s with env := s.env.setFile name } with
    | .ok v s => .ok v (restore s)
    | .error signal s =>
      let (failure, s) := report signal s
      .error failure (restore s)

/-- Runs a file as a unit. Unless the session has a directory of modules, that of the file
becomes it. -/
def runFile (path : String) : Run Value := fun s =>
  let s := { s with sought := path :: s.sought }
  match s.files.read path with
  | .error e => .error (.file e) s
  | .ok text =>
    let root := match s.moduleRoot with
      | some root => some root
      | none => Path.parent? path
    evalSource path text { s with moduleRoot := root }

end Session

end Tern
