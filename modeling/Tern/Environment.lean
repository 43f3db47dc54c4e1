/-
The environment: a stack of frames with the names bound in each, and the traces of the failures
that are being handled.

A name is looked up from the innermost frame outward, and the frames are those of the running
calls: a function sees the names of its callers. The outermost frame is the global one, which
always stays.
-/
import Tern.Bindings
import Tern.Fault

namespace Tern

/-- One line of a trace. -/
structure TraceEntry where
  function : String
  file : String
  line : Nat
  deriving DecidableEq, Repr

/-- The wording of a line of a trace. -/
def TraceEntry.text (e : TraceEntry) : String :=
  e.function ++ " (" ++ e.file ++ ":" ++ toString e.line ++ ")"

/-- A walk through a stack, the innermost frame first. -/
abbrev Trace := List TraceEntry

/-- A frame: who pushed it, where it stands, and its names. -/
structure Frame where
  name : String
  file : String
  line : Nat
  vars : Bindings Value

/-- The line of a trace for a frame. -/
def Frame.entry (f : Frame) : TraceEntry := ⟨f.name, f.file, f.line⟩

/-- Frames from the innermost to the global one, of which there is always at least one, and the
traces of failures under handling, the latest first. -/
structure Environment where
  top : Frame
  below : List Frame
  snapshots : List Trace

namespace Environment

/-- The global frame alone, without names. -/
def initial : Environment := ⟨⟨"<global>", "<input>", 0, []⟩, [], []⟩

/-! ### Frames -/

/-- All frames, the innermost first. -/
def frames (e : Environment) : List Frame := e.top :: e.below

/-- The number of frames. -/
def depth (e : Environment) : Nat := e.below.length + 1

/-- Puts a frame without names on top. -/
def push (e : Environment) (name file : String) (line : Nat) : Environment :=
  { e with top := ⟨name, file, line, []⟩, below := e.top :: e.below }

/-- Takes the innermost frame off; the global frame stays. -/
def pop (e : Environment) : Environment :=
  match e.below with
  | [] => e
  | f :: rest => { e with top := f, below := rest }

/-- Takes frames off until at most `depth` are left; the global frame stays. -/
def truncate (e : Environment) (depth : Nat) : Environment :=
  match e.frames.drop (e.depth - max depth 1) with
  | [] => e
  | f :: rest => { e with top := f, below := rest }

/-- Notes the line at which the innermost frame stands. -/
def mark (e : Environment) (line : Nat) : Environment :=
  { e with top := { e.top with line } }

/-- The file in which the innermost frame stands. -/
def file (e : Environment) : String := e.top.file

/-- Moves the innermost frame to another file. -/
def setFile (e : Environment) (file : String) : Environment :=
  { e with top := { e.top with file } }

/-- Taking off the frame that was just put on leaves what was there. -/
@[simp]
theorem pop_push (e : Environment) (name file : String) (line : Nat) :
    (e.push name file line).pop = e := rfl

/-- A new frame counts one. -/
@[simp]
theorem depth_push (e : Environment) (name file : String) (line : Nat) :
    (e.push name file line).depth = e.depth + 1 := rfl

/-- The global frame counts. -/
theorem depth_pos (e : Environment) : 0 < e.depth := Nat.succ_pos _

/-! ### Names -/

/-- The value of a name in the innermost frame of a stack that has it. -/
def findIn? (name : String) : List Frame → Option Value
  | [] => none
  | f :: rest =>
    match f.vars.find? name with
    | some v => some v
    | none => findIn? name rest

/-- The value of a name. -/
def find? (e : Environment) (name : String) : Option Value := findIn? name e.frames

/-- Whether a name is bound. -/
def has (e : Environment) (name : String) : Bool := (e.find? name).isSome

/-- The value of a name, which must be bound. -/
def get (e : Environment) (name : String) : Except Fault Value :=
  match e.find? name with
  | some v => .ok v
  | none => .error (.undefinedVariable name)

/-- A name is bound exactly if it has a value. -/
theorem has_eq_true_iff {e : Environment} {name : String} :
    e.has name = true ↔ ∃ v, e.get name = .ok v := by
  simp only [has, get]
  cases e.find? name <;> simp

/-- Binds a name in the innermost frame, whether or not it is bound there. -/
def bind (e : Environment) (name : String) (value : Value) : Environment :=
  { e with top := { e.top with vars := e.top.vars.put name value } }

/-- Binds a name in the innermost frame, where it must be new. -/
def define (e : Environment) (name : String) (value : Value) : Except Fault Environment :=
  if e.top.vars.has name then .error (.alreadyInScope name) else .ok (e.bind name value)

/-- Binds a name in the innermost frame, where it must be bound. -/
def update (e : Environment) (name : String) (value : Value) : Except Fault Environment :=
  if e.top.vars.has name then .ok (e.bind name value) else .error (.notInScope name)

/-- Changes the value of a name in the innermost frame of a stack that has it, if one has. -/
def putIn? (name : String) (value : Value) : List Frame → Option (List Frame)
  | [] => none
  | f :: rest =>
    if f.vars.has name then some ({ f with vars := f.vars.put name value } :: rest)
    else (putIn? name value rest).map (f :: ·)

/-- Assigns to a name: in the innermost frame that has it, or else in the innermost frame. -/
def put (e : Environment) (name : String) (value : Value) : Environment :=
  if e.top.vars.has name then e.bind name value
  else
    match putIn? name value e.below with
    | some below => { e with below }
    | none => e.bind name value

/-- Binds a name in the last frame of a stack. -/
def bindLast (name : String) (value : Value) : List Frame → List Frame
  | [] => []
  | [f] => [{ f with vars := f.vars.put name value }]
  | f :: g :: rest => f :: bindLast name value (g :: rest)

/-- Binds a name in the global frame. -/
def defineGlobal (e : Environment) (name : String) (value : Value) : Environment :=
  if e.below.isEmpty then e.bind name value
  else { e with below := bindLast name value e.below }

/-! ### Traces -/

/-- The trace of the stack as it is. -/
def trace (e : Environment) : Trace := e.frames.map (·.entry)

/-- Starts the handling of a failure with its trace. -/
def pushSnapshot (e : Environment) (trace : Trace) : Environment :=
  { e with snapshots := trace :: e.snapshots }

/-- Ends the handling of a failure. -/
def popSnapshot (e : Environment) : Environment :=
  { e with snapshots := e.snapshots.drop 1 }

/-- The trace of the failure that is being handled. -/
def snapshot? (e : Environment) : Option Trace := e.snapshots.head?

/-- The trace of the failure that is being handled or else of the stack as it is. -/
def stackTrace (e : Environment) : Trace := e.snapshot?.getD e.trace

end Environment

end Tern
