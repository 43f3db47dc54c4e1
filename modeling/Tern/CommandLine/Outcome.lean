/-
What the command line does: what it prints, and the code it exits with.
-/
import Tern.CommandLine.Help
import Tern.Expr.Printer
import Tern.Run
import Tern.Token.Dump

namespace Tern.CommandLine

/-- What a command line comes to. -/
structure Outcome where
  exit : Nat
  out : String
  err : String
  /-- The paths that were looked for among the files. -/
  sought : List String

namespace Outcome

/-- Lines as a text. -/
def lines (ls : List String) : String := String.join (ls.map (· ++ "\n"))

/-- Success, with lines to print. -/
def ok (ls : List String) : Outcome := ⟨0, lines ls, "", []⟩

/-- The code for arguments that are not in order. -/
def usage : Outcome := ⟨2, "", "", []⟩

/-- The code for a text that does not parse. -/
def badSource (e : SourceError) : Outcome := ⟨65, "", lines [e.message], []⟩

/-- The code for a file that can not be used, with what was tried and why it failed. -/
def badFile (what why : String) : Outcome :=
  ⟨1, "", lines ["Error: " ++ what, "", "Caused by:", "    " ++ why], []⟩

end Outcome

/-- Hands the text of a file on, unless it can not be read. -/
def withText (files : Files) (file : String) (use : String → Outcome) : Outcome :=
  let quoted := Text.quoteName file
  let outcome : Outcome := match files file with
    | .error e => .badFile ("Failed to open file " ++ quoted) e.message
    | .ok .directory =>
      .badFile ("Failed to map file " ++ quoted) "No such device (os error 19)"
    | .ok (.file bytes) =>
      match Text.decodeUtf8 bytes with
      | .error e => .badFile ("File " ++ quoted ++ " is not valid UTF-8") e.message
      | .ok text => use text
  { outcome with sought := file :: outcome.sought }

/-- Lists the tokens of a text. -/
def tokenize (file : String) (json raw : Bool) (text : String) : Outcome :=
  let items := scan file text
  match collect (if raw then items else separated items) with
  | .error e => .badSource e
  | .ok ts =>
    if json then .ok [(Json.array (ts.map (·.json))).pretty] else .ok (ts.map (·.listed))

/-- Prints the trees of a text. -/
def parse (file text : String) : Outcome :=
  match Tern.parse file text with
  | .error e => .badSource e
  | .ok es => .ok (es.map (·.print))

/-- The session for a program in a file. -/
def session (files : Files) (host : Host) (file : String) (moduleRoot : Option String)
    (maxDepth : Nat) : Session :=
  let s : Session :=
    { Session.initial with
      files, host
      moduleRoot := match moduleRoot with
        | some root => some root
        | none => Path.parent? file }
  s.limitDepth maxDepth

/-- The code that a program ends with, and what is still to be said. -/
def verdict : EStateM.Result Failure Session Value → Nat × List String
  | .ok _ _ => (0, [])
  | .error (.source e) _ => (65, [e.message])
  | .error (.uncaught _ _ _) _ => (70, [])
  | .error (.file e) _ => (70, [e.message])
  | .error .outOfFuel _ => (70, [])

/-- The session that a run leaves. -/
def finalSession : EStateM.Result Failure Session Value → Session
  | .ok _ s | .error _ s => s

/-- Runs a program. -/
def run (s : Session) (file text : String) : Outcome :=
  let result := Session.evalSource file text s
  let (exit, rest) := verdict result
  let s := finalSession result
  ⟨exit, s.out, s.err ++ Outcome.lines rest, s.sought⟩

/-- Does what a command asks for. -/
def execute (files : Files) (host : Host) : Command → Outcome
  | .tokenize file json raw => withText files file (tokenize file json raw)
  | .parse file => withText files file (parse file)
  | .run file moduleRoot maxDepth =>
    withText files file (run (session files host file moduleRoot maxDepth) file)

/-- Does what the arguments ask for. -/
def respond (files : Files) (host : Host) (arguments : List String) : Outcome :=
  match read? arguments with
  | none => .usage
  | some .version => .ok [version]
  | some (.help topic) => .ok (help topic)
  | some (.command command) => execute files host command

end Tern.CommandLine
