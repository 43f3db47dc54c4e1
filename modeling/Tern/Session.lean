/-
A session: everything that running a program can read and change. Printed text is kept in it, and
the files and the host come with it, so that a run is a function of the session.
-/
import Tern.Files
import Tern.Host
import Tern.Library

namespace Tern

/-- The state of a session. -/
structure Session where
  heap : Heap
  env : Environment
  /-- The directory of modules; without one, the current directory. -/
  moduleRoot : Option String
  /-- The paths of the modules imported so far, the latest first. -/
  imported : List String
  /-- The number of frames that the environment may have. -/
  maxDepth : Nat
  files : Files
  /-- The paths that were looked for among the files, the latest first. -/
  sought : List String
  host : Host
  /-- How often the host has been asked for the time or for an operation. -/
  asked : Nat
  out : String
  err : String

namespace Session

/-- The number of frames allowed unless something else is asked for. -/
def defaultDepth : Nat := 1000

/-- A session with the library and nothing else. -/
def initial : Session :=
  { heap := Library.heap
    env := Library.install .initial
    moduleRoot := none
    imported := []
    maxDepth := defaultDepth
    files := .none
    sought := []
    host := .idle
    asked := 0
    out := ""
    err := "" }

/-- Allows a number of frames, at least one. -/
def limitDepth (s : Session) (depth : Nat) : Session := { s with maxDepth := max depth 1 }

end Session

end Tern
