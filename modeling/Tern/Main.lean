/-
The program. The command line is computed from its arguments and the files it looks for; files
that it turns out to need are read, and it is computed again, until it needs no more.
-/
import Tern.CommandLine.Outcome

namespace Tern.Main

/-- The files read so far. -/
abbrev Known := List (String × Except FileError FileNode)

/-- What is known of files. -/
def files (known : Known) : Files := fun path =>
  match known.find? (·.1 = path) with
  | some (_, node) => node
  | none => .error .notFound

/-- Reads a file. That a path leads to a directory shows only when its bytes are read, and is
reported without the path. -/
def readNode (path : String) : IO (Except FileError FileNode) := do
  try
    let bytes ← IO.FS.readBinFile path
    return .ok (.file bytes.toList)
  catch
    | .inappropriateType none .. => return .ok .directory
    | .inappropriateType (some _) .. => return .error .notDirectory
    | .invalidArgument .. =>
      return .error (if path.toList.contains '\x00' then .nulInName else .nameTooLong)
    | _ => return .error .notFound

/-- The host of the program, which has a clock and nothing else. A run is computed from the time at
which it starts, and each reading of the clock is taken to be a microsecond after the one before. -/
def host (start : Float) : Host :=
  { Host.idle with clock := fun asked => start + 1e-6 * Float.ofNat asked }

/-- Computes the outcome for the files that are known, and reads those that are missing. -/
partial def settle (arguments : List String) (host : Host) (known : Known) :
    IO CommandLine.Outcome := do
  let outcome := CommandLine.respond (files known) host arguments
  match outcome.sought.find? fun path => !known.any (·.1 = path) with
  | none => return outcome
  | some path => settle arguments host ((path, ← readNode path) :: known)

end Tern.Main

/-- Runs the command line. -/
def main (arguments : List String) : IO UInt32 := do
  let start := Float.ofNat (← IO.monoNanosNow) / 1e9
  let outcome ← Tern.Main.settle arguments (Tern.Main.host start) []
  (← IO.getStdout).putStr outcome.out
  (← IO.getStderr).putStr outcome.err
  return UInt32.ofNat outcome.exit
