/-
What the arguments of the command line ask for.

Arguments are read from the left, and the first one that is wrong, asks for help or asks for the
version decides. Options may stand before or behind the file; all that follows `--` is taken as it
is. An option may be given once.
-/
import Tern.Bindings
import Tern.Session

namespace Tern.CommandLine

/-- What can be done with a file. -/
inductive Command where
  | tokenize (file : String) (json raw : Bool)
  | parse (file : String)
  | run (file : String) (moduleRoot : Option String) (maxDepth : Nat)

/-- What there is help on. -/
inductive Topic where
  | all | tokenize | parse | run | help
  deriving DecidableEq, Repr

/-- What the arguments ask for. -/
inductive Request where
  | command (command : Command)
  | help (topic : Topic)
  | version

/-- The options that a command knows, without the dashes. -/
structure Options where
  topic : Topic
  flags : List String
  valued : List String

/-- The option that all commands know. -/
def logFlag : String := "log"

namespace Topic

/-- The word for a topic among the arguments. -/
def ofWord? (word : String) : Option Topic :=
  if word = "tokenize" then some .tokenize
  else if word = "parse" then some .parse
  else if word = "run" then some .run
  else if word = "help" then some .help
  else none

/-- The options of a command. -/
def options : Topic → Options
  | .tokenize => ⟨.tokenize, ["json", "raw", logFlag], []⟩
  | .run => ⟨.run, [logFlag], ["module-root", "max-depth"]⟩
  | topic => ⟨topic, [logFlag], []⟩

end Topic

/-- The arguments of a command as far as they have been read. -/
structure Given where
  file : Option String
  flags : List String
  values : Bindings String

/-- A number of frames: digits behind an optional plus, below 2 ^ 64. -/
def readDepth? (s : String) : Option Nat :=
  let digits := match s.toList with
    | '+' :: rest => rest
    | cs => cs
  if digits.isEmpty || !digits.all (·.isDigit) then none
  else
    let n := digits.foldl (fun n c => 10 * n + (c.toNat - '0'.toNat)) 0
    if n < Nat.pow 2 64 then some n else none

/-- Whether an option can have a value. -/
def allows (option value : String) : Bool :=
  if option = "max-depth" then (readDepth? value).isSome else value ≠ ""

/-- Whether an argument is an option by its look. -/
def isOption (s : String) : Bool := s.startsWith "-" && s ≠ "-"

/-- The name of a long option and the value behind its equals sign. -/
def splitOption (cs : List Char) : String × Option String :=
  let name := String.ofList (cs.takeWhile (· ≠ '='))
  match cs.dropWhile (· ≠ '=') with
  | [] => (name, none)
  | _ :: value => (name, some (String.ofList value))

namespace Given

/-- Nothing given. -/
def nothing : Given := ⟨none, [], []⟩

/-- Takes the file, once and not empty. -/
def takeFile? (g : Given) (file : String) : Option Given :=
  if g.file.isSome || file = "" then none else some { g with file := some file }

/-- Takes a flag, once. -/
def takeFlag? (g : Given) (flag : String) : Option Given :=
  if g.flags.contains flag then none else some { g with flags := flag :: g.flags }

/-- Takes the value of an option, once. -/
def takeValue? (g : Given) (option value : String) : Option Given :=
  if g.values.has option || !allows option value then none
  else some { g with values := g.values.put option value }

/-- Takes arguments as they are. -/
def takePlain? : Given → List String → Option Given
  | g, [] => some g
  | g, s :: rest => (g.takeFile? s).bind (takePlain? · rest)

/-- The command that is asked for. -/
def command? (g : Given) (topic : Topic) : Option Command :=
  match topic, g.file with
  | .tokenize, some file =>
    some (.tokenize file (g.flags.contains "json") (g.flags.contains "raw"))
  | .parse, some file => some (.parse file)
  | .run, some file =>
    some (.run file (g.values.find? "module-root")
      (((g.values.find? "max-depth").bind readDepth?).getD Session.defaultDepth))
  | _, _ => none

end Given

/-- Reads the arguments of a command. -/
def readCommand? (o : Options) : Given → List String → Option Request
  | g, [] => (g.command? o.topic).map .command
  | g, "--" :: rest => ((g.takePlain? rest).bind (·.command? o.topic)).map .command
  | g, s :: rest =>
    match s.toList with
    | '-' :: '-' :: cs =>
      match splitOption cs with
      | ("help", none) => some (.help o.topic)
      | (name, none) =>
        if o.flags.contains name then (g.takeFlag? name).bind (readCommand? o · rest)
        else if o.valued.contains name then
          match rest with
          | value :: rest =>
            if isOption value then none
            else (g.takeValue? name value).bind (readCommand? o · rest)
          | [] => none
        else none
      | (name, some value) =>
        if o.valued.contains name then (g.takeValue? name value).bind (readCommand? o · rest)
        else none
    | '-' :: 'h' :: _ => some (.help o.topic)
    | '-' :: _ :: _ => none
    | _ => (g.takeFile? s).bind (readCommand? o · rest)

/-- Reads what there is to be help on. -/
def readHelp? : List String → Option Request
  | [] => some (.help .all)
  | [word] => (Topic.ofWord? word).map .help
  | _ => none

/-- Reads all arguments; `logged` tells whether the log has been asked for. -/
def readFrom? (logged : Bool) : List String → Option Request
  | [] => none
  | s :: rest =>
    match s.toList with
    | ['-', '-', 'l', 'o', 'g'] => if logged then none else readFrom? true rest
    | ['-', '-', 'h', 'e', 'l', 'p'] => some (.help .all)
    | ['-', '-', 'v', 'e', 'r', 's', 'i', 'o', 'n'] => some .version
    | '-' :: 'h' :: _ => some (.help .all)
    | '-' :: 'V' :: _ => some .version
    | _ =>
      match Topic.ofWord? s with
      | some .help => readHelp? rest
      | some topic => readCommand? topic.options .nothing rest
      | none => none

/-- What the arguments ask for, if they are in order. -/
def read? (arguments : List String) : Option Request := readFrom? false arguments

end Tern.CommandLine
