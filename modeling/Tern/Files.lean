/-
Files and the paths that lead to them. A tree lists files and empty directories by their names
from the current directory; a directory is also there if something is in it. A path is followed
name by name, and every name on the way must be that of a directory. Names and paths have a greatest
length, and no path holds the character U+0000.
-/
import Tern.Text.Utf8

namespace Tern

/-- What a path can lead to. -/
inductive FileNode where
  | file (bytes : List UInt8)
  | directory

/-- Why a file can not be read. -/
inductive FileError where
  | notFound
  | notDirectory
  | isDirectory
  | nameTooLong
  | nulInName
  | notText (error : Text.Utf8Error)

/-- The wording of a failure to read a file as text. -/
def FileError.message : FileError → String
  | .notFound => "No such file or directory (os error 2)"
  | .notDirectory => "Not a directory (os error 20)"
  | .isDirectory => "Is a directory (os error 21)"
  | .nameTooLong => "File name too long (os error 36)"
  | .nulInName => "file name contained an unexpected NUL byte"
  | .notText _ => "stream did not contain valid UTF-8"

/-- Files, by what each path leads to. -/
abbrev Files := String → Except FileError FileNode

namespace Files

/-- No files. -/
def none : Files := fun _ => .error .notFound

/-- Whether a path leads to a file. -/
def isFile (fs : Files) (path : String) : Bool :=
  match fs path with
  | .ok (.file _) => true
  | _ => false

/-- The text of the file at a path. -/
def read (fs : Files) (path : String) : Except FileError String :=
  match fs path with
  | .error e => .error e
  | .ok .directory => .error .isDirectory
  | .ok (.file bytes) =>
    match Text.decodeUtf8 bytes with
    | .ok text => .ok text
    | .error e => .error (.notText e)

end Files

/-! ### Files in a tree -/

/-- The files and directories below the current directory. -/
structure FileTree where
  entries : List (List String × FileNode)

namespace FileTree

/-- The names of a path. -/
def names (path : String) : List String :=
  (path.splitOn "/").filter fun s => s ≠ "" ∧ s ≠ "."

/-- The node at a list of names from the current directory. -/
def node? (t : FileTree) (names : List String) : Option FileNode :=
  match t.entries.find? (·.1 = names) with
  | some (_, node) => some node
  | none =>
    if names = [] || t.entries.any (fun e => names.isPrefixOf e.1) then some .directory
    else none

/-- A place on the way: below the current directory, by its names from the last to the first, or
outside of it, where nothing is known. -/
inductive Place where
  | inside (names : List String)
  | outside

/-- What is at a place. -/
def at? (t : FileTree) : Place → Option FileNode
  | .inside names => t.node? names.reverse
  | .outside => some .directory

/-- The greatest length of a name in a directory, in bytes. -/
def nameLimit : Nat := 255

/-- The greatest length of a path, in bytes. -/
def pathLimit : Nat := 4095

/-- Follows the parts of a path from a place. A name is measured when it is looked for, so only if
the path before it leads to a directory. -/
def follow (t : FileTree) : Place → List String → Except FileError FileNode
  | place, [] =>
    match t.at? place with
    | some node => .ok node
    | none => .error .notFound
  | place, part :: rest =>
    match t.at? place with
    | none => .error .notFound
    | some (.file _) => .error .notDirectory
    | some .directory =>
      if part = "" || part = "." then t.follow place rest
      else if part = ".." then
        match place with
        | .inside (_ :: names) => t.follow (.inside names) rest
        | _ => t.follow .outside rest
      else if nameLimit < part.utf8ByteSize then .error .nameTooLong
      else
        match place with
        | .inside names => t.follow (.inside (part :: names)) rest
        | .outside => .error .notFound

/-- What the paths into a tree lead to. A path that starts with a slash starts outside of it. -/
def files (t : FileTree) : Files := fun path =>
  if path.toList.contains '\x00' then .error .nulInName
  else if path = "" then .error .notFound
  else if pathLimit < path.utf8ByteSize then .error .nameTooLong
  else t.follow (if path.startsWith "/" then .outside else .inside []) (path.splitOn "/")

end FileTree

/-! ### Paths as texts -/

namespace Path

/-- A path below another one. -/
def join (base path : String) : String :=
  if base = "" || base.endsWith "/" then base ++ path else base ++ "/" ++ path

/-- A path, from its end, without what means nothing there: slashes, and dots behind a slash. -/
def trimEnd : List Char → List Char
  | '/' :: rest => trimEnd rest
  | '.' :: '/' :: rest => trimEnd ('/' :: rest)
  | cs => cs

/-- The directory part of a path; there is none for the empty path and for the root. -/
def parent? (path : String) : Option String :=
  let trimmed := trimEnd path.toList.reverse
  if trimmed.isEmpty then none
  else
    let rest := trimmed.dropWhile (· ≠ '/')
    let base := trimEnd rest
    let kept := if base.isEmpty && !rest.isEmpty then ['/'] else base
    some (String.ofList kept.reverse)

end Path

end Tern
