/-
Cutting a text at every occurrence of a separator, from the left and without overlaps.
-/
namespace Tern.Text

/-- Cuts `cs` at each occurrence of `sep`. The first `skip` characters belong to an occurrence
already found; `part` holds, in reverse, what has been read since the last one. -/
def splitFrom (sep : List Char) : List Char → Nat → List Char → List (List Char)
  | [], _, part => [part.reverse]
  | _ :: cs, skip + 1, part => splitFrom sep cs skip part
  | c :: cs, 0, part =>
    if sep.isPrefixOf (c :: cs) then
      part.reverse :: splitFrom sep cs (sep.length - 1) []
    else
      splitFrom sep cs 0 (c :: part)

/-- The parts of a text between the occurrences of a separator. An empty separator gives the
characters one by one. -/
def split (sep cs : List Char) : List (List Char) :=
  if sep.isEmpty then cs.map ([·]) else splitFrom sep cs 0 []

/-- Whether `sep` occurs in the text. -/
def occurs (sep : List Char) : List Char → Bool
  | [] => sep.isEmpty
  | c :: cs => sep.isPrefixOf (c :: cs) || occurs sep cs

end Tern.Text
