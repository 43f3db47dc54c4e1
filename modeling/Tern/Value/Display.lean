/-
How values are shown. Strings inside a collection are quoted. A list or map that is met again
while it is still being shown is abbreviated, so that cyclic data has a finite form.
-/
import Tern.Heap
import Tern.Number.Printed
import Tern.Text.Quoted

namespace Tern

/-- A cell that holds values. -/
inductive Container where
  | list (ref : ListRef)
  | map (ref : MapRef)
  deriving DecidableEq, Repr

namespace Heap

/-- What stands for a collection inside itself. -/
def ellipsis : String := "[...]"

mutual

/-- A value as it is shown inside the collections `seen`; `free` is more than the number of cells
that are not among them. -/
def showIn (h : Heap) (free : Nat) (seen : List Container) : Value → String
  | .null => "null"
  | .bool true => "true"
  | .bool false => "false"
  | .number x => Number.print x
  | .text s => Text.quote s
  | .tuple items =>
    "(" ++ showItems h free seen items ++ (if items.length = 1 then "," else "") ++ ")"
  | .list r =>
    if seen.contains (.list r) then ellipsis
    else
      match free with
      | 0 => ellipsis
      | free + 1 => "[" ++ showItems h free (.list r :: seen) (h.items r).toList ++ "]"
  | .map r =>
    if seen.contains (.map r) then ellipsis
    else
      match free with
      | 0 => ellipsis
      | free + 1 =>
        let entries := h.entries r
        if entries.isEmpty then "[:]"
        else "[" ++ showEntries h free (.map r :: seen) entries ++ "]"
  | .object r => "<" ++ h.objectClassName r ++ " instance>"
  | .classOf r => "<class " ++ h.className r ++ ">"
  | .function r => "<fn " ++ h.functionName r ++ ">"
  | .native r => "<native fn " ++ h.nativeName r ++ ">"
  | .bound r _ => "<native fn " ++ h.nativeName r ++ ">"
termination_by v => (free, sizeOf v)

/-- Values with commas between them. -/
def showItems (h : Heap) (free : Nat) (seen : List Container) : List Value → String
  | [] => ""
  | [v] => showIn h free seen v
  | v :: w :: rest => showIn h free seen v ++ ", " ++ showItems h free seen (w :: rest)
termination_by vs => (free, sizeOf vs)

/-- The entries of a map with commas between them. -/
def showEntries (h : Heap) (free : Nat) (seen : List Container) : Entries → String
  | [] => ""
  | [(k, v)] => showIn h free seen k ++ ": " ++ showIn h free seen v
  | (k, v) :: next :: rest =>
    showIn h free seen k ++ ": " ++ showIn h free seen v ++ ", " ++
      showEntries h free seen (next :: rest)
termination_by es => (free, sizeOf es)

end

/-- A value as it is shown on its own, a string without quotes. -/
def display (h : Heap) : Value → String
  | .text s => s
  | v => h.showIn (h.lists.size + h.maps.size + 1) [] v

end Heap

end Tern
