/-
Hosts. A session is run by a host. The host has the clock, and it can add native functions and
computed members of its own, which it is asked about by number. What it answers is up to it: it is
told the values in question and can look at the heap, and it answers with data, with the values that
it was told, and with new lists of these.
-/
import Tern.Fault
import Tern.Heap

namespace Tern

namespace Host

/-- A value in an answer. -/
inductive Reply where
  | null
  | bool (value : Bool)
  | number (value : Float)
  | text (value : String)
  /-- One of the values at hand, null if there are fewer. -/
  | given (place : Nat)
  | tuple (items : List Reply)

namespace Reply

mutual

/-- The value that is meant, among the values at hand. -/
def value (atHand : List Value) : Reply → Value
  | .null => .null
  | .bool b => .bool b
  | .number x => .number x
  | .text t => .text t
  | .given place => atHand[place]?.getD .null
  | .tuple items => .tuple (values atHand items)

/-- The values that are meant. -/
def values (atHand : List Value) : List Reply → List Value
  | [] => []
  | reply :: rest => value atHand reply :: values atHand rest

end

end Reply

/-- The answer of an operation: new lists and a value. Each list is at hand, behind what already
is, for the lists after it and for the value. -/
structure Answer where
  lists : List (List Reply)
  value : Reply

end Host

/-- A host. The clock and the operations of a host may answer differently each time, so they are
told how often the host has been asked for one before. They change a session by new lists only, and
they do not call back into it. -/
structure Host where
  /-- The time in seconds. -/
  clock (asked : Nat) : Float
  operation (asked number : Nat) (arguments : List Value) (h : Heap) : Except Fault Host.Answer
  member (number : Nat) (this : Value) (h : Heap) : Except Fault Host.Reply
  /-- A member that is computed does not fail as a missing one does. A constructor that did would
  be taken for missing. -/
  member_defined : ∀ {number this h cause}, member number this h = .error cause →
    cause.kind ≠ .undefinedReference

/-- A host whose clock stands still, and whose operations and members are all null. -/
def Host.idle : Host where
  clock _ := 0
  operation _ _ _ _ := .ok ⟨[], .null⟩
  member _ _ _ := .ok .null
  member_defined h := by cases h

end Tern
