/-
Values as keys, and maps in insertion order. Keys are compared by content where values have no
identity and by identity elsewhere, so that changing a list never changes where it stands in a
map. As keys both zeros are one, and so are all numbers that are none. A map is the list of its
entries; a table that finds them by hashing their keys answers the same, since the same keys feed
the hasher alike.
-/
import Tern.Value.Basic

namespace Tern

mutual

/-- Whether two values are the same key. -/
def Value.sameKey : Value → Value → Bool
  | .null, .null => true
  | .bool a, .bool b => a == b
  | .number x, .number y => x == y || (x.isNaN && y.isNaN)
  | .text s, .text t => s == t
  | .tuple xs, .tuple ys => sameKeys xs ys
  | a, b => a.sameRef b

/-- Whether two lists of values are the same keys one by one. -/
def sameKeys : List Value → List Value → Bool
  | [], [] => true
  | x :: xs, y :: ys => x.sameKey y && sameKeys xs ys
  | _, _ => false

end

/-! ### What a hasher is fed for a key -/

/-- The bits of a number as a key: the same ones for both zeros, and for all numbers that are
none. -/
def Number.canonicalBits (x : Float) : UInt64 :=
  if x == 0 then 0 else if x.isNaN then 0x7FF8000000000000 else x.toBits

/-- A piece of what a hasher is fed. -/
inductive HashPiece where
  | variant (index : Nat)
  | bool (value : Bool)
  | bits (value : UInt64)
  | text (value : String)
  | length (value : Nat)
  /-- Where a cell stands among those of its kind. -/
  | place (index : Nat)
  deriving DecidableEq, Repr

/-- What a hasher is fed for a key: a tuple by its items, a cell by its place, and a native function
without its receiver. -/
def Value.hashPieces : Value → List HashPiece
  | .null => [.variant 0]
  | .bool b => [.variant 1, .bool b]
  | .number x => [.variant 2, .bits (Number.canonicalBits x)]
  | .text s => [.variant 3, .text s]
  | .tuple items => .variant 4 :: .length items.length :: (items.map fun v => v.hashPieces).flatten
  | .list r => [.variant 5, .place r.index]
  | .map r => [.variant 6, .place r.index]
  | .object r => [.variant 7, .place r.index]
  | .classOf r => [.variant 8, .place r.index]
  | .function r => [.variant 9, .place r.index]
  | .native r | .bound r _ => [.variant 10, .place r.index]

/-! ### Maps -/

/-- The entries of a map, in the order in which their keys first came in. -/
abbrev Entries := List (Value × Value)

namespace Entries

/-- The value under a key. -/
def find? (key : Value) : Entries → Option Value
  | [] => none
  | (k, v) :: rest => if k.sameKey key then some v else find? key rest

/-- Whether there is a value under a key. -/
def has (key : Value) (m : Entries) : Bool := (m.find? key).isSome

/-- Writes a value under a key: the key keeps its place if it has one, and comes last
otherwise. -/
def insert (key value : Value) : Entries → Entries
  | [] => [(key, value)]
  | (k, v) :: rest => if k.sameKey key then (k, value) :: rest else (k, v) :: insert key value rest

/-- Takes a key out; the others keep their order. -/
def erase (key : Value) : Entries → Entries
  | [] => []
  | (k, v) :: rest => if k.sameKey key then rest else (k, v) :: erase key rest

/-- The keys in order. -/
def keys (m : Entries) : List Value := m.map (·.1)

/-- The values in the order of their keys. -/
def values (m : Entries) : List Value := m.map (·.2)

end Entries

end Tern
