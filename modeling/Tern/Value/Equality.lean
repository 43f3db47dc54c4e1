/-
Equality of values: by content for data, collections included, and by identity for objects,
classes and functions. Collections may be cyclic. While two of them are being compared, meeting
the same two again adds nothing and counts as equal.
-/
import Tern.Value.Display

namespace Tern.Heap

mutual

/-- Whether two values are equal, given the pairs of collections under comparison; `free` is a
bound on the pairs that are not among them. -/
def equalIn (h : Heap) (free : Nat) (pending : List (Container × Container)) :
    Value → Value → Bool
  | .null, .null => true
  | .bool a, .bool b => a == b
  | .number x, .number y => x == y
  | .text s, .text t => s == t
  | .tuple xs, .tuple ys => equalItems h free pending xs ys
  | .list a, .list b =>
    if a = b || pending.contains (.list a, .list b) then true
    else
      match free with
      | 0 => true
      | free + 1 =>
        equalItems h free ((.list a, .list b) :: pending) (h.items a).toList (h.items b).toList
  | .map a, .map b =>
    if a = b || pending.contains (.map a, .map b) then true
    else
      match free with
      | 0 => true
      | free + 1 =>
        let m := h.entries a
        let n := h.entries b
        m.length == n.length && equalEntries h free ((.map a, .map b) :: pending) n m
  | .object a, .object b => a = b
  | .classOf a, .classOf b => a = b
  | .function a, .function b => a = b
  | .native a, .native b => a = b
  | .bound a x, .bound b y => a = b && (x.sameRef y || equalIn h free pending x y)
  | _, _ => false
termination_by v => (free, sizeOf v)

/-- Whether two lists of values are equal one by one. -/
def equalItems (h : Heap) (free : Nat) (pending : List (Container × Container)) :
    List Value → List Value → Bool
  | [], [] => true
  | x :: xs, y :: ys => equalIn h free pending x y && equalItems h free pending xs ys
  | _, _ => false
termination_by vs => (free, sizeOf vs)

/-- Whether `other` has an equal value under each key. -/
def equalEntries (h : Heap) (free : Nat) (pending : List (Container × Container))
    (other : Entries) : Entries → Bool
  | [] => true
  | (k, v) :: rest =>
    match other.find? k with
    | some w => equalIn h free pending v w && equalEntries h free pending other rest
    | none => false
termination_by es => (free, sizeOf es)

end

/-- Whether two values are equal. -/
def equal (h : Heap) (a b : Value) : Bool :=
  h.equalIn (h.lists.size * h.lists.size + h.maps.size * h.maps.size) [] a b

end Tern.Heap
