/-
Reading numbers. A decimal is digits with at most one point, at least one digit in all, and an
optional power of ten; the words for infinity and for no number are read in any letter case. A
numeral is one of these behind an optional sign. It keeps the sign apart, because a sign can be
written in front of zero and of no number as well.
-/
import Tern.Number.Binary

namespace Tern.Number

/-- The natural number that digits spell. -/
def ofDigits (cs : List Char) : Nat :=
  cs.foldl (fun n c => 10 * n + (c.toNat - '0'.toNat)) 0

/-- The number `digits * 10 ^ power`, rounded to the nearest. Powers beyond the range of
numbers are settled by the count of digits alone. -/
def ofDecimal (digits : Nat) (power : Int) : Float :=
  let size : Int := ((Nat.toDigits 10 digits).length : Int) + power
  if digits = 0 then 0
  else if 320 < size then 1 / 0
  else if size < -400 then 0
  else Float.ofScientific digits (decide (power < 0)) power.natAbs

/-- Reads the power of ten that ends a decimal, nothing being power zero. -/
def readPower? : List Char → Option Int
  | [] => some 0
  | mark :: cs =>
    if mark = 'e' || mark = 'E' then
      let (negative, ds) := match cs with
        | '-' :: ds => (true, ds)
        | '+' :: ds => (false, ds)
        | ds => (false, ds)
      if ds.isEmpty || !ds.all Char.isDigit then none
      else some (if negative then -(ofDigits ds : Int) else ofDigits ds)
    else none

/-- Reads an unsigned decimal. -/
def readDecimal? (cs : List Char) : Option Float :=
  let whole := cs.takeWhile Char.isDigit
  let rest := cs.dropWhile Char.isDigit
  let (fraction, rest) := match rest with
    | '.' :: rest => (rest.takeWhile Char.isDigit, rest.dropWhile Char.isDigit)
    | rest => ([], rest)
  if whole.isEmpty && fraction.isEmpty then none
  else (readPower? rest).map fun power =>
    ofDecimal (ofDigits (whole ++ fraction)) (power - fraction.length)

/-- Reads an unsigned decimal or one of the words for the numbers that no decimal spells. -/
def readMagnitude? (cs : List Char) : Option Float :=
  let word := String.ofList (cs.map Char.toLower)
  if word = "inf" || word = "infinity" then some (1 / 0)
  else if word = "nan" then some (0 / 0)
  else readDecimal? cs

end Tern.Number

namespace Tern

/-- A number as it is written: whether a minus stands in front, and the number behind it. -/
structure Numeral where
  negative : Bool
  magnitude : Float
  deriving Inhabited

namespace Numeral

/-- The number that a numeral writes. -/
def value (n : Numeral) : Float :=
  if n.negative then -n.magnitude else n.magnitude

/-- Whether two numerals write one and the same number, a sign in front of zero and of no number
making a difference. -/
def same (m n : Numeral) : Bool :=
  m.negative == n.negative && m.magnitude.toBits == n.magnitude.toBits

/-- Reads a numeral. -/
def read? : List Char → Option Numeral
  | '-' :: cs => (Number.readMagnitude? cs).map (⟨true, ·⟩)
  | '+' :: cs => (Number.readMagnitude? cs).map (⟨false, ·⟩)
  | cs => (Number.readMagnitude? cs).map (⟨false, ·⟩)

end Numeral

/-- Reads a number. -/
def Number.read? (cs : List Char) : Option Float :=
  (Numeral.read? cs).map Numeral.value

end Tern
