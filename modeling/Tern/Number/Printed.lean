/-
Printed numbers. The shortest digits that read back are written positionally, without an
exponent however large or small the number is; a machine-readable form keeps a point in whole
numbers and turns to an exponent away from one.
-/
import Tern.Number.Shortest

namespace Tern.Number

/-- The decimal digits of a natural number. -/
def digitChars (n : Nat) : List Char := Nat.toDigits 10 n

/-- Zeros in a row. -/
def zeros (n : Nat) : List Char := List.replicate n '0'

/-- A decimal written out in full, with a point only if a fraction remains. -/
def Decimal.positional (d : Decimal) : List Char :=
  let ds := digitChars d.digits
  if 0 ≤ d.exponent then
    if d.digits = 0 then ['0'] else ds ++ zeros d.exponent.toNat
  else
    let places := d.exponent.natAbs
    if places < ds.length then
      ds.take (ds.length - places) ++ '.' :: ds.drop (ds.length - places)
    else '0' :: '.' :: (zeros (places - ds.length) ++ ds)

/-- A decimal as first digit, further digits and a signed power of ten. -/
def Decimal.scientific (d : Decimal) : List Char :=
  let ds := digitChars d.digits
  let power := d.exponent + (ds.length : Int) - 1
  let head := ds.take 1
  let tail := ds.drop 1
  let sign := if power < 0 then '-' else '+'
  head ++ (if tail.isEmpty then [] else '.' :: tail) ++ 'e' :: sign :: digitChars power.natAbs

/-- The printed form of a number. Zero has no sign. -/
def print (x : Float) : String :=
  if x.isNaN then "NaN"
  else if x.isInf then if isNegative x then "-inf" else "inf"
  else if x == 0 then "0"
  else
    let digits := String.ofList (magnitude x).shortest.positional
    if isNegative x then "-" ++ digits else digits

/-- Whole numbers below this bound are shown as such by the token list. -/
def wholeBound : Float := 1e15

/-- The printed form of a number in a token list: a whole number below the bound keeps a
fraction of zero. -/
def printPointed (x : Float) : String :=
  if (toInt? x).isSome && x.abs < wholeBound then print x ++ ".0" else print x

/-- The least and the greatest power of ten that the machine-readable form writes
positionally. -/
def positionalPowers : Int × Int := (-5, 15)

/-- The machine-readable form of a number, for which only finite numbers exist. -/
def printData (x : Float) : String :=
  if !x.isFinite then "null"
  else
    let d := (magnitude x).shortest
    let power := d.exponent + ((digitChars d.digits).length : Int) - 1
    let body :=
      if positionalPowers.1 ≤ power && power ≤ positionalPowers.2 then
        if 0 ≤ d.exponent then d.positional ++ ['.', '0'] else d.positional
      else d.scientific
    let digits := String.ofList body
    if isNegative x then "-" ++ digits else digits

end Tern.Number
