/-
Numbers taken apart exactly: a finite number is a sign and `mantissa * 2 ^ exponent`, with the
mantissa a natural number. Everything that must be exact about numbers (their digits, their
integer value, remainders) is computed on this form.
-/
namespace Tern.Number

/-- The magnitude `mantissa * 2 ^ exponent` of a finite number. -/
structure Binary where
  mantissa : Nat
  exponent : Int

/-- Number of mantissa bits that are stored. -/
def fractionBits : Nat := 52

/-- Exponent of the smallest positive number. -/
def leastExponent : Int := -1074

/-- Whether the sign bit is set. -/
def isNegative (x : Float) : Bool := decide (Nat.pow 2 63 ≤ x.toBits.toNat)

/-- The magnitude of a finite number. -/
def magnitude (x : Float) : Binary :=
  let bits := x.toBits.toNat
  let fraction := bits % Nat.pow 2 52
  let field := bits / Nat.pow 2 52 % Nat.pow 2 11
  if field = 0 then ⟨fraction, leastExponent⟩
  else ⟨Nat.pow 2 52 + fraction, leastExponent + (field - 1 : Nat)⟩

/-- The number with the given magnitude, for a magnitude that is a number exactly. -/
def Binary.toFloat (b : Binary) : Float :=
  if b.mantissa = 0 then 0
  else
    -- the exponent at which the mantissa has its full width
    let wide : Int := b.exponent + (Nat.log2 b.mantissa : Int) - fractionBits
    let exponent := max wide leastExponent
    let mantissa :=
      if exponent ≤ b.exponent then b.mantissa <<< (b.exponent - exponent).toNat
      else b.mantissa >>> (exponent - b.exponent).toNat
    if mantissa < Nat.pow 2 52 then Float.ofBits (UInt64.ofNat mantissa)
    else
      let field := (exponent - leastExponent).toNat + 1
      Float.ofBits (UInt64.ofNat (field * Nat.pow 2 52 + (mantissa - Nat.pow 2 52)))

/-- The integer that a number is, if it is finite and has no fraction. -/
def toInt? (x : Float) : Option Int :=
  if x.isFinite then
    let b := magnitude x
    let whole? :=
      if 0 ≤ b.exponent then some (b.mantissa <<< b.exponent.toNat)
      else
        let unit := Nat.pow 2 b.exponent.natAbs
        if b.mantissa % unit = 0 then some (b.mantissa / unit) else none
    whole?.map fun n => if isNegative x then -(n : Int) else n
  else none

/-- The least and the greatest integer of 64 bits. -/
def indexBounds : Int × Int := (-9223372036854775808, 9223372036854775807)

/-- The integer that a number is, held between the least and the greatest integer of 64 bits. -/
def toIndex? (x : Float) : Option Int :=
  (toInt? x).map fun n => max indexBounds.1 (min indexBounds.2 n)

end Tern.Number
