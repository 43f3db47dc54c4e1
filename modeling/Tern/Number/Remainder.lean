/-
The remainder of a division that is cut off toward zero. It has the sign of the dividend and is
always a number exactly, so it is computed on whole mantissas without rounding.
-/
import Tern.Number.Binary

namespace Tern.Number

/-- The remainder of `|a|` by `|b|` for finite numbers, `b` not zero. -/
def Binary.rem (a b : Binary) : Binary :=
  let exponent := min a.exponent b.exponent
  let dividend := a.mantissa <<< (a.exponent - exponent).toNat
  let divisor := b.mantissa <<< (b.exponent - exponent).toNat
  ⟨dividend % divisor, exponent⟩

/-- The remainder of `x` by `y`, with the sign of `x`. There is none for an infinite dividend
or a zero divisor, and an infinite divisor leaves the dividend as it is. -/
def rem (x y : Float) : Float :=
  if !x.isFinite || y.isNaN || y == 0 then 0 / 0
  else if y.isInf then x
  else
    let r := ((magnitude x).rem (magnitude y)).toFloat
    if isNegative x then -r else r

end Tern.Number
