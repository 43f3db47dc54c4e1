/-
The shortest decimal that reads back as a given number.

A decimal reads back as a number when it lies in the interval of reals that round to it: half a
step to either side, the ends included when the mantissa is even. Grids of 1, 2, ... digits are
tried in turn; on each one only the two points next to the number can lie in the interval. The
first grid with a hit gives the digits, the nearer point if both hit, and the upper one if they
are equally near.
-/
import Tern.Number.Binary

namespace Tern.Number

/-- The decimal `digits * 10 ^ exponent`. -/
structure Decimal where
  digits : Nat
  exponent : Int

/-- A positive rational `num / den`. -/
structure Ratio where
  num : Nat
  den : Nat

/-- The value of a magnitude in units of `2 ^ (exponent - 2)`, as a ratio scaled by `k`. -/
def Binary.ratio (b : Binary) (k : Nat) : Ratio :=
  let e := b.exponent - 2
  if 0 ≤ e then ⟨k * Nat.pow 2 e.toNat, 1⟩ else ⟨k, Nat.pow 2 e.natAbs⟩

/-- The least `k` from `-fuel` on with `r < 10 ^ k`, for `r` below one. -/
def fractionPlaces (r : Ratio) : Nat → Int
  | 0 => 0
  | fuel + 1 => if r.num * 10 < r.den then fractionPlaces ⟨r.num * 10, r.den⟩ fuel - 1 else 0

/-- The `k` with `10 ^ (k - 1) ≤ r < 10 ^ k`. -/
def decimalPlaces (r : Ratio) : Int :=
  if r.den ≤ r.num then ((Nat.toDigits 10 (r.num / r.den)).length : Int)
  else fractionPlaces r 400

/-- The reals that round to a number, as ratios over one denominator. -/
structure Interval where
  low : Nat
  mid : Nat
  high : Nat
  den : Nat
  closed : Bool

/-- The interval of the reals that round to a magnitude. Below a power of two the step is only
half as wide. -/
def Binary.interval (b : Binary) : Interval :=
  let m := 4 * b.mantissa
  let narrow := b.mantissa = Nat.pow 2 52 && decide (leastExponent < b.exponent)
  let unit := b.ratio 1
  { low := (m - if narrow then 1 else 2) * unit.num
    mid := m * unit.num
    high := (m + 2) * unit.num
    den := unit.den
    closed := b.mantissa % 2 = 0 }

/-- Whether `n / scale` lies in the interval, `scale` given as a ratio of the grid. -/
def Interval.has (i : Interval) (point step : Nat) : Bool :=
  if i.closed then decide (i.low * step ≤ point) && decide (point ≤ i.high * step)
  else decide (i.low * step < point) && decide (point < i.high * step)

/-- The best point of the interval on the grid of multiples of `10 ^ exponent`, if there is
one. -/
def Interval.onGrid (i : Interval) (exponent : Int) : Option Nat :=
  -- the number is `mid / (den * step)` grid units when the unit is `num` over `step`
  let unit := if 0 ≤ exponent then Nat.pow 10 exponent.toNat * i.den else i.den
  let step := if 0 ≤ exponent then 1 else Nat.pow 10 exponent.natAbs
  let below := i.mid * step / unit
  let lower := below * unit
  let upper := lower + unit
  let lowerHit := i.has lower step
  let upperHit := i.has upper step
  if lowerHit && upperHit then
    if upper - i.mid * step ≤ i.mid * step - lower then some (below + 1) else some below
  else if lowerHit then some below
  else if upperHit then some (below + 1)
  else none

/-- The shortest decimal of at least `count` digits, trying at most `fuel` grids. -/
def Interval.shortest (i : Interval) (places : Int) : Nat → Nat → Decimal
  | _, 0 => ⟨0, 0⟩
  | count, fuel + 1 =>
    let exponent := places - count
    match i.onGrid exponent with
    | some digits => ⟨digits, exponent⟩
    | none => i.shortest places (count + 1) fuel

/-- Moves the zeros at the end of the digits into the exponent. -/
def Decimal.normalize (d : Decimal) : Nat → Decimal
  | 0 => d
  | fuel + 1 =>
    if d.digits ≠ 0 ∧ d.digits % 10 = 0 then
      Decimal.normalize ⟨d.digits / 10, d.exponent + 1⟩ fuel
    else d

/-- The shortest decimal that reads back as the magnitude, seventeen digits being always
enough. -/
def Binary.shortest (b : Binary) : Decimal :=
  if b.mantissa = 0 then ⟨0, 0⟩
  else
    let places := decimalPlaces (b.ratio (4 * b.mantissa))
    (b.interval.shortest places 1 17).normalize 17

end Tern.Number
