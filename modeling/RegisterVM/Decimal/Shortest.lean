/-
  Shortest decimals. A binary floating-point number stands for
  every real that rounds to it; of the decimals in that interval
  the one with the fewest digits is chosen, and of those the
  nearest, an exact tie going to the even digit.

  Key definitions include:
    * `Decimal`
    * `Decimal.Interval`
    * `Decimal.onGrid?`
    * `Decimal.shortest`
-/

namespace RegisterVM

/- The number `digits · 10 ^ exponent`. -/
structure Decimal where
  digits : Nat
  exponent : Int
  deriving DecidableEq, Repr

namespace Decimal

------------------------------------------------------------
-- Intervals of reals
------------------------------------------------------------

/-
  A value and the reals that round to it, all in units of
  `2 ^ scale`. The ends belong to the interval or both do not.
-/
structure Interval where
  low : Nat
  value : Nat
  high : Nat
  scale : Int
  closed : Bool
  deriving DecidableEq, Repr

/-
  The reals that round to `mantissa · 2 ^ exponent`. Below a
  power of two the neighbour is only half as far away, which
  `narrow` says. Ties round to even mantissas, so those own the
  ends of their interval.
-/
def Interval.around
    (mantissa : Nat)
    (exponent : Int)
    (narrow : Bool) : Interval where
  low := 4 * mantissa - (if narrow then 1 else 2)
  value := 4 * mantissa
  high := 4 * mantissa + 2
  scale := exponent - 2
  closed := mantissa % 2 == 0

------------------------------------------------------------
-- Points of a decimal grid
------------------------------------------------------------

/-
  The multiple of `10 ^ k` inside the interval that is nearest to
  the value. If any multiple lies inside, one of the two around
  the value does.
-/
def onGrid?
    (i : Interval)
    (k : Int) : Option Decimal :=
  let stretch := Nat.pow 2 i.scale.toNat * Nat.pow 10 (-k).toNat
  let unit := Nat.pow 2 (-i.scale).toNat * Nat.pow 10 k.toNat
  let inside (d : Nat) : Bool :=
    if i.closed then
      i.low * stretch ≤ d * unit && d * unit ≤ i.high * stretch
    else
      i.low * stretch < d * unit && d * unit < i.high * stretch
  let d := i.value * stretch / unit
  let twice := 2 * (i.value * stretch)
  let middle := (2 * d + 1) * unit
  match inside d, inside (d + 1) with
  | true, true =>
    if twice < middle then some ⟨d, k⟩
    else if middle < twice then some ⟨d + 1, k⟩
    else if d % 2 = 0 then some ⟨d, k⟩
    else some ⟨d + 1, k⟩
  | true, false => some ⟨d, k⟩
  | false, true => some ⟨d + 1, k⟩
  | false, false => none

/-
  The shortest decimal of an interval: the point on the coarsest
  grid that has one. The search starts above the leading digit
  of the value and ends below its seventeenth.
-/
def shortest
    (i : Interval) : Decimal :=
  let bits : Int := Nat.log2 i.value + 1
  let top : Int := (bits + i.scale) * 30103 / 100000 + 2
  let grids := (List.range 24).map fun (step : Nat) => top - step
  (grids.findSome? (onGrid? i)).getD ⟨0, 0⟩

end Decimal

end RegisterVM
