import FlowVerdict.Decimal.Binary

/-!
# The shortest decimal that reads back

For a finite double `mantissa · 2 ^ exponent` the decimal with the fewest digits among those that
round to it, and of several such the nearest. All of it is exact arithmetic on whole numbers: the
double and the two ends of the interval that rounds to it are compared with the points of a decimal
grid, from coarse grids to fine ones.
-/

namespace FlowVerdict.Decimal

structure Scientific where
  digits : Nat
  exponent : Int
deriving Repr, DecidableEq

/-- A double and the interval that rounds to it, as multiples of one common unit. -/
structure Interval where
  value : Nat
  lower : Nat
  upper : Nat
  /-- Whether the two ends round to the double too: they do if its mantissa is even. -/
  closed : Bool

/-- The interval of `mantissa · 2 ^ exponent` in units of `2 ^ (exponent - 2)`. Below a power of two
the next double is only half as far away, except at the bottom of the exponent range. -/
def Interval.ofBinary (mantissa : Nat) (exponent : Int) : Interval where
  value := 4 * mantissa
  lower := 4 * mantissa - (if mantissa = Nat.pow 2 52 ∧ -1074 < exponent then 1 else 2)
  upper := 4 * mantissa + 2
  closed := mantissa % 2 == 0

/-- Whether a point, given in the interval's unit, rounds to the double. -/
def Interval.holds (i : Interval) (point : Nat) : Bool :=
  if i.closed then i.lower ≤ point && point ≤ i.upper
  else i.lower < point && point < i.upper

/-- The interval with its unit divided by `factor`. -/
def Interval.scale (i : Interval) (factor : Nat) : Interval where
  value := i.value * factor
  lower := i.lower * factor
  upper := i.upper * factor
  closed := i.closed

/-- The multiple of `step` that rounds to the double and is nearest to it, if a neighbour of the
double on that grid does. -/
def Interval.onGrid? (tie : Tie) (i : Interval) (step : Nat) : Option Nat :=
  let below := i.value / step
  match i.holds (below * step), i.holds ((below + 1) * step) with
  | true, true => some (roundDiv tie i.value step)
  | true, false => some below
  | false, true => some (below + 1)
  | false, false => none

/-- The digits of the double on the grid `10 ^ power`, if one of its neighbours there reads back. -/
def digitsAt? (tie : Tie) (mantissa : Nat) (exponent power : Int) : Option Nat :=
  let i := (Interval.ofBinary mantissa exponent).scale
    (Nat.pow 2 (exponent - 2).toNat * Nat.pow 10 (-power).toNat)
  i.onGrid? tie (Nat.pow 2 (2 - exponent).toNat * Nat.pow 10 power.toNat)

/-- The first of `grids` grids, from `10 ^ power` downwards, that has digits for the double. -/
def searchFrom (tie : Tie) (mantissa : Nat) (exponent : Int) : Nat → Int → Scientific
  | 0, power => ⟨0, power⟩
  | grids + 1, power =>
    match digitsAt? tie mantissa exponent power with
    | some digits => ⟨digits, power⟩
    | none => searchFrom tie mantissa exponent grids (power - 1)

/-- A power of ten above `mantissa · 2 ^ exponent`, at most two places too high. -/
def powerAbove (mantissa : Nat) (exponent : Int) : Int :=
  (exponent + mantissa.log2) * 30103 / 100000 + 2

/-- The shortest decimal that reads back as the double `mantissa · 2 ^ exponent`; seventeen digits
always suffice, so twenty grids hold one. -/
def shortest (tie : Tie) (mantissa : Nat) (exponent : Int) : Scientific :=
  if mantissa = 0 then ⟨0, 0⟩
  else searchFrom tie mantissa exponent 21 (powerAbove mantissa exponent)

end FlowVerdict.Decimal
