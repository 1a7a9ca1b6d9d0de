/-!
# Binary floating point, exactly

A double taken apart into sign, significand and power of two, and the one rounding rule that the
decimal formats share: a quotient to the nearest whole number, with the tie as a parameter.
-/

namespace FlowVerdict.Decimal

/-- What a double stands for. A finite one is `± mantissa · 2 ^ exponent`. -/
inductive Binary where
  | nan
  | infinite (negative : Bool)
  | finite (negative : Bool) (mantissa : Nat) (exponent : Int)
deriving Repr, DecidableEq

/-- The parts of a double, read off its 64 bits. -/
def Binary.ofFloat (x : Float) : Binary :=
  let bits := x.toBits.toNat
  let negative := decide (Nat.pow 2 63 ≤ bits)
  let field : Nat := bits / Nat.pow 2 52 % Nat.pow 2 11
  let fraction : Nat := bits % Nat.pow 2 52
  if field = 2047 then if fraction = 0 then .infinite negative else .nan
  else if field = 0 then .finite negative fraction (-1074)
  else .finite negative (fraction + Nat.pow 2 52) ((field : Int) - 1075)

/-- Which way a quotient goes that lies halfway between two whole numbers. -/
inductive Tie where
  | toEven
  | up
deriving Repr, DecidableEq

/-- `num / den` to the nearest whole number. -/
def roundDiv (tie : Tie) (num den : Nat) : Nat :=
  let below := num / den
  match compare (2 * (num % den)) den, tie with
  | .lt, _ => below
  | .gt, _ => below + 1
  | .eq, .up => below + 1
  | .eq, .toEven => below + below % 2

def quotient (mantissa : Nat) (exponent : Int) (factor : Nat) : Nat × Nat :=
  if 0 ≤ exponent then (mantissa * factor * Nat.pow 2 exponent.toNat, 1)
  else (mantissa * factor, Nat.pow 2 (-exponent).toNat)

end FlowVerdict.Decimal
