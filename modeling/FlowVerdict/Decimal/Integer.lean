/-!
# Whole numbers in text

Reading a whole number within bounds: an optional sign, ASCII digits, leading zeros allowed. The
fault met first from the left is the one reported.
-/

namespace FlowVerdict.Decimal

/-- Why a text is no whole number of the wanted range. -/
inductive IntegerFault where
  | empty
  | invalidDigit
  | tooLarge
  | tooSmall
deriving Repr, DecidableEq

def IntegerFault.message : IntegerFault → String
  | .empty => "cannot parse integer from empty string"
  | .invalidDigit => "invalid digit found in string"
  | .tooLarge => "number too large to fit in target type"
  | .tooSmall => "number too small to fit in target type"

def digit? (c : Char) : Option Nat :=
  if c.isDigit then some (c.toNat - '0'.toNat) else none

/-- The value of a run of digits read after a number `sofar`, which may not pass `limit`; `overflow`
is the fault if it does. -/
def readDigits (limit : Nat) (overflow : IntegerFault) :
    Nat → List Char → Except IntegerFault Nat
  | sofar, [] => .ok sofar
  | sofar, c :: rest =>
    match digit? c with
    | none => .error .invalidDigit
    | some d =>
      if sofar * 10 + d ≤ limit then readDigits limit overflow (sofar * 10 + d) rest
      else .error overflow

/-- A whole number up to `limit`, with an optional plus sign. -/
def readNat (limit : Nat) (text : String) : Except IntegerFault Nat :=
  match text.toList with
  | [] => .error .empty
  | ['+'] => .error .invalidDigit
  | '+' :: digits => readDigits limit .tooLarge 0 digits
  | digits => readDigits limit .tooLarge 0 digits

/-- A whole number from `-limit - 1` to `limit`, with an optional sign. -/
def readInt (limit : Nat) (text : String) : Except IntegerFault Int :=
  match text.toList with
  | [] => .error .empty
  | ['+'] => .error .invalidDigit
  | ['-'] => .error .invalidDigit
  | '+' :: digits => (readDigits limit .tooLarge 0 digits).map Int.ofNat
  | '-' :: digits => (readDigits (limit + 1) .tooSmall 0 digits).map fun n => -(n : Int)
  | digits => (readDigits limit .tooLarge 0 digits).map Int.ofNat

end FlowVerdict.Decimal
