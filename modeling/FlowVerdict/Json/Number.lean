import FlowVerdict.Json.Lexeme

/-!
# Numbers of JSON

A number without fraction and exponent is a whole number as long as it fits 64 bits. Every other one
is a double: its digits are gathered as far as they fit 64 bits, and the result is scaled by a power
of ten with one rounding step, two at the very bottom of the range. That is quick, and for long
inputs not always the nearest double.
-/

namespace FlowVerdict.Json

inductive Number where
  | natural (value : Nat)
  | negative (value : Int)
  | float (value : Float)

def Number.found : Number → Found
  | .natural n => .int n
  | .negative n => .int n
  | .float x => .float x

/-- The largest number that the digits are gathered up to. -/
def digitLimit : Nat := Nat.pow 2 64 - 1

/-- The largest power of ten that an exponent is read up to. -/
def powerLimit : Nat := Nat.pow 2 31 - 1

def digitOf? (b : UInt8) : Option Nat :=
  if byte '0' ≤ b && b ≤ byte '9' then some (b.toNat - 48) else none

def isDigit (b : UInt8) : Bool :=
  byte '0' ≤ b && b ≤ byte '9'

def isPowerMark (b : UInt8) : Bool :=
  b = byte 'e' || b = byte 'E'

/-- Appends the digits in front of the text to `value` for as long as the result is at most `limit`.
Gives the value, the number of digits taken, and the rest, which begins with a digit only if that
one did not fit. -/
def gatherDigits (limit : Nat) : Nat → Nat → Bytes → Nat × Nat × Bytes
  | value, count, [] => (value, count, [])
  | value, count, b :: rest =>
    match digitOf? b with
    | none => (value, count, b :: rest)
    | some d =>
      if value * 10 + d ≤ limit then gatherDigits limit (value * 10 + d) (count + 1) rest
      else (value, count, b :: rest)

def tenTo (power : Nat) : Float :=
  Float.ofScientific 1 false power

/-- `magnitude · 10 ^ power` by one multiplication or division. A power below -308 is taken in steps
of 308. -/
def scaled (magnitude : Float) (power : Int) : Except Fault Float :=
  if 0 ≤ power then
    if 308 < power then
      if magnitude == 0.0 then .ok magnitude else .error .numberOutOfRange
    else
      let product := magnitude * tenTo power.toNat
      if product.isInf then .error .numberOutOfRange else .ok product
  else scaledDown 12 magnitude power
where
  /-- Division steps for a negative power; a dozen of them take any number to zero. -/
  scaledDown : Nat → Float → Int → Except Fault Float
    | 0, _, _ => .ok 0.0
    | steps + 1, magnitude, power =>
      if -308 ≤ power then .ok (magnitude / tenTo (-power).toNat)
      else if magnitude == 0.0 then .ok magnitude
      else scaledDown steps (magnitude / tenTo 308) (power + 308)

/-- The double `± digits · 10 ^ power`. -/
def toFloat (negative : Bool) (digits : Nat) (power : Int) : Except Fault Float := do
  let magnitude ← scaled (UInt64.ofNat digits).toFloat power
  .ok (if negative then -magnitude else magnitude)

def readPower (negative : Bool) (digits : Nat) (power : Int) : Reader Float := fun text => do
  let (down, text) :=
    match text with
    | b :: rest =>
      if b = byte '+' then (false, rest) else if b = byte '-' then (true, rest) else (false, text)
    | [] => (false, text)
  match text with
  | [] => .error .endInValue
  | b :: _ =>
    if !isDigit b then .error .invalidNumber
    else
      let (exponent, _, rest) := gatherDigits powerLimit 0 0 text
      let overflow := rest.head?.any isDigit
      if overflow then
        if digits ≠ 0 && !down then .error .numberOutOfRange
        else .ok (if negative then -0.0 else 0.0, rest.dropWhile isDigit)
      else do
        let x ← toFloat negative digits (if down then power - exponent else power + exponent)
        .ok (x, rest)

/-- A double whose digits are read: what follows them is an exponent or no part of it. -/
def finishFloat (negative : Bool) (digits : Nat) (power : Int) : Reader Float := fun text =>
  match text with
  | b :: rest =>
    if isPowerMark b then readPower negative digits power rest
    else (toFloat negative digits power).map (·, text)
  | [] => (toFloat negative digits power).map (·, text)

/-- The fraction of a double, from after its point. Digits that do not fit are passed over. -/
def readFraction (negative : Bool) (digits : Nat) (power : Int) : Reader Float := fun text =>
  match text with
  | [] => .error .endInValue
  | b :: _ =>
    if !isDigit b then .error .invalidNumber
    else
      let (digits, places, rest) := gatherDigits digitLimit digits 0 text
      finishFloat negative digits (power - places) (rest.dropWhile isDigit)

/-- What follows the whole part of a number that is too long for 64 bits: further digits only raise
the power of ten. -/
def readLong (negative : Bool) (digits : Nat) (text : Bytes) : Except Fault (Float × Bytes) :=
  let power := (text.takeWhile isDigit).length
  match text.dropWhile isDigit with
  | b :: rest =>
    if b = byte '.' then readFraction negative digits power rest
    else finishFloat negative digits power (b :: rest)
  | [] => finishFloat negative digits power []

/-- A whole number by its sign. A negative zero and what is below 64 bits are doubles. -/
def wholeNumber (negative : Bool) (digits : Nat) : Number :=
  if !negative then .natural digits
  else if digits = 0 || Nat.pow 2 63 < digits then .float (-(UInt64.ofNat digits).toFloat)
  else .negative (-digits)

/-- A number from after its sign. -/
def readUnsigned (negative : Bool) : Reader Number := fun text =>
  match text with
  | [] => .error .endInValue
  | first :: rest =>
    if !isDigit first then .error .invalidNumber
    else if first = byte '0' && rest.head?.any isDigit then .error .invalidNumber
    else
      let (digits, _, after) := gatherDigits digitLimit 0 0 text
      match after with
      | [] => .ok (wholeNumber negative digits, [])
      | b :: tail =>
        if isDigit b then (readLong negative digits after).map fun (x, rest) => (.float x, rest)
        else if b = byte '.' then
          (readFraction negative digits 0 tail).map fun (x, rest) => (.float x, rest)
        else if isPowerMark b then
          (readPower negative digits 0 tail).map fun (x, rest) => (.float x, rest)
        else .ok (wholeNumber negative digits, after)

def startsNumber (b : UInt8) : Bool :=
  b = byte '-' || isDigit b

/-- A number, sign and all. -/
def readNumber : Reader Number := fun text =>
  match text with
  | b :: rest => if b = byte '-' then readUnsigned true rest else readUnsigned false text
  | [] => .error .endInValue

/-- At least one digit, and all that follow it. -/
def passDigits (text : Bytes) : Except Fault Bytes :=
  if text.head?.any isDigit then .ok (text.dropWhile isDigit) else .error .invalidNumber

/-- Passes over an exponent, if one stands there. -/
def passPower (text : Bytes) : Except Fault Bytes :=
  match text with
  | b :: rest =>
    if isPowerMark b then
      match rest with
      | sign :: digits =>
        if sign = byte '+' || sign = byte '-' then passDigits digits else passDigits rest
      | [] => .error .invalidNumber
    else .ok text
  | [] => .ok text

/-- Passes over a fraction and an exponent, if they stand there. -/
def passFraction (text : Bytes) : Except Fault Bytes :=
  match text with
  | b :: rest => if b = byte '.' then do passPower (← passDigits rest) else passPower text
  | [] => .ok text

/-- Passes over a number, checking its form alone and no range. -/
def passNumber (text : Bytes) : Except Fault Bytes :=
  let unsigned :=
    match text with
    | b :: rest => if b = byte '-' then rest else text
    | [] => text
  match unsigned with
  | b :: rest =>
    if b = byte '0' then
      if rest.head?.any isDigit then .error .invalidNumber else passFraction rest
    else do passFraction (← passDigits unsigned)
  | [] => .error .invalidNumber

end FlowVerdict.Json
