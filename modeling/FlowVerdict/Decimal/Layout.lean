import FlowVerdict.Decimal.Shortest

/-!
# Written forms of a double

Three formats. `jsonNumber` and `plainNumber` write the shortest digits that read back, each by a
`Layout` that says where the exponent form begins and whether a fraction is always shown;
`onePlace` rounds the exact value to one decimal place.
-/

namespace FlowVerdict.Decimal

def digitsOf (n : Nat) : String :=
  String.ofList (Nat.toDigits 10 n)

def zeros (n : Nat) : String :=
  String.ofList (List.replicate n '0')

/-- The choices of a format for shortest digits. -/
structure Layout where
  /-- The digit that a tie between two shortest forms goes to. -/
  tie : Tie
  /-- Whether a number whose first digit stands at this power of ten is written without exponent. -/
  positional : Int → Bool
  /-- What follows the digits of a whole number. -/
  wholeEnd : String
  nan : String
  infinite : Bool → String

/-- Numbers inside JSON text: an exponent from `1e16` on and below `1e-5`, always a fraction in
front of it, and `null` for what is no number. -/
def jsonNumber : Layout where
  tie := .toEven
  positional power := -5 ≤ power && power ≤ 15
  wholeEnd := ".0"
  nan := "null"
  infinite _ := "null"

/-- Numbers inside plain text: never an exponent, and a fraction only where there is one. -/
def plainNumber : Layout where
  tie := .up
  positional _ := true
  wholeEnd := ""
  nan := "NaN"
  infinite negative := if negative then "-inf" else "inf"

/-- `digits · 10 ^ exponent` without an exponent. -/
def Layout.writePositional (l : Layout) (s : Scientific) : String :=
  let digits := digitsOf s.digits
  let places := (-s.exponent).toNat
  if 0 ≤ s.exponent then digits ++ zeros s.exponent.toNat ++ l.wholeEnd
  else if places < digits.length then
    let chars := digits.toList
    let whole := chars.length - places
    String.ofList (chars.take whole) ++ "." ++ String.ofList (chars.drop whole)
  else "0." ++ zeros (places - digits.length) ++ digits

/-- `d[.ddd]e±N`, where `power` is the power of ten of the first digit. -/
def writeExponent (digits : String) (power : Int) : String :=
  let tail := digits.toList.drop 1
  let fraction := if tail.isEmpty then "" else "." ++ String.ofList tail
  let sign := if power < 0 then "-" else "+"
  String.ofList (digits.toList.take 1) ++ fraction ++ "e" ++ sign ++ digitsOf power.natAbs

def Layout.writeScientific (l : Layout) (s : Scientific) : String :=
  let digits := digitsOf s.digits
  let power := s.exponent + digits.length - 1
  if s.digits = 0 || l.positional power then l.writePositional s else writeExponent digits power

/-- A double in the format. A negative zero keeps its sign. -/
def Layout.write (l : Layout) (x : Float) : String :=
  match Binary.ofFloat x with
  | .nan => l.nan
  | .infinite negative => l.infinite negative
  | .finite negative mantissa exponent =>
    (if negative then "-" else "") ++ l.writeScientific (shortest l.tie mantissa exponent)

/-- The exact value of a double to one decimal place, a tie to the even digit. A negative number
keeps its sign when it rounds to zero. -/
def onePlace (x : Float) : String :=
  match Binary.ofFloat x with
  | .nan => plainNumber.nan
  | .infinite negative => plainNumber.infinite negative
  | .finite negative mantissa exponent =>
    let (num, den) := quotient mantissa exponent 10
    let tenths := roundDiv .toEven num den
    (if negative then "-" else "") ++ digitsOf (tenths / 10) ++ "." ++ digitsOf (tenths % 10)

end FlowVerdict.Decimal
