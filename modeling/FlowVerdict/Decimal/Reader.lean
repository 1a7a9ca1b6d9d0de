import FlowVerdict.Decimal.Integer

/-!
# Doubles in text

Reading a decimal number as the nearest double: an optional sign, then a word for a value that is no
number, or digits with at most one point among them and an optional power of ten.
-/

namespace FlowVerdict.Decimal

/-- The double nearest to `± digits · 10 ^ exponent`. Numbers far outside the range of doubles are
settled by their size alone. -/
def nearest (negative : Bool) (digits : Nat) (exponent : Int) : Float :=
  let places : Int := (Nat.toDigits 10 digits).length
  let magnitude : Float :=
    if digits = 0 then 0.0
    else if 310 < places + exponent then 1.0 / 0.0
    else if places + exponent < -330 then 0.0
    else Float.ofScientific digits (exponent < 0) exponent.natAbs
  if negative then -magnitude else magnitude

/-- The digits in front, as characters, and the text after them. -/
def spanDigits (text : List Char) : List Char × List Char :=
  (text.takeWhile Char.isDigit, text.dropWhile Char.isDigit)

def valueOf (digits : List Char) : Nat :=
  digits.foldl (fun n c => n * 10 + (c.toNat - '0'.toNat)) 0

/-- The power of ten after a letter E: an optional sign and at least one digit, up to the end. -/
def readPower? (text : List Char) : Option Int :=
  let (negative, rest) :=
    match text with
    | '-' :: rest => (true, rest)
    | '+' :: rest => (false, rest)
    | rest => (false, rest)
  match spanDigits rest with
  | ([], _) => none
  | (digits, []) => some (if negative then -(valueOf digits : Int) else valueOf digits)
  | _ => none

/-- An unsigned decimal number up to the end of the text, as digits and a power of ten. -/
def readScientific? (text : List Char) : Option (Nat × Int) :=
  let (whole, rest) := spanDigits text
  let (fraction, rest) :=
    match rest with
    | '.' :: after => spanDigits after
    | _ => ([], rest)
  if whole.isEmpty && fraction.isEmpty then none
  else
    let digits := valueOf (whole ++ fraction)
    match rest with
    | [] => some (digits, -fraction.length)
    | c :: power =>
      if c = 'e' || c = 'E' then
        (readPower? power).map fun p => (digits, p - fraction.length)
      else none

/-- The words for values that are no finite number, in any case of letters. -/
def readWord? (text : List Char) : Option Float :=
  match String.ofList (text.map Char.toLower) with
  | "nan" => some (0.0 / 0.0)
  | "inf" => some (1.0 / 0.0)
  | "infinity" => some (1.0 / 0.0)
  | _ => none

/-- The double that a text writes, if it writes one. -/
def readFloat? (text : String) : Option Float :=
  let (negative, rest) :=
    match text.toList with
    | '-' :: rest => (true, rest)
    | '+' :: rest => (false, rest)
    | rest => (false, rest)
  match readWord? rest with
  | some word => some (if negative then -word else word)
  | none => (readScientific? rest).map fun (digits, exponent) => nearest negative digits exponent

end FlowVerdict.Decimal
