/-!
# UTF-8

A byte string read as text, in two ways: strictly, where one ill-formed byte refuses the whole, and
leniently, where every maximal ill-formed run becomes one U+FFFD. Both are folds of one function,
`takeHead`, which cuts off the first scalar value or the first ill-formed run.
-/

namespace FlowVerdict.Text.Utf8

def encode (text : String) : List UInt8 :=
  text.toUTF8.toList

/-- The bytes that may stand second, third and fourth in a sequence. -/
def isTail (b : UInt8) : Bool :=
  0x80 ≤ b && b ≤ 0xBF

/-- The bytes that may follow a lead byte: no overlong form, no surrogate, nothing above
U+10FFFF. -/
def isSecond (lead b : UInt8) : Bool :=
  if lead = 0xE0 then 0xA0 ≤ b && b ≤ 0xBF
  else if lead = 0xED then 0x80 ≤ b && b ≤ 0x9F
  else if lead = 0xF0 then 0x90 ≤ b && b ≤ 0xBF
  else if lead = 0xF4 then 0x80 ≤ b && b ≤ 0x8F
  else isTail b

/-- Six payload bits of a tail byte appended to a scalar value under construction. -/
def extend (value : Nat) (tail : UInt8) : Nat :=
  value * 64 + (tail.toNat - 0x80)

/-- The last `k` bytes of a sequence. -/
def takeTails : Nat → Nat → List UInt8 → Option Char × List UInt8
  | 0, value, rest => (some (Char.ofNat value), rest)
  | _ + 1, _, [] => (none, [])
  | k + 1, value, t :: rest =>
    if isTail t then takeTails k (extend value t) rest else (none, t :: rest)

/-- What follows a lead byte: a second byte and `k` more. -/
def takeSequence (lead : UInt8) (k value : Nat) : List UInt8 → Option Char × List UInt8
  | [] => (none, [])
  | s :: rest =>
    if isSecond lead s then takeTails k (extend value s) rest else (none, s :: rest)

/-- The first unit of `b :: rest`: a scalar value, or `none` for a maximal ill-formed run; with the
bytes after it. -/
def takeHead (b : UInt8) (rest : List UInt8) : Option Char × List UInt8 :=
  if b < 0x80 then (some (Char.ofNat b.toNat), rest)
  else if b < 0xC2 then (none, rest)
  else if b < 0xE0 then takeSequence b 0 (b.toNat - 0xC0) rest
  else if b < 0xF0 then takeSequence b 1 (b.toNat - 0xE0) rest
  else if b < 0xF5 then takeSequence b 2 (b.toNat - 0xF0) rest
  else (none, rest)

/-- The units of a byte string in order, at most `fuel` of them. -/
def unitsWithin : Nat → List UInt8 → List (Option Char)
  | 0, _ => []
  | _ + 1, [] => []
  | fuel + 1, b :: rest =>
    let (unit, rest') := takeHead b rest
    unit :: unitsWithin fuel rest'

/-- The units of a byte string: scalar values and maximal ill-formed runs. -/
def units (bytes : List UInt8) : List (Option Char) :=
  unitsWithin bytes.length bytes

/-- The text that well-formed bytes stand for; `none` for any others. -/
def decode? (bytes : List UInt8) : Option String :=
  ((units bytes).mapM id).map String.ofList

/-- The text of any bytes: each maximal ill-formed run reads as U+FFFD. -/
def decodeLossy (bytes : List UInt8) : String :=
  String.ofList ((units bytes).map (·.getD '\uFFFD'))

end FlowVerdict.Text.Utf8
