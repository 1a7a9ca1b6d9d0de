import FlowVerdict.Json.Fault
import FlowVerdict.Text.Utf8

/-!
# Words, strings and blanks of JSON

The parts of a JSON text that have no parts of their own, numbers apart. A `Reader` takes them from
the front of a byte string and hands back the rest. Strings come out as the bytes that they stand
for, so that a text is checked to be UTF-8 only where it is kept.
-/

namespace FlowVerdict.Json

/-- A JSON text, or what is left of one. -/
abbrev Bytes := List UInt8

/-- Reads a value from the front of a text and hands back the rest. -/
abbrev Reader (α : Type) := Bytes → Except Fault (α × Bytes)

def byte (c : Char) : UInt8 :=
  UInt8.ofNat c.toNat

/-- The blanks between the parts of a JSON text: space, tab, line feed, carriage return. -/
def isBlankByte (b : UInt8) : Bool :=
  b = 0x20 || b = 0x09 || b = 0x0A || b = 0x0D

/-- The text without the blanks in front. -/
def skipBlanks (text : Bytes) : Bytes :=
  text.dropWhile isBlankByte

/-- The rest of a word whose letters are known from its first one. -/
def readWord : List UInt8 → Bytes → Except Fault Bytes
  | [], rest => .ok rest
  | _ :: _, [] => .error .endInValue
  | letter :: letters, b :: rest =>
    if letter = b then readWord letters rest else .error .expectedIdent

/-- The three words of JSON, without their first letters. -/
def nullTail : List UInt8 := [byte 'u', byte 'l', byte 'l']

@[inherit_doc nullTail]
def trueTail : List UInt8 := [byte 'r', byte 'u', byte 'e']

@[inherit_doc nullTail]
def falseTail : List UInt8 := [byte 'a', byte 'l', byte 's', byte 'e']

def hexDigit? (b : UInt8) : Option Nat :=
  if byte '0' ≤ b && b ≤ byte '9' then some (b.toNat - 48)
  else if byte 'a' ≤ b && b ≤ byte 'f' then some (b.toNat - 87)
  else if byte 'A' ≤ b && b ≤ byte 'F' then some (b.toNat - 55)
  else none

def readHex : Reader Nat
  | a :: b :: c :: d :: rest =>
    match hexDigit? a, hexDigit? b, hexDigit? c, hexDigit? d with
    | some a, some b, some c, some d => .ok (((a * 16 + b) * 16 + c) * 16 + d, rest)
    | _, _, _, _ => .error .invalidEscape
  | _ => .error .endInString

/-- The second half of a surrogate pair, from after the first half `high`. -/
def readLowSurrogate (high : Nat) : Reader Nat
  | [] => .error .endInString
  | b :: rest =>
    if b ≠ byte '\\' then .error .unexpectedEndOfEscape
    else
      match rest with
      | [] => .error .endInString
      | u :: digits =>
        if u ≠ byte 'u' then .error .unexpectedEndOfEscape
        else do
          let (low, rest) ← readHex digits
          if low < 0xDC00 || 0xDFFF < low then .error .loneLeadingSurrogate
          else .ok (0x10000 + (high - 0xD800) * 0x400 + (low - 0xDC00), rest)

/-- A numbered escape from after its letter: one code point, by one number or by a surrogate
pair. -/
def readNumberedEscape : Reader Nat := fun text => do
  let (unit, rest) ← readHex text
  if 0xDC00 ≤ unit && unit ≤ 0xDFFF then .error .loneLeadingSurrogate
  else if 0xD800 ≤ unit && unit ≤ 0xDBFF then readLowSurrogate unit rest
  else .ok (unit, rest)

/-- The character that an escape letter stands for, the letter of the numbered form apart. -/
def namedEscape? (letter : UInt8) : Option UInt8 :=
  if letter = byte '"' then some 0x22
  else if letter = byte '\\' then some 0x5C
  else if letter = byte '/' then some 0x2F
  else if letter = byte 'b' then some 0x08
  else if letter = byte 'f' then some 0x0C
  else if letter = byte 'n' then some 0x0A
  else if letter = byte 'r' then some 0x0D
  else if letter = byte 't' then some 0x09
  else none

/-- An escape from after its backslash, as the bytes that it stands for. -/
def readEscape : Reader Bytes
  | [] => .error .endInString
  | letter :: rest =>
    match namedEscape? letter with
    | some b => .ok ([b], rest)
    | none =>
      if letter = byte 'u' then do
        let (code, rest) ← readNumberedEscape rest
        .ok (Text.Utf8.encode (Char.ofNat code).toString, rest)
      else .error .invalidEscape

/-- An escape that is passed over: its digits are checked, but not what they stand for. -/
def passEscape : Reader Bytes
  | [] => .error .endInString
  | letter :: rest =>
    match namedEscape? letter with
    | some b => .ok ([b], rest)
    | none =>
      if letter = byte 'u' then do
        let (_, rest) ← readHex rest
        .ok ([], rest)
      else .error .invalidEscape

/-- The bytes of a string up to its closing quote, within `fuel` steps; `seen` holds those met so
far, last first. -/
def readContentWithin (escape : Reader Bytes) : Nat → Bytes → Reader Bytes
  | 0, _, _ => .error .endInString
  | _ + 1, _, [] => .error .endInString
  | fuel + 1, seen, b :: rest =>
    if b = byte '"' then .ok (seen.reverse, rest)
    else if b = byte '\\' then do
      let (bytes, rest) ← escape rest
      readContentWithin escape fuel (bytes.reverse ++ seen) rest
    else if b < 0x20 then .error .controlCharacter
    else readContentWithin escape fuel (b :: seen) rest

/-- A string from after its opening quote. -/
def readString : Reader String := fun text => do
  let (bytes, rest) ← readContentWithin readEscape (text.length + 1) [] text
  match Text.Utf8.decode? bytes with
  | some content => .ok (content, rest)
  | none => .error .invalidCodePoint

/-- Passes over a string from after its opening quote. -/
def passString (text : Bytes) : Except Fault Bytes := do
  let (_, rest) ← readContentWithin passEscape (text.length + 1) [] text
  .ok rest

def readColon (text : Bytes) : Except Fault Bytes :=
  match skipBlanks text with
  | [] => .error .endInObject
  | b :: rest => if b = byte ':' then .ok rest else .error .expectedColon

end FlowVerdict.Json
