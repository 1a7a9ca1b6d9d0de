import FlowVerdict.Json.Reader

/-!
# Passing over JSON values

A value that nobody keeps is checked for its form alone: no number is too large, no string too odd,
and no nesting too deep. The arrays and objects that are open are a list of `Frame`s, innermost
first, so deep nesting costs no more than its length.
-/

namespace FlowVerdict.Json

/-- An array or object that is open. -/
inductive Frame where
  | array
  | object
deriving Repr, DecidableEq

def Frame.close : Frame → UInt8
  | .array => byte ']'
  | .object => byte '\x7d'

def Frame.truncated : Frame → Fault
  | .array => .endInArray
  | .object => .endInObject

/-- The fault of a frame that neither goes on nor closes. -/
def Frame.expectedComma : Frame → Fault
  | .array => .expectedCommaOrBracket
  | .object => .expectedCommaOrBrace

/-- Passes over the key and the colon that stand before a value in an object. -/
def passKey (text : Bytes) : Except Fault Bytes :=
  match skipBlanks text with
  | [] => .error .endInObject
  | b :: rest => if b = byte '"' then do readColon (← passString rest) else .error .keyMustBeString

/-- Passes over what stands in a frame before its next value. -/
def Frame.passLead (frame : Frame) (text : Bytes) : Except Fault Bytes :=
  match frame with
  | .array => .ok text
  | .object => passKey text

/-- What the text goes on with: a value inside the open frames, or nothing more. -/
inductive Pending where
  | value (frames : List Frame) (text : Bytes)
  | done (rest : Bytes)

/-- Closes the frames that end after a value and moves to the next one. -/
def passClosing : List Frame → Bytes → Except Fault Pending
  | [], text => .ok (.done text)
  | frame :: outer, text =>
    match skipBlanks text with
    | [] => .error frame.truncated
    | b :: rest =>
      if b = byte ',' then (frame.passLead rest).map (.value (frame :: outer))
      else if b = frame.close then passClosing outer rest
      else .error frame.expectedComma

/-- Enters a frame: it closes at once or holds a first value. -/
def passOpening (frame : Frame) (outer : List Frame) (text : Bytes) : Except Fault Pending :=
  match skipBlanks text with
  | [] => .error frame.truncated
  | b :: rest =>
    if b = frame.close then passClosing outer rest
    else (frame.passLead (b :: rest)).map (.value (frame :: outer))

/-- Passes over one value, or over the opening of one. -/
def passPart (frames : List Frame) (text : Bytes) : Except Fault Pending :=
  match skipBlanks text with
  | [] => .error .endInValue
  | b :: rest =>
    if b = byte '[' then passOpening .array frames rest
    else if b = byte '\x7b' then passOpening .object frames rest
    else do
      let rest ←
        if b = byte 'n' then readWord nullTail rest
        else if b = byte 't' then readWord trueTail rest
        else if b = byte 'f' then readWord falseTail rest
        else if startsNumber b then passNumber (b :: rest)
        else if b = byte '"' then passString rest
        else .error .expectedValue
      passClosing frames rest

/-- Passes over values, within `fuel` of them, until no frame is open. -/
def skipWithin : Nat → List Frame → Bytes → Except Fault Bytes
  | 0, _, _ => .error .endInValue
  | fuel + 1, frames, text => do
    match ← passPart frames text with
    | .done rest => .ok rest
    | .value frames text => skipWithin fuel frames text

/-- Passes over one value. -/
def skipValue (text : Bytes) : Except Fault Bytes :=
  skipWithin (text.length + 1) [] text

end FlowVerdict.Json
