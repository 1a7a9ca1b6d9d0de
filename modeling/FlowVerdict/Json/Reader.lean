import FlowVerdict.Json.Number
import FlowVerdict.Json.Value

/-!
# Reading JSON values

Arrays, objects and whole values. The loops over the items of an array and the members of an object
take the reading of one item as a parameter; the records of this library read their members with the
same loops. A `depth` says how many more arrays and objects may be opened inside each other.
-/

namespace FlowVerdict.Json

/-- How many arrays and objects may be open at once in one record. -/
def nestingLimit : Nat := 127

/-- The first part of a value after blanks: its first byte, and the text from there on. -/
def valueStart (text : Bytes) : Except Fault (UInt8 × Bytes) :=
  match skipBlanks text with
  | [] => .error .endInValue
  | b :: rest => .ok (b, b :: rest)

/-- What stands in an array before its next item: its end, or the item. -/
inductive NextItem where
  | done (rest : Bytes)
  | item (text : Bytes)

/-- Moves to the next item of an array; before all but the first a comma stands. -/
def nextItem (first : Bool) (text : Bytes) : Except Fault NextItem :=
  match skipBlanks text with
  | [] => .error .endInArray
  | b :: rest =>
    if b = byte ']' then .ok (.done rest)
    else if first then .ok (.item (b :: rest))
    else if b = byte ',' then
      match skipBlanks rest with
      | [] => .error .endInValue
      | c :: after => if c = byte ']' then .error .trailingComma else .ok (.item (c :: after))
    else .error .expectedCommaOrBracket

/-- The items of an array from after its bracket, within `fuel` steps. -/
def readItems {α : Type} (item : Reader α) : Nat → Bool → Reader (List α)
  | 0, _, _ => .error .endInArray
  | fuel + 1, first, text => do
    match ← nextItem first text with
    | .done rest => .ok ([], rest)
    | .item text =>
      let (value, rest) ← item text
      let (values, rest) ← readItems item fuel false rest
      .ok (value :: values, rest)

/-- What stands in an object before its next member: its end, or the member's key. -/
inductive NextMember where
  | done (rest : Bytes)
  | key (name : String) (rest : Bytes)

/-- The key of a member, which must be a string, from its quote on. -/
def readKey (b : UInt8) (rest : Bytes) : Except Fault NextMember :=
  if b = byte '"' then do
    let (name, rest) ← readString rest
    .ok (.key name rest)
  else .error .keyMustBeString

/-- Moves to the next member of an object and reads its key; before all but the first a comma
stands. -/
def nextMember (first : Bool) (text : Bytes) : Except Fault NextMember :=
  match skipBlanks text with
  | [] => .error .endInObject
  | b :: rest =>
    if b = byte '\x7d' then .ok (.done rest)
    else if first then readKey b rest
    else if b = byte ',' then
      match skipBlanks rest with
      | [] => .error .endInValue
      | c :: after => if c = byte '\x7d' then .error .trailingComma else readKey c after
    else .error .expectedCommaOrBrace

/-- Reads the members of an object from after its brace, within `fuel` steps. `member` reads what
follows a key, colon and all, and takes it up into what has been read so far. -/
def readMembers {σ : Type} (member : σ → String → Reader σ) : Nat → Bool → σ → Reader σ
  | 0, _, _, _ => .error .endInObject
  | fuel + 1, first, sofar, text => do
    match ← nextMember first text with
    | .done rest => .ok (sofar, rest)
    | .key name rest =>
      let (sofar, rest) ← member sofar name rest
      readMembers member fuel false sofar rest

/-- What a byte that begins no array and no object leads to: a word, a number, a string, or none of
them. -/
def readScalar (b : UInt8) (rest : Bytes) : Except Fault (Found × Bytes) :=
  if b = byte 'n' then (readWord nullTail rest).map (.null, ·)
  else if b = byte 't' then (readWord trueTail rest).map (.bool true, ·)
  else if b = byte 'f' then (readWord falseTail rest).map (.bool false, ·)
  else if startsNumber b then (readNumber (b :: rest)).map fun (n, rest) => (n.found, rest)
  else if b = byte '"' then (readString rest).map fun (s, rest) => (.text s, rest)
  else .error .expectedValue

def Found.toJson : Found → Json
  | .null => .null
  | .bool b => .bool b
  | .int n => .int n
  | .float x => .float x
  | .text s => .str s
  | .array => .arr []
  | .object => .obj []

/-- A value, with room for `depth` arrays and objects inside each other. -/
def readValue : Nat → Reader Json
  | 0, text => do
    let (b, text) ← valueStart text
    if b = byte '[' || b = byte '\x7b' then .error .recursionLimit
    else (readScalar b (text.drop 1)).map fun (found, rest) => (found.toJson, rest)
  | depth + 1, text => do
    let (b, text) ← valueStart text
    let rest := text.drop 1
    if b = byte '[' then
      (readItems (readValue depth) text.length true rest).map fun (items, rest) => (.arr items, rest)
    else if b = byte '\x7b' then
      let member (sofar : Members) (name : String) : Reader Members := fun text => do
        let (value, rest) ← readValue depth (← readColon text)
        .ok (sofar.put name value, rest)
      (readMembers member text.length true [] rest).map fun (members, rest) => (.obj members, rest)
    else (readScalar b rest).map fun (found, rest) => (found.toJson, rest)

/-- Checks that nothing but blanks is left. -/
def ensureEnd (text : Bytes) : Except Fault Unit :=
  if (skipBlanks text).isEmpty then .ok () else .error .trailingCharacters

/-- Reads a text as one value with nothing after it. -/
def readWhole {α : Type} (reader : Reader α) (text : Bytes) : Except Fault α := do
  let (value, rest) ← reader text
  ensureEnd rest
  .ok value

def parse (text : Bytes) : Except Fault Json :=
  readWhole (readValue nestingLimit) text

end FlowVerdict.Json
