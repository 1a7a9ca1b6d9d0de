import FlowVerdict.Json.Skip

/-!
# Records in JSON

A record of declared fields, read from an object or, where the record allows it, from an array of
its fields in their order. A `Schema` names the fields and fills a draft with them one by one; a
field may stand only once, and one that is missing is noticed at the end of the object, in the order
of declaration. `readRecord` gives the finished record.
-/

namespace FlowVerdict.Json

/-- A declared field of a draft `δ`. -/
structure Field (δ : Type) where
  name : String
  /-- Whether a record without the field is refused. -/
  required : Bool
  filled : δ → Bool
  /-- Reads the value of the field into the draft. -/
  read : δ → Reader δ

/-- A field whose value is kept in an optional part of the draft. -/
def Field.of {δ α : Type} (name : String) (required : Bool) (reader : Reader α)
    (get : δ → Option α) (set : δ → α → δ) : Field δ where
  name := name
  required := required
  filled draft := (get draft).isSome
  read draft text := do
    let (value, rest) ← reader text
    .ok (set draft value, rest)

/-- How a record `ρ` is read by way of a draft `δ`. -/
structure Schema (δ ρ : Type) where
  /-- The name of the record in messages. -/
  title : String
  fields : List (Field δ)
  blank : δ
  /-- Takes up the value of a field that is not declared. -/
  other : δ → String → Reader δ
  /-- Whether an array of the fields is as good as an object. -/
  fromArray : Bool
  /-- The record of a draft in which every required field is filled. -/
  finish : δ → Option ρ

/-- An undeclared field whose value is passed over. -/
def ignoreOther {δ : Type} (draft : δ) (_ : String) : Reader δ := fun text => do
  .ok (draft, ← skipValue text)

variable {δ ρ : Type}

/-- What follows a key: the value of a declared field, which must be the first of its name, or an
undeclared one. -/
def Schema.member (s : Schema δ ρ) (draft : δ) (name : String) : Reader δ := fun text =>
  match s.fields.find? (·.name = name) with
  | some field =>
    if field.filled draft then .error (.duplicateField name)
    else do field.read draft (← readColon text)
  | none => do s.other draft name (← readColon text)

def Schema.missing? (s : Schema δ ρ) (draft : δ) : Option String :=
  (s.fields.find? fun field => field.required && !field.filled draft).map (·.name)

/-- The finished record of a draft, or the name of the field that it lacks. -/
def Schema.complete (s : Schema δ ρ) (draft : δ) : Except Fault ρ :=
  match s.missing? draft, s.finish draft with
  | some name, _ => .error (.missingField name)
  | none, some record => .ok record
  | none, none => .error .endInObject

/-- A record from after the brace of its object. -/
def Schema.readObject (s : Schema δ ρ) : Reader ρ := fun text => do
  let (draft, rest) ← readMembers s.member (text.length + 1) true s.blank text
  .ok (← s.complete draft, rest)

def Schema.expectation (s : Schema δ ρ) : String :=
  s.title ++ " with " ++ toString s.fields.length ++ " elements"

/-- Fills the fields of a draft from the items of an array, from the field at `index` on. Items may
be missing at the end where no required field is left. -/
def Schema.fillFrom (s : Schema δ ρ) : List (Field δ) → Nat → δ → Reader δ
  | [], _, draft, text => .ok (draft, text)
  | field :: fields, index, draft, text => do
    match ← nextItem (index == 0) text with
    | .item text =>
      let (draft, rest) ← field.read draft text
      s.fillFrom fields (index + 1) draft rest
    | .done _ =>
      if field.required then .error (.invalidLength index s.expectation)
      else s.fillFrom fields (index + 1) draft text

/-- The end of an array whose items are all taken. -/
def closeArray (text : Bytes) : Except Fault Bytes :=
  match skipBlanks text with
  | [] => .error .endInArray
  | b :: rest =>
    if b = byte ']' then .ok rest
    else if b = byte ',' && (skipBlanks rest).head? = some (byte ']') then .error .trailingComma
    else .error .trailingCharacters

/-- A record from after the bracket of its array. -/
def Schema.readArray (s : Schema δ ρ) : Reader ρ := fun text => do
  let (draft, rest) ← s.fillFrom s.fields 0 s.blank text
  let record ← s.complete draft
  .ok (record, ← closeArray rest)

/-- The fault of a value, given by its first byte and the rest, where `expected` is wanted. A word,
number or string is read to its end first, since it may be faulty itself. -/
def mistyped {α : Type} (expected : String) (b : UInt8) (rest : Bytes) : Except Fault α :=
  if b = byte '[' then .error (.invalidType .array expected)
  else if b = byte '\x7b' then .error (.invalidType .object expected)
  else do
    let (found, _) ← readScalar b rest
    .error (.invalidType found expected)

/-- A record with room for `depth` arrays and objects, itself among them. -/
def Schema.read (s : Schema δ ρ) (depth : Nat) : Reader ρ := fun text => do
  let (b, text) ← valueStart text
  let rest := text.drop 1
  if b = byte '\x7b' then if depth = 0 then .error .recursionLimit else s.readObject rest
  else if b = byte '[' && s.fromArray then
    if depth = 0 then .error .recursionLimit else s.readArray rest
  else mistyped s.title b rest

def readText : Reader String := fun text => do
  let (b, text) ← valueStart text
  if b = byte '"' then readString (text.drop 1) else mistyped "a string" b (text.drop 1)

def readPort : Reader UInt16 := fun text => do
  let (b, text) ← valueStart text
  if !startsNumber b then mistyped "u16" b (text.drop 1)
  else
    match ← readNumber text with
    | (.natural n, rest) =>
      if n < Nat.pow 2 16 then .ok (UInt16.ofNat n, rest) else .error (.invalidValue (.int n) "u16")
    | (.negative n, _) => .error (.invalidValue (.int n) "u16")
    | (.float x, _) => .error (.invalidType (.float x) "u16")

/-- A double; whole numbers are taken as the nearest one. -/
def readDouble : Reader Float := fun text => do
  let (b, text) ← valueStart text
  if !startsNumber b then mistyped "f64" b (text.drop 1)
  else
    match ← readNumber text with
    | (.natural n, rest) => .ok ((UInt64.ofNat n).toFloat, rest)
    | (.negative n, rest) => .ok (-(UInt64.ofNat n.natAbs).toFloat, rest)
    | (.float x, rest) => .ok (x, rest)

def readOptional (depth : Nat) : Reader (Option Json) := fun text => do
  let (b, text) ← valueStart text
  if b = byte 'n' then (readWord nullTail (text.drop 1)).map (none, ·)
  else (readValue depth text).map fun (value, rest) => (some value, rest)

end FlowVerdict.Json
