import FlowVerdict.Json.Value
import FlowVerdict.Decimal.Layout

/-!
# JSON text

The one written form of a JSON value: no blanks, members in the order of their list, and in strings
only the quote, the backslash and the control characters marked. Such a text has no line break, so a
value is one line.
-/

namespace FlowVerdict.Json

/-- A control character by its number, in four hexadecimal digits. -/
def numberedEscape (c : Char) : String :=
  "\\u00" ++ String.ofList [Nat.digitChar (c.toNat / 16), Nat.digitChar (c.toNat % 16)]

def escaped (c : Char) : String :=
  if c = '"' then "\\\""
  else if c = '\\' then "\\\\"
  else if c = '\x08' then "\\b"
  else if c = '\x0c' then "\\f"
  else if c = '\n' then "\\n"
  else if c = '\r' then "\\r"
  else if c = '\t' then "\\t"
  else if c.toNat < 0x20 then numberedEscape c
  else c.toString

def quote (text : String) : String :=
  text.foldl (fun written c => written ++ escaped c) "\"" ++ "\""

mutual

def write : Json → String
  | null => "null"
  | bool true => "true"
  | bool false => "false"
  | int n => toString n
  | float x => Decimal.jsonNumber.write x
  | str text => quote text
  | arr items => "[" ++ writeItems items ++ "]"
  | obj members => "\x7b" ++ writeMembers members ++ "\x7d"

def writeItems : List Json → String
  | [] => ""
  | [item] => write item
  | item :: rest => write item ++ "," ++ writeItems rest

def writeMembers : List (String × Json) → String
  | [] => ""
  | [(key, value)] => quote key ++ ":" ++ write value
  | (key, value) :: rest => quote key ++ ":" ++ write value ++ "," ++ writeMembers rest

end

end FlowVerdict.Json
