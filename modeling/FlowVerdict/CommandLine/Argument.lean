/-!
# The shapes of an argument

An argument is read by its first characters: two dashes start a long option, one dash starts short
ones, and anything else is a value or out of place.
-/

namespace FlowVerdict.CommandLine

/-- What an argument looks like. -/
inductive Argument where
  /-- Two dashes alone: whatever follows is no option. -/
  | separator
  /-- A long option, with the value behind its first equals sign. -/
  | long (name : String) (value : Option String)
  /-- Short options joined; at least one. -/
  | short (letters : List Char)
  | word (text : String)
deriving Repr, DecidableEq

/-- The characters before and behind the first equals sign; `none` for the second if there is
none. -/
def cutValue (text : List Char) : List Char × Option (List Char) :=
  if '=' ∈ text then
    (text.takeWhile (· ≠ '='), some ((text.dropWhile (· ≠ '=')).drop 1))
  else (text, none)

def Argument.ofText (text : String) : Argument :=
  match text.toList with
  | ['-', '-'] => .separator
  | '-' :: '-' :: rest =>
    let (name, value) := cutValue rest
    .long (String.ofList name) (value.map String.ofList)
  | ['-'] => .word text
  | '-' :: letters => .short letters
  | _ => .word text

end FlowVerdict.CommandLine
