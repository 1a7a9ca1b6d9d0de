/-!
# JSON values

A JSON value as the monitors send it and the event stream repeats it. Whole numbers and doubles are
told apart, and the members of an object are a list in the order in which they are written. Objects
that are read keep their members sorted by key, with one member per key: `Members.put`.
-/

namespace FlowVerdict

/-- A JSON value. -/
inductive Json where
  | null
  | bool (value : Bool)
  | int (value : Int)
  | float (value : Float)
  | str (value : String)
  | arr (items : List Json)
  | obj (members : List (String × Json))

namespace Json

/-- The members of an object. -/
abbrev Members := List (String × Json)

/-- Sets a member of a sorted list of members: a key that is there gets the new value, a new one
goes to its place. Keys are ordered by their characters, which is the order of their bytes. -/
def Members.put (key : String) (value : Json) : Members → Members
  | [] => [(key, value)]
  | (k, v) :: rest =>
    if key = k then (key, value) :: rest
    else if key < k then (key, value) :: (k, v) :: rest
    else (k, v) :: Members.put key value rest

/-- Members put one after the other: sorted, and the last value of a key wins. -/
def Members.sorted (members : Members) : Members :=
  members.foldl (fun kept (key, value) => Members.put key value kept) []

def Members.get? (key : String) (members : Members) : Option Json :=
  (members.find? fun member => member.1 = key).map Prod.snd

def ofText? : Option String → Json
  | some text => .str text
  | none => .null

def ofNat (n : Nat) : Json :=
  .int n

end Json

end FlowVerdict
