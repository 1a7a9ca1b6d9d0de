import FlowVerdict.Decimal.Integer
import FlowVerdict.Flow
import FlowVerdict.Text.Blank

/-!
# Rows of the kernel's connection table

A row has its timeout third, its state fourth, and then `key=value` fields for two directions: the
first occurrence of a key belongs to the origin direction, as the kernel saw it before NAT, and the
second to the reply direction. From them come the two names of one flow: as the connection stream
knows it and as the header stream does.
-/

namespace FlowVerdict.Kernel

structure Row where
  /-- Seconds for which the kernel keeps the entry without further traffic. -/
  timeout : Nat
  /-- The flow as the connection stream knows it. -/
  conKey : FlowId
  /-- The flow as the header stream knows it. -/
  synKey : FlowId
  /-- The source port before NAT, if the row has a port there. -/
  srcPort : Option UInt16
deriving Repr, DecidableEq

inductive Reading where
  | tracked (row : Row)
  /-- A row in a state that says nothing about the flows of interest. -/
  | ignored
  | malformed
deriving Repr, DecidableEq

/-- The addresses and ports of one direction, as far as they are known. -/
structure Direction where
  src : Option String := none
  dst : Option String := none
  sport : Option String := none
  dport : Option String := none

def Direction.complete (d : Direction) : Bool :=
  d.src.isSome && d.dst.isSome && d.sport.isSome && d.dport.isSome

/-- The direction with a field set, or `none` if that field has a value already. Other keys change
nothing. -/
def Direction.set? (d : Direction) (key value : String) : Option Direction :=
  let vacant (slot : Option String) (filled : Direction) : Option Direction :=
    if slot.isSome then none else some filled
  match key with
  | "src" => vacant d.src { d with src := some value }
  | "dst" => vacant d.dst { d with dst := some value }
  | "sport" => vacant d.sport { d with sport := some value }
  | "dport" => vacant d.dport { d with dport := some value }
  | _ => some d

structure Directions where
  origin : Direction := {}
  reply : Direction := {}

/-- Takes up a field: what the origin direction has no place for goes to the reply direction, and
what neither has a place for is dropped. -/
def Directions.add (d : Directions) (key value : String) : Directions :=
  match d.origin.set? key value with
  | some origin => { d with origin }
  | none => { d with reply := (d.reply.set? key value).getD d.reply }

/-- A field cut at its first equals sign. -/
def cut? (word : String) : Option (String × String) :=
  let cs := word.toList
  if '=' ∈ cs then
    some (String.ofList (cs.takeWhile (· ≠ '=')), String.ofList ((cs.dropWhile (· ≠ '=')).drop 1))
  else none

def Directions.ofFields (words : List String) : Directions :=
  words.foldl (fun d word =>
    match cut? word with
    | some (key, value) => d.add key value
    | none => d) {}

def isTrackedState (state : String) : Bool :=
  state = "ESTABLISHED" || state = "CLOSE" || state = "SYN_SENT"

/-- The fewest words of a row in such a state. -/
def leastWords : Nat := 14

def timeoutLimit : Nat := Nat.pow 2 32 - 1

/-- A port: a whole number of 16 bits. -/
def readPort? (text : String) : Option UInt16 :=
  (Decimal.readNat (Nat.pow 2 16 - 1) text).toOption.map UInt16.ofNat

def Row.ofDirections? (timeout : Nat) (d : Directions) : Option Row :=
  if d.origin.complete && d.reply.complete then do
    let originSrc ← d.origin.src
    let originSport ← d.origin.sport
    let originDport ← d.origin.dport
    let replyDst ← d.reply.dst
    let replyDport ← d.reply.dport
    some {
      timeout
      conKey := .ofParts replyDst originDport replyDport
      synKey := .ofParts originSrc originDport originSport
      srcPort := readPort? originSport }
  else none

def Reading.ofWords (words : List String) : Reading :=
  if words.length < leastWords then .malformed
  else if !isTrackedState (words.getD 3 "") then .ignored
  else
    match Decimal.readNat timeoutLimit (words.getD 2 "") with
    | .error _ => .malformed
    | .ok timeout =>
      match Row.ofDirections? timeout (.ofFields (words.drop 4)) with
      | some row => .tracked row
      | none => .malformed

def Reading.ofText (row : String) : Reading :=
  .ofWords (Text.words row)

end FlowVerdict.Kernel
