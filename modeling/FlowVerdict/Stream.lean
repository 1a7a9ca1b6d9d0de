import FlowVerdict.Failure
import FlowVerdict.Json.Lexeme

/-!
# Input streams

A stream of lines as it arrives: in reads of any size, with an end that may be orderly, a fault, or
silence. Lines are handed on as they are, line feed included; a line of ASCII blanks alone is passed
over. How the bytes are spread over the reads makes no difference.
-/

namespace FlowVerdict

open Json (Bytes)

/-- How a stream ends. -/
inductive StreamEnd where
  /-- The writer went away. -/
  | closed
  | failed (fault : IoFault)
  /-- Nothing more arrives, but the writer is there. -/
  | silent
deriving Repr, DecidableEq

/-- What is left of a stream: the bytes read by read, and its end. -/
structure Stream where
  reads : List Bytes
  ending : StreamEnd
deriving Repr, DecidableEq

/-- Why reading lines from a stream came to a halt. -/
inductive Halt where
  /-- A fast shutdown. -/
  | stopped
  | failed (failure : Failure)
  /-- The next line is not there yet. -/
  | starved
deriving Repr, DecidableEq

namespace Stream

/-- The stream that calls to read deliver, up to the one that ends it: a call that delivers nothing,
since the writer went away, or a fault. An interrupted call delivers nothing either, and is made
again. -/
def ofCalls : List (Except IoFault Bytes) → Stream
  | [] => ⟨[], .silent⟩
  | .ok [] :: _ => ⟨[], .closed⟩
  | .ok read :: calls =>
    let rest := ofCalls calls
    ⟨read :: rest.reads, rest.ending⟩
  | .error fault :: calls =>
    if fault.isInterruption then ofCalls calls else ⟨[], .failed fault⟩

/-- The next line of a stream, or how it ends. -/
inductive Next where
  | line (bytes : Bytes) (rest : Stream)
  | ended (ending : StreamEnd)

def lineFeed : UInt8 := 0x0A

/-- A run of bytes cut after its first line feed; `none` for the second part if there is none. -/
def cutLine : Bytes → Bytes × Option Bytes
  | [] => ([], none)
  | b :: rest =>
    if b = lineFeed then ([b], some rest)
    else
      let (line, after) := cutLine rest
      (b :: line, after)

/-- The next line, of which `sofar` has been read, last byte first. Bytes without a line feed at the
end are a line only if the writer is gone. -/
def nextFrom (ending : StreamEnd) (sofar : Bytes) : List Bytes → Next
  | [] =>
    match ending with
    | .closed => if sofar.isEmpty then .ended .closed else .line sofar.reverse ⟨[], .closed⟩
    | other => .ended other
  | read :: reads =>
    match cutLine read with
    | (front, some rest) => .line (sofar.reverseAux front) ⟨rest :: reads, ending⟩
    | (front, none) => nextFrom ending (front.reverseAux sofar) reads

def next (s : Stream) : Next :=
  nextFrom s.ending [] s.reads

/-- The blanks of ASCII, the vertical tab not among them. -/
def isAsciiBlank (b : UInt8) : Bool :=
  b = 0x20 || b = 0x09 || b = 0x0A || b = 0x0C || b = 0x0D

def isBlankLine (line : Bytes) : Bool :=
  line.all isAsciiBlank

/-- A stream that has fallen silent, and what arrives after that. -/
def append (s arrived : Stream) : Stream :=
  ⟨s.reads ++ arrived.reads, arrived.ending⟩

def size (s : Stream) : Nat :=
  s.reads.flatten.length

/-- Hands up to `fuel` lines to `handle`, one after the other, until `fast` holds or no line is
left. -/
def readWithin {σ : Type} (path : String) (fast : σ → Bool) (handle : Bytes → σ → σ) :
    Nat → Stream → σ → Halt × σ
  | 0, _, state => (.starved, state)
  | fuel + 1, s, state =>
    if fast state then (.stopped, state)
    else
      match s.next with
      | .ended .closed => (.failed (.sourceClosed path), state)
      | .ended (.failed fault) => (.failed (.sourceRead path fault), state)
      | .ended .silent => (.starved, state)
      | .line line rest =>
        readWithin path fast handle fuel rest
          (if isBlankLine line then state else handle line state)

def readLines {σ : Type} (path : String) (fast : σ → Bool) (handle : Bytes → σ → σ) (s : Stream)
    (state : σ) : Halt × σ :=
  readWithin path fast handle (s.size + 1) s state

/-- A run of bytes in reads of at most `capacity`, which is not zero. -/
def chunks (capacity : Nat) (bytes : Bytes) : List Bytes :=
  go bytes.length bytes
where
  go : Nat → Bytes → List Bytes
    | 0, _ => []
    | _ + 1, [] => []
    | fuel + 1, bytes => bytes.take (max 1 capacity) :: go fuel (bytes.drop (max 1 capacity))

end Stream

end FlowVerdict
