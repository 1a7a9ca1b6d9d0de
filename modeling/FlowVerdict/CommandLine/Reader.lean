import FlowVerdict.CommandLine.Argument
import FlowVerdict.CommandLine.Option
import FlowVerdict.Decimal.Integer
import FlowVerdict.Decimal.Reader
import FlowVerdict.Settings

/-!
# Reading the command line

The arguments are read from left to right. An option whose value is still to come is pending; it is
settled, and its value looked at, as soon as the next option is recognised or the arguments end. No
option may be given twice. Words that belong to no option are refused, and so is whatever follows a
separator.
-/

namespace FlowVerdict.CommandLine

/-- What is wrong with a command line. -/
inductive UsageFault where
  /-- The value of an option cannot be read. -/
  | badValue (option : Opt) (value message : String)
  /-- An option has no value, or an empty one where that is no value. -/
  | noValue (option : Opt)
  | unknown (argument : String)
  | repeated (option : Opt)
  /-- A flag is given a value. -/
  | unwantedValue (option : Opt) (value : String)
deriving Repr, DecidableEq

/-- Why there is no run to be started. -/
inductive Refusal where
  | helpWanted
  | versionWanted
  | usage (fault : UsageFault)
deriving Repr, DecidableEq

/-- What the command line says. -/
structure Invocation where
  settings : Settings
  /-- Whether the log is written as JSON. -/
  json : Bool
  /-- The file that gets the log too. -/
  logFile : Option String

/-- What has been read, before the options are put together. -/
structure Choices where
  invocation : Invocation
  bestGuess : Bool
  guessTimeout : Float

def Choices.standard : Choices where
  invocation := {
    json := false
    logFile := none
    settings := {
      hostAddress := none
      conWait := 10.0
      synTimeout := 70.0
      synWaitProxy := 100.0
      synEmptyQueue := false
      tracking := false
      grace := 5
      guessAfter := none
      headerPath := "/tmp/header_json.tpm"
      connectionPath := "/tmp/connect_json.tpm"
      statsInterval := .ofSeconds 10 } }
  bestGuess := false
  guessTimeout := 60.0

/-- What all choices come to: the age for guessing counts only if guessing is on. -/
def Choices.resolve (c : Choices) : Invocation :=
  { c.invocation with
    settings :=
      { c.invocation.settings with
        guessAfter := if c.bestGuess then some c.guessTimeout else none } }

def Choices.set (c : Choices) (f : Settings → Settings) : Choices :=
  { c with invocation := { c.invocation with settings := f c.invocation.settings } }

/-- A timeout: a number of seconds that is finite and not negative. -/
def readSeconds (text : String) : Except String Float :=
  match Decimal.readFloat? text with
  | some x =>
    if x.isFinite && !(x < 0.0) then .ok x
    else .error ("expected a finite number of seconds >= 0, got " ++ text)
  | none =>
    .error (if text.isEmpty then "cannot parse float from empty string" else "invalid float literal")

/-- The pause between two reports: whole seconds, at least one. -/
def readInterval (text : String) : Except String Span :=
  match Decimal.readNat (Nat.pow 2 64 - 1) text with
  | .ok n => .ok (.ofSeconds (max 1 n))
  | .error fault => .error fault.message

def graceLimit : Nat := Nat.pow 2 32 - 1

/-- The number of grace cycles, read as a number of 64 bits first. -/
def readGrace (text : String) : Except String Nat :=
  match Decimal.readInt (Nat.pow 2 63 - 1) text with
  | .ok n =>
    if 0 ≤ n ∧ n ≤ graceLimit then .ok n.toNat
    else .error (toString n ++ " is not in 0..=" ++ toString graceLimit)
  | .error fault => .error fault.message

/-- A value that `read` can read, put into the choices by `store`. -/
def Choices.take {α : Type} (c : Choices) (option : Opt) (value : String)
    (read : String → Except String α) (store : Choices → α → Choices) : Except UsageFault Choices :=
  match read value with
  | .ok a => .ok (store c a)
  | .error message => .error (.badValue option value message)

/-- A path of a pipe, which may not be empty. -/
def Choices.takePath (c : Choices) (option : Opt) (value : String)
    (store : Choices → String → Choices) : Except UsageFault Choices :=
  if value.isEmpty then .error (.noValue option) else .ok (store c value)

/-- The choices after an option, with its value if it takes one. -/
def Choices.add (c : Choices) (option : Opt) (value : String) : Except UsageFault Choices :=
  match option with
  | .headerFifo => c.takePath option value fun c v => c.set ({ · with headerPath := v })
  | .connectionFifo => c.takePath option value fun c v => c.set ({ · with connectionPath := v })
  | .logFile => .ok { c with invocation := { c.invocation with logFile := some value } }
  | .json => .ok { c with invocation := { c.invocation with json := true } }
  | .statsInterval =>
    c.take option value readInterval fun c v => c.set ({ · with statsInterval := v })
  | .conWait => c.take option value readSeconds fun c v => c.set ({ · with conWait := v })
  | .synTimeout => c.take option value readSeconds fun c v => c.set ({ · with synTimeout := v })
  | .synWaitProxy => c.take option value readSeconds fun c v => c.set ({ · with synWaitProxy := v })
  | .synEmptyQueue => .ok (c.set ({ · with synEmptyQueue := true }))
  | .enableConntrack => .ok (c.set ({ · with tracking := true }))
  | .hostAddress => .ok (c.set ({ · with hostAddress := some value }))
  | .graceTime => c.take option value readGrace fun c v => c.set ({ · with grace := v })
  | .bestGuess => .ok { c with bestGuess := true }
  | .bestGuessTimeout =>
    c.take option value readSeconds fun c v => { c with guessTimeout := v }
  | .help | .version => .ok c

structure Progress where
  choices : Choices := .standard
  /-- The options that have been settled. -/
  given : List Opt := []
  /-- The option that waits for its value or to be settled with it. -/
  pending : Option (Opt × Option String) := none

namespace Progress

/-- Settles an option, with its value if there is one. -/
def accept (p : Progress) (option : Opt) (value : Option String) : Except Refusal Progress :=
  if option.takesValue && value.isNone then .error (.usage (.noValue option))
  else
    match option with
    | .help => .error .helpWanted
    | .version => .error .versionWanted
    | _ =>
      if option ∈ p.given then .error (.usage (.repeated option))
      else
        match p.choices.add option (value.getD "") with
        | .ok choices => .ok { p with choices, given := option :: p.given }
        | .error fault => .error (.usage fault)

def settle (p : Progress) : Except Refusal Progress :=
  match p.pending with
  | none => .ok p
  | some (option, value) => { p with pending := none }.accept option value

/-- Recognises an option, which may come with a value of its own; without one, an option that takes
a value is pending. -/
def recognise (p : Progress) (option : Opt) (value : Option String) : Except Refusal Progress := do
  let p ← p.settle
  if option.takesValue && value.isNone then return { p with pending := some (option, none) }
  p.accept option value

def readLong (p : Progress) (name : String) (value : Option String) : Except Refusal Progress :=
  match Opt.ofLong? name, value with
  | none, _ => .error (.usage (.unknown ("--" ++ name)))
  | some option, some value =>
    if option.takesValue then p.recognise option (some value)
    else .error (.usage (.unwantedValue option value))
  | some option, none => p.recognise option none

/-- The value joined to a letter: what follows, less an equals sign in front. -/
def joinedValue : List Char → Option String
  | [] => none
  | '=' :: rest => some (String.ofList rest)
  | rest => some (String.ofList rest)

/-- Short options joined; the first that takes a value takes the rest of the argument for it. -/
def readShort (p : Progress) : List Char → Except Refusal Progress
  | [] => .ok p
  | c :: rest =>
    match Opt.ofLetter? c with
    | none => .error (.usage (.unknown ("-" ++ c.toString)))
    | some option =>
      if option.takesValue then p.recognise option (joinedValue rest)
      else do readShort (← p.recognise option none) rest

/-- A word: the value of the option that waits for one, or else out of place. -/
def readWord (p : Progress) (text : String) : Except Refusal Progress :=
  match p.pending with
  | some (option, none) => .ok { p with pending := some (option, some text) }
  | _ => .error (.usage (.unknown text))

/-- All arguments, up to a separator; behind that there must be none. -/
def readAll (p : Progress) : List String → Except Refusal Progress
  | [] => p.settle
  | text :: rest =>
    match Argument.ofText text with
    | .separator =>
      match rest with
      | [] => p.settle
      | extra :: _ => .error (.usage (.unknown extra))
    | .long name value => do readAll (← p.readLong name value) rest
    | .short letters => do readAll (← p.readShort letters) rest
    | .word text => do readAll (← p.readWord text) rest

end Progress

/-- Reads a command line, without the name of the program. -/
def read (arguments : List String) : Except Refusal Invocation :=
  (Progress.readAll {} arguments).map (·.choices.resolve)

end FlowVerdict.CommandLine
