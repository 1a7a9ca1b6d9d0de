/-!
# Options

The options of the command line: their spellings, and what they take.
-/

namespace FlowVerdict.CommandLine

inductive Opt where
  | headerFifo
  | connectionFifo
  | logFile
  | json
  | statsInterval
  | conWait
  | synTimeout
  | synWaitProxy
  | synEmptyQueue
  | enableConntrack
  | hostAddress
  | graceTime
  | bestGuess
  | bestGuessTimeout
  | help
  | version
deriving Repr, DecidableEq

namespace Opt

def all : List Opt :=
  [headerFifo, connectionFifo, logFile, json, statsInterval, conWait, synTimeout, synWaitProxy,
    synEmptyQueue, enableConntrack, hostAddress, graceTime, bestGuess, bestGuessTimeout, help, version]

def long : Opt → String
  | headerFifo => "header-fifo"
  | connectionFifo => "connection-fifo"
  | logFile => "log-file"
  | json => "json"
  | statsInterval => "stats-interval"
  | conWait => "con-wait"
  | synTimeout => "syn-timeout"
  | synWaitProxy => "syn-wait-proxy"
  | synEmptyQueue => "syn-empty-queue"
  | enableConntrack => "enable-conntrack"
  | hostAddress => "hostaddress"
  | graceTime => "ct-status-grace-time"
  | bestGuess => "best-guess"
  | bestGuessTimeout => "best-guess-timeout"
  | help => "help"
  | version => "version"

def letter? : Opt → Option Char
  | logFile => some 'o'
  | json => some 'j'
  | help => some 'h'
  | version => some 'V'
  | _ => none

/-- What stands for the value of an option in messages; nothing for a flag. -/
def placeholder? : Opt → Option String
  | headerFifo | connectionFifo | logFile => some "PATH"
  | statsInterval | conWait | synTimeout | synWaitProxy | graceTime | bestGuessTimeout => some "SECS"
  | hostAddress => some "ADDR"
  | json | synEmptyQueue | enableConntrack | bestGuess | help | version => none

def takesValue (o : Opt) : Bool :=
  o.placeholder?.isSome

def display (o : Opt) : String :=
  "--" ++ o.long ++
    match o.placeholder? with
    | some placeholder => " <" ++ placeholder ++ ">"
    | none => ""

def ofLong? (name : String) : Option Opt :=
  all.find? (·.long = name)

def ofLetter? (c : Char) : Option Opt :=
  all.find? (·.letter? = some c)

end Opt

end FlowVerdict.CommandLine
