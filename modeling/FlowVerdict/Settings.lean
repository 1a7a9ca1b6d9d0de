import FlowVerdict.Decimal.Layout
import FlowVerdict.Span

/-!
# Settings

The settings of a session, all timeouts in seconds as the records count them, and what follows from
them: the age at which each verdict falls, the spans that the workers wait, and warnings about
values that do not go together.
-/

namespace FlowVerdict

structure Settings where
  /-- The address that the port monitor listens on. -/
  hostAddress : Option String
  /-- The warm-up of the matcher, and the time that a connection gets beyond `synTimeout`. -/
  conWait : Float
  /-- The age at which a SYN without connection is a scan. -/
  synTimeout : Float
  /-- The same for a SYN whose flow was handed on to a backend. -/
  synWaitProxy : Float
  /-- Whether no connection is reported without SYN while a SYN is pending. -/
  synEmptyQueue : Bool
  /-- Whether the kernel's connection table is sampled. -/
  tracking : Bool
  /-- The cycles for which a flow that the kernel dropped is kept. -/
  grace : Nat
  /-- The age at which a SYN is guessed for a connection; `none` while guessing is off. -/
  guessAfter : Option Float
  headerPath : String
  connectionPath : String
  statsInterval : Span

namespace Settings

def passInterval : Span := .ofSeconds 1

def cycleInterval : Span := .ofSeconds 1

/-- The time from a fast shutdown to the end of the process. -/
def fastDelay : Span := .ofMillis 100

/-- The time that a graceful shutdown leaves for the last scan pass. -/
def gracefulSlack : Span := .ofMillis 100

def noSynAfter (s : Settings) : Float :=
  s.conWait + s.synTimeout

/-- The age at which a SYN is a scan. -/
def scanAfter (s : Settings) (proxied : Bool) : Float :=
  if proxied then s.synWaitProxy else s.synTimeout

/-- The time from a graceful shutdown to the end of the process. -/
def gracefulDelay (s : Settings) : Except SpanFault Span := do
  (← Span.ofSetting s.synTimeout).add gracefulSlack

/-- The time that the matcher waits before its first pass. -/
def warmUp (s : Settings) : Except SpanFault Span :=
  Span.ofSetting s.conWait

/-- The time that the scan detector waits at most for the matcher's first pass. -/
def latch (s : Settings) : Except SpanFault Span :=
  Span.ofSetting (3.0 * s.conWait)

/-- A number of seconds as the warnings and the log write it. -/
def seconds (x : Float) : String :=
  Decimal.plainNumber.write x ++ "s"

/-- What does not go together in the settings. None of it stops the session. -/
def warnings (s : Settings) : List String :=
  let unfiltered :=
    if s.tracking && s.hostAddress.isNone then
      ["connection tracking is enabled but no host address is set; conntrack will not be filtered " ++
        "by destination"]
    else []
  let proxyEarly :=
    if s.synWaitProxy < s.synTimeout then
      ["syn-wait-proxy (" ++ seconds s.synWaitProxy ++ ") is below syn-timeout (" ++
        seconds s.synTimeout ++ "); proxied SYNs may be reported before their connection"]
    else []
  let guessing :=
    match s.guessAfter with
    | none => []
    | some limit =>
      let late :=
        if s.synTimeout ≤ limit then
          ["best-guess-timeout (" ++ seconds limit ++ ") is not below syn-timeout (" ++
            seconds s.synTimeout ++ "); best-guess matches will rarely happen"]
        else []
      let held :=
        if s.synEmptyQueue then
          ["syn-empty-queue together with best-guess may defer no_syn verdicts indefinitely while " ++
            "SYNs keep arriving"]
        else []
      late ++ held
  unfiltered ++ proxyEarly ++ guessing

/-- The settings as the log shows them at the start, one a line. -/
def describe (s : Settings) : List String :=
  let guess :=
    match s.guessAfter with
    | some limit => "on, after " ++ seconds limit
    | none => "off"
  [ "header pipe:          " ++ s.headerPath,
    "connection pipe:      " ++ s.connectionPath,
    "host address:         " ++ s.hostAddress.getD "-",
    "con wait:             " ++ seconds s.conWait,
    "syn timeout:          " ++ seconds s.synTimeout,
    "syn wait proxy:       " ++ seconds s.synWaitProxy,
    "syn empty queue:      " ++ toString s.synEmptyQueue,
    "conntrack:            " ++ toString s.tracking,
    "ct status grace time: " ++ toString s.grace,
    "best guess:           " ++ guess,
    "stats interval:       " ++ toString s.statsInterval.wholeSeconds ++ "s" ]

end Settings

end FlowVerdict
