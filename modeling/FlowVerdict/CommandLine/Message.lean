import FlowVerdict.CommandLine.Reader
import FlowVerdict.Failure

/-!
# What the command line answers

The texts for a command line that starts no run, and the exit statuses that go with them.
-/

namespace FlowVerdict.CommandLine

def versionText : String := "synjoin 0.2.0"

/-- What an option is good for, for the help text. -/
def Opt.purpose : Opt → String
  | headerFifo => "Named pipe with SYN records, one JSON object per line"
  | connectionFifo => "Named pipe with connection records, one JSON object per line"
  | logFile => "Append the log to this file in addition to stderr"
  | json => "Write the log as JSON, one object per line"
  | statsInterval => "Seconds between two statistics reports in the log"
  | conWait => "Warm-up before the first match, and slack on top of --syn-timeout"
  | synTimeout => "Age in seconds at which an unmatched SYN is a scan"
  | synWaitProxy => "The same for a SYN on a proxied port"
  | synEmptyQueue => "Hold back no_syn verdicts while a SYN is pending"
  | enableConntrack => "Sample the kernel's connection table"
  | hostAddress => "Address that the port monitor listens on"
  | graceTime => "Cycles for which a flow is kept after the kernel dropped it"
  | bestGuess => "Match by source address and destination port as a last resort"
  | bestGuessTimeout => "Age in seconds at which a connection is matched like that"
  | help => "Print help"
  | version => "Print version"

def Opt.helpLine (o : Opt) : String :=
  let short := match o.letter? with
    | some c => "-" ++ c.toString ++ ", "
    | none => "    "
  "  " ++ short ++ o.display ++ "\n          " ++ o.purpose

def helpText : String :=
  "Correlates TCP SYNs with accepted connections and reports scans\n\n" ++
    "Usage: synjoin [OPTIONS]\n\nOptions:\n" ++ "\n".intercalate (Opt.all.map Opt.helpLine)

def UsageFault.message : UsageFault → String
  | badValue option value message =>
    "invalid value '" ++ value ++ "' for '" ++ option.display ++ "': " ++ message
  | noValue option => "a value is required for '" ++ option.display ++ "' but none was supplied"
  | unknown argument => "unexpected argument '" ++ argument ++ "' found"
  | repeated option => "the argument '" ++ option.display ++ "' cannot be used multiple times"
  | unwantedValue option value =>
    "unexpected value '" ++ value ++ "' for '" ++ option.display ++ "' found; no more were expected"

/-- The exit status of a command line that starts no run. -/
def Refusal.status : Refusal → Nat
  | helpWanted | versionWanted => 0
  | usage _ => 2

def logFileRefused (fault : IoFault) : String :=
  "synjoin: cannot open log file: " ++ fault.message

end FlowVerdict.CommandLine
