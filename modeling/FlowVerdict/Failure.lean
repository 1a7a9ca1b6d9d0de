import FlowVerdict.SystemError

/-!
# Failures that end a worker

What can go wrong with an input stream, the listing tool or a worker as a whole. Faults of single
records and rows are logged where they are met and never get here.
-/

namespace FlowVerdict

/-- Why the operating system, or something that acts for it, refused an operation. -/
inductive IoFault where
  | os (code : Int)
  | custom (text : String)
deriving Repr, DecidableEq

def IoFault.message : IoFault → String
  | .os code => SystemError.name code ++ " (os error " ++ toString code ++ ")"
  | .custom text => text

/-- Whether a call ended only because a signal came in. Such a call is made again. -/
def IoFault.isInterruption : IoFault → Bool
  | .os code => code = SystemError.interrupted
  | .custom _ => false

/-- How a process ended, as the operating system encodes it in 32 bits. -/
structure WaitStatus where
  code : UInt32
deriving Repr, DecidableEq

namespace WaitStatus

def ofExit (status : Nat) : WaitStatus :=
  ⟨UInt32.ofNat (status % 256 * 256)⟩

def ofSignal (signal : Nat) : WaitStatus :=
  ⟨UInt32.ofNat (signal % 128)⟩

def isSuccess (s : WaitStatus) : Bool :=
  s.code = 0

/-- The name of a signal, or nothing for a number without one. -/
def signalName (signal : Nat) : String :=
  let names := ["HUP", "INT", "QUIT", "ILL", "TRAP", "ABRT", "BUS", "FPE", "KILL", "USR1", "SEGV",
    "USR2", "PIPE", "ALRM", "TERM", "STKFLT", "CHLD", "CONT", "STOP", "TSTP", "TTIN", "TTOU",
    "URG", "XCPU", "XFSZ", "VTALRM", "PROF", "WINCH", "IO", "PWR", "SYS"]
  match signal with
  | 0 => ""
  | n + 1 =>
    match names[n]? with
    | some name => " (SIG" ++ name ++ ")"
    | none => ""

/-- How a message shows the end of a process. A status that means nothing is shown as a signed
number and by its digits. -/
def message (s : WaitStatus) : String :=
  let bits := s.code.toNat
  let low := bits % 128
  let high := bits / 256 % 256
  let core := if bits / 128 % 2 = 1 then " (core dumped)" else ""
  if low = 0 then "exit status: " ++ toString high
  else if low < 127 then "signal: " ++ toString low ++ signalName low ++ core
  else if bits % 256 = 127 then
    "stopped (not terminated) by signal: " ++ toString high ++ signalName high
  else if bits = 0xFFFF then "continued (WIFCONTINUED)"
  else
    "unrecognised wait status: " ++ toString s.code.toInt32.toInt ++ " 0x" ++
      String.ofList (Nat.toDigits 16 bits)

end WaitStatus

inductive Failure where
  | sourceOpen (path : String) (fault : IoFault)
  | sourceRead (path : String) (fault : IoFault)
  | sourceClosed (path : String)
  | trackingUnavailable (fault : IoFault)
  | trackingFailed (status : WaitStatus)
  | spawn (worker : String) (fault : IoFault)
deriving Repr, DecidableEq

def Failure.message : Failure → String
  | .sourceOpen path fault => "cannot open input source " ++ path ++ ": " ++ fault.message
  | .sourceRead path fault => "reading input source " ++ path ++ " failed: " ++ fault.message
  | .sourceClosed path => "input source " ++ path ++ " closed"
  | .trackingUnavailable fault => "conntrack could not be run: " ++ fault.message
  | .trackingFailed status => "conntrack exited with " ++ status.message
  | .spawn worker fault => "cannot spawn worker thread " ++ worker ++ ": " ++ fault.message

end FlowVerdict
