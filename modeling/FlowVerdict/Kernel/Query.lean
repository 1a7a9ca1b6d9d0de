import FlowVerdict.Failure
import FlowVerdict.Text.Utf8

/-!
# Asking for a listing

The kernel's connection table is listed by a tool of its own. Here is what the tool is called with,
and what its end means for the cycle that asked.
-/

namespace FlowVerdict.Kernel

def toolName : String := "conntrack"

/-- The arguments of the tool: TCP entries, those to one host if one is given. -/
def toolArguments (host : Option String) : List String :=
  ["-L", "-ptcp"] ++ (host.map fun address => ["-d", address]).getD []

/-- How a call of the tool went. -/
inductive ToolRun where
  | notStarted (fault : IoFault)
  | ended (output : List UInt8) (status : WaitStatus)

/-- Whether an argument can be handed to a tool: it ends at its first NUL, so it holds none. -/
def isArgument (text : String) : Bool :=
  !text.toList.contains '\x00'

/-- How a call of the tool for a host goes, if a call that comes about goes as `run` says. -/
def query (host : Option String) (run : ToolRun) : ToolRun :=
  if (toolArguments host).all isArgument then run
  else .notStarted (.custom "nul byte found in provided data")

def ToolRun.isStarted : ToolRun → Bool
  | .notStarted _ => false
  | .ended _ _ => true

/-- The listing of a call that went well. -/
def ToolRun.listing : ToolRun → Except Failure String
  | .notStarted fault => .error (.trackingUnavailable fault)
  | .ended output status =>
    if status.isSuccess then .ok (Text.Utf8.decodeLossy output) else .error (.trackingFailed status)

end FlowVerdict.Kernel
