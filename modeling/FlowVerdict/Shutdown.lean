/-!
# Shutdown

How far a session is on its way to its end. A graceful shutdown refuses new SYNs and new verdicts
without SYN while what is pending drains; a fast one stops every worker. No flag is ever cleared.
-/

namespace FlowVerdict

/-- The state of the shutdown. -/
structure Shutdown where
  graceful : Bool := false
  fast : Bool := false
  /-- Whether an error is the cause. -/
  fatal : Bool := false
  /-- The termination requests so far; the counter wraps. -/
  requests : UInt32 := 0
deriving Repr, DecidableEq

namespace Shutdown

/-- Starts a graceful shutdown. The answer says whether this is the one that started it. -/
def beginGraceful (s : Shutdown) : Bool × Shutdown :=
  (!s.graceful, { s with graceful := true })

def force (fatal : Bool) (s : Shutdown) : Shutdown :=
  { s with graceful := true, fast := true, fatal := s.fatal || fatal }

/-- One request from outside: the first starts a graceful shutdown, any later one a fast one. The
answer says whether the shutdown is fast now. -/
def request (s : Shutdown) : Bool × Shutdown :=
  let counted := { s with requests := s.requests + 1 }
  if s.requests = 0 then
    let (started, next) := counted.beginGraceful
    if started then (false, next) else (true, next.force false)
  else (true, counted.force false)

end Shutdown

end FlowVerdict
