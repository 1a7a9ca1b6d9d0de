import FlowVerdict.Session.Intake
import FlowVerdict.Session.Matching
import FlowVerdict.Session.Scan

/-!
# The operations on a session, one equation each

A session changes in few ways: its tables, its counters, its snapshot or its shutdown become others,
something is logged, an event is reported. For each operation, and for each step of a pass, one
equation says which of these changes it makes.
-/

namespace FlowVerdict

def LogEntry.outputFault? : LogEntry → Option String
  | .outputFailed reason => some reason
  | _ => none

/-- Whether an entry is one that operations log by themselves. -/
def LogEntry.isRoutine : LogEntry → Bool
  | .malformedRecord .. | .duplicateFlow .. | .malformedRow .. | .shutdownRequested ..
  | .fastShutdown .. => true
  | _ => false

theorem LogEntry.outputFault?_of_isRoutine {entry : LogEntry} (h : entry.isRoutine = true) :
    entry.outputFault? = none := by
  cases entry with
  | outputFailed reason => cases h
  | _ => rfl

/-- Every request from outside leads to a graceful shutdown at least. -/
theorem Shutdown.graceful_request (s : Shutdown) : s.request.2.graceful = true := by
  unfold request
  dsimp only
  split
  · split <;> rfl
  · rfl

namespace Session

def withTables (syns : SynTable) (connections : ConnectionTable) (s : Session) : Session :=
  { s with syns, connections }

def withSnapshot (snapshot : Option Kernel.Snapshot) (s : Session) : Session :=
  { s with snapshot }

def withShutdown (shutdown : Shutdown) (s : Session) : Session :=
  { s with shutdown }

def tallied (f : Tally → Tally) (s : Session) : Session :=
  { s with tally := f s.tally }

def countConnection (s : Session) : Session :=
  s.tallied fun t => { t with connections := t.connections + 1 }

theorem logAll_nil (s : Session) : s.logAll [] = s := by
  rw [logAll, List.append_nil]

def duplicateEntries (source : String) (id : FlowId) (replaces : Bool) : List LogEntry :=
  if replaces then [.duplicateFlow source id.text] else []

theorem isRoutine_of_duplicateEntries (source : String) (id : FlowId) (replaces : Bool) :
    ∀ entry ∈ duplicateEntries source id replaces, entry.isRoutine = true := by
  unfold duplicateEntries
  split <;> simp [LogEntry.isRoutine]

theorem fileSyn_eq (syn : Syn) (s : Session) :
    s.fileSyn syn =
      ((s.withTables (s.syns.insert syn.flowId syn) s.connections).tallied fun t =>
        { t with
          headers := t.headers + 1
          headerDups := t.headerDups + if s.syns.contains syn.flowId then 1 else 0 }).logAll
        (duplicateEntries headerSource syn.flowId (s.syns.contains syn.flowId)) := by
  cases h : s.syns.contains syn.flowId with
  | true => simp [fileSyn, h, duplicateEntries, logAll, log, tallied, withTables]
  | false => simp [fileSyn, h, duplicateEntries, logAll_nil, tallied, withTables]

/-- A connection is filed as the snapshot corrects it. -/
theorem fileConnection_eq (con : Connection) (s : Session) :
    s.fileConnection con =
      ((s.withTables s.syns
          (s.connections.insert (s.reconciled con).flowId (s.reconciled con))).tallied fun t =>
        { t with
          connectionDups := t.connectionDups +
            if s.connections.contains (s.reconciled con).flowId then 1 else 0 }).logAll
        (duplicateEntries connectionSource (s.reconciled con).flowId
          (s.connections.contains (s.reconciled con).flowId)) := by
  cases h : s.connections.contains (s.reconciled con).flowId with
  | true => simp [fileConnection, h, duplicateEntries, logAll, log, tallied, withTables]
  | false => simp [fileConnection, h, duplicateEntries, logAll_nil, tallied, withTables]

/-- What is logged when a graceful shutdown begins: nothing if the delay until the end is no
span. -/
def gracefulEntries (reason : String) (s : Session) : List LogEntry :=
  match s.settings.gracefulDelay with
  | .error _ => []
  | .ok delay => [.shutdownRequested reason delay.toSeconds]

theorem isRoutine_of_gracefulEntries (reason : String) (s : Session) :
    ∀ entry ∈ s.gracefulEntries reason, entry.isRoutine = true := by
  unfold gracefulEntries
  split <;> simp [LogEntry.isRoutine]

def fastEntry (reason : String) : LogEntry :=
  .fastShutdown reason (Settings.fastDelay.nanos / Nat.pow 10 6)

theorem announceGraceful_eq (reason : String) (s : Session) :
    (s.announceGraceful reason).2 = s.logAll (s.gracefulEntries reason) := by
  cases h : s.settings.gracefulDelay with
  | error fault => simp only [announceGraceful, gracefulEntries, h, logAll_nil]
  | ok delay =>
      simp only [announceGraceful, gracefulEntries, h]
      rfl

theorem requestShutdown_eq (reason : String) (s : Session) :
    (s.requestShutdown reason).2 =
      (s.withShutdown { s.shutdown with graceful := true }).logAll
        (if s.shutdown.graceful then [] else s.gracefulEntries reason) := by
  cases h : s.shutdown.graceful with
  | true => simp [requestShutdown, Shutdown.beginGraceful, h, logAll_nil, withShutdown]
  | false =>
      simp only [requestShutdown, Shutdown.beginGraceful, h, Bool.not_false, if_true,
        announceGraceful_eq]
      rfl

theorem isRoutine_of_requestEntries (reason : String) (s : Session) :
    ∀ entry ∈ (if s.shutdown.graceful then [] else s.gracefulEntries reason),
      entry.isRoutine = true := by
  split
  · exact List.forall_mem_nil _
  · exact s.isRoutine_of_gracefulEntries reason

theorem forceShutdown_eq (reason : String) (fatal : Bool) (s : Session) :
    s.forceShutdown reason fatal =
      (s.withShutdown (s.shutdown.force fatal)).logAll [fastEntry reason] :=
  rfl

theorem signal_eq (s : Session) :
    s.signal.2 = (s.withShutdown s.shutdown.request.2).logAll
      (if s.shutdown.request.1 then [fastEntry "Signal received again"]
        else s.gracefulEntries "Signal received") := by
  cases h : s.shutdown.request.1 with
  | true =>
      simp only [signal, h, if_true]
      rfl
  | false =>
      simp only [signal, h, Bool.false_eq_true, if_false, announceGraceful_eq]
      rfl

theorem isRoutine_of_signalEntries (s : Session) :
    ∀ entry ∈ (if s.shutdown.request.1 then [fastEntry "Signal received again"]
      else s.gracefulEntries "Signal received"), entry.isRoutine = true := by
  split
  · simp [fastEntry, LogEntry.isRoutine]
  · exact s.isRoutine_of_gracefulEntries _

def rowEntries (listing : String) (stamp : Float) (s : Session) : List LogEntry :=
  (s.snapshot.map fun snapshot =>
    (snapshot.cycle listing stamp).2.malformed.map LogEntry.malformedRow).getD []

theorem cycle_eq (listing : String) (stamp : Float) (s : Session) :
    (s.cycle listing stamp).2 =
      (s.withSnapshot (s.snapshot.map fun snapshot => (snapshot.cycle listing stamp).1)).logAll
        (s.rowEntries listing stamp) := by
  cases h : s.snapshot with
  | none =>
      simp only [cycle, h, rowEntries, Option.map_none, Option.getD_none, logAll_nil, withSnapshot]
      rw [← h]
  | some snapshot => simp [cycle, h, rowEntries, withSnapshot]

theorem isRoutine_of_rowEntries (listing : String) (stamp : Float) (s : Session) :
    ∀ entry ∈ s.rowEntries listing stamp, entry.isRoutine = true := by
  intro entry hmem
  cases hsnapshot : s.snapshot with
  | none => simp [rowEntries, hsnapshot] at hmem
  | some snapshot =>
      simp only [rowEntries, hsnapshot, Option.map_some, Option.getD_some] at hmem
      obtain ⟨row, _, rfl⟩ := List.mem_map.mp hmem
      rfl

theorem settle_of_isReady {held : Held} {s : Session} (h : s.isReady held.wait = true) :
    s.settle held = (none, s.fileConnection held.connection) := by
  rw [settle, if_pos h]

/-- A connection whose wait is not over is given up or held, and nothing else happens. -/
theorem settle_of_not_isReady {held : Held} {s : Session} (h : s.isReady held.wait = false) :
    s.settle held = (if s.shutdown.fast then none else some held, s) := by
  rw [settle, h, if_neg Bool.false_ne_true]
  split <;> rfl

/-- A wait that has just begun is not over. -/
theorem isReady_of_waitFor? {unixtime : Float} {s : Session} {wait : Kernel.Wait}
    (h : s.waitFor? unixtime = some wait) : s.isReady wait = false := by
  simp only [waitFor?, Option.bind_eq_bind, Option.bind_eq_some_iff] at h
  obtain ⟨snapshot, hsnapshot, h⟩ := h
  split at h
  · cases h
  · next hover =>
      cases h
      simpa [isReady, hsnapshot] using hover

/-- How a connection line goes on once it is read. -/
theorem ingestConnection_of_parse {line : Json.Bytes} {con : Connection}
    (h : Connection.parse line = .ok con) (s : Session) :
    s.ingestConnection line =
      match s.waitFor? con.unixtime with
      | none => (none, s.countConnection.fileConnection con)
      | some wait => s.countConnection.settle { wait, connection := con } := by
  simp only [ingestConnection, h]
  rfl

theorem matchExact_eq (s : Session) (report : PassReport) (flow : FlowId) :
    matchExact (s, report) flow =
      match s.connections.get? flow, s.syns.take? flow with
      | some con, some (syn, syns) =>
        ((s.withTables syns (s.connections.erase flow)).emit
            (.accepted con syn (s.settings.guessAfter.map fun _ => false)),
          { report with exact := report.exact + 1 })
      | _, _ => (s, report) :=
  rfl

theorem decideRest_eq (now : Float) (s : Session) (report : PassReport) (flow : FlowId) :
    decideRest now (s, report) flow =
      match s.connections.get? flow with
      | none => (s, report)
      | some con =>
        match s.guess? now flow con with
        | some (syn, syns) =>
          (((s.withTables syns (s.connections.erase flow)).tallied fun t =>
              { t with guesses := t.guesses + 1 }).emit (.accepted con syn (some true)),
            { report with guessed := report.guessed + 1 })
        | none =>
          if s.lacksSyn now con then
            ((s.withTables s.syns (s.connections.erase flow)).emit (.noSyn con),
              { report with noSyn := report.noSyn + 1 })
          else (s, { report with pending := report.pending + 1 }) :=
  rfl

theorem scanOne_eq (horizon : Option Float) (now : Float) (s : Session) (emitted : Nat)
    (flow : FlowId) :
    scanOne horizon now (s, emitted) flow =
      match s.syns.get? flow with
      | none => (s, emitted)
      | some syn =>
        match s.liveness? horizon flow syn with
        | none => (s, emitted)
        | some live =>
          if !live && s.isExpired now (examined live syn) then
            match s.syns.take? flow with
            | some (_, syns) =>
              ((s.withTables syns s.connections).emit (.synScan (examined live syn)), emitted + 1)
            | none => (s, emitted)
          else
            (s.withTables (s.syns.modify flow (examined live)) s.connections, emitted) :=
  rfl

end Session

end FlowVerdict
