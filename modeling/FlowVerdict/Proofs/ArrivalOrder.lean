import FlowVerdict.CommandLine.Reader
import FlowVerdict.Proofs.VisitOrder

/-!
# The order of arrival

Without sampling and outside a shutdown a record is filed as soon as its line is read, and replaces
what was pending under its flow. So the tables and counters after a number of lines do not depend on
how the two streams interleave, nor on the order of lines of different flows, and lines that hold no
record may stand anywhere.
-/

namespace FlowVerdict

/-- A line of one of the two streams. -/
inductive StreamLine where
  | header (line : Json.Bytes)
  | connection (line : Json.Bytes)

namespace StreamLine

def action : StreamLine → Action
  | header line => .header line
  | connection line => .connection line

def syn? : StreamLine → Option Syn
  | header line => (Syn.parse line).toOption
  | connection _ => none

def connection? : StreamLine → Option Connection
  | header _ => none
  | connection line => (Connection.parse line).toOption

/-- What the lines hold of one kind and one flow, in their order. -/
def ofFlow {α : Type} (held? : StreamLine → Option α) (flow : α → FlowId) (id : FlowId)
    (lines : List StreamLine) : List α :=
  (lines.filterMap held?).filter fun a => flow a = id

def synsOf : FlowId → List StreamLine → List Syn :=
  ofFlow syn? Syn.flowId

def connectionsOf : FlowId → List StreamLine → List Connection :=
  ofFlow connection? Connection.flowId

/-- Whether two sequences of lines hold the same records of each flow in the same order, stream by
stream. Lines that hold no record do not count. -/
structure SameByFlow (first second : List StreamLine) : Prop where
  syns : ∀ id, synsOf id first = synsOf id second
  connections : ∀ id, connectionsOf id first = connectionsOf id second

section OfFlow

variable {α : Type} {held? : StreamLine → Option α} {flow : α → FlowId}

theorem ofFlow_append (id : FlowId) (lines later : List StreamLine) :
    ofFlow held? flow id (lines ++ later) =
      ofFlow held? flow id lines ++ ofFlow held? flow id later := by
  rw [ofFlow, List.filterMap_append, List.filter_append]
  rfl

/-- Neighbours of different flows may change places. -/
theorem ofFlow_swap {line line' : StreamLine}
    (h : ∀ a ∈ held? line, ∀ b ∈ held? line', flow a ≠ flow b) (id : FlowId)
    (rest : List StreamLine) :
    ofFlow held? flow id (line :: line' :: rest) =
      ofFlow held? flow id (line' :: line :: rest) := by
  cases hline : held? line with
  | none => simp [ofFlow, List.filterMap_cons, hline]
  | some a =>
      cases hline' : held? line' with
      | none => simp [ofFlow, hline, hline']
      | some b =>
          have hne := h a hline b hline'
          by_cases ha : flow a = id
          · have hb : flow b ≠ id := fun heq => hne (ha.trans heq.symm)
            simp [ofFlow, hline, hline', ha, hb]
          · simp [ofFlow, List.filter_cons, hline, hline', ha]

/-- Lines that agree on each flow hold equally many records. -/
theorem length_eq_of_ofFlow {first second : List StreamLine}
    (h : ∀ id, ofFlow held? flow id first = ofFlow held? flow id second) :
    (first.filterMap held?).length = (second.filterMap held?).length := by
  -- records have no decidable equality, so their flows are counted
  have hcount : ∀ (lines : List StreamLine) (id : FlowId),
      ((lines.filterMap held?).map flow).count id = (ofFlow held? flow id lines).length := by
    intro lines id
    rw [List.count, List.countP_map, List.countP_eq_length_filter]
    rfl
  have hperm : ((first.filterMap held?).map flow).Perm ((second.filterMap held?).map flow) :=
    List.perm_iff_count.mpr fun id => by rw [hcount, hcount, h]
  simpa using hperm.length_eq

end OfFlow

namespace SameByFlow

variable {first second third : List StreamLine}

theorem trans (h : SameByFlow first second) (h' : SameByFlow second third) :
    SameByFlow first third :=
  ⟨fun id => (h.syns id).trans (h'.syns id),
    fun id => (h.connections id).trans (h'.connections id)⟩

/-- The lines before a change do not matter. -/
theorem append_left (h : SameByFlow first second) (before : List StreamLine) :
    SameByFlow (before ++ first) (before ++ second) where
  syns := fun id => by
    have hrest : ofFlow syn? Syn.flowId id first = ofFlow syn? Syn.flowId id second := h.syns id
    rw [synsOf, ofFlow_append, ofFlow_append, hrest]
  connections := fun id => by
    have hrest : ofFlow connection? Connection.flowId id first =
        ofFlow connection? Connection.flowId id second := h.connections id
    rw [connectionsOf, ofFlow_append, ofFlow_append, hrest]

/-- Neighbours change places that are lines of different streams or of different flows. -/
theorem swap {line line' : StreamLine}
    (hsyn : ∀ a ∈ line.syn?, ∀ b ∈ line'.syn?, a.flowId ≠ b.flowId)
    (hcon : ∀ a ∈ line.connection?, ∀ b ∈ line'.connection?, a.flowId ≠ b.flowId)
    (rest : List StreamLine) : SameByFlow (line :: line' :: rest) (line' :: line :: rest) where
  syns := fun id => ofFlow_swap hsyn id rest
  connections := fun id => ofFlow_swap hcon id rest

/-- A line without record is put in. -/
theorem insert {line : StreamLine} (hsyn : line.syn? = none) (hcon : line.connection? = none)
    (rest : List StreamLine) : SameByFlow rest (line :: rest) where
  syns := fun id => by
    rw [synsOf, ofFlow, ofFlow, List.filterMap_cons_none hsyn]
  connections := fun id => by
    rw [connectionsOf, ofFlow, ofFlow, List.filterMap_cons_none hcon]

end SameByFlow

end StreamLine

/-- What a table answers once a record is filed under its flow, in terms of the records filed. -/
theorem Table.get?_insert_eq_or {α : Type} (t : Table FlowId α) (flow : α → FlowId) (a : α)
    (id : FlowId) : (t.insert (flow a) a).get? id =
      ([a].filter fun a => flow a = id).getLast?.or (t.get? id) := by
  rw [get?_insert]
  by_cases h : id = flow a
  · simp [h]
  · simp [h, Ne.symm h]

namespace Session

open StreamLine

def ingest (s : Session) : StreamLine → Session
  | .header line => s.ingestSyn line
  | .connection line => (s.ingestConnection line).2

/-- Whether a record is filed as soon as its line is read. -/
structure FilesAtOnce (s : Session) : Prop where
  snapshot : s.snapshot = none
  graceful : s.shutdown.graceful = false

/-- What some lines have made of a session: of each flow the last record is pending, or else what
was pending before; each record is counted, and counted again if it replaced one. -/
structure Ingests (s : Session) (lines : List StreamLine) (s' : Session) : Prop where
  frame : s.Frame s'
  syns : ∀ id, s'.syns.get? id = (synsOf id lines).getLast?.or (s.syns.get? id)
  connections : ∀ id,
    s'.connections.get? id = (connectionsOf id lines).getLast?.or (s.connections.get? id)
  tally : s'.tally = { s.tally with
    headers := s.tally.headers + (lines.filterMap syn?).length
    headerDups := s'.tally.headerDups
    connections := s.tally.connections + (lines.filterMap connection?).length
    connectionDups := s'.tally.connectionDups }
  headerDups : s'.tally.headerDups + s'.syns.size =
    s.tally.headerDups + s.syns.size + (lines.filterMap syn?).length
  connectionDups : s'.tally.connectionDups + s'.connections.size =
    s.tally.connectionDups + s.connections.size + (lines.filterMap connection?).length

variable {s s' s'' : Session} {lines later : List StreamLine}

theorem Ingests.refl (s : Session) : s.Ingests [] s where
  frame := .refl s
  syns := fun _ => rfl
  connections := fun _ => rfl
  tally := rfl
  headerDups := rfl
  connectionDups := rfl

theorem Ingests.append (h : s.Ingests lines s') (h' : s'.Ingests later s'') :
    s.Ingests (lines ++ later) s'' where
  frame := h.frame.trans h'.frame
  syns := by
    intro id
    rw [h'.syns, h.syns, synsOf, ofFlow_append, List.getLast?_append, Option.or_assoc]
  connections := by
    intro id
    rw [h'.connections, h.connections, connectionsOf, ofFlow_append, List.getLast?_append,
      Option.or_assoc]
  tally := by
    rw [h'.tally, h.tally, List.filterMap_append, List.filterMap_append, List.length_append,
      List.length_append, Nat.add_assoc, Nat.add_assoc]
  headerDups := by
    have hfirst := h.headerDups
    have hlater := h'.headerDups
    rw [List.filterMap_append, List.length_append]
    omega
  connectionDups := by
    have hfirst := h.connectionDups
    have hlater := h'.connectionDups
    rw [List.filterMap_append, List.length_append]
    omega

/-- A line without record is only noted in the log. -/
theorem ingests_log {line : StreamLine} (hsyn : line.syn? = none) (hcon : line.connection? = none)
    (entry : LogEntry) : s.Ingests [line] (s.log entry) where
  frame := ⟨rfl, rfl, rfl⟩
  syns := fun id => by simp [synsOf, ofFlow, hsyn, log]
  connections := fun id => by simp [connectionsOf, ofFlow, hcon, log]
  tally := by simp [hsyn, hcon, log]
  headerDups := by simp [hsyn, log]
  connectionDups := by simp [hcon, log]

theorem ingests_fileSyn {line : StreamLine} {syn : Syn} (hsyn : line.syn? = some syn)
    (hcon : line.connection? = none) : s.Ingests [line] (s.fileSyn syn) := by
  have hsyns : [line].filterMap syn? = [syn] := List.filterMap_cons_some hsyn
  have hcons : [line].filterMap connection? = [] := List.filterMap_cons_none hcon
  rw [fileSyn_eq]
  refine ⟨⟨rfl, rfl, rfl⟩, fun id => ?_, fun id => ?_, ?_, ?_, ?_⟩
  · rw [synsOf, ofFlow, hsyns]
    exact s.syns.records.get?_insert_eq_or Syn.flowId syn id
  · rw [connectionsOf, ofFlow, hcons]
    rfl
  · rw [hsyns, hcons]
    rfl
  · have hsize := s.syns.size_insert syn.flowId syn
    simp only [hsyns, logAll, tallied, withTables, List.length_singleton]
    omega
  · rw [hcons]
    rfl

/-- Without a snapshot a connection is filed as it is. -/
theorem ingests_fileConnection {line : StreamLine} {con : Connection} (hsyn : line.syn? = none)
    (hcon : line.connection? = some con) (h : s.snapshot = none) :
    s.Ingests [line] (s.countConnection.fileConnection con) := by
  have hsyns : [line].filterMap syn? = [] := List.filterMap_cons_none hsyn
  have hcons : [line].filterMap connection? = [con] := List.filterMap_cons_some hcon
  have hasis : s.countConnection.reconciled con = con := by
    simp only [reconciled, show s.countConnection.snapshot = none from h]
  rw [fileConnection_eq, hasis]
  refine ⟨⟨rfl, rfl, rfl⟩, fun id => ?_, fun id => ?_, ?_, ?_, ?_⟩
  · rw [synsOf, ofFlow, hsyns]
    rfl
  · rw [connectionsOf, ofFlow, hcons]
    exact s.connections.get?_insert_eq_or Connection.flowId con id
  · rw [hsyns, hcons]
    rfl
  · rw [hsyns]
    rfl
  · have hsize := s.countConnection.connections.size_insert con.flowId con
    simp only [hcons, logAll, tallied, withTables, countConnection, List.length_singleton]
      at hsize ⊢
    omega

theorem ingests_ingest (h : s.FilesAtOnce) (line : StreamLine) :
    s.Ingests [line] (s.ingest line) := by
  cases line with
  | header line =>
      simp only [ingest, ingestSyn, h.graceful, Bool.false_eq_true, if_false]
      cases hparse : Syn.parse line with
      | error fault => exact ingests_log (by simp [syn?, hparse, Except.toOption]) rfl _
      | ok syn => exact ingests_fileSyn (by simp [syn?, hparse, Except.toOption]) rfl
  | connection line =>
      cases hparse : Connection.parse line with
      | error fault =>
          simp only [ingest, ingestConnection, hparse]
          exact ingests_log rfl (by simp [connection?, hparse, Except.toOption]) _
      | ok con =>
          have hwait : s.waitFor? con.unixtime = none := by simp [waitFor?, h.snapshot]
          simp only [ingest, ingestConnection_of_parse hparse, hwait]
          exact ingests_fileConnection rfl (by simp [connection?, hparse, Except.toOption])
            h.snapshot

/-- Records go on being filed at once. -/
theorem FilesAtOnce.of_frame (h : s.FilesAtOnce) (hframe : s.Frame s') : s'.FilesAtOnce where
  snapshot := hframe.snapshot.trans h.snapshot
  graceful := (congrArg Shutdown.graceful hframe.shutdown).trans h.graceful

theorem ingests_foldl (h : s.FilesAtOnce) (lines : List StreamLine) :
    s.Ingests lines (lines.foldl ingest s) := by
  induction lines generalizing s with
  | nil => exact .refl s
  | cons line rest ih =>
      have hline := ingests_ingest h line
      exact hline.append (ih (h.of_frame hline.frame))

/-- Lines that hold the same records of each flow in the same order have the same effect on the
answers of the tables and on the counters. -/
theorem Ingests.agree {first second : List StreamLine} (h : s.Ingests first s')
    (h' : s.Ingests second s'') (hsame : SameByFlow first second) :
    (∀ id, s''.syns.get? id = s'.syns.get? id) ∧
      (∀ id, s''.connections.get? id = s'.connections.get? id) ∧ s''.tally = s'.tally := by
  have hsyns : ∀ id, s''.syns.get? id = s'.syns.get? id := fun id => by
    rw [h.syns, h'.syns, hsame.syns]
  have hconnections : ∀ id, s''.connections.get? id = s'.connections.get? id := fun id => by
    rw [h.connections, h'.connections, hsame.connections]
  refine ⟨hsyns, hconnections, ?_⟩
  have hheaders := length_eq_of_ofFlow hsame.syns
  have hrecords := length_eq_of_ofFlow hsame.connections
  have hsynSize : s''.syns.size = s'.syns.size := (Table.perm_of_get? hsyns).length_eq
  have hconSize : s''.connections.size = s'.connections.size :=
    (Table.perm_of_get? hconnections).length_eq
  have hheaderDups : s''.tally.headerDups = s'.tally.headerDups := by
    have hone := h.headerDups
    have hother := h'.headerDups
    omega
  have hconnectionDups : s''.tally.connectionDups = s'.tally.connectionDups := by
    have hone := h.connectionDups
    have hother := h'.connectionDups
    omega
  rw [h.tally, h'.tally, hheaderDups, hconnectionDups, hheaders, hrecords]

end Session

namespace Office

open StreamLine

/-- Lines of the streams change the session of an office, whoever waits. -/
theorem session_run_lines (o : Office) (lines : List StreamLine) :
    (o.run (lines.map StreamLine.action)).session = lines.foldl Session.ingest o.session := by
  induction lines generalizing o with
  | nil => rfl
  | cons line rest ih =>
      have hline : (o.act line.action).session = o.session.ingest line := by
        cases line <;> rfl
      rw [List.map_cons, run, List.foldl_cons, List.foldl_cons, ← hline]
      exact ih (o.act line.action)

/-- Without sampling and outside a shutdown, two sequences of lines that hold the same records of
each flow in the same order, stream by stream, leave the same SYNs pending, with the same index, the
same connections, and the same counters. Of each flow the last record is pending, or else what was
pending before. -/
theorem run_lines_in_any_order (settings : Settings) (output : Nat → Delivery)
    (htracking : settings.tracking = false) (before : List Action)
    (hopen : ((start settings output).run before).session.shutdown.graceful = false)
    {first second : List StreamLine} (hsame : SameByFlow first second) :
    let o := (start settings output).run before
    let one := (o.run (first.map StreamLine.action)).session
    let other := (o.run (second.map StreamLine.action)).session
    (∀ id, other.syns.get? id = one.syns.get? id) ∧
      (∀ key, other.syns.index.get? key = one.syns.index.get? key) ∧
      (∀ id, other.connections.get? id = one.connections.get? id) ∧
      other.tally = one.tally ∧
      (∀ id, one.syns.get? id = (synsOf id first).getLast?.or (o.session.syns.get? id)) ∧
      ∀ id, one.connections.get? id =
        (connectionsOf id first).getLast?.or (o.session.connections.get? id) := by
  intro o one other
  have hnone : (start settings output).session.snapshot = none := by
    simp [start, Session.ofSettings, htracking]
  have hatOnce : o.session.FilesAtOnce :=
    ⟨snapshot_run_eq_none (filed_start settings output) hnone before, hopen⟩
  have horderly : o.session.Orderly := orderly_run (orderly_start settings output) before
  have hone : o.session.Ingests first one := by
    rw [show one = _ from session_run_lines o first]
    exact Session.ingests_foldl hatOnce first
  have hother : o.session.Ingests second other := by
    rw [show other = _ from session_run_lines o second]
    exact Session.ingests_foldl hatOnce second
  obtain ⟨hsyns, hconnections, htally⟩ := hone.agree hother hsame
  refine ⟨hsyns, fun key => ?_, hconnections, htally, hone.syns, hone.connections⟩
  exact (orderly_run horderly _).indexed.get?_index_eq (orderly_run horderly _).indexed hsyns key

open Session (exampleSynFrom exampleConnectionFrom)

/-- SYNs of two flows, one of them twice, and a connection. -/
def exampleArrivals : List StreamLine :=
  [.header (exampleSynFrom 40001 1), .header (exampleSynFrom 40002 2),
    .header (exampleSynFrom 40001 3), .connection (exampleConnectionFrom 40001 4)]

/-- The same records in another order, after a line that holds none. -/
def exampleRearrived : List StreamLine :=
  [.header [0xff], .header (exampleSynFrom 40002 2), .header (exampleSynFrom 40001 1),
    .connection (exampleConnectionFrom 40001 4), .header (exampleSynFrom 40001 3)]

theorem sameByFlow_exampleRearrived : SameByFlow exampleArrivals exampleRearrived := by
  let early : StreamLine := .header (exampleSynFrom 40001 1)
  let other : StreamLine := .header (exampleSynFrom 40002 2)
  let late : StreamLine := .header (exampleSynFrom 40001 3)
  let con : StreamLine := .connection (exampleConnectionFrom 40001 4)
  have hflows : SameByFlow [early, other, late, con] [other, early, late, con] :=
    .swap (by decide +kernel) (by decide) _
  have hstreams : SameByFlow [other, early, late, con] [other, early, con, late] :=
    SameByFlow.append_left (.swap (by decide +kernel) (by decide) []) [other, early]
  have hmalformed : SameByFlow [other, early, con, late] exampleRearrived :=
    .insert (by decide +kernel) rfl _
  exact (hflows.trans hstreams).trans hmalformed

/-- Both orders leave the later SYN of the flow that sent two, and count one that was replaced. -/
theorem exampleArrivals_in_any_order :
    let one := ((start CommandLine.Choices.standard.resolve.settings fun _ => .written).run
      (exampleArrivals.map StreamLine.action)).session
    let other := ((start CommandLine.Choices.standard.resolve.settings fun _ => .written).run
      (exampleRearrived.map StreamLine.action)).session
    other.tally = one.tally ∧ one.tally.headers = 3 ∧ one.tally.headerDups = 1 ∧
      (∀ id, other.syns.get? id = one.syns.get? id) := by
  intro one other
  have hagree := run_lines_in_any_order CommandLine.Choices.standard.resolve.settings
    (fun _ => .written) (by decide +kernel) [] (by decide +kernel) sameByFlow_exampleRearrived
  exact ⟨hagree.2.2.2.1, by decide +kernel, by decide +kernel, hagree.1⟩

end Office

end FlowVerdict
