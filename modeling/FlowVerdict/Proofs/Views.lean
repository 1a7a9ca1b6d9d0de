import FlowVerdict.Proofs.Office

/-!
# Views of a session

An operation reads the settings, the tables, the snapshot and the shutdown of a session, and nothing
else. So a view that shows these, and in which what an operation changes changes in the same way,
goes along with every operation: to operate and then to look is to look and then to operate.
-/

namespace FlowVerdict

/-- The event as a sound output takes it. -/
def Emission.written (e : Emission) : Emission :=
  { e with delivery := .written }

namespace Session

/-- A view that shows what operations read and takes part in what they change. The number of
listings is not counted by operations. -/
structure Faithful (view : Session → Session) : Prop where
  settings : ∀ s, (view s).settings = s.settings
  syns : ∀ s, (view s).syns = s.syns
  connections : ∀ s, (view s).connections = s.connections
  snapshot : ∀ s, (view s).snapshot = s.snapshot
  shutdown : ∀ s, (view s).shutdown = s.shutdown
  withTables : ∀ s syns connections,
    view (s.withTables syns connections) = (view s).withTables syns connections
  withSnapshot : ∀ s snapshot, view (s.withSnapshot snapshot) = (view s).withSnapshot snapshot
  withShutdown : ∀ s shutdown, view (s.withShutdown shutdown) = (view s).withShutdown shutdown
  tallied : ∀ s (f : Tally → Tally), (∀ t cycles, f { t with cycles } = { f t with cycles }) →
    view (s.tallied f) = (view s).tallied f
  logAll : ∀ s entries, (∀ entry ∈ entries, LogEntry.isRoutine entry = true) →
    view (s.logAll entries) = (view s).logAll entries
  emit : ∀ s e, view (s.emit e) = (view s).emit e

namespace Faithful

variable {view : Session → Session} (h : Faithful view)

include h

theorem log {entry : LogEntry} (hentry : entry.isRoutine = true) (s : Session) :
    view (s.log entry) = (view s).log entry :=
  h.logAll s [entry] (by simpa using hentry)

theorem waitFor? (unixtime : Float) (s : Session) :
    (view s).waitFor? unixtime = s.waitFor? unixtime := by
  rw [Session.waitFor?, Session.waitFor?, h.snapshot]

theorem isReady (wait : Kernel.Wait) (s : Session) : (view s).isReady wait = s.isReady wait := by
  rw [Session.isReady, Session.isReady, h.snapshot]

theorem reconciled (con : Connection) (s : Session) :
    (view s).reconciled con = s.reconciled con := by
  rw [Session.reconciled, Session.reconciled, h.snapshot]

theorem guess? (now : Float) (id : FlowId) (con : Connection) (s : Session) :
    (view s).guess? now id con = s.guess? now id con := by
  rw [Session.guess?, Session.guess?, h.settings, h.syns]

theorem lacksSyn (now : Float) (con : Connection) (s : Session) :
    (view s).lacksSyn now con = s.lacksSyn now con := by
  simp only [Session.lacksSyn, holdsBack, h.settings, h.syns, h.shutdown]

theorem liveness? (horizon : Option Float) (id : FlowId) (syn : Syn) (s : Session) :
    (view s).liveness? horizon id syn = s.liveness? horizon id syn := by
  simp only [Session.liveness?, h.snapshot]

theorem isExpired (now : Float) (syn : Syn) (s : Session) :
    (view s).isExpired now syn = s.isExpired now syn := by
  rw [Session.isExpired, Session.isExpired, h.settings]

theorem fileSyn (syn : Syn) (s : Session) : view (s.fileSyn syn) = (view s).fileSyn syn := by
  rw [fileSyn_eq, fileSyn_eq, h.syns, h.connections,
    h.logAll _ _ (isRoutine_of_duplicateEntries _ _ _), h.tallied _ _ fun _ _ => rfl, h.withTables]

theorem fileConnection (con : Connection) (s : Session) :
    view (s.fileConnection con) = (view s).fileConnection con := by
  rw [fileConnection_eq, fileConnection_eq, h.reconciled, h.syns, h.connections,
    h.logAll _ _ (isRoutine_of_duplicateEntries _ _ _), h.tallied _ _ fun _ _ => rfl, h.withTables]

theorem countConnection (s : Session) : view s.countConnection = (view s).countConnection :=
  h.tallied s _ fun _ _ => rfl

theorem ingestSyn (line : Json.Bytes) (s : Session) :
    view (s.ingestSyn line) = (view s).ingestSyn line := by
  unfold Session.ingestSyn
  rw [h.shutdown]
  split
  · rfl
  · split
    · exact h.log rfl s
    · exact h.fileSyn _ s

theorem settle (held : Held) (s : Session) :
    (view s).settle held = (s.settle held).map id view := by
  cases hready : s.isReady held.wait with
  | true =>
      have hview : (view s).isReady held.wait = true := (h.isReady _ s).trans hready
      rw [settle_of_isReady hready, settle_of_isReady hview, ← h.fileConnection]
      rfl
  | false =>
      have hview : (view s).isReady held.wait = false := (h.isReady _ s).trans hready
      rw [settle_of_not_isReady hready, settle_of_not_isReady hview, h.shutdown]
      rfl

theorem ingestConnection (line : Json.Bytes) (s : Session) :
    (view s).ingestConnection line = (s.ingestConnection line).map id view := by
  cases hparse : Connection.parse line with
  | error fault =>
      simp only [Session.ingestConnection, hparse]
      exact congrArg (Prod.mk none) (h.log rfl s).symm
  | ok con =>
      rw [ingestConnection_of_parse hparse, ingestConnection_of_parse hparse, h.waitFor?,
        ← h.countConnection]
      cases s.waitFor? con.unixtime with
      | none => exact congrArg (Prod.mk none) (h.fileConnection con s.countConnection).symm
      | some wait => exact h.settle { wait, connection := con } s.countConnection

theorem gracefulEntries (reason : String) (s : Session) :
    (view s).gracefulEntries reason = s.gracefulEntries reason := by
  rw [Session.gracefulEntries, Session.gracefulEntries, h.settings]

theorem requestShutdown (reason : String) (s : Session) :
    view (s.requestShutdown reason).2 = ((view s).requestShutdown reason).2 := by
  rw [requestShutdown_eq, requestShutdown_eq, h.logAll _ _ (s.isRoutine_of_requestEntries reason),
    h.withShutdown, h.shutdown, h.gracefulEntries]

theorem forceShutdown (reason : String) (fatal : Bool) (s : Session) :
    view (s.forceShutdown reason fatal) = (view s).forceShutdown reason fatal := by
  rw [forceShutdown_eq, forceShutdown_eq, h.logAll _ _ (by simp [fastEntry, LogEntry.isRoutine]),
    h.withShutdown, h.shutdown]

theorem signal (s : Session) : view s.signal.2 = (view s).signal.2 := by
  rw [signal_eq, signal_eq, h.logAll _ _ s.isRoutine_of_signalEntries, h.withShutdown, h.shutdown,
    h.gracefulEntries]

theorem cycle (listing : String) (stamp : Float) (s : Session) :
    view (s.cycle listing stamp).2 = ((view s).cycle listing stamp).2 := by
  rw [cycle_eq, cycle_eq, h.logAll _ _ (s.isRoutine_of_rowEntries listing stamp), h.withSnapshot,
    h.snapshot, rowEntries, rowEntries, h.snapshot]

theorem matchExact (state : Session × PassReport) (flow : FlowId) :
    Session.matchExact (state.map view id) flow = (Session.matchExact state flow).map view id := by
  obtain ⟨s, report⟩ := state
  simp only [Prod.map, id, matchExact_eq, h.connections, h.syns, h.settings]
  split
  · rw [h.emit, h.withTables]
  · rfl

theorem decideRest (now : Float) (state : Session × PassReport) (flow : FlowId) :
    Session.decideRest now (state.map view id) flow =
      (Session.decideRest now state flow).map view id := by
  obtain ⟨s, report⟩ := state
  simp only [Prod.map, id, decideRest_eq, h.connections, h.syns, h.guess?, h.lacksSyn]
  split
  · rfl
  · split
    · rw [h.emit, h.tallied _ _ fun _ _ => rfl, h.withTables]
    · split
      · rw [h.emit, h.withTables]
      · rfl

theorem scanOne (horizon : Option Float) (now : Float) (state : Session × Nat) (flow : FlowId) :
    Session.scanOne horizon now (state.map view id) flow =
      (Session.scanOne horizon now state flow).map view id := by
  obtain ⟨s, emitted⟩ := state
  simp only [Prod.map, id, scanOne_eq, h.connections, h.syns, h.liveness?, h.isExpired]
  split
  · rfl
  · split
    · rfl
    · split
      · split
        · rw [h.emit, h.withTables]
        · rfl
      · rw [h.withTables]

omit h in
/-- A walk goes along with the view if each of its steps does. -/
theorem walk {β : Type} {f : Session × β → FlowId → Session × β}
    (hstep : ∀ state flow, f (state.map view id) flow = (f state flow).map view id)
    (flows : List FlowId) (state : Session × β) :
    flows.foldl f (state.map view id) = (flows.foldl f state).map view id :=
  List.foldl_hom (Prod.map view id) hstep

theorem matchPass (now : Float) (s : Session) :
    (view s).matchPass now = (s.matchPass now).map id view := by
  have hpass : ∀ s : Session, s.matchPass now =
      let state := s.connections.byAge.foldl Session.matchExact (s, {})
      (state.1.connections.byAge.foldl (Session.decideRest now) state).swap := fun _ => rfl
  have hexact := walk h.matchExact s.connections.byAge (s, {})
  rw [Prod.map_apply, id] at hexact
  rw [hpass, hpass, h.connections, hexact]
  dsimp only
  rw [Prod.map_fst, h.connections, walk (h.decideRest now)]
  rfl

theorem scanPass (now : Float) (s : Session) :
    (view s).scanPass now = (s.scanPass now).map id view := by
  have hhorizon : (view s).horizon? = s.horizon? := by
    rw [horizon?, horizon?, h.snapshot]
  have hwalk := walk (h.scanOne s.horizon? now) s.syns.keys (s, 0)
  rw [Prod.map_apply, id] at hwalk
  simp only [Session.scanPass, hhorizon, h.syns, hwalk]
  rfl

end Faithful

end Session

namespace Office

def through (view : Session → Session) (o : Office) : Office :=
  { o with session := view o.session }

variable {view : Session → Session}

/-- To operate and then to look is to look and then to operate. -/
theorem through_act (h : Session.Faithful view) (o : Office) (a : Action) :
    (o.act a).through view = (o.through view).act a := by
  cases a with
  | header line => exact congrArg (Office.mk · o.held) (h.ingestSyn line o.session)
  | connection line => simp only [act, through, h.ingestConnection, Prod.map, id]
  | resume place =>
      have hheld : (o.through view).held = o.held := rfl
      simp only [act, hheld]
      cases o.held[place]? with
      | none => rfl
      | some held =>
          simp only [through, h.settle]
          rcases o.session.settle held with ⟨_ | _, s⟩ <;> rfl
  | matchPass now => simp only [act, through, h.matchPass, Prod.map, id]
  | scanPass now => simp only [act, through, h.scanPass, Prod.map, id]
  | cycle answer stamp =>
      cases answer with
      | error failure => rfl
      | ok listing => simp only [act, through, h.cycle]
  | requestShutdown reason => simp only [act, through, h.requestShutdown]
  | forceShutdown reason fatal => simp only [act, through, h.forceShutdown]
  | signal => simp only [act, through, h.signal]

theorem through_run (h : Session.Faithful view) (o : Office) (actions : List Action) :
    (o.run actions).through view = (o.through view).run actions :=
  (List.foldl_hom (through view) fun o a => (through_act h o a).symm).symm

end Office

end FlowVerdict
