import FlowVerdict.Proofs.Views

/-!
# Failures of the output

The output may refuse lines or hold them back, in any pattern. No operation looks at how its events
were delivered: whatever happens to a session happens in the same way to the session in which every
line was written.
-/

namespace FlowVerdict

def LogEntry.isOutputFailure (entry : LogEntry) : Bool :=
  entry.outputFault?.isSome

def Emission.fault? (e : Emission) : Option String :=
  e.delivery.fault?

namespace Session

/-- The session in which every line was written, and always will be. -/
def flawless (s : Session) : Session :=
  { s with
    output := fun _ => .written
    emissions := s.emissions.map Emission.written
    journal := s.journal.filter fun entry => !entry.isOutputFailure }

theorem flawless_faithful : Faithful flawless where
  settings _ := rfl
  syns _ := rfl
  connections _ := rfl
  snapshot _ := rfl
  shutdown _ := rfl
  withTables _ _ _ := rfl
  withSnapshot _ _ := rfl
  withShutdown _ _ := rfl
  tallied _ _ _ := rfl
  logAll s entries hentries := by
    have hkept : entries.filter (fun entry => !entry.isOutputFailure) = entries := by
      refine List.filter_eq_self.mpr fun entry hmem => ?_
      rw [LogEntry.isOutputFailure, LogEntry.outputFault?_of_isRoutine (hentries entry hmem)]
      rfl
    simp [flawless, logAll, hkept]
  -- an event counts the same whether or not the output takes its line
  emit s e := by
    unfold emit
    dsimp only
    split
    · simp [flawless, Delivery.fault?, Emission.written]
    · simp [flawless, Delivery.fault?, Emission.written, log, LogEntry.isOutputFailure,
        LogEntry.outputFault?]

/-- The log tells of every event that the output did not take, and of no other. -/
def Candid (s : Session) : Prop :=
  s.journal.filterMap LogEntry.outputFault? = s.emissions.filterMap Emission.fault?

theorem Candid.emit {s : Session} (h : s.Candid) (e : Event) : (s.emit e).Candid := by
  unfold Session.emit
  dsimp only
  split
  · next hfault => simpa [Candid, Emission.fault?, hfault] using h
  · next hfault =>
      simp only [Candid, log, List.filterMap_append]
      rw [show s.journal.filterMap LogEntry.outputFault? = _ from h]
      simp [LogEntry.outputFault?, Emission.fault?, hfault]

theorem Visit.candid {s : Session} {flow : FlowId} {report : PassReport}
    {state : Session × PassReport} (h : Visit flow s report state) (hs : s.Candid) :
    state.1.Candid := by
  cases h with
  | skipped | pending => exact hs
  | paired | guessed | unanswered => exact Candid.emit (by exact hs) _

theorem Examination.candid {s : Session} {horizon : Option Float} {now : Float} {flow : FlowId}
    {emitted : Nat} {state : Session × Nat} (h : Examination horizon now flow s emitted state)
    (hs : s.Candid) : state.1.Candid := by
  cases h with
  | skipped | marked => exact hs
  | reported => exact Candid.emit (by exact hs) _

theorem Candid.matchPass {s : Session} (h : s.Candid) (now : Float) :
    (s.matchPass now).2.Candid := by
  let candid (state : Session × PassReport) : Prop := state.1.Candid
  have hexact : candid (s.connections.byAge.foldl Session.matchExact (s, {})) :=
    List.foldlRecOn _ Session.matchExact h fun _ h id _ => (matchExact_visits _ _ id).candid h
  exact List.foldlRecOn (motive := candid) _ (Session.decideRest now) hexact
    fun _ h id _ => (decideRest_visits now _ _ id).candid h

theorem Candid.scanPass {s : Session} (h : s.Candid) (now : Float) : (s.scanPass now).2.Candid :=
  List.foldlRecOn (motive := fun state => state.1.Candid) _ (Session.scanOne s.horizon? now) h
    fun _ h id _ => (scanOne_examines _ now _ _ id).candid h

/-- What operations log by themselves tells of no failure of the output. -/
theorem Candid.logAll {s : Session} (h : s.Candid) {entries : List LogEntry}
    (hentries : ∀ entry ∈ entries, entry.isRoutine = true) : (s.logAll entries).Candid := by
  have hnone : entries.filterMap LogEntry.outputFault? = [] :=
    List.filterMap_eq_nil_iff.mpr fun entry hmem =>
      LogEntry.outputFault?_of_isRoutine (hentries entry hmem)
  rw [Candid, Session.logAll, List.filterMap_append, hnone, List.append_nil]
  exact h

end Session

namespace Office

theorem candid_act {o : Office} (h : o.session.Candid) (a : Action) :
    (o.act a).session.Candid := by
  have hturn := o.turn a
  generalize o.act a = o', o.arrival? a = r, o.drops a = dropped at hturn ⊢
  cases hturn with
  | noted hentries => exact h.logAll hentries
  | synFiled =>
      rw [Session.fileSyn_eq]
      exact Session.Candid.logAll (by exact h) (Session.isRoutine_of_duplicateEntries _ _ _)
  | filed | settled =>
      rw [Session.fileConnection_eq]
      exact Session.Candid.logAll (by exact h) (Session.isRoutine_of_duplicateEntries _ _ _)
  | held | refused | abandoned => exact h
  | matchPass now => exact h.matchPass now
  | scanPass now => exact h.scanPass now
  | sampled hentries => exact Session.Candid.logAll (by exact h) hentries
  | closing hgraceful hentries => exact Session.Candid.logAll (by exact h) hentries

theorem candid_run {o : Office} (h : o.session.Candid) (actions : List Action) :
    (o.run actions).session.Candid :=
  List.foldlRecOn (motive := fun o => o.session.Candid) actions act h fun _ h a _ => candid_act h a

/-- Whatever the output refuses or holds back, a session goes as with an output that takes
everything: the same is pending, waits, is counted and is known of the kernel, the same events are
reported in the same order, and every pass answers the same. The log tells of each event that was
not taken, and apart from that it is the same too. -/
theorem failures_change_nothing (settings : Settings) (output : Nat → Delivery)
    (actions : List Action) :
    let o := (start settings output).run actions
    let sound := (start settings fun _ => .written).run actions
    (o.session.syns = sound.session.syns ∧ o.session.connections = sound.session.connections ∧
      o.held = sound.held ∧ o.session.tally = sound.session.tally ∧
      o.session.snapshot = sound.session.snapshot ∧ o.session.shutdown = sound.session.shutdown) ∧
    o.session.emissions.map Emission.event = sound.session.emissions.map Emission.event ∧
    (∀ now, (o.session.matchPass now).1 = (sound.session.matchPass now).1 ∧
      (o.session.scanPass now).1 = (sound.session.scanPass now).1) ∧
    o.session.journal.countP LogEntry.isOutputFailure =
      o.session.emissions.countP (fun e => e.fault?.isSome) ∧
    o.session.journal.filter (fun entry => !entry.isOutputFailure) = sound.session.journal := by
  intro o sound
  have hsame : o.through Session.flawless = sound :=
    through_run Session.flawless_faithful (start settings output) actions
  have hstart : (start settings output).session.Candid := rfl
  have hcandid : o.session.Candid := candid_run hstart actions
  refine ⟨?_, ?_, fun now => ?_, ?_, ?_⟩
  · rw [← hsame]
    exact ⟨rfl, rfl, rfl, rfl, rfl, rfl⟩
  · rw [← hsame]
    change _ = (o.session.emissions.map Emission.written).map Emission.event
    rw [List.map_map]
    rfl
  · rw [← hsame]
    constructor
    · exact (congrArg Prod.fst (Session.flawless_faithful.matchPass now o.session)).symm
    · exact (congrArg Prod.fst (Session.flawless_faithful.scanPass now o.session)).symm
  · have hcount := congrArg List.length hcandid
    rwa [List.length_filterMap_eq_countP, List.length_filterMap_eq_countP] at hcount
  · rw [← hsame]
    rfl

end Office

end FlowVerdict
