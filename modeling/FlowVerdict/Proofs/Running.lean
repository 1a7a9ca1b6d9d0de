import FlowVerdict.Proofs.Views
import FlowVerdict.Run.Rehearsal
import Mathlib.Data.List.Perm.Basic
import Mathlib.Data.Option.Basic

/-!
# Runs are histories

Workers and supervisor touch the session by its operations only. What a step of a run does to the
session is done by a few of them, and the connections that the intakes hold back are the ones that
wait beside the session. So every run, with whatever comes from outside, follows a history of
operations; of the session it adds no more than notes in the log, a count of the listings and the
mark of the first pass.
-/

namespace FlowVerdict

namespace Session

/-- The session as its operations know it, after events `said` and entries `told` that were written
before: what workers note beside the operations is left out, and so is how events were delivered. -/
def recalled (said : List Emission) (told : List LogEntry) (s : Session) : Session :=
  { s with
    tally := { s.tally with cycles := 0 }
    firstPass := false
    output := fun _ => .written
    emissions := said ++ s.emissions.map Emission.written
    journal := told ++ s.journal.filter LogEntry.isRoutine }

variable {said : List Emission} {told : List LogEntry}

theorem recalled_faithful : Faithful (recalled said told) where
  settings _ := rfl
  syns _ := rfl
  connections _ := rfl
  snapshot _ := rfl
  shutdown _ := rfl
  withTables _ _ _ := rfl
  withSnapshot _ _ := rfl
  withShutdown _ _ := rfl
  tallied s f hf := by
    have htally : { f s.tally with cycles := 0 } = f { s.tally with cycles := 0 } :=
      (hf s.tally 0).symm
    simp only [recalled, tallied, htally]
  logAll s entries hentries := by
    simp only [recalled, logAll, List.filter_append, List.filter_eq_self.mpr hentries,
      List.append_assoc]
  emit s e := by
    have htally : { s.tally.count e.verdict with cycles := 0 } =
        Tally.count { s.tally with cycles := 0 } e.verdict := by
      cases e.verdict <;> rfl
    unfold emit
    dsimp only
    split
    · simp [recalled, htally, Delivery.fault?, Emission.written]
    · simp [recalled, htally, Delivery.fault?, Emission.written, log, LogEntry.isRoutine]

/-- Workers' notes are not recalled. -/
theorem recalled_log {entry : LogEntry} (h : entry.isRoutine = false) (s : Session) :
    (s.log entry).recalled said told = s.recalled said told := by
  simp [recalled, log, h]

/-- What is written is recalled all the same. -/
theorem recalled_cleared (s : Session) :
    s.cleared.recalled (said ++ s.emissions.map Emission.written)
      (told ++ s.journal.filter LogEntry.isRoutine) = s.recalled said told := by
  simp [recalled, cleared]

end Session

def Intake.held? : Intake → Option Held
  | .holding held _ => some held
  | _ => none

def Worker.held? : Worker → Option Held
  | .intake _ phase => phase.held?
  | _ => none

/-- Operations lead from a session to another one, and from the connections that wait to others. -/
def Leads (s : Session) (held : List Held) (s' : Session) (held' : List Held) : Prop :=
  ∀ said told (o : Office), o.session = s.recalled said told → o.held.Perm held →
    ∃ actions, (o.run actions).session = s'.recalled said told ∧ (o.run actions).held.Perm held'

namespace Leads

variable {s s' s'' : Session} {held held' held'' : List Held}

theorem refl (s : Session) (held : List Held) : Leads s held s held :=
  fun _ _ _ hsession hheld => ⟨[], hsession, hheld⟩

theorem trans (h : Leads s held s' held') (h' : Leads s' held' s'' held'') :
    Leads s held s'' held'' := by
  intro said told o hsession hheld
  obtain ⟨first, hfirst, hfirstHeld⟩ := h said told o hsession hheld
  obtain ⟨second, hsecond, hsecondHeld⟩ := h' said told (o.run first) hfirst hfirstHeld
  refine ⟨first ++ second, ?_⟩
  rw [Office.run_append]
  exact ⟨hsecond, hsecondHeld⟩

/-- It does not matter in which order the connections wait. -/
theorem perm (h : Leads s held s' held') {other other' : List Held} (hbefore : other.Perm held)
    (hafter : held'.Perm other') : Leads s other s' other' := by
  intro said told o hsession hheld
  obtain ⟨actions, hactions, hactionsHeld⟩ := h said told o hsession (hheld.trans hbefore)
  exact ⟨actions, hactions, hactionsHeld.trans hafter⟩

/-- Notes are no operations. -/
theorem of_note (h : ∀ said told, s'.recalled said told = s.recalled said told)
    (held : List Held) : Leads s held s' held :=
  fun said told _ hsession hheld => ⟨[], hsession.trans (h said told).symm, hheld⟩

theorem of_log {entry : LogEntry} (h : entry.isRoutine = false) (s : Session)
    (held : List Held) : Leads s held (s.log entry) held :=
  .of_note (fun _ _ => Session.recalled_log h s) held

/-- One operation leads from one session to another if it does so in some office. -/
theorem of_act (h : ∀ waiting : List Held, waiting.Perm held → ∃ a,
    ((⟨s, waiting⟩ : Office).act a).session = s' ∧
      ((⟨s, waiting⟩ : Office).act a).held.Perm held') : Leads s held s' held' := by
  intro said told o hsession hheld
  obtain ⟨a, hact, hactHeld⟩ := h o.held hheld
  have hthrough : o = (⟨s, o.held⟩ : Office).through (Session.recalled said told) := by
    rw [Office.through, ← hsession]
  refine ⟨[a], ?_⟩
  rw [Office.run, List.foldl_cons, List.foldl_nil, hthrough,
    ← Office.through_act Session.recalled_faithful]
  exact ⟨congrArg (Session.recalled said told) hact, hactHeld⟩

/-- An operation that lets nobody wait and ends no wait. -/
theorem of_session (a : Action) (h : ∀ waiting, (⟨s, waiting⟩ : Office).act a = ⟨s', waiting⟩)
    (held : List Held) : Leads s held s' held := by
  refine of_act fun waiting hheld => ⟨a, ?_⟩
  rw [h]
  exact ⟨rfl, hheld⟩

end Leads

variable {s s' : Session} {clock : Clock}

theorem leads_requestShutdown (reason : String) (s : Session) (held : List Held) :
    Leads s held (s.requestShutdown reason).2 held :=
  .of_session (.requestShutdown reason) (fun _ => rfl) held

theorem leads_workerFailed (worker : String) (failure : Failure) (s : Session)
    (held : List Held) : Leads s held (s.workerFailed worker failure) held := by
  unfold Session.workerFailed
  split
  · exact (Leads.of_log rfl s held).trans (leads_requestShutdown _ _ held)
  · exact .of_session (.forceShutdown _ true) (fun _ => rfl) held
  · exact .of_session (.forceShutdown _ true) (fun _ => rfl) held
  · exact (Leads.of_log rfl s held).trans (leads_requestShutdown _ _ held)

theorem leads_escalate (supervised : Bool) (worker : Worker) (s : Session) (held : List Held) :
    Leads s held (Run.escalate supervised worker s) held := by
  unfold Run.escalate
  split
  · exact leads_workerFailed _ _ s held
  · exact .refl s held

theorem Sampler.leads {phase phase' : Sampler} (h : phase.step clock s = some (phase', s'))
    (held : List Held) : Leads s held s' held := by
  cases phase with
  | starting =>
      cases h
      exact .of_log rfl s held
  | asking | ended => cases h
  | resting till =>
      simp only [step] at h
      split at h
      · cases h
        exact .refl s held
      · split at h <;> cases h
        exact .refl s held

/-- A listing that came is taken up and counted. One that could not be had is a note. -/
theorem Sampler.leads_answer (clock : Clock) (stamp : Float) (listing : Except Failure String)
    (s : Session) (held : List Held) :
    Leads s held (Sampler.answer clock stamp listing s).2 held := by
  cases listing with
  | error failure => exact .of_log rfl s held
  | ok text =>
      have hcycle : Leads s held (s.cycle text stamp).2 held :=
        .of_session (.cycle (.ok text) stamp) (fun _ => rfl) held
      exact hcycle.trans (.of_note (fun _ _ => rfl) held)

theorem Matcher.leads {phase phase' : Matcher} (h : phase.step clock s = some (phase', s'))
    (held : List Held) : Leads s held s' held := by
  cases phase with
  | starting =>
      simp only [step, start] at h
      split at h
      · cases h
        exact .refl s held
      · split at h <;> cases h <;> exact .of_log rfl s held
  | warmingUp till =>
      simp only [step] at h
      split at h
      · cases h
        exact .refl s held
      · split at h <;> cases h
        exact .of_log rfl s held
  | watching =>
      simp only [step] at h
      split at h
      · cases h
        exact .refl s held
      · split at h <;> cases h
        have hpass : Leads s held (s.matchPass clock.unix).2 held :=
          .of_session (.matchPass clock.unix) (fun _ => rfl) held
        exact hpass.trans (.of_note (fun _ _ => rfl) held)
  | resting till =>
      simp only [step] at h
      split at h
      · cases h
        exact .refl s held
      · split at h <;> cases h
        exact .refl s held
  | ended outcome => cases h

theorem ScanDetector.leads {phase phase' : ScanDetector}
    (h : phase.step clock s = some (phase', s')) (held : List Held) : Leads s held s' held := by
  have hpass : Leads s held (s.scanPass clock.unix).2 held :=
    .of_session (.scanPass clock.unix) (fun _ => rfl) held
  cases phase with
  | starting =>
      simp only [step, start] at h
      split at h <;> cases h
      · exact .refl s held
      · exact .of_log rfl s held
  | latched till =>
      simp only [step] at h
      split at h <;> cases h
      exact .of_log rfl s held
  | scanning =>
      simp only [step] at h
      split at h
      · cases h
        exact .refl s held
      · split at h <;> cases h
        · exact hpass
        · exact .refl s held
  | waiting wait =>
      simp only [step] at h
      split at h
      · cases h
        exact hpass
      · split at h <;> cases h
        exact .refl s held
  | resting till =>
      simp only [step] at h
      split at h
      · cases h
        exact .refl s held
      · split at h <;> cases h
        exact .refl s held
  | ended outcome => cases h

/-- A line that is read is an operation, whether its record is filed, dropped or held back. -/
theorem leads_ingest (feed : Feed) (line : Json.Bytes) (more : Stream) (s : Session)
    (rest : List Held) :
    Leads s rest (Intake.after more (feed.ingest line s)).2
      ((Intake.after more (feed.ingest line s)).1.held?.toList ++ rest) := by
  cases feed with
  | headers => exact .of_session (.header line) (fun _ => rfl) rest
  | connections =>
      refine .of_act fun waiting hheld => ⟨.connection line, ?_⟩
      simp only [Office.act, Feed.ingest]
      rcases s.ingestConnection line with ⟨_ | held, s'⟩
      · exact ⟨rfl, by simpa [Intake.after, Intake.held?] using hheld⟩
      · refine ⟨rfl, ?_⟩
        exact (hheld.append_right [held]).trans List.perm_append_comm

/-- A connection that need not wait any more is taken from among those that wait. -/
theorem leads_settle {held : Held} (h : s.settle held = (none, s')) (rest : List Held) :
    Leads s (held :: rest) s' rest := by
  refine .of_act fun waiting hheld => ?_
  obtain ⟨place, hplace, hget⟩ := List.getElem_of_mem (hheld.mem_iff.mpr List.mem_cons_self)
  refine ⟨.resume place, ?_⟩
  have hwaits : waiting[place]? = some held := List.getElem?_eq_some_iff.mpr ⟨hplace, hget⟩
  simp only [Office.act, hwaits, h, true_and]
  have htaken := List.getElem_cons_eraseIdx_perm hplace
  rw [hget] at htaken
  exact (List.perm_cons held).mp (htaken.trans hheld)

theorem Intake.leads {feed : Feed} {phase phase' : Intake}
    (h : phase.step feed s = some (phase', s')) (rest : List Held) :
    Leads s (phase.held?.toList ++ rest) s' (phase'.held?.toList ++ rest) := by
  cases phase with
  | starting pipe =>
      cases h
      exact .of_log rfl s rest
  | opening pipe =>
      obtain ⟨source, _, heq⟩ := Option.map_eq_some_iff.mp h
      cases heq
      cases source <;> exact .refl s rest
  | reading stream =>
      simp only [step] at h
      split at h
      · cases h
        exact .refl s rest
      · split at h
        · cases h
          exact .refl s rest
        · cases h
          exact .refl s rest
        · cases h
        · next line more _ =>
            split at h
            · cases h
              exact .refl s rest
            · rw [← (Prod.mk.inj (Option.some.inj h)).1, ← (Prod.mk.inj (Option.some.inj h)).2]
              exact leads_ingest feed line more s rest
  | holding held stream =>
      simp only [step] at h
      split at h <;> cases h
      next hsettle => exact leads_settle hsettle rest
  | ended outcome => cases h

theorem Worker.leads {worker worker' : Worker} (h : worker.step clock s = some (worker', s'))
    (rest : List Held) :
    Leads s (worker.held?.toList ++ rest) s' (worker'.held?.toList ++ rest) := by
  cases worker with
  | sampler phase =>
      obtain ⟨⟨phase', s''⟩, hstep, heq⟩ := Option.map_eq_some_iff.mp h
      cases heq
      exact Sampler.leads hstep rest
  | intake feed phase =>
      obtain ⟨⟨phase', s''⟩, hstep, heq⟩ := Option.map_eq_some_iff.mp h
      cases heq
      exact Intake.leads hstep rest
  | matcher phase =>
      obtain ⟨⟨phase', s''⟩, hstep, heq⟩ := Option.map_eq_some_iff.mp h
      cases heq
      exact Matcher.leads hstep rest
  | scanDetector phase =>
      obtain ⟨⟨phase', s''⟩, hstep, heq⟩ := Option.map_eq_some_iff.mp h
      cases heq
      exact ScanDetector.leads hstep rest

def heldBy (workers : List Worker) : List Held :=
  workers.filterMap Worker.held?

theorem heldBy_cons (worker : Worker) (rest : List Worker) :
    heldBy (worker :: rest) = worker.held?.toList ++ heldBy rest := by
  rw [heldBy, List.filterMap_cons]
  cases worker.held? <;> rfl

theorem leads_stepWorkers {supervised : Bool} {workers workers' : List Worker}
    (h : Run.stepWorkers clock supervised s workers = some (workers', s')) (before : List Held) :
    Leads s (before ++ heldBy workers) s' (before ++ heldBy workers') := by
  induction workers generalizing workers' before with
  | nil => cases h
  | cons worker rest ih =>
      simp only [Run.stepWorkers] at h
      split at h
      · next worker' s'' hstep =>
          cases h
          have hworker := Worker.leads hstep (before ++ heldBy rest)
          have hboth := hworker.trans (leads_escalate supervised worker' s'' _)
          rw [heldBy_cons, heldBy_cons]
          exact hboth.perm (List.perm_append_comm_assoc _ _ _) (List.perm_append_comm_assoc _ _ _)
      · obtain ⟨⟨rest', s''⟩, hrest, heq⟩ := Option.map_eq_some_iff.mp h
        cases heq
        rw [heldBy_cons, heldBy_cons, ← List.append_assoc, ← List.append_assoc]
        exact ih hrest _

theorem leads_answerWorkers (clock : Clock) (supervised : Bool) (stamp : Float)
    (listing : Except Failure String) (s : Session) (workers : List Worker) (held : List Held) :
    Leads s held (Run.answerWorkers clock supervised stamp listing s workers).2 held ∧
      heldBy (Run.answerWorkers clock supervised stamp listing s workers).1 = heldBy workers := by
  induction workers with
  | nil => exact ⟨.refl s held, rfl⟩
  | cons worker rest ih =>
      unfold Run.answerWorkers
      split
      · cases ‹_ = _›
      · next heq =>
          cases heq
          have hanswer := Sampler.leads_answer clock stamp listing s held
          exact ⟨hanswer.trans (leads_escalate supervised _ _ held), rfl⟩
      · next heq =>
          cases heq
          exact ⟨ih.1, by rw [heldBy_cons, heldBy_cons, ih.2]⟩

namespace Supervisor

theorem leads_noticeEnded (workers : List Worker) (s : Session) (held : List Held) :
    Leads s held (noticeEnded workers s).2 held := by
  unfold noticeEnded
  split
  · exact .refl s held
  · split
    · exact .refl s held
    · exact (Leads.of_log rfl s held).trans (leads_requestShutdown _ _ held)

theorem leads_sleep (clock : Clock) (report : Span) (deadline : Option Span) (s : Session)
    (held : List Held) : Leads s held (sleep clock report deadline s).2 held := by
  unfold sleep
  split
  · dsimp only
    split <;> exact .of_log rfl s held
  · exact .refl s held

theorem leads_look (clock : Clock) (workers : List Worker) (report : Span)
    (deadline : Option Span) (s : Session) (held : List Held) :
    Leads s held (look clock workers report deadline s).2 held := by
  have hnotice := leads_noticeEnded workers s held
  unfold look
  split
  · exact .refl s held
  · rcases hnoticed : noticeEnded workers s with ⟨fault | _, noticed⟩
    · rwa [hnoticed] at hnotice
    · rw [hnoticed] at hnotice
      dsimp only
      split
      · exact hnotice
      · split
        · exact hnotice.trans (.of_log rfl noticed held)
        · exact hnotice.trans (leads_sleep clock report _ noticed held)

theorem leads {supervisor supervisor' : Supervisor} {workers : List Worker}
    (h : supervisor.step clock workers s = some (supervisor', s')) (held : List Held) :
    Leads s held s' held := by
  cases supervisor with
  | watching next report deadline =>
      simp only [step] at h
      split at h
      · rw [← (Prod.mk.inj (Option.some.inj h)).2]
        exact leads_look clock workers report deadline s held
      · cases h
  | leaving till =>
      simp only [step] at h
      split at h <;> cases h
      exact .of_log rfl s held
  | ended ending => cases h

end Supervisor

namespace Run

variable {r r' : Run} {o : Office}

def held (r : Run) : List Held :=
  heldBy r.workers

theorem leads_step (h : r.step = some r') : Leads r.session r.held r'.session r'.held := by
  unfold step at h
  split at h
  · next next hsupervisor =>
      cases h
      simp only [stepSupervisor, Option.bind_eq_bind, Option.bind_eq_some_iff] at hsupervisor
      obtain ⟨supervisor, _, ⟨supervisor', s'⟩, hstep, heq⟩ := hsupervisor
      cases heq
      exact Supervisor.leads hstep r.held
  · obtain ⟨⟨workers, s'⟩, hstep, heq⟩ := Option.map_eq_some_iff.mp h
    cases heq
    exact leads_stepWorkers hstep []

theorem held_mapIntake (feed : Feed) {f : Intake → Intake}
    (hf : ∀ phase, (f phase).held? = phase.held?) (r : Run) :
    (r.mapIntake feed f).held = r.held := by
  simp only [held, heldBy, mapIntake, List.filterMap_map]
  refine List.filterMap_congr fun worker _ => ?_
  cases worker with
  | intake other phase =>
      simp only [Function.comp_apply, Worker.held?]
      split
      · exact hf phase
      · rfl
  | _ => rfl

/-- A run is where an office is: the session is the one of the office, as operations know it, and
the intakes hold back the connections that wait. -/
structure Mirrors (r : Run) (o : Office) : Prop where
  session : ∃ said told, o.session = r.session.recalled said told
  held : o.held.Perm r.held

theorem Mirrors.of_leads (h : r.Mirrors o)
    (hleads : Leads r.session r.held r'.session r'.held) :
    ∃ actions, r'.Mirrors (o.run actions) := by
  obtain ⟨said, told, hsession⟩ := h.session
  obtain ⟨actions, hactions, hheld⟩ := hleads said told o hsession h.held
  exact ⟨actions, ⟨said, told, hactions⟩, hheld⟩

/-- What becomes of a run by a move becomes of the office by some operations. -/
theorem Mirrors.move (h : r.Mirrors o) (m : Move) :
    ∃ actions, (r.move m).Mirrors (o.run actions) := by
  cases m with
  | act =>
      cases hstep : r.step with
      | none => exact ⟨[], by simpa [Run.move, hstep, Office.run] using h⟩
      | some next =>
          simp only [Run.move, hstep, Option.getD_some]
          exact h.of_leads (leads_step hstep)
  | answer stamp listing =>
      have hanswer := leads_answerWorkers r.clock r.supervisor.isSome stamp listing r.session
        r.workers r.held
      refine h.of_leads ?_
      rw [show (r.move (.answer stamp listing)).held = r.held from hanswer.2]
      exact hanswer.1
  | tick clock => exact ⟨[], h.session, h.held⟩
  | opened feed source =>
      refine ⟨[], h.session, h.held.trans (.of_eq ?_)⟩
      exact (held_mapIntake feed (fun phase => by unfold Intake.withSource; split <;> rfl) r).symm
  | arrived feed input =>
      refine ⟨[], h.session, h.held.trans (.of_eq ?_)⟩
      exact (held_mapIntake feed (fun phase => by unfold Intake.feed; split <;> rfl) r).symm
  | signal => exact h.of_leads (.of_session .signal (fun _ => rfl) r.held)
  | written =>
      obtain ⟨said, told, hsession⟩ := h.session
      exact ⟨[], ⟨_, _, hsession.trans r.session.recalled_cleared.symm⟩, h.held⟩

/-- A whole run, with all that comes from outside, follows a history of operations. -/
theorem Mirrors.run (h : r.Mirrors o) (moves : List Move) :
    ∃ actions, (moves.foldl Run.move r).Mirrors (o.run actions) := by
  induction moves generalizing r o with
  | nil => exact ⟨[], h⟩
  | cons m rest ih =>
      obtain ⟨first, hfirst⟩ := h.move m
      obtain ⟨later, hlater⟩ := ih hfirst
      refine ⟨first ++ later, ?_⟩
      rw [Office.run_append]
      exact hlater

/-- Before anybody has acted, a run of the program is where the office of a new session is. -/
theorem mirrors_start (settings : Settings) (unix : Float) (headers connections : Pipe) :
    (start (Session.ofSettings settings).announce.cleared unix headers connections).Mirrors
      (.start settings fun _ => .written) := by
  refine ⟨⟨[], [], rfl⟩, .of_eq ?_⟩
  simp only [held, heldBy, start, Worker.crew]
  split <;> rfl

end Run

/-- An intervention is an operation that ends no wait. -/
def Intervention.IsOperation (i : Intervention) : Prop :=
  ∃ a, ∀ s waiting, (⟨s, waiting⟩ : Office).act a = ⟨i.act s, waiting⟩

namespace Rehearsal

variable {r r' : Rehearsal} {o : Office}

/-- What happens in a rehearsal is a move of its run, or its next intervention. -/
theorem step_cases (h : r.step = some r') :
    (∃ m, r'.run = r.run.move m ∧ r'.world = r.world) ∨
      ∃ first rest, r.world.interventions = first :: rest ∧ r'.world.interventions = rest ∧
        r'.run = { r.run with session := first.act r.run.session } := by
  have hintervene : ∀ {atRest}, r.intervene atRest = some r' →
      ∃ first rest, r.world.interventions = first :: rest ∧ r'.world.interventions = rest ∧
        r'.run = { r.run with session := first.act r.run.session } := by
    intro atRest h
    unfold intervene at h
    split at h
    · cases h
    · next first rest heq =>
        split at h <;> cases h
        exact ⟨first, rest, heq, rfl, rfl⟩
  have hact : r.act = some r' → ∃ m, r'.run = r.run.move m ∧ r'.world = r.world := by
    intro h
    unfold act at h
    split at h
    · cases h
      exact ⟨.answer _ _, rfl, rfl⟩
    · obtain ⟨next, hstep, heq⟩ := Option.map_eq_some_iff.mp h
      cases heq
      exact ⟨.act, by rw [Run.move, hstep, Option.getD_some], rfl⟩
  have hwait : r.wait = some r' → ∃ m, r'.run = r.run.move m ∧ r'.world = r.world := by
    intro h
    obtain ⟨moment, _, heq⟩ := Option.map_eq_some_iff.mp h
    cases heq
    exact ⟨.tick _, rfl, rfl⟩
  unfold step at h
  split at h
  · cases h
  · rcases (Option.orElse_eq_some _ _ _).mp h with h | ⟨_, h⟩
    · exact .inr (hintervene h)
    rcases (Option.orElse_eq_some _ _ _).mp h with h | ⟨_, h⟩
    · exact .inl (hact h)
    rcases (Option.orElse_eq_some _ _ _).mp h with h | ⟨_, h⟩
    · exact .inr (hintervene h)
    · exact .inl (hwait h)

/-- A rehearsal follows a history of operations, if somebody outside intervenes by operations. -/
theorem mirrors_play (h : r.run.Mirrors o)
    (hinterventions : ∀ i ∈ r.world.interventions, i.IsOperation) (fuel : Nat) :
    ∃ actions, (r.play fuel).run.Mirrors (o.run actions) := by
  induction fuel generalizing r o with
  | zero => exact ⟨[], h⟩
  | succ fuel ih =>
      simp only [play]
      split
      · next next hstep =>
          have hnext : (∃ actions, next.run.Mirrors (o.run actions)) ∧
              ∀ i ∈ next.world.interventions, i.IsOperation := by
            rcases step_cases hstep with ⟨m, hrun, hworld⟩ | ⟨first, rest, hfirst, hrest, hrun⟩
            · rw [hrun, hworld]
              exact ⟨h.move m, hinterventions⟩
            · rw [hfirst, List.forall_mem_cons] at hinterventions
              obtain ⟨a, ha⟩ := hinterventions.1
              rw [hrun, hrest]
              exact ⟨h.of_leads (.of_session a (ha _) r.run.held), hinterventions.2⟩
          obtain ⟨⟨first, hfirst⟩, hlater⟩ := hnext
          obtain ⟨later, hplay⟩ := ih hfirst hlater
          refine ⟨first ++ later, ?_⟩
          rw [Office.run_append]
          exact hplay
      · exact ⟨[], h⟩

end Rehearsal

end FlowVerdict
