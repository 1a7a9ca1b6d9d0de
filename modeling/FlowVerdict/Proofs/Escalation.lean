import FlowVerdict.CommandLine.Reader
import FlowVerdict.Proofs.Frame

/-!
# Callers of the shutdown

Signal handlers, workers and the supervisor ask for a shutdown at the same time. Here a call does so
in steps, each of them one access to a flag or to the counter, or one entry of the log, and the
steps of any number of calls come in any order. A call that nobody interrupts does what its
operation on the session says.
-/

namespace FlowVerdict

/-- Whether every flag that is up stays up. -/
structure Shutdown.Precedes (d d' : Shutdown) : Prop where
  graceful : d.graceful = true → d'.graceful = true
  fast : d.fast = true → d'.fast = true
  fatal : d.fatal = true → d'.fatal = true

namespace Shutdown.Precedes

variable {d d' d'' : Shutdown}

theorem refl (d : Shutdown) : d.Precedes d := ⟨id, id, id⟩

theorem trans (h : d.Precedes d') (h' : d'.Precedes d'') : d.Precedes d'' :=
  ⟨h'.graceful ∘ h.graceful, h'.fast ∘ h.fast, h'.fatal ∘ h.fatal⟩

end Shutdown.Precedes

def LogEntry.isShutdownRequested : LogEntry → Bool
  | shutdownRequested _ _ => true
  | _ => false

namespace Callers

/-- What a call is for. -/
inductive Demand where
  /-- A graceful shutdown, unless one is running. -/
  | graceful (reason : String)
  /-- A termination request from outside. -/
  | signal
  /-- The end of every worker. -/
  | fast (reason : String) (fatal : Bool)
deriving DecidableEq

inductive Reply where
  /-- The graceful shutdown starts with this call. -/
  | started
  /-- A graceful shutdown was running already. -/
  | running
  /-- The shutdown is fast. -/
  | fast
deriving DecidableEq

/-- How far a call has got: the access that is next, or the reply. -/
inductive Stage where
  /-- Counts a request. -/
  | count
  /-- Raises the graceful flag and learns whether it was up. -/
  | swap
  /-- Raises the fatal flag. -/
  | blame
  /-- Raises the graceful flag. -/
  | refuse
  /-- Raises the fast flag. -/
  | stop
  /-- Says so in the log. -/
  | log (reply : Reply)
  | done (reply : Reply)

namespace Demand

def begin : Demand → Stage
  | graceful _ => .swap
  | signal => .count
  | fast _ fatal => if fatal then .blame else .refuse

def tooLate : Demand → Stage
  | graceful _ => .done .running
  | _ => .refuse

def say (s : Session) : Demand → Reply → Session
  | graceful reason, .started => (s.announceGraceful reason).2
  | signal, .started => (s.announceGraceful "Signal received").2
  | signal, .fast => s.announceFast "Signal received again"
  | fast reason _, .fast => s.announceFast reason
  | _, _ => s

/-- The replies that a call can get. -/
def allows : Demand → Reply → Bool
  | graceful _, reply => reply ≠ .fast
  | signal, reply => reply ≠ .running
  | fast _ _, reply => reply = .fast

/-- The stages that a call comes through. -/
def visits : Demand → Stage → Bool
  | signal, .count => true
  | graceful _, .swap | signal, .swap => true
  | fast _ fatal, .blame => fatal
  | signal, .refuse | fast _ _, .refuse => true
  | signal, .stop | fast _ _, .stop => true
  | demand, .log reply | demand, .done reply => demand.allows reply
  | _, _ => false

/-- The reply to a call that nobody interrupts, and the session after it. -/
def serve (s : Session) : Demand → Reply × Session
  | graceful reason =>
    (if s.shutdown.beginGraceful.1 then .started else .running, (s.requestShutdown reason).2)
  | signal => (if s.shutdown.request.1 then .fast else .started, s.signal.2)
  | fast reason fatal => (.fast, s.forceShutdown reason fatal)

end Demand

structure Call where
  demand : Demand
  stage : Stage

namespace Call

def enter (demand : Demand) : Call where
  demand := demand
  stage := demand.begin

def told? (c : Call) : Option Reply :=
  match c.stage with
  | .log reply | .done reply => some reply
  | _ => none

/-- What the call has been told, once it has said so. -/
def said? (c : Call) : Option Reply :=
  match c.stage with
  | .done reply => some reply
  | _ => none

def isStarter (c : Call) : Bool := c.told? = some .started

/-- Whether the call is the starter and has said so. -/
def isThroughStarter (c : Call) : Bool := c.said? = some .started

def step (s : Session) (c : Call) : Call × Session :=
  let d := s.shutdown
  match c.stage with
  | .count =>
    ({ c with stage := if d.requests = 0 then .swap else .refuse },
      { s with shutdown := { d with requests := d.requests + 1 } })
  | .swap =>
    let (started, shutdown) := d.beginGraceful
    ({ c with stage := if started then .log .started else c.demand.tooLate }, { s with shutdown })
  | .blame => ({ c with stage := .refuse }, { s with shutdown := { d with fatal := true } })
  | .refuse => ({ c with stage := .stop }, { s with shutdown := { d with graceful := true } })
  | .stop => ({ c with stage := .log .fast }, { s with shutdown := { d with fast := true } })
  | .log reply => ({ c with stage := .done reply }, c.demand.say s reply)
  | .done _ => (c, s)

def steps (s : Session) (c : Call) : Nat → Call × Session
  | 0 => (c, s)
  | n + 1 => (c.step s).1.steps (c.step s).2 n

/-- What a call relies on: that it is where its demand leads, and the flags that it has raised
itself. -/
structure Fits (d : Shutdown) (c : Call) : Prop where
  visits : c.demand.visits c.stage = true
  stop : c.stage = .stop → d.graceful = true
  fast : c.told? = some .fast → d.fast = true

theorem Fits.mono {d d' : Shutdown} {c : Call} (h : c.Fits d) (hle : d.Precedes d') :
    c.Fits d' where
  visits := h.visits
  stop := hle.graceful ∘ h.stop
  fast := hle.fast ∘ h.fast

theorem fits_enter (d : Shutdown) (demand : Demand) : (enter demand).Fits d := by
  cases demand with
  | fast reason fatal =>
      cases fatal <;> constructor <;> simp [enter, Demand.begin, Demand.visits, told?]
  | _ => constructor <;> simp [enter, Demand.begin, Demand.visits, told?]

/-- A call is told nothing but what its demand allows. -/
theorem Fits.allows {d : Shutdown} {c : Call} {reply : Reply} (h : c.Fits d)
    (htold : c.told? = some reply) : c.demand.allows reply = true := by
  rcases c with ⟨demand, stage⟩
  cases stage with
  | log | done =>
      cases htold
      cases demand <;> exact h.visits
  | _ => cases htold

theorem told?_of_said? {c : Call} {reply : Reply} (h : c.said? = some reply) :
    c.told? = some reply := by
  rcases c with ⟨demand, stage⟩
  cases stage with
  | done => exact h
  | _ => cases h

theorem told?_enter (demand : Demand) : (enter demand).told? = none := by
  cases demand with
  | fast reason fatal => cases fatal <;> rfl
  | _ => rfl

end Call

theorem Demand.eq_fast_of_visits_blame {demand : Demand} (h : demand.visits .blame = true) :
    ∃ reason, demand = .fast reason true := by
  cases demand with
  | fast reason fatal =>
      cases h
      exact ⟨reason, rfl⟩
  | _ => cases h

theorem Demand.shutdown_say (s : Session) (demand : Demand) (reply : Reply) :
    (demand.say s reply).shutdown = s.shutdown := by
  unfold say
  split
  · rw [s.announceGraceful_eq]
    rfl
  · rw [s.announceGraceful_eq]
    rfl
  · rfl
  · rfl
  · rfl

/-- Only the starter says that a graceful shutdown has begun. -/
theorem Demand.countP_journal_say (s : Session) (demand : Demand) (reply : Reply) :
    (demand.say s reply).journal.countP LogEntry.isShutdownRequested ≤
      s.journal.countP LogEntry.isShutdownRequested + (decide (reply = .started)).toNat := by
  have hannounced (reason : String) :
      (s.announceGraceful reason).2.journal.countP LogEntry.isShutdownRequested ≤
        s.journal.countP LogEntry.isShutdownRequested + 1 := by
    unfold Session.announceGraceful
    split
    · exact Nat.le_succ _
    · simp [Session.log, LogEntry.isShutdownRequested]
  unfold say
  split
  · exact hannounced _
  · exact hannounced _
  · simp [Session.announceFast, Session.log, LogEntry.isShutdownRequested]
  · simp [Session.announceFast, Session.log, LogEntry.isShutdownRequested]
  · exact Nat.le_add_right _ _

namespace Call

/-- The ways in which a step of a call can go. -/
inductive Step (s : Session) : Call → Call → Session → Prop where
  | first (demand : Demand) (hfirst : s.shutdown.requests = 0) :
      Step s ⟨demand, .count⟩ ⟨demand, .swap⟩
        { s with shutdown := { s.shutdown with requests := s.shutdown.requests + 1 } }
  | again (demand : Demand) (hagain : s.shutdown.requests ≠ 0) :
      Step s ⟨demand, .count⟩ ⟨demand, .refuse⟩
        { s with shutdown := { s.shutdown with requests := s.shutdown.requests + 1 } }
  | started (demand : Demand) (hdown : s.shutdown.graceful = false) :
      Step s ⟨demand, .swap⟩ ⟨demand, .log .started⟩
        { s with shutdown := { s.shutdown with graceful := true } }
  | late (demand : Demand) (hup : s.shutdown.graceful = true) :
      Step s ⟨demand, .swap⟩ ⟨demand, demand.tooLate⟩
        { s with shutdown := { s.shutdown with graceful := true } }
  | blame (demand : Demand) :
      Step s ⟨demand, .blame⟩ ⟨demand, .refuse⟩
        { s with shutdown := { s.shutdown with fatal := true } }
  | refuse (demand : Demand) :
      Step s ⟨demand, .refuse⟩ ⟨demand, .stop⟩
        { s with shutdown := { s.shutdown with graceful := true } }
  | stop (demand : Demand) :
      Step s ⟨demand, .stop⟩ ⟨demand, .log .fast⟩
        { s with shutdown := { s.shutdown with fast := true } }
  | log (demand : Demand) (reply : Reply) :
      Step s ⟨demand, .log reply⟩ ⟨demand, .done reply⟩ (demand.say s reply)
  | done (demand : Demand) (reply : Reply) : Step s ⟨demand, .done reply⟩ ⟨demand, .done reply⟩ s

theorem step_goes (s : Session) (c : Call) : Step s c (c.step s).1 (c.step s).2 := by
  rcases c with ⟨demand, stage⟩
  cases stage with
  | count =>
      by_cases hfirst : s.shutdown.requests = 0
      · simpa [step, hfirst] using Step.first demand hfirst
      · simpa [step, hfirst] using Step.again demand hfirst
  | swap =>
      cases hup : s.shutdown.graceful with
      | false => simpa [step, Shutdown.beginGraceful, hup] using Step.started demand hup
      | true => simpa [step, Shutdown.beginGraceful, hup] using Step.late demand hup
  | blame => exact .blame demand
  | refuse => exact .refuse demand
  | stop => exact .stop demand
  | log reply => exact .log demand reply
  | done reply => exact .done demand reply

/-- The steps that a call takes at most until it is done. -/
def left (c : Call) : Nat :=
  match c.stage with
  | .count => 5
  | .swap | .blame => 4
  | .refuse => 3
  | .stop => 2
  | .log _ => 1
  | .done _ => 0

theorem left_le (c : Call) : c.left ≤ 5 := by
  unfold left
  split <;> omega

theorem said?_of_left {c : Call} (h : c.left = 0) : ∃ reply, c.said? = some reply := by
  rcases c with ⟨demand, stage⟩
  cases stage with
  | done reply => exact ⟨reply, rfl⟩
  | _ => cases h

namespace Step

variable {s s' : Session} {c c' : Call}

theorem left (h : Step s c c' s') : c'.left ≤ c.left - 1 := by
  cases h with
  | late demand hup => cases demand <;> simp [Call.left, Demand.tooLate]
  | _ => simp [Call.left]

/-- No step takes a flag down. -/
theorem precedes (h : Step s c c' s') : s.shutdown.Precedes s'.shutdown := by
  cases h with
  | first | again => exact ⟨id, id, id⟩
  | started | late | refuse => exact ⟨fun _ => rfl, id, id⟩
  | blame => exact ⟨id, id, fun _ => rfl⟩
  | stop => exact ⟨id, fun _ => rfl, id⟩
  | log demand reply =>
      rw [demand.shutdown_say]
      exact .refl _
  | done => exact .refl _

theorem demand_eq (h : Step s c c' s') : c'.demand = c.demand := by
  cases h <;> rfl

theorem fits (h : Step s c c' s') (hfits : c.Fits s.shutdown) : c'.Fits s'.shutdown := by
  have hkept := hfits.mono h.precedes
  have hvisits := hfits.visits
  cases h with
  | log demand reply => exact ⟨by cases demand <;> exact hvisits, nofun, hkept.fast⟩
  | done => exact hkept
  | late demand hup =>
      cases demand with
      | graceful => exact ⟨rfl, nofun, nofun⟩
      | signal => exact ⟨rfl, nofun, nofun⟩
      | fast => cases hvisits
  | first demand | again demand | started demand | blame demand | refuse demand | stop demand =>
      cases demand <;> constructor <;> simp_all [told?, Demand.visits, Demand.allows]

theorem graceful_of_fast (h : Step s c c' s') (hfits : c.Fits s.shutdown)
    (hgraceful : s.shutdown.fast = true → s.shutdown.graceful = true) :
    s'.shutdown.fast = true → s'.shutdown.graceful = true := by
  cases h with
  | first | again | blame | done => exact hgraceful
  | started | late | refuse => exact fun _ => rfl
  | stop => exact fun _ => hfits.stop rfl
  | log demand reply =>
      rw [demand.shutdown_say]
      exact hgraceful

/-- Only a call with an error as its cause raises the fatal flag. -/
theorem fatal (h : Step s c c' s') (hfits : c.Fits s.shutdown)
    (hfatal : s'.shutdown.fatal = true) :
    s.shutdown.fatal = true ∨ c.demand.visits .blame = true := by
  cases h with
  | blame => exact .inr hfits.visits
  | log demand reply =>
      rw [demand.shutdown_say] at hfatal
      exact .inl hfatal
  | _ => exact .inl hfatal

/-- A call becomes the starter only by raising the graceful flag. -/
theorem starter (h : Step s c c' s') :
    c'.isStarter.toNat + s.shutdown.graceful.toNat ≤
      c.isStarter.toNat + s'.shutdown.graceful.toNat := by
  cases h with
  | started demand hdown => simp [isStarter, told?, hdown]
  | late demand hup => cases demand <;> simp [isStarter, told?, Demand.tooLate, hup]
  | refuse => simpa [isStarter, told?] using Bool.toNat_le _
  | log demand reply => simp [isStarter, told?, demand.shutdown_say]
  | _ => simp [isStarter, told?]

/-- An entry that a graceful shutdown has begun is written by its starter, once. -/
theorem journal (h : Step s c c' s') :
    s'.journal.countP LogEntry.isShutdownRequested + c.isThroughStarter.toNat ≤
      s.journal.countP LogEntry.isShutdownRequested + c'.isThroughStarter.toNat := by
  cases h with
  | late demand hup => cases demand <;> simp [isThroughStarter, said?, Demand.tooLate]
  | log demand reply => simpa [isThroughStarter, said?] using demand.countP_journal_say s reply
  | _ => simp [isThroughStarter, said?]

end Step

end Call

/-- What happens next. -/
inductive Turn where
  /-- A further call begins. -/
  | enter (demand : Demand)
  /-- The call at a place takes its next step. -/
  | step (place : Nat)
deriving DecidableEq

end Callers

/-- A session and the calls for its end so far, each wherever it has got to. -/
structure Callers where
  session : Session
  calls : List Callers.Call := []

namespace Callers

/-- A session that nobody has called for the end of. The counter of requests may stand anywhere, as
it does once it has wrapped. -/
def opening (settings : Settings) (requests : UInt32) : Callers where
  session := { Session.ofSettings settings with shutdown := { requests } }

def act (t : Callers) : Turn → Callers
  | .enter demand => { t with calls := t.calls ++ [.enter demand] }
  | .step place =>
    match t.calls[place]? with
    | none => t
    | some c => { session := (c.step t.session).2, calls := t.calls.set place (c.step t.session).1 }

def run (t : Callers) (turns : List Turn) : Callers :=
  turns.foldl act t

structure Sound (t : Callers) : Prop where
  graceful : t.session.shutdown.fast = true → t.session.shutdown.graceful = true
  fits : ∀ c ∈ t.calls, c.Fits t.session.shutdown
  fatal : t.session.shutdown.fatal = true →
    ∃ demand ∈ t.calls.map (·.demand), demand.visits .blame = true
  /-- There is no starter as long as the graceful flag is down, and one at most once it is up. -/
  starter : t.calls.countP Call.isStarter ≤ t.session.shutdown.graceful.toNat
  journal : t.session.journal.countP LogEntry.isShutdownRequested ≤
    t.calls.countP Call.isThroughStarter

theorem sound_opening (settings : Settings) (requests : UInt32) :
    (opening settings requests).Sound where
  graceful := nofun
  fits := nofun
  fatal := nofun
  starter := Nat.le_refl 0
  journal := Nat.le_refl 0

/-- A count after one element has been replaced. -/
theorem countP_set_add {α : Type*} (p : α → Bool) {l : List α} {place : Nat} {a : α}
    (h : l[place]? = some a) (b : α) :
    (l.set place b).countP p + (p a).toNat = l.countP p + (p b).toNat := by
  obtain ⟨hplace, rfl⟩ := List.getElem?_eq_some_iff.mp h
  have hcounted : (p l[place]).toNat ≤ l.countP p := by
    cases hp : p l[place] with
    | false => exact Nat.zero_le _
    | true => exact List.countP_pos_iff.mpr ⟨_, List.getElem_mem hplace, hp⟩
  have hone : ∀ flag : Bool, (if flag = true then 1 else 0) = flag.toNat := by decide
  rw [List.countP_set hplace, hone, hone]
  omega

variable {t : Callers}

theorem Sound.enter (h : t.Sound) (demand : Demand) : (t.act (.enter demand)).Sound where
  graceful := h.graceful
  fits := by
    intro c hc
    rcases List.mem_append.mp hc with hold | hnew
    · exact h.fits c hold
    · rw [List.mem_singleton.mp hnew]
      exact Call.fits_enter _ demand
  fatal := fun hfatal =>
    let ⟨earlier, hearlier, hblame⟩ := h.fatal hfatal
    ⟨earlier, by
      rw [act, List.map_append]
      exact List.mem_append_left _ hearlier, hblame⟩
  starter := by
    simpa [act, Call.isStarter, Call.told?_enter] using h.starter
  journal := Nat.le_trans h.journal (by simp [act])

theorem Sound.step (h : t.Sound) {place : Nat} {c : Call} (hc : t.calls[place]? = some c) :
    Sound { session := (c.step t.session).2, calls := t.calls.set place (c.step t.session).1 } := by
  have hstep := c.step_goes t.session
  have hmem := List.mem_of_getElem? hc
  refine ⟨hstep.graceful_of_fast (h.fits c hmem) h.graceful, ?_, ?_, ?_, ?_⟩
  · intro other hother
    rcases List.mem_or_eq_of_mem_set hother with hold | rfl
    · exact (h.fits other hold).mono hstep.precedes
    · exact hstep.fits (h.fits c hmem)
  · intro hfatal
    have hdemands : (t.calls.set place (c.step t.session).1).map (·.demand) =
        t.calls.map (·.demand) := by
      obtain ⟨hplace, rfl⟩ := List.getElem?_eq_some_iff.mp hc
      rw [List.map_set, hstep.demand_eq, ← List.map_set, List.set_getElem_self]
    rw [hdemands]
    rcases hstep.fatal (h.fits c hmem) hfatal with hbefore | hblame
    · exact h.fatal hbefore
    · exact ⟨c.demand, List.mem_map_of_mem hmem, hblame⟩
  · have hset := countP_set_add Call.isStarter hc (c.step t.session).1
    have hstarter := hstep.starter
    have hbefore := h.starter
    dsimp only
    omega
  · have hset := countP_set_add Call.isThroughStarter hc (c.step t.session).1
    have hjournal := hstep.journal
    have hbefore := h.journal
    dsimp only
    omega

theorem sound_act (h : t.Sound) (turn : Turn) : (t.act turn).Sound := by
  cases turn with
  | enter demand => exact h.enter demand
  | step place =>
      cases hc : t.calls[place]? with
      | none => simpa only [act, hc] using h
      | some c => simpa only [act, hc] using h.step hc

theorem sound_run (h : t.Sound) (turns : List Turn) : (t.run turns).Sound := by
  induction turns generalizing t with
  | nil => exact h
  | cons turn rest ih => exact ih (sound_act h turn)

theorem precedes_act (t : Callers) (turn : Turn) :
    t.session.shutdown.Precedes (t.act turn).session.shutdown := by
  cases turn with
  | enter demand => exact .refl _
  | step place =>
      simp only [act]
      split
      · exact .refl _
      · exact (Call.step_goes t.session _).precedes

theorem precedes_run (t : Callers) (turns : List Turn) :
    t.session.shutdown.Precedes (t.run turns).session.shutdown := by
  induction turns generalizing t with
  | nil => exact .refl _
  | cons turn rest ih => exact (precedes_act t turn).trans (ih (t.act turn))

theorem left_act {place : Nat} {c : Call} (hc : t.calls[place]? = some c) (turn : Turn) :
    ∃ c', (t.act turn).calls[place]? = some c' ∧ c'.left ≤ c.left - [turn].count (.step place) := by
  obtain ⟨hplace, _⟩ := List.getElem?_eq_some_iff.mp hc
  cases turn with
  | enter demand =>
      refine ⟨c, ?_, by simp⟩
      rw [act, List.getElem?_append_left hplace, hc]
  | step other =>
      by_cases hsame : other = place
      · subst hsame
        refine ⟨(c.step t.session).1, ?_, by simpa using (c.step_goes t.session).left⟩
        simp only [act, hc, List.getElem?_set_self hplace]
      · refine ⟨c, ?_, by simp [hsame]⟩
        simp only [act]
        split
        · exact hc
        · rw [List.getElem?_set_ne hsame, hc]

theorem left_run {place : Nat} {c : Call} (hc : t.calls[place]? = some c) (turns : List Turn) :
    ∃ c', (t.run turns).calls[place]? = some c' ∧ c'.left ≤ c.left - turns.count (.step place) := by
  induction turns generalizing t c with
  | nil => exact ⟨c, hc, Nat.le_refl _⟩
  | cons turn rest ih =>
      obtain ⟨next, hnext, hless⟩ := left_act hc turn
      obtain ⟨last, hlast, hleast⟩ := ih hnext
      refine ⟨last, hlast, ?_⟩
      rw [List.count_cons, Nat.add_comm, Nat.sub_add_eq]
      rw [List.count_singleton] at hless
      omega

/-- Whatever the order of the steps, and wherever the counter of requests stands: a shutdown that is
fast is graceful too; no flag is taken down; an error is the cause only if a call said so; one call
at most is told that the graceful shutdown starts with it, and this is said in the log once at most;
once a call is told that the shutdown is fast, or a call for a fast one is told anything, it is
fast; and every call is told something and has said so after five steps of its own. -/
theorem one_starts_all_escalate (settings : Settings) (requests : UInt32) (turns : List Turn) :
    let t := (opening settings requests).run turns
    (t.session.shutdown.fast = true → t.session.shutdown.graceful = true) ∧
      (∀ later, t.session.shutdown.Precedes (t.run later).session.shutdown) ∧
      (t.session.shutdown.fatal = true →
        ∃ c ∈ t.calls, ∃ reason, c.demand = .fast reason true) ∧
      t.calls.countP (·.told? = some .started) ≤ 1 ∧
      t.session.journal.countP LogEntry.isShutdownRequested ≤ 1 ∧
      (∀ c ∈ t.calls, c.told? = some .fast → t.session.shutdown.fast = true) ∧
      (∀ c ∈ t.calls, ∀ reason fatal, c.demand = .fast reason fatal → c.told? ≠ none →
        t.session.shutdown.fast = true) ∧
      ∀ place < t.calls.length, ∀ later : List Turn, 5 ≤ later.count (.step place) →
        ∃ c reply, (t.run later).calls[place]? = some c ∧ c.said? = some reply := by
  intro t
  have hsound : t.Sound := sound_run (sound_opening settings requests) turns
  have hstarter : t.calls.countP Call.isStarter ≤ 1 :=
    Nat.le_trans hsound.starter (Bool.toNat_le _)
  have hsaid : t.calls.countP Call.isThroughStarter ≤ t.calls.countP Call.isStarter :=
    List.countP_mono_left fun c _ hthrough =>
      decide_eq_true (Call.told?_of_said? (of_decide_eq_true hthrough))
  refine ⟨hsound.graceful, precedes_run t, ?_, hstarter,
    Nat.le_trans (Nat.le_trans hsound.journal hsaid) hstarter,
    fun c hc => (hsound.fits c hc).fast, ?_, ?_⟩
  · intro hfatal
    obtain ⟨demand, hdemand, hblame⟩ := hsound.fatal hfatal
    obtain ⟨c, hc, rfl⟩ := List.mem_map.mp hdemand
    exact ⟨c, hc, Demand.eq_fast_of_visits_blame hblame⟩
  · intro c hc reason fatal hdemand htold
    obtain ⟨reply, hreply⟩ := Option.ne_none_iff_exists'.mp htold
    have hallows := (hsound.fits c hc).allows hreply
    rw [hdemand] at hallows
    obtain rfl : reply = .fast := of_decide_eq_true hallows
    exact (hsound.fits c hc).fast hreply
  · intro place hplace later hfive
    have hc : t.calls[place]? = some t.calls[place] := List.getElem?_eq_getElem hplace
    obtain ⟨c, hlater, hleft⟩ := left_run hc later
    have hmost := t.calls[place].left_le
    obtain ⟨reply, hsaid⟩ := Call.said?_of_left (c := c) (by omega)
    exact ⟨c, reply, hlater, hsaid⟩

/-- The counter of requests is about to wrap. Two signals and a worker call at once: the first
signal finds the counter above zero, the second at zero, and the worker is the first to raise the
flag. -/
def exampleRush : List Turn :=
  [.enter .signal, .enter .signal, .enter (.graceful "Test"), .step 0, .step 1, .step 2, .step 1,
    .step 0, .step 0, .step 1, .step 2, .step 0, .step 1, .step 1]

/-- All three are through. One of them started the shutdown, and by then it is fast. -/
theorem exampleRush_escalates :
    let t := (opening CommandLine.Choices.standard.resolve.settings 0xFFFFFFFF).run exampleRush
    t.calls.map Call.said? = [some .fast, some .fast, some .started] ∧
      t.session.shutdown.fast = true ∧ t.session.shutdown.requests = 1 ∧
      t.session.journal.countP LogEntry.isShutdownRequested ≤ 1 := by
  intro t
  obtain ⟨_, _, _, _, hlogged, hfast, _⟩ := one_starts_all_escalate
    CommandLine.Choices.standard.resolve.settings 0xFFFFFFFF exampleRush
  have hsaid : t.calls.map Call.said? = [some .fast, some .fast, some .started] := by
    decide +kernel
  have htold : ∃ c ∈ t.calls, c.told? = some .fast := by
    obtain ⟨c, hc, hreply⟩ := List.mem_map.mp (hsaid ▸ List.mem_cons_self)
    exact ⟨c, hc, Call.told?_of_said? hreply⟩
  obtain ⟨c, hc, hreply⟩ := htold
  exact ⟨hsaid, hfast c hc hreply, by decide +kernel, hlogged⟩

/-- Once two termination requests have been answered the shutdown is fast, even if the counter of
requests stood at zero for both. -/
theorem fast_of_two_signals (settings : Settings) (requests : UInt32) (turns : List Turn) :
    let t := (opening settings requests).run turns
    2 ≤ t.calls.countP (fun c => c.demand = .signal ∧ c.told? ≠ none) →
      t.session.shutdown.fast = true := by
  intro t htwo
  have hsound : t.Sound := sound_run (sound_opening settings requests) turns
  by_contra hslow
  have hstarters : t.calls.countP (fun c => c.demand = .signal ∧ c.told? ≠ none) ≤
      t.calls.countP Call.isStarter := by
    refine List.countP_mono_left fun c hc hanswered => ?_
    obtain ⟨hsignal, htold⟩ := of_decide_eq_true hanswered
    have hfits := hsound.fits c hc
    obtain ⟨reply, hreply⟩ := Option.ne_none_iff_exists'.mp htold
    have hallows := hfits.allows hreply
    rw [hsignal] at hallows
    cases reply with
    | started => exact decide_eq_true hreply
    | running => cases hallows
    | fast => exact absurd (hfits.fast hreply) hslow
  have hone := Nat.le_trans hsound.starter (Bool.toNat_le _)
  omega

theorem act_step_last (s : Session) (calls : List Call) (c : Call) :
    Callers.act ⟨s, calls ++ [c]⟩ (.step calls.length) =
      ⟨(c.step s).2, calls ++ [(c.step s).1]⟩ := by
  simp [act]

theorem run_step_last (s : Session) (calls : List Call) (c : Call) (n : Nat) :
    Callers.run ⟨s, calls ++ [c]⟩ (List.replicate n (.step calls.length)) =
      ⟨(c.steps s n).2, calls ++ [(c.steps s n).1]⟩ := by
  induction n generalizing s c with
  | zero => rfl
  | succ n ih =>
      rw [List.replicate_succ, run, List.foldl_cons, act_step_last]
      exact ih _ _

/-- A call in five steps. -/
theorem Call.steps_enter (s : Session) (demand : Demand) :
    (Call.enter demand).steps s 5 =
      (⟨demand, .done (demand.serve s).1⟩, (demand.serve s).2) := by
  cases demand with
  | graceful reason =>
      cases hup : s.shutdown.graceful <;>
        simp [enter, Demand.begin, steps, step, Shutdown.beginGraceful, hup, Demand.tooLate,
          Demand.serve, Session.requestShutdown, Demand.say]
  | signal =>
      by_cases hfirst : s.shutdown.requests = 0
      · cases hup : s.shutdown.graceful <;>
          simp [enter, Demand.begin, steps, step, Shutdown.beginGraceful, hfirst, hup,
            Demand.tooLate, Demand.serve, Session.signal, Shutdown.request, Shutdown.force,
            Demand.say]
      · simp [enter, Demand.begin, steps, step, hfirst, Demand.serve, Session.signal,
          Shutdown.request, Shutdown.force, Demand.say]
  | fast reason fatal =>
      cases fatal <;>
        simp [enter, Demand.begin, steps, step, Demand.serve, Session.forceShutdown,
          Shutdown.force, Demand.say]

/-- A call that nobody interrupts does what its operation on the session does, and is told what the
operation answers. -/
theorem run_alone (t : Callers) (demand : Demand) :
    t.run (.enter demand :: List.replicate 5 (.step t.calls.length)) =
      ⟨(demand.serve t.session).2, t.calls ++ [⟨demand, .done (demand.serve t.session).1⟩]⟩ := by
  have hentered : t.act (.enter demand) = ⟨t.session, t.calls ++ [.enter demand]⟩ := rfl
  rw [run, List.foldl_cons, hentered]
  refine (run_step_last t.session t.calls (.enter demand) 5).trans ?_
  rw [Call.steps_enter]

end Callers

end FlowVerdict
