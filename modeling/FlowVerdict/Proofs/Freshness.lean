import FlowVerdict.CommandLine.Reader
import FlowVerdict.Proofs.Double
import FlowVerdict.Proofs.Interleaving
import FlowVerdict.Proofs.Lifetime

/-!
# How fresh a snapshot is when a worker acts on it

Publications only get newer, so that what a worker has read of one still holds of the snapshot that
it looks at later. What it has read is the stamp that a scan pass relies on, and for a record that
waits the publication which ended the wait.
-/

namespace FlowVerdict

namespace Kernel.Publication

variable {p q r : Publication} {stamp time : Float}

structure Genuine (p : Publication) : Prop where
  number : p.stamp ≤ p.stamp
  initial : p.sequence = 0 → p.stamp = 0.0

/-- The one publication is the other, or came before it. -/
structure Leads (p q : Publication) : Prop where
  sequence : p.sequence ≤ q.sequence
  stamp : p.sequence ≠ 0 → ∀ time, time ≤ p.stamp → time ≤ q.stamp

theorem Leads.refl (p : Publication) : p.Leads p :=
  ⟨le_rfl, fun _ _ h => h⟩

theorem Leads.trans (h : p.Leads q) (h' : q.Leads r) : p.Leads r := by
  refine ⟨h.sequence.trans h'.sequence, fun hp time hle => ?_⟩
  have hq : q.sequence ≠ 0 := by
    have hsequence := h.sequence
    omega
  exact h'.stamp hq time (h.stamp hp time hle)

/-- What is published next is genuine and later. -/
theorem genuine_next (h : p.allows stamp = true) :
    (⟨stamp, p.sequence + 1⟩ : Publication).Genuine ∧ p.Leads ⟨stamp, p.sequence + 1⟩ := by
  unfold allows at h
  by_cases hzero : p.sequence = 0
  · rw [if_pos hzero] at h
    refine ⟨⟨of_decide_eq_true h, by simp⟩, by simp, fun hne => absurd hzero hne⟩
  · rw [if_neg hzero] at h
    have hle : p.stamp ≤ stamp := of_decide_eq_true h
    exact ⟨⟨(Double.le_self_of_le hle).2, by simp⟩, by simp,
      fun _ time htime => Double.le_trans htime hle⟩

/-- A record of a positive time that one publication covers is covered by all later ones, and none
of them is the state before the first. -/
theorem Genuine.covers (hp : p.Genuine) (hlead : p.Leads q) (hpos : 0.0 < time)
    (hle : time ≤ p.stamp) : q.sequence ≠ 0 ∧ time ≤ q.stamp := by
  have hzero : p.sequence ≠ 0 := by
    intro heq
    rw [hp.initial heq] at hle
    exact Double.not_lt_of_le hle hpos
  have hsequence := hlead.sequence
  exact ⟨by omega, hlead.stamp hzero time hle⟩

/-- A stamp that is not before a positive time is at or after it. -/
theorem Genuine.le_stamp (hp : p.Genuine) (hpos : 0.0 < time) (h : ¬ p.stamp < time) :
    time ≤ p.stamp :=
  Double.le_of_not_lt hp.number (Double.le_self_of_le (Double.le_of_lt hpos)).2 h

end Kernel.Publication

open Kernel (Publication)

def Clerk.Knows (p : Publication) : Clerk → Prop
  | .waiting held =>
      ∃ q : Publication, q.Leads p ∧ held.wait = ⟨held.connection.unixtime, q.sequence⟩
  | .cleared held =>
      ∃ q r : Publication, q.Leads r ∧ r.Leads p ∧ r.Genuine ∧
        held.wait = ⟨held.connection.unixtime, q.sequence⟩ ∧ held.wait.isOver r = true
  | _ => True

/-- The stamp that a pass relies on was published. -/
def Patrol.Knows (p : Publication) : Patrol → Prop
  | .relying _ horizon | .walking _ horizon _ _ =>
      ∃ q : Publication, q.Leads p ∧ q.Genuine ∧ horizon = some q.stamp
  | _ => True

theorem Clerk.Knows.mono {p q : Publication} {c : Clerk} (h : c.Knows p) (hlead : p.Leads q) :
    c.Knows q := by
  cases c with
  | waiting held =>
      obtain ⟨r, hr, hwait⟩ := h
      exact ⟨r, hr.trans hlead, hwait⟩
  | cleared held =>
      obtain ⟨r, r', hr, hr', hgenuine, hwait, hover⟩ := h
      exact ⟨r, r', hr, hr'.trans hlead, hgenuine, hwait, hover⟩
  | _ => trivial

theorem Patrol.Knows.mono {p q : Publication} {c : Patrol} (h : c.Knows p) (hlead : p.Leads q) :
    c.Knows q := by
  cases c with
  | relying now horizon =>
      obtain ⟨r, hr, hgenuine, hhorizon⟩ := h
      exact ⟨r, hr.trans hlead, hgenuine, hhorizon⟩
  | walking now horizon emitted ids =>
      obtain ⟨r, hr, hgenuine, hhorizon⟩ := h
      exact ⟨r, hr.trans hlead, hgenuine, hhorizon⟩
  | _ => trivial

theorem Clerk.read_keeps (line : Json.Bytes) (s : Session) :
    (Clerk.read line s).2.snapshot = s.snapshot ∧ (Clerk.read line s).2.books = s.books := by
  unfold Clerk.read
  split <;> exact ⟨rfl, rfl⟩

theorem Clerk.knows_read (line : Json.Bytes) (s : Session) (p : Publication) :
    (Clerk.read line s).1.Knows p := by
  unfold Clerk.read
  split <;> trivial

/-- A step of the intake files a connection at most. -/
theorem Clerk.step_keeps (c : Clerk) (s : Session) :
    (c.step s).2.snapshot = s.snapshot ∧
      ((c.step s).2.books = s.books ∨
        ∃ con, (c.step s).2.books = s.books.file (.connection con)) := by
  cases c with
  | idle | noted | cleared => exact ⟨rfl, .inl rfl⟩
  | waiting held =>
      simp only [Clerk.step]
      split
      · exact ⟨rfl, .inl rfl⟩
      · split <;> exact ⟨rfl, .inl rfl⟩
  | corrected con =>
      simp only [Clerk.step, Session.fileCorrected]
      split <;> exact ⟨rfl, .inr ⟨con, rfl⟩⟩

/-- What the intake knows grows with each of its steps. -/
theorem Clerk.knows_step {c : Clerk} {s : Session} (h : c.Knows s.published)
    (hgenuine : s.published.Genuine) (hsampled : ∃ snapshot, s.snapshot = some snapshot) :
    (c.step s).1.Knows s.published := by
  cases c with
  | idle | cleared | corrected => trivial
  | noted con => exact ⟨s.published, .refl _, rfl⟩
  | waiting held =>
      obtain ⟨snapshot, hsnapshot⟩ := hsampled
      obtain ⟨q, hq, hwait⟩ := h
      simp only [Clerk.step]
      split
      · next hready =>
          have hover : held.wait.isOver s.published = true := by
            simpa [Session.isReady, Session.published, hsnapshot] using hready
          exact ⟨q, s.published, hq, .refl _, hgenuine, hwait, hover⟩
      · split
        · trivial
        · exact ⟨q, hq, hwait⟩

/-- A step of the scan detector examines one SYN at most. -/
theorem Patrol.step_keeps (c : Patrol) {s : Session} (hf : s.books.Filed) :
    (c.step s).2.snapshot = s.snapshot ∧ (c.step s).2.books.Filed := by
  cases c with
  | idle | noted | cleared | relying => exact ⟨rfl, hf⟩
  | waiting now wait =>
      simp only [Patrol.step]
      split
      · exact ⟨rfl, hf⟩
      · split <;> exact ⟨rfl, hf⟩
  | walking now horizon emitted ids =>
      cases ids with
      | nil => exact ⟨rfl, hf⟩
      | cons id rest =>
          have hdrained := Session.scanOne_drained horizon now (s, emitted) id hf
          exact ⟨hdrained.frame.snapshot, hdrained.filed hf⟩

theorem Patrol.knows_step {c : Patrol} {s : Session} (h : c.Knows s.published)
    (hgenuine : s.published.Genuine) (hsampled : ∃ snapshot, s.snapshot = some snapshot) :
    (c.step s).1.Knows s.published := by
  cases c with
  | idle | noted => trivial
  | waiting now wait =>
      simp only [Patrol.step]
      split
      · trivial
      · split <;> trivial
  | cleared now =>
      obtain ⟨snapshot, hsnapshot⟩ := hsampled
      refine ⟨s.published, .refl _, hgenuine, ?_⟩
      simp [Session.horizon?, Session.published, hsnapshot]
  | relying now horizon => exact h
  | walking now horizon emitted ids =>
      cases ids with
      | nil => trivial
      | cons id rest => exact h

theorem Patrol.knows_depart (now : Float) (s : Session) (p : Publication) :
    (Patrol.depart now s).Knows p := by
  unfold Patrol.depart
  split <;> trivial

namespace Workshop

variable {w w' : Workshop} {m : Move}

structure Sound (w : Workshop) : Prop where
  filed : w.session.books.Filed
  sampled : ∃ snapshot, w.session.snapshot = some snapshot
  genuine : w.session.published.Genuine
  asked : ∀ stamp, w.asked = some stamp → w.session.published.allows stamp = true
  clerk : w.clerk.Knows w.session.published
  patrol : w.patrol.Knows w.session.published

/-- A move that publishes nothing. -/
theorem Sound.of_snapshot_eq (h : w.Sound) (hsnapshot : w'.session.snapshot = w.session.snapshot)
    (hfiled : w'.session.books.Filed)
    (hasked : ∀ stamp, w'.asked = some stamp → w.session.published.allows stamp = true)
    (hclerk : w'.clerk.Knows w.session.published)
    (hpatrol : w'.patrol.Knows w.session.published) :
    w'.Sound ∧ w.session.published.Leads w'.session.published := by
  have hpublished : w'.session.published = w.session.published := by
    rw [Session.published, Session.published, hsnapshot]
  refine ⟨⟨hfiled, hsnapshot ▸ h.sampled, ?_, ?_, ?_, ?_⟩, ?_⟩ <;> rw [hpublished]
  · exact h.genuine
  · exact hasked
  · exact hclerk
  · exact hpatrol
  · exact .refl _

theorem published_cycle (listing : String) (stamp : Float) {s : Session}
    (hsampled : ∃ snapshot, s.snapshot = some snapshot) :
    (s.cycle listing stamp).2.published = ⟨stamp, s.published.sequence + 1⟩ ∧
      ∃ snapshot, (s.cycle listing stamp).2.snapshot = some snapshot := by
  obtain ⟨snapshot, hsnapshot⟩ := hsampled
  have hpublished := Kernel.Snapshot.published_cycle snapshot listing stamp
  simp only [Session.cycle, hsnapshot]
  refine ⟨?_, _, rfl⟩
  simp only [Session.published, Session.logAll, hsnapshot, Option.map_some, Option.getD_some]
  exact hpublished

/-- Every move keeps what holds between moves, and publications only get newer. -/
theorem Sound.act (h : w.Sound) (hact : w.act m = some w') :
    w'.Sound ∧ w.session.published.Leads w'.session.published := by
  cases act_eq_some_iff.mp hact with
  | ask stamp hsampled hidle hallows =>
      refine h.of_snapshot_eq rfl h.filed ?_ h.clerk h.patrol
      rintro _ ⟨⟩
      exact hallows
  | failed failure stamp hasked =>
      refine h.of_snapshot_eq rfl h.filed ?_ h.clerk h.patrol
      rintro _ ⟨⟩
  | listed listing stamp hasked =>
      obtain ⟨hpublished, hsampled⟩ := published_cycle listing stamp h.sampled
      obtain ⟨hgenuine, hlead⟩ := Publication.genuine_next (h.asked stamp hasked)
      rw [← hpublished] at hgenuine hlead
      refine ⟨⟨?_, hsampled, hgenuine, ?_, h.clerk.mono hlead, h.patrol.mono hlead⟩, hlead⟩
      · exact Session.books_cycle listing stamp w.session ▸ h.filed
      · rintro _ ⟨⟩
  | read line hidle =>
      obtain ⟨hsnapshot, hbooks⟩ := Clerk.read_keeps line w.session
      have hknows := Clerk.knows_read line w.session w.session.published
      exact h.of_snapshot_eq hsnapshot (hbooks ▸ h.filed) h.asked hknows h.patrol
  | clerk =>
      obtain ⟨hsnapshot, hbooks⟩ := w.clerk.step_keeps w.session
      have hknows := Clerk.knows_step h.clerk h.genuine h.sampled
      refine h.of_snapshot_eq hsnapshot ?_ h.asked hknows h.patrol
      rcases hbooks with heq | ⟨con, heq⟩
      · exact heq ▸ h.filed
      · exact heq ▸ h.filed.file (.connection con)
  | depart now hidle =>
      have hknows := Patrol.knows_depart now w.session w.session.published
      exact h.of_snapshot_eq rfl h.filed h.asked h.clerk hknows
  | patrol =>
      obtain ⟨hsnapshot, hfiled⟩ := w.patrol.step_keeps h.filed
      have hknows := Patrol.knows_step h.patrol h.genuine h.sampled
      exact h.of_snapshot_eq hsnapshot hfiled h.asked h.clerk hknows
  | aside a haside =>
      have hfiled : (⟨w.session, []⟩ : Office).books.Filed := h.filed
      have hcycle : ∀ answer stamp, a ≠ .cycle answer stamp := by
        rintro answer stamp rfl
        cases haside
      exact h.of_snapshot_eq ((Office.act_keeps hfiled a).snapshot hcycle)
        (Office.filed_act hfiled a) h.asked h.clerk h.patrol

variable {settings : Settings} {output : Nat → Delivery} {moves : List Move}

theorem sound_opening (htracking : settings.tracking = true) :
    (opening settings output).Sound := by
  have hsnapshot : (opening settings output).session.snapshot =
      some { grace := settings.grace } := by
    simp [opening, Session.ofSettings, htracking]
  have hpublished : (opening settings output).session.published = {} := by
    simp [Session.published, hsnapshot]
  refine ⟨⟨?_, ?_⟩, ⟨_, hsnapshot⟩, ?_, ?_, trivial, trivial⟩
  · intro id syn h
    cases h
  · intro id con h
    cases h
  · rw [hpublished]
    exact ⟨by decide +kernel, fun _ => rfl⟩
  · rintro stamp ⟨⟩

theorem run_concat (w : Workshop) (moves : List Move) (m : Move) :
    w.run (moves ++ [m]) = (w.run moves).bind fun w' => w'.act m := by
  rw [run_append]
  congr 1
  funext w'
  simp [run]

theorem Sound.run (h : w.Sound) (hrun : w.run moves = some w') : w'.Sound := by
  induction moves using List.reverseRecOn generalizing w' with
  | nil =>
      cases hrun
      exact h
  | append_singleton moves m ih =>
      rw [run_concat] at hrun
      obtain ⟨mid, hmid, hact⟩ := Option.bind_eq_some_iff.mp hrun
      exact ((ih hmid).act hact).1

def exampleSampling : Settings :=
  { CommandLine.Choices.standard.resolve.settings with tracking := true }

end Workshop

end FlowVerdict
