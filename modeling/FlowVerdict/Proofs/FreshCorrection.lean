import FlowVerdict.Proofs.Freshness

/-!
# The snapshot that corrects a connection

A connection waits for a snapshot as new as itself, or for the next one. The two are not the same
where a listing was under way already when the connection came: that listing is older than the
connection, and published after its wait began.
-/

namespace FlowVerdict

def Clerk.Holds (held : Held) (c : Clerk) : Prop :=
  c = .waiting held ∨ c = .cleared held

theorem Clerk.not_holds_read (line : Json.Bytes) (s : Session) (held : Held) :
    ¬ (Clerk.read line s).1.Holds held := by
  unfold Clerk.read
  split <;> rintro (h | h) <;> cases h

/-- A step that leaves a record in hand either began its wait or found it in hand. -/
theorem Clerk.holds_step {c : Clerk} {s : Session} {held : Held} (h : (c.step s).1.Holds held) :
    (c = .noted held.connection ∧ held.wait = s.beginWait held.connection.unixtime) ∨
      c.Holds held := by
  cases c with
  | idle => rcases h with h | h <;> cases h
  | cleared other => rcases h with h | h <;> cases h
  | corrected con => rcases h with h | h <;> cases h
  | noted con =>
      left
      rcases h with h | h
      · cases h
        exact ⟨rfl, rfl⟩
      · cases h
  | waiting other =>
      right
      simp only [Clerk.step] at h
      split at h
      · rcases h with h | h <;> cases h
        exact .inl rfl
      · split at h
        · rcases h with h | h <;> cases h
        · exact h

namespace Workshop

variable {w w' : Workshop} {m : Move} {settings : Settings} {output : Nat → Delivery}
  {moves : List Move} {held : Held}

/-- The same for any move. -/
theorem holds_act (hact : w.act m = some w') (hheld : w'.clerk.Holds held) :
    (m = .clerk ∧ w.clerk = .noted held.connection ∧
        held.wait = w.session.beginWait held.connection.unixtime) ∨
      (∀ line, m ≠ .read line) ∧ w.clerk.Holds held := by
  cases act_eq_some_iff.mp hact with
  | read line hidle => exact absurd hheld (Clerk.not_holds_read line w.session held)
  | clerk =>
      rcases Clerk.holds_step hheld with hbegan | hholds
      · exact .inl ⟨rfl, hbegan⟩
      · exact .inr ⟨nofun, hholds⟩
  | ask | listed | failed | depart | patrol | aside => exact .inr ⟨nofun, hheld⟩

/-- A wait began at a step of the intake, with the number of publications as it was then, and no
line was read since. -/
theorem wait_began {start : Workshop} (hidle : start.clerk = .idle)
    (hrun : start.run moves = some w) (hheld : w.clerk.Holds held) :
    ∃ before after mid, moves = before ++ .clerk :: after ∧ start.run before = some mid ∧
      mid.clerk = .noted held.connection ∧ (∀ line, .read line ∉ after) ∧
      held.wait = mid.session.beginWait held.connection.unixtime := by
  induction moves using List.reverseRecOn generalizing w with
  | nil =>
      cases hrun
      rw [hidle] at hheld
      rcases hheld with h | h <;> cases h
  | append_singleton moves m ih =>
      rw [run_concat] at hrun
      obtain ⟨last, hlast, hact⟩ := Option.bind_eq_some_iff.mp hrun
      rcases holds_act hact hheld with ⟨rfl, hnoted, hbegan⟩ | ⟨hread, hholds⟩
      · exact ⟨moves, [], last, rfl, hlast, hnoted, fun _ => List.not_mem_nil, hbegan⟩
      · obtain ⟨before, after, mid, rfl, hmid, hnoted, hafter, hbegan⟩ := ih hlast hholds
        refine ⟨before, after ++ [m], mid, by simp, hmid, hnoted, ?_, hbegan⟩
        intro line hmem
        rcases List.mem_append.mp hmem with hmem | hmem
        · exact hafter line hmem
        · exact hread line (List.mem_singleton.mp hmem).symm

/-- Whatever the order of moves, a connection of a positive time is corrected by a snapshot that is
at least as new as the connection, or else by one that was published after its wait began. -/
theorem corrected_by_fresh_or_later (htracking : settings.tracking = true)
    (hrun : (opening settings output).run moves = some w)
    (hcleared : w.clerk = .cleared held) (hpos : 0.0 < held.connection.unixtime) :
    ∃ snapshot before after mid, w.session.snapshot = some snapshot ∧
      w.act .clerk = some { w with clerk := .corrected (snapshot.reconcile held.connection) } ∧
      moves = before ++ .clerk :: after ∧ (opening settings output).run before = some mid ∧
      mid.clerk = .noted held.connection ∧ (∀ line, .read line ∉ after) ∧
      (held.connection.unixtime ≤ snapshot.published.stamp ∨
        mid.session.published.sequence < snapshot.published.sequence) := by
  have hsound : w.Sound := (sound_opening htracking).run hrun
  obtain ⟨snapshot, hsnapshot⟩ := hsound.sampled
  obtain ⟨before, after, mid, hmoves, hbefore, hnoted, hafter, hbegan⟩ :=
    wait_began rfl hrun (.inr hcleared)
  have hpublished : w.session.published = snapshot.published := by
    simp [Session.published, hsnapshot]
  have hknows := hsound.clerk
  rw [hcleared, hpublished] at hknows
  obtain ⟨q, r, hqr, hlead, hgenuine, hwait, hover⟩ := hknows
  refine ⟨snapshot, before, after, mid, hsnapshot, ?_, hmoves, hbefore, hnoted, hafter, ?_⟩
  · rw [act_clerk, hcleared]
    simp only [Clerk.step, Session.reconciled, hsnapshot]
  · have hsince : mid.session.published.sequence = q.sequence := by
      have heq := congrArg Kernel.Wait.since (hbegan.symm.trans hwait)
      exact heq
    -- `r` ended the wait: by its stamp, or only by being another one than `q`
    by_cases hcovered : r.stamp < held.connection.unixtime
    · right
      have hnext : r.sequence ≠ q.sequence := by
        simpa [Kernel.Wait.isOver, hwait, hcovered] using hover
      have hfirst := hqr.sequence
      have hsecond := hlead.sequence
      omega
    · left
      exact (hgenuine.covers hlead hpos (hgenuine.le_stamp hpos hcovered)).2

def exampleLateConnection : Json.Bytes :=
  ("\x7b\"src_ip\":\"10.0.0.1\",\"src_port\":40000,\"dest_ip\":\"10.0.0.2\"," ++
    "\"dest_port\":80,\"unixtime\":10\x7d").toUTF8.toList

/-- A listing is asked for in the fifth second. While it is under way the connection arrives and
begins to wait, and then the listing is published. -/
def exampleOvertaken : List Move :=
  [.ask 5.0, .read exampleLateConnection, .clerk, .publish (.ok ""), .clerk]

/-- The workshop after these moves is about to correct a connection by a snapshot older than it. -/
def correctsByOlder (w : Workshop) : Bool :=
  match w.clerk, w.session.snapshot with
  | .cleared held, some snapshot =>
      !w.session.shutdown.fast && decide (0.0 < held.connection.unixtime) &&
        decide (snapshot.published.stamp < held.connection.unixtime)
  | _, _ => false

theorem exampleOvertaken_correctsByOlder :
    ∃ w held snapshot,
      (opening exampleSampling fun _ => .written).run exampleOvertaken = some w ∧
      w.clerk = .cleared held ∧ w.session.snapshot = some snapshot ∧
      w.session.shutdown.fast = false ∧ 0.0 < held.connection.unixtime ∧
      snapshot.published.stamp < held.connection.unixtime := by
  have hrun : ((opening exampleSampling fun _ => .written).run exampleOvertaken).any
      correctsByOlder = true := by decide +kernel
  obtain ⟨w, hw, holder⟩ := (Option.any_eq_true _ _).mp hrun
  unfold correctsByOlder at holder
  split at holder
  · next held snapshot hheld hsnapshot =>
      simp only [Bool.and_eq_true, Bool.not_eq_true', decide_eq_true_eq] at holder
      exact ⟨w, held, snapshot, hw, hheld, hsnapshot, holder.1.1, holder.1.2, holder.2⟩
  · cases holder

/-- So it is not always a snapshot at least as new as the connection. -/
theorem not_always_fresh :
    ¬ ∀ settings output moves (w : Workshop) held snapshot,
      settings.tracking = true → (opening settings output).run moves = some w →
      w.session.shutdown.fast = false → w.clerk = .cleared held →
      w.session.snapshot = some snapshot → 0.0 < held.connection.unixtime →
      held.connection.unixtime ≤ snapshot.published.stamp := by
  intro hall
  obtain ⟨w, held, snapshot, hrun, hcleared, hsnapshot, hslow, hpos, holder⟩ :=
    exampleOvertaken_correctsByOlder
  have hfresh := hall _ _ _ w held snapshot rfl hrun hslow hcleared hsnapshot hpos
  exact Double.not_lt_of_le hfresh holder

/-- That snapshot was published while the connection waited. -/
theorem exampleOvertaken_later :
    ∃ w held snapshot before after mid,
      (opening exampleSampling fun _ => .written).run exampleOvertaken = some w ∧
      w.clerk = .cleared held ∧ w.session.snapshot = some snapshot ∧
      exampleOvertaken = before ++ .clerk :: after ∧
      (opening exampleSampling fun _ => .written).run before = some mid ∧
      mid.clerk = .noted held.connection ∧ (∀ line, .read line ∉ after) ∧
      mid.session.published.sequence < snapshot.published.sequence := by
  obtain ⟨w, held, snapshot, hrun, hcleared, hsnapshot, _, hpos, holder⟩ :=
    exampleOvertaken_correctsByOlder
  obtain ⟨other, before, after, mid, hother, _, hmoves, hbefore, hnoted, hafter, hfresh⟩ :=
    corrected_by_fresh_or_later rfl hrun hcleared hpos
  cases hsnapshot.symm.trans hother
  refine ⟨w, held, snapshot, before, after, mid, hrun, hcleared, hsnapshot, hmoves, hbefore,
    hnoted, hafter, ?_⟩
  exact hfresh.resolve_left fun hle => Double.not_lt_of_le hle holder

end Workshop

end FlowVerdict
