import FlowVerdict.Proofs.Orderly
import FlowVerdict.Proofs.Reading

/-!
# The mark of a SYN

A pending SYN carries a mark: what the scan passes since it was filed found out about its flow. A
pass that finds the flow alive sets the mark for good; one that does not, only if it is unset; and
nothing else touches it.
-/

namespace FlowVerdict.Office

variable {o : Office} {a : Action} {id : FlowId} {syn syn' : Syn} {later history : List Action}

def Refiles (id : FlowId) (o : Office) (a : Action) : Prop :=
  ∃ syn, o.arrival? a = some (.syn syn) ∧ syn.flowId = id

/-- A scan pass examines a SYN. Without sampling each of them does; with it, one whose snapshot is
not older than the SYN. -/
def Examines (syn : Syn) (o : Office) (a : Action) : Prop :=
  (∃ now, a = .scanPass now) ∧
    ∀ snapshot, o.session.snapshot = some snapshot → ¬ snapshot.published.stamp < syn.unixtime

/-- A scan pass examines a SYN while the flow of the SYN is alive. -/
def FindsAlive (syn : Syn) (o : Office) (a : Action) : Prop :=
  Examines syn o a ∧
    ∃ snapshot, o.session.snapshot = some snapshot ∧ snapshot.isLive syn.flowId = true

/-- The mark of a SYN tells of the scan passes of a history. -/
structure Marked (syn : Syn) (o : Office) (history : List Action) : Prop where
  found_iff : syn.status = some .found ↔ Sometime (FindsAlive syn) o history
  absent_iff : syn.status = some .absent ↔
    Sometime (Examines syn) o history ∧ ¬ Sometime (FindsAlive syn) o history
  unset_iff : syn.status = none ↔ ¬ Sometime (Examines syn) o history

/-- What a pass reads in the snapshot about a SYN. -/
theorem examines_or_passes (o : Office) (now : Float) (syn : Syn) :
    (o.session.liveness? o.session.horizon? syn.flowId syn = none ∧
        ¬ Examines syn o (.scanPass now)) ∨
      ∃ live, o.session.liveness? o.session.horizon? syn.flowId syn = some live ∧
        Examines syn o (.scanPass now) ∧ (FindsAlive syn o (.scanPass now) ↔ live = true) := by
  cases hsnapshot : o.session.snapshot with
  | none =>
      right
      refine ⟨false, by simp [Session.liveness?, hsnapshot], ⟨⟨now, rfl⟩, ?_⟩, ?_⟩
      · simp [hsnapshot]
      · simp [FindsAlive, hsnapshot]
  | some snapshot =>
      by_cases hbeyond : snapshot.published.stamp < syn.unixtime
      · left
        refine ⟨by simp [Session.liveness?, Session.horizon?, hsnapshot, hbeyond], ?_⟩
        intro hexamines
        exact hexamines.2 snapshot hsnapshot hbeyond
      · right
        have hexamines : Examines syn o (.scanPass now) := by
          refine ⟨⟨now, rfl⟩, fun other hother => ?_⟩
          rw [hsnapshot] at hother
          cases hother
          exact hbeyond
        refine ⟨snapshot.isLive syn.flowId, ?_, hexamines, ?_⟩
        · simp [Session.liveness?, Session.horizon?, hsnapshot, hbeyond]
        · simp [FindsAlive, hexamines, hsnapshot]

theorem not_examines_of_arrival {r : Record} (h : o.arrival? a = some r) : ¬ Examines syn o a := by
  rintro ⟨⟨now, rfl⟩, _⟩
  cases h

theorem sometime_examines_of_findsAlive (h : Sometime (FindsAlive syn) o history) :
    Sometime (Examines syn) o history := by
  obtain ⟨before, a, after, hsplit, hexamines, _⟩ := h
  exact ⟨before, a, after, hsplit, hexamines⟩

theorem marked_nil (h : syn.status = none) : Marked syn o [] where
  found_iff := by simp [h, not_sometime_nil]
  absent_iff := by simp [h, not_sometime_nil]
  unset_iff := by simp [h, not_sometime_nil]

/-- A mark says one of two things, or nothing yet. -/
theorem Marked.settled (h : Marked syn o history) :
    syn.status = none ∨ syn.status = some .absent ∨ syn.status = some .found := by
  rw [h.found_iff, h.absent_iff, h.unset_iff]
  have hthen := @sometime_examines_of_findsAlive o syn history
  tauto

/-- An operation that does not examine a SYN adds nothing that its mark would have to tell. -/
theorem Marked.passed (h : Marked syn o history) (hno : ¬ Examines syn (o.run history) a) :
    Marked syn o (history ++ [a]) := by
  have hnot : ¬ FindsAlive syn (o.run history) a := fun hfinds => hno hfinds.1
  constructor
  · rw [sometime_concat, h.found_iff, or_iff_left hnot]
  · rw [sometime_concat, sometime_concat, h.absent_iff, or_iff_left hnot, or_iff_left hno]
  · rw [sometime_concat, h.unset_iff, or_iff_left hno]

/-- A pass that examines a SYN keeps its mark true. -/
theorem Marked.examined {live : Bool} (h : Marked syn o history)
    (hexamines : Examines syn (o.run history) a)
    (hlive : FindsAlive syn (o.run history) a ↔ live = true) :
    Marked (Session.examined live syn) o (history ++ [a]) := by
  have hnow : Sometime (Examines syn) o (history ++ [a]) :=
    (sometime_concat _).mpr (Or.inr hexamines)
  have hfinds : Sometime (FindsAlive syn) o (history ++ [a]) ↔
      syn.status = some .found ∨ live = true := by
    rw [sometime_concat, hlive, h.found_iff]
  have hsettled := h.settled
  constructor
  · change _ ↔ Sometime (FindsAlive syn) o (history ++ [a])
    rw [hfinds]
    rcases hsettled with heq | heq | heq <;> cases live <;> simp [Session.examined, heq]
  · change _ ↔ Sometime (Examines syn) o (history ++ [a]) ∧
      ¬ Sometime (FindsAlive syn) o (history ++ [a])
    rw [hfinds]
    rcases hsettled with heq | heq | heq <;> cases live <;> simp [Session.examined, heq, hnow]
  · change _ ↔ ¬ Sometime (Examines syn) o (history ++ [a])
    cases live <;> simp [Session.examined, hnow]

/-- How an operation treats a pending SYN: it passes it over, or examines it and marks it. -/
def Treats (o : Office) (a : Action) (syn syn' : Syn) : Prop :=
  syn' = syn ∧ ¬ Examines syn o a ∨
    ∃ live, Examines syn o a ∧ (FindsAlive syn o a ↔ live = true) ∧
      syn' = Session.examined live syn

/-- A SYN that is pending after an operation that did not file it was pending before. -/
theorem pending_before (h : o.session.Orderly) (hget : (o.act a).session.syns.get? id = some syn')
    (hno : ¬ Refiles id o a) :
    ∃ syn, o.session.syns.get? id = some syn ∧ o.Treats a syn syn' := by
  have hrecords : (o.act a).books.syns.get? id = some syn' := hget
  cases harrival : o.arrival? a with
  | some r =>
      refine ⟨syn', ?_, .inl ⟨rfl, not_examines_of_arrival harrival⟩⟩
      rw [books_act_of_arrival harrival] at hrecords
      cases r with
      | connection con => exact hrecords
      | syn filed =>
          have hne : id ≠ filed.flowId := fun heq => hno ⟨filed, harrival, heq.symm⟩
          rwa [Books.file, Table.get?_insert, if_neg hne] at hrecords
  | none =>
      by_cases hmatch : ∃ now, a = .matchPass now
      · obtain ⟨now, rfl⟩ := hmatch
        obtain ⟨cs, hcs, hmatches⟩ := (Session.matchPass_matches h now).1.changes
        refine ⟨syn', ?_, .inl ⟨rfl, ?_⟩⟩
        · exact hcs.syn_before (fun c hc => (hmatches c hc).departed) hrecords
        · rintro ⟨⟨_, ⟨⟩⟩, _⟩
      by_cases hscan : ∃ now, a = .scanPass now
      · obtain ⟨now, rfl⟩ := hscan
        have hafter := o.session.get?_scanPass now id
        rw [show (o.session.scanPass now).2.syns.get? id = some syn' from hget, eq_comm,
          Option.bind_eq_some_iff] at hafter
        obtain ⟨syn, hsyn, hafter⟩ := hafter
        have hid : syn.flowId = id := h.filed.syns id syn hsyn
        subst hid
        refine ⟨syn, hsyn, ?_⟩
        rcases examines_or_passes o now syn with ⟨hlive, hpasses⟩ | ⟨live, hlive, hexamines, hfinds⟩
        · left
          simp only [Session.afterScan, hlive, Option.some.injEq] at hafter
          exact ⟨hafter.symm, hpasses⟩
        · right
          simp only [Session.afterScan, hlive] at hafter
          split at hafter
          · cases hafter
          · exact ⟨live, hexamines, hfinds, (Option.some.inj hafter).symm⟩
      · rw [books_act_of_no_pass harrival (not_exists.mp hmatch) (not_exists.mp hscan)] at hrecords
        refine ⟨syn', hrecords, .inl ⟨rfl, ?_⟩⟩
        rintro ⟨hpass, _⟩
        exact hscan hpass

/-- A SYN as the last operation that filed one of its flow has filed it, its mark apart, which tells
of what came after. -/
structure Since (o : Office) (before : List Action) (a : Action) (later : List Action) (syn : Syn) :
    Prop where
  filed : (o.run before).arrival? a = some (.syn syn.unmarked)
  unreplaced : ¬ Sometime (Refiles syn.flowId) (o.run (before ++ [a])) later
  marked : Marked syn (o.run (before ++ [a])) later

/-- A SYN is filed without a mark. -/
theorem unmarked_of_arrival (h : o.arrival? a = some (.syn syn)) : syn.unmarked = syn := by
  obtain ⟨line, _, hparse⟩ := of_arrival?_eq_syn h
  rw [Syn.unmarked, ← Syn.status_of_parse hparse]

theorem Since.act {before : List Action} {first : Action} (h : o.Since before first later syn)
    (htreats : (o.run (before ++ first :: later)).Treats a syn syn')
    (hno : ¬ Refiles syn.flowId (o.run (before ++ first :: later)) a) :
    o.Since before first (later ++ [a]) syn' := by
  have hrun : o.run (before ++ first :: later) = (o.run (before ++ [first])).run later := by
    rw [← run_append, List.append_assoc, List.singleton_append]
  rw [hrun] at htreats hno
  have hunreplaced :
      ¬ Sometime (Refiles syn.flowId) (o.run (before ++ [first])) (later ++ [a]) := by
    rw [sometime_concat, not_or]
    exact ⟨h.unreplaced, hno⟩
  rcases htreats with ⟨rfl, hpasses⟩ | ⟨live, hexamines, hlive, rfl⟩
  · exact ⟨h.filed, hunreplaced, h.marked.passed hpasses⟩
  · exact ⟨h.filed, hunreplaced, h.marked.examined hexamines hlive⟩

/-- A pending SYN has been filed by some operation of the history, and its mark tells of the passes
since. -/
theorem pending_since (h : o.session.Orderly) (hempty : ∀ id, o.session.syns.get? id = none)
    (hget : (o.run history).session.syns.get? id = some syn) :
    ∃ before a later, history = before ++ a :: later ∧ o.Since before a later syn := by
  induction history using List.reverseRecOn generalizing syn with
  | nil =>
      have hnone := hempty id
      rw [show o.session.syns.get? id = some syn from hget] at hnone
      cases hnone
  | append_singleton history a ih =>
      have horderly := orderly_run h history
      rw [run_concat] at hget
      by_cases hrefiles : Refiles id (o.run history) a
      · obtain ⟨filed, harrival, hid⟩ := hrefiles
        have hrecords : ((o.run history).act a).books.syns.get? id = some syn := hget
        rw [books_act_of_arrival harrival, Books.file, Table.get?_insert, if_pos hid.symm]
          at hrecords
        cases hrecords
        have hunmarked := unmarked_of_arrival harrival
        refine ⟨history, a, [], rfl, by rw [hunmarked]; exact harrival, not_sometime_nil _, ?_⟩
        exact marked_nil (congrArg Syn.status hunmarked).symm
      · obtain ⟨old, hold, htreats⟩ := pending_before horderly hget hrefiles
        have hid : old.flowId = id := horderly.filed.syns id old hold
        obtain ⟨before, first, later, rfl, hsince⟩ := ih hold
        refine ⟨before, first, later ++ [a], by simp, ?_⟩
        exact hsince.act htreats (hid ▸ hrefiles)

/-- A mark that says that the flow was found is not taken back. -/
theorem stays_found (h : o.session.Orderly)
    (hfound : ∀ syn, o.session.syns.get? id = some syn → syn.status = some .found)
    (hno : ¬ Sometime (Refiles id) o history)
    (hget : (o.run history).session.syns.get? id = some syn') : syn'.status = some .found := by
  induction history using List.reverseRecOn generalizing syn' with
  | nil => exact hfound syn' hget
  | append_singleton history a ih =>
      rw [sometime_concat, not_or] at hno
      rw [run_concat] at hget
      obtain ⟨syn, hsyn, htreats⟩ := pending_before (orderly_run h history) hget hno.2
      have hbefore := ih hno.1 hsyn
      rcases htreats with ⟨rfl, _⟩ | ⟨live, _, _, rfl⟩
      · exact hbefore
      · cases live <;> simp [Session.examined, hbefore]

/-- A scan that is reported carries the mark that its SYN has after the pass that reports it. -/
theorem scan_since {e : Event} (h : o.session.Orderly)
    (hempty : ∀ id, o.session.syns.get? id = none) (hreports : (o.run history).Reports e a)
    (hverdict : e.verdict = .synScan) :
    ∃ before first later now syn, history = before ++ first :: later ∧ a = .scanPass now ∧
      (o.run history).session.syns.get? syn.flowId = some syn ∧
      e = .synScan (Session.examined false syn) ∧
      o.Since before first (later ++ [a]) (Session.examined false syn) := by
  have horderly := orderly_run h history
  rcases hreports.is_pass with ⟨now, rfl⟩ | ⟨now, rfl⟩
  · obtain ⟨cs, d, _, hmatches, hd, rfl⟩ := hreports.of_matchPass horderly
    rcases hmatches _ (Books.mem_departures_iff.mp hd) with ⟨_, heq⟩ | ⟨_, _, _, heq, _⟩
    · cases heq
      cases hverdict
    · cases heq
      cases hverdict
  · obtain ⟨id, syn, hsyn, hdue, rfl⟩ := hreports.of_scanPass
    have hid : syn.flowId = id := horderly.filed.syns id syn hsyn
    subst hid
    obtain ⟨before, first, later, rfl, hsince⟩ := pending_since h hempty hsyn
    refine ⟨before, first, later, now, syn, rfl, rfl, hsyn, rfl, hsince.act (.inr ?_) ?_⟩
    · simp only [Session.isDue, hsyn, Option.any_some, Bool.and_eq_true, beq_iff_eq] at hdue
      rcases examines_or_passes (o.run (before ++ first :: later)) now syn with
        ⟨hlive, _⟩ | ⟨live, hlive, hexamines, hfinds⟩
      · rw [hlive] at hdue
        cases hdue.1
      · rw [hlive] at hdue
        cases hdue.1
        exact ⟨false, hexamines, hfinds, rfl⟩
    · rintro ⟨_, harrival, _⟩
      cases harrival

end FlowVerdict.Office
