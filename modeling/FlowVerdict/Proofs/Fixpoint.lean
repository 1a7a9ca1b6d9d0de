import FlowVerdict.Proofs.ExactPairs

/-!
# A matching pass leaves nothing undecided

The verdict on a connection depends on the SYNs that the connections before it have left. SYNs only
become fewer during a pass, so a connection that found no guess finds none later; and unless guesses
empty the queue that other verdicts wait for, a connection that stays has nothing to wait for in
this pass. A second pass at the same time then does nothing.
-/

namespace FlowVerdict

namespace Books

variable {b b' : Books} {t : Terms} {id : FlowId} {con : Connection} {d : Departure}

/-- No connection leaves these books by a matching pass. -/
structure Settled (t : Terms) (b : Books) : Prop where
  apart : ∀ id, b.pair? t id = none
  undecided : ∀ id, b.verdict? t id = none

/-- The order of the connections does not matter. -/
theorem Settled.reordered (h : b.Settled t) (hsyns : b'.syns = b.syns)
    (hconnections : ∀ id, b'.connections.get? id = b.connections.get? id) : b'.Settled t := by
  constructor
  · intro id
    have hapart := h.apart id
    rwa [pair?, ← hsyns, ← hconnections] at hapart
  · intro id
    have hundecided := h.undecided id
    rw [verdict?_eq_none_iff] at hundecided ⊢
    intro con hcon
    rw [hconnections] at hcon
    have hnothing := hundecided con hcon
    rwa [guess?, givesUp, ← hsyns] at hnothing

/-- A connection that is still there when the walk has come to it was not decided about. -/
theorem verdict?_of_stays (hf : b.Filed)
    (h : (b.after (b.verdict? t id).toList).connections.get? id = some con) :
    b.verdict? t id = none ∧ b.connections.get? id = some con := by
  cases hd : b.verdict? t id with
  | none =>
      rw [hd] at h
      exact ⟨rfl, h⟩
  | some d =>
      obtain ⟨other, hother, hid⟩ := (lawful_verdict? t).connection hf hd
      have hgone := get?_connections_after_of_mem (b := b) (List.mem_singleton_self d) hother
      rw [hid] at hgone
      rw [hd, Option.toList_some, hgone] at h
      cases h

/-- A connection that found no guess finds none later. -/
theorem guess?_apply (h : b.guess? t id con = none) (d : Departure) :
    (b.apply (.departed d)).guess? t id con = none := by
  rw [guess?_eq_none_iff] at h ⊢
  intro hmay other syn hget
  exact h hmay other syn (get?_syns_of_apply_departed hget)

/-- Unless guesses empty the queue that it waits for, a connection that does not give up does not
do so later. -/
theorem givesUp_apply {other : FlowId}
    (hmixed : ¬ (t.settings.guessAfter.isSome = true ∧ t.settings.synEmptyQueue = true))
    (hd : b.verdict? t other = some d) :
    (b.apply (.departed d)).givesUp t con = b.givesUp t con := by
  obtain ⟨left, _, ⟨syn, hguess, rfl⟩ | ⟨_, _, rfl⟩⟩ := verdict?_eq_some_iff.mp hd
  · have hon : t.settings.guessAfter.isSome = true := by
      cases hoff : t.settings.guessAfter with
      | none => simp [guess?, Terms.mayGuess, hoff] at hguess
      | some limit => rfl
    have hqueue : t.settings.synEmptyQueue = false := by
      simpa [hon] using hmixed
    simp only [givesUp, hqueue, Bool.false_and, Bool.not_false, Bool.and_true]
  · rfl

/-- What holds of a connection that is not decided about, and is not lost when others leave, holds
of every connection that the second sweep leaves. -/
theorem holds_of_stays {P : Books → FlowId → Connection → Prop}
    (hvisit : ∀ (b : Books) id con, b.connections.get? id = some con → b.verdict? t id = none →
      P b id con)
    (hkeep : ∀ (b : Books) other d id con, b.verdict? t other = some d → P b id con →
      P (b.apply (.departed d)) id con)
    (hf : b.Filed) (hcon : (b.after (b.released t)).connections.get? id = some con) :
    P (b.after (b.released t)) id con := by
  have hall : ∀ id ∈ b.connections.byAge, ∀ con,
      (b.after (b.departing (verdict? t) b.connections.byAge)).connections.get? id = some con →
        P (b.after (b.departing (verdict? t) b.connections.byAge)) id con := by
    apply departing_settles
      (Q := fun b id => ∀ con, b.connections.get? id = some con → P b id con) _ _ hf
    · intro b id hf con hcon
      obtain ⟨hnone, hget⟩ := verdict?_of_stays hf hcon
      rw [hnone]
      exact hvisit b id con hget hnone
    · intro b other d id _ hd hQ con hcon
      exact hkeep b other d id con hd (hQ con (get?_connections_of_apply hcon))
  have hbefore := (released_drains t hf).connection_before hcon
  exact hall id (mem_byAge_of_get? hbefore) con hcon

/-- After the second sweep no connection that is left finds a guess. -/
theorem guess?_after_released (hf : b.Filed)
    (hcon : (b.after (b.released t)).connections.get? id = some con) :
    (b.after (b.released t)).guess? t id con = none := by
  apply holds_of_stays (P := fun b id con => b.guess? t id con = none) _ _ hf hcon
  · intro b id con hcon hnone
    exact (verdict?_eq_none_iff.mp hnone con hcon).1
  · intro b other d id con _ hguess
    exact guess?_apply hguess d

theorem givesUp_after_released (hf : b.Filed)
    (hmixed : ¬ (t.settings.guessAfter.isSome = true ∧ t.settings.synEmptyQueue = true))
    (hcon : (b.after (b.released t)).connections.get? id = some con) :
    (b.after (b.released t)).givesUp t con = false := by
  apply holds_of_stays (P := fun b _ con => b.givesUp t con = false) _ _ hf hcon
  · intro b id con hcon hnone
    exact (verdict?_eq_none_iff.mp hnone con hcon).2
  · intro b other d id con hd hgives
    rwa [givesUp_apply hmixed hd]

theorem undecided_after_released (hf : b.Filed)
    (hmixed : ¬ (t.settings.guessAfter.isSome = true ∧ t.settings.synEmptyQueue = true))
    (id : FlowId) : (b.after (b.released t)).verdict? t id = none :=
  verdict?_eq_none_iff.mpr fun _ hcon =>
    ⟨guess?_after_released hf hcon, givesUp_after_released hf hmixed hcon⟩

end Books

namespace Session

variable {s : Session} {now : Float} {con : Connection}

/-- A connection is reported without SYN at a moment at which it gives up. -/
theorem givesUp_of_unanswered {before later : List Departure} (h : s.Orderly)
    (hsplit : s.decisions now = before ++ .unanswered con :: later) :
    (s.books.after before).givesUp (s.terms now) con = true := by
  obtain ⟨hmiddle, _⟩ := afterExact_books h now
  have hmoment : ∀ front, before = s.books.paired (s.terms now) ++ front →
      s.afterExact.books.released (s.terms now) = front ++ .unanswered con :: later →
        (s.books.after before).givesUp (s.terms now) con = true := by
    rintro front rfl hreleased
    obtain ⟨id, _, hverdict⟩ := Books.decided_of_departing_eq hreleased
    rw [hmiddle, ← Books.after_append] at hverdict
    obtain ⟨_, _, ⟨_, _, heq⟩ | ⟨_, hgives, heq⟩⟩ := Books.verdict?_eq_some_iff.mp hverdict
    · cases heq
    · cases heq
      exact hgives
  rcases List.append_eq_append_iff.mp hsplit with
    ⟨front, hbefore, hreleased⟩ | ⟨rest, hpaired, hrest⟩
  · exact hmoment front hbefore hreleased
  · cases rest with
    | nil => exact hmoment [] (by simpa using hpaired.symm) (by simpa using hrest.symm)
    | cons d rest =>
        have hd : d ∈ s.books.paired (s.terms now) := by simp [hpaired]
        obtain ⟨_, _, rfl, _⟩ := Books.of_mem_paired h.filed hd
        cases hrest

/-- A matching pass over settled books does nothing. -/
theorem matchPass_of_settled (h : s.Orderly) (hsettled : s.books.Settled (s.terms now)) :
    (s.matchPass now).2 = s := by
  have hexact : ∀ (ids : List FlowId) (report : PassReport),
      (ids.foldl matchExact (s, report)) = (s, report) := by
    intro ids report
    induction ids with
    | nil => rfl
    | cons head tail ih =>
        have hnone := Books.pair?_eq_none_iff.mp (hsettled.apart head)
        have hstep : matchExact (s, report) head = (s, report) := matchExact_eq_of_absent hnone
        rw [List.foldl_cons, hstep, ih]
  have hrest : ∀ (ids : List FlowId) (state : Session × PassReport), state.1 = s →
      (ids.foldl (decideRest now) state).1 = s := by
    intro ids
    induction ids with
    | nil => exact fun _ hstate => hstate
    | cons head tail ih =>
        intro state hstate
        have hnone := hsettled.undecided head
        rw [← hstate] at hnone
        have hstep := decideRest_of_no_verdict (hstate ▸ h) hnone
        exact ih _ (hstep.trans hstate)
  rw [matchPass_eq, exactPass, hexact]
  exact hrest _ _ rfl

/-- Unless guesses empty the queue that other verdicts wait for, a matching pass settles the
books. -/
theorem matchPass_settled (now : Float) (h : s.Orderly)
    (hmixed : ¬ (s.settings.guessAfter.isSome = true ∧ s.settings.synEmptyQueue = true)) :
    (s.matchPass now).2.books.Settled (s.terms now) := by
  obtain ⟨_, _, horderly⟩ := afterExact_books h now
  constructor
  · intro id
    exact Books.pair?_eq_none_iff.mpr (matchPass_parts h now id).symm
  · rw [(matchPass_books h now).1]
    exact Books.undecided_after_released horderly.filed hmixed

/-- A pass reports a connection without SYN only past its age, while no shutdown is on, and where
such verdicts wait for an empty queue, only when no SYN is left. When it ends, then no connection
of that age is left either, unless a shutdown or the queue held it back, and no connection past the
age for a guess is left beside a SYN with its relaxed key. Unless guesses empty the queue that the
other verdicts wait for, another pass at the same time does nothing, in whatever order it comes to
the connections. -/
theorem nothing_left_undecided (h : s.TablesReachable) (now : Float) :
    ∃ ds : List Departure,
      (s.matchPass now).2.books = s.books.after ds ∧
      (∀ before con later, ds = before ++ .unanswered con :: later →
        s.settings.conWait + s.settings.synTimeout < now - con.unixtime ∧
          s.shutdown.graceful = false ∧
          (s.settings.synEmptyQueue = true → (s.books.after before).syns.isEmpty = true)) ∧
      (s.shutdown.graceful = false → s.settings.synEmptyQueue = false →
        ∀ id con, (s.matchPass now).2.connections.get? id = some con →
          ¬ s.settings.conWait + s.settings.synTimeout < now - con.unixtime) ∧
      (∀ limit, s.settings.guessAfter = some limit →
        ∀ id con, (s.matchPass now).2.connections.get? id = some con →
          limit < now - con.unixtime →
          ∀ other syn, (s.matchPass now).2.syns.get? other = some syn →
            other.relaxed ≠ id.relaxed) ∧
      (¬ (s.settings.guessAfter.isSome = true ∧ s.settings.synEmptyQueue = true) →
        ∀ table : ConnectionTable,
          table.entries.Perm (s.matchPass now).2.connections.entries →
          (matchPass now { (s.matchPass now).2 with connections := table }).2 =
            { (s.matchPass now).2 with connections := table }) := by
  obtain ⟨hmiddle, _, horderly⟩ := afterExact_books h.orderly now
  have hbooks := (matchPass_books h.orderly now).1
  refine ⟨_, matchPass_departs h.orderly now, ?_, ?_, ?_, ?_⟩
  · intro before con later hsplit
    obtain ⟨hold, hrest⟩ := Books.of_givesUp (givesUp_of_unanswered h.orderly hsplit)
    exact ⟨of_decide_eq_true hold, hrest⟩
  · intro hopen hqueue id con hcon
    have hmixed : ¬ (s.settings.guessAfter.isSome = true ∧ s.settings.synEmptyQueue = true) := by
      simp [hqueue]
    have hstays : (s.matchPass now).2.books.connections.get? id = some con := hcon
    rw [hbooks] at hstays
    have hgives := Books.givesUp_after_released (t := s.terms now) horderly.filed hmixed hstays
    simpa [Books.givesUp, terms, Terms.isOverdue, hopen, hqueue, Settings.noSynAfter] using hgives
  · intro limit hlimit id con hcon hold other syn hsyn
    have hstays : (s.matchPass now).2.books.connections.get? id = some con := hcon
    have hleft : (s.matchPass now).2.books.syns.get? other = some syn := hsyn
    rw [hbooks] at hstays hleft
    have hguess := Books.guess?_after_released (t := s.terms now) horderly.filed hstays
    refine Books.guess?_eq_none_iff.mp hguess ?_ other syn hleft
    simpa [mayGuess_terms, hlimit] using hold
  · intro hmixed table hperm
    have hget := Table.get?_eq_of_perm hperm
    have hsame := (matchPass_drained now s h.orderly.filed).frame.terms now
    have hend := (matchPass_matches h.orderly now).2
    have hreordered : Orderly { (s.matchPass now).2 with connections := table } := by
      refine ⟨⟨hend.filed.syns, fun id con hcon => hend.filed.connections id con ?_⟩, hend.indexed⟩
      rw [← hcon]
      exact (hget id).symm
    have hsettled := matchPass_settled now h.orderly hmixed
    rw [← hsame] at hsettled
    exact matchPass_of_settled hreordered (hsettled.reordered rfl hget)

/-- A second pass over what the first one leaves of the crowd does nothing. -/
theorem exampleCrowd_settles :
    (matchPass 45.0 (exampleCrowd.matchPass 45.0).2).2 = (exampleCrowd.matchPass 45.0).2 := by
  obtain ⟨_, _, _, _, _, hagain⟩ := nothing_left_undecided tablesReachable_exampleCrowd 45.0
  have hqueue : exampleCrowd.settings.synEmptyQueue = false := by decide +kernel
  exact hagain (by simp [hqueue]) _ (.refl _)

end Session

end FlowVerdict
