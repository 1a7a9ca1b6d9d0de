import FlowVerdict.Proofs.MatchPass

/-!
# The exact pairs of a matching pass

A flow that is pending in both tables is joined before anything is guessed. No departure of another
flow's pair touches it, so the exact pairs of a pass are those of the books that it began with, and
what comes after them finds every flow in one table at most.
-/

namespace FlowVerdict

namespace Books

variable {b : Books} {t : Terms} {ids : List FlowId} {id other : FlowId} {d : Departure}
  {con : Connection} {syn : Syn}

/-- A pair is of one flow. -/
theorem concerns_of_pair? (hf : b.Filed) (hd : b.pair? t other = some d) (id : FlowId) :
    d.concerns id = decide (other = id) := by
  obtain ⟨con, syn, hcon, hsyn, rfl⟩ := pair?_eq_some_iff.mp hd
  have hconId := hf.connections other con hcon
  have hsynId := hf.syns other syn hsyn
  simp [Departure.concerns, Departure.connection?, Departure.syn?, hconId, hsynId]

/-- A pair that leaves is not missed by any other flow. -/
theorem pair?_apply_of_ne (hf : b.Filed) (hd : b.pair? t other = some d) (hne : other ≠ id) :
    (b.apply (.departed d)).pair? t id = b.pair? t id := by
  have hspared := concerns_of_pair? hf hd id
  rw [decide_eq_false hne, Departure.concerns, Bool.or_eq_false_iff] at hspared
  have hcon := get?_connections_apply_departed b d id
  have hsyn := get?_syns_apply_departed b d id
  rw [hspared.1, if_neg Bool.false_ne_true] at hcon
  rw [hspared.2, if_neg Bool.false_ne_true] at hsyn
  rw [pair?, hcon, hsyn, pair?]

/-- A walk over several flows joins those that are pending in both tables when it begins. -/
theorem departing_pair? (hf : b.Filed) (hnodup : ids.Nodup) :
    b.departing (pair? t) ids = ids.filterMap (b.pair? t) := by
  induction ids generalizing b with
  | nil => rfl
  | cons head tail ih =>
      obtain ⟨hhead, htail⟩ := List.nodup_cons.mp hnodup
      rw [departing_cons, List.filterMap_cons]
      cases hd : b.pair? t head with
      | none => exact ih hf htail
      | some d =>
          have hsame : tail.filterMap ((b.apply (.departed d)).pair? t) =
              tail.filterMap (b.pair? t) := by
            apply List.filterMap_congr
            intro id hmem
            have hne : head ≠ id := fun heq => hhead (heq ▸ hmem)
            exact pair?_apply_of_ne hf hd hne
          rw [← hsame, ← ih (hf.apply (.departed d)) htail]
          rfl

theorem paired_eq (hf : b.Filed) : b.paired t = b.connections.byAge.filterMap (b.pair? t) :=
  departing_pair? hf b.nodup_byAge

theorem mem_paired_iff (hf : b.Filed) : d ∈ b.paired t ↔ ∃ id, b.pair? t id = some d := by
  rw [paired_eq hf, List.mem_filterMap]
  constructor
  · rintro ⟨id, _, hd⟩
    exact ⟨id, hd⟩
  · rintro ⟨id, hd⟩
    obtain ⟨con, _, hcon, _⟩ := pair?_eq_some_iff.mp hd
    exact ⟨id, mem_byAge_of_get? hcon, hd⟩

/-- Of a flow that is pending in both tables exactly its pair leaves. -/
theorem filter_paired (hf : b.Filed) (hd : b.pair? t id = some d) :
    (b.paired t).filter (Departure.concerns id) = [d] := by
  obtain ⟨con, _, hcon, _⟩ := pair?_eq_some_iff.mp hd
  obtain ⟨before, after, hsplit, hbefore, hafter⟩ :=
    Session.exists_split_of_mem b.nodup_byAge (mem_byAge_of_get? hcon)
  have hothers : ∀ ids : List FlowId, id ∉ ids →
      (ids.filterMap (b.pair? t)).filter (Departure.concerns id) = [] := by
    intro ids hnot
    refine List.filter_eq_nil_iff.mpr fun e hmem => ?_
    obtain ⟨other, hother, he⟩ := List.mem_filterMap.mp hmem
    have hne : other ≠ id := fun heq => hnot (heq ▸ hother)
    simp [concerns_of_pair? hf he, hne]
  have hown : d.concerns id = true := by simp [concerns_of_pair? hf hd]
  rw [paired_eq hf, hsplit, List.filterMap_append, List.filterMap_cons, hd, List.filter_append,
    hothers before hbefore, List.filter_cons_of_pos hown, hothers after hafter, List.nil_append]

/-- What the exact pairs leave: the SYNs without connection and the connections without SYN. -/
theorem get?_after_paired (hf : b.Filed) (id : FlowId) :
    ((b.after (b.paired t)).syns.get? id =
        if (b.connections.get? id).isSome then none else b.syns.get? id) ∧
      ((b.after (b.paired t)).connections.get? id =
        if (b.syns.get? id).isSome then none else b.connections.get? id) := by
  cases hd : b.pair? t id with
  | some d =>
      have hmem := (mem_paired_iff hf).mpr ⟨id, hd⟩
      obtain ⟨con, syn, hcon, hsyn, rfl⟩ := pair?_eq_some_iff.mp hd
      have hnosyn : (b.after (b.paired t)).syns.get? syn.flowId = none :=
        get?_syns_after_of_mem hmem rfl
      have hnocon : (b.after (b.paired t)).connections.get? con.flowId = none :=
        get?_connections_after_of_mem hmem rfl
      rw [hf.syns id syn hsyn] at hnosyn
      rw [hf.connections id con hcon] at hnocon
      simp [hnosyn, hnocon, hcon, hsyn]
  | none =>
      have hspared : ∀ d ∈ b.paired t, d.concerns id = false := by
        intro d hmem
        obtain ⟨other, hother⟩ := (mem_paired_iff hf).mp hmem
        have hne : other ≠ id := by
          rintro rfl
          rw [hd] at hother
          cases hother
        rw [concerns_of_pair? hf hother, decide_eq_false hne]
      obtain ⟨hsyns, hconnections⟩ := get?_after_of_spared (b := b) hspared
      rw [hsyns, hconnections]
      rcases pair?_eq_none_iff.mp hd with hnone | hnone
      · simp [hnone]
      · simp [hnone]

end Books

namespace Session

variable {s : Session}

/-- When a pass ends, no flow is pending in both tables. -/
theorem matchPass_parts (h : s.Orderly) (now : Float) (id : FlowId) :
    (s.matchPass now).2.syns.get? id = none ∨ (s.matchPass now).2.connections.get? id = none := by
  obtain ⟨hmiddle, _, horderly⟩ := afterExact_books h now
  have hrest := Books.released_drains (s.terms now) horderly.filed
  rw [← (matchPass_books h now).1] at hrest
  obtain ⟨hsyns, hconnections⟩ := Books.get?_after_paired (t := s.terms now) h.filed id
  rw [← hmiddle] at hsyns hconnections
  cases hcon : s.books.connections.get? id with
  | none =>
      rw [hcon, ite_self] at hconnections
      exact .inr (hrest.get?_connections_eq_none hconnections)
  | some con =>
      rw [if_pos (Option.isSome_of_eq_some hcon)] at hsyns
      exact .inl (hrest.get?_syns_eq_none hsyns)

/-- The two records of every flow that is pending in both tables are joined, and nothing else that
the pass lets leave, a guess above all, takes one of them. The pass counts these pairs and no other
ones, and when it ends no flow is pending in both tables. -/
theorem exact_pairs_win (h : s.TablesReachable) (now : Float) :
    ∃ pairs others : List Departure,
      (s.matchPass now).2.emissions.map Emission.event =
        s.emissions.map Emission.event ++ (pairs ++ others).map Departure.event ∧
      (∀ id con syn, s.connections.get? id = some con → s.syns.get? id = some syn →
        pairs.filter (Departure.concerns id) =
            [.joined con syn (s.settings.guessAfter.map fun _ => false)] ∧
          others.filter (Departure.concerns id) = []) ∧
      (∀ d ∈ pairs, ∃ id con syn, s.connections.get? id = some con ∧ s.syns.get? id = some syn ∧
        d = .joined con syn (s.settings.guessAfter.map fun _ => false)) ∧
      (∀ d ∈ others, (∃ con syn, d = .joined con syn (some true)) ∨ ∃ con, d = .unanswered con) ∧
      (s.matchPass now).1.exact = pairs.length ∧
      ∀ id, (s.matchPass now).2.syns.get? id = none ∨
        (s.matchPass now).2.connections.get? id = none := by
  have hf := h.orderly.filed
  obtain ⟨hmiddle, _, horderly⟩ := afterExact_books h.orderly now
  have hparted := Books.get?_after_paired (t := s.terms now) hf
  rw [← hmiddle] at hparted
  obtain ⟨hbooks, hexact⟩ := matchPass_books h.orderly now
  have hrest := Books.released_drains (s.terms now) horderly.filed
  rw [← hbooks] at hrest
  refine ⟨s.books.paired (s.terms now), s.afterExact.books.released (s.terms now), ?_, ?_, ?_,
    ?_, hexact, matchPass_parts h.orderly now⟩
  · exact events_matchPass h.orderly now
  · intro id con syn hcon hsyn
    have hcon : s.books.connections.get? id = some con := hcon
    have hsyn : s.books.syns.get? id = some syn := hsyn
    have hpair : s.books.pair? (s.terms now) id = some _ :=
      Books.pair?_eq_some_iff.mpr ⟨con, syn, hcon, hsyn, rfl⟩
    obtain ⟨hnosyn, hnocon⟩ := hparted id
    rw [if_pos (Option.isSome_of_eq_some hcon)] at hnosyn
    rw [if_pos (Option.isSome_of_eq_some hsyn)] at hnocon
    have hnone := filter_departures_eq_nil (hrest.not_concerns hnosyn hnocon)
    rw [Books.departures_map] at hnone
    exact ⟨Books.filter_paired hf hpair, hnone⟩
  · intro d hd
    obtain ⟨id, hpair⟩ := (Books.mem_paired_iff hf).mp hd
    obtain ⟨con, syn, hcon, hsyn, heq⟩ := Books.pair?_eq_some_iff.mp hpair
    exact ⟨id, con, syn, hcon, hsyn, heq⟩
  · intro d hd
    exact (Books.of_mem_released horderly.filed hd).imp (fun ⟨con, syn, heq, _⟩ => ⟨con, syn, heq⟩)
      fun ⟨con, heq, _⟩ => ⟨con, heq⟩

/-- The young pair is joined, although the old connection could have taken its SYN. -/
theorem exampleCrowd_joins_pair :
    ∃ con syn,
      exampleCrowd.connections.get? ⟨"10.0.0.1_80+40001"⟩ = some con ∧
      exampleCrowd.syns.get? ⟨"10.0.0.1_80+40001"⟩ = some syn ∧
      ∃ pairs others : List Departure,
        (exampleCrowd.matchPass 45.0).2.emissions.map Emission.event =
          exampleCrowd.emissions.map Emission.event ++ (pairs ++ others).map Departure.event ∧
        pairs.filter (Departure.concerns ⟨"10.0.0.1_80+40001"⟩) =
          [.joined con syn (some false)] ∧
        others.filter (Departure.concerns ⟨"10.0.0.1_80+40001"⟩) = [] := by
  have hcon : (exampleCrowd.connections.get? ⟨"10.0.0.1_80+40001"⟩).isSome := by decide +kernel
  have hsyn : (exampleCrowd.syns.get? ⟨"10.0.0.1_80+40001"⟩).isSome := by decide +kernel
  obtain ⟨con, hcon⟩ := Option.isSome_iff_exists.mp hcon
  obtain ⟨syn, hsyn⟩ := Option.isSome_iff_exists.mp hsyn
  obtain ⟨pairs, others, hevents, hpairs, _⟩ :=
    exact_pairs_win tablesReachable_exampleCrowd 45.0
  rw [guessAfter_exampleCrowd] at hpairs
  exact ⟨con, syn, hcon, hsyn, pairs, others, hevents, hpairs _ con syn hcon hsyn⟩

end Session

end FlowVerdict
