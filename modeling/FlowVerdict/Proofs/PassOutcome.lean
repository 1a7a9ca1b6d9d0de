import FlowVerdict.Proofs.MatchPass

/-!
# The outcome of a matching pass

Of a matching pass the report and the SYNs that are left can be told without the records of the
connections: each connection counts with its flow and its age alone. A step of the pass is a step on
this outcome, and steps for equally old connections can change places, unless the pass guesses and
also holds verdicts back until no SYN is pending.
-/

namespace FlowVerdict

/-- Erasing a flow with another key does not change which SYN is the eldest of a key. -/
theorem eldest?_erase_of_ne {t : Table FlowId Syn} {id : FlowId} {key : RelaxedKey}
    (h : id.relaxed ≠ key) : eldest? (t.erase id) key = eldest? t key := by
  have hsame : (t.erase id).entries.filter (fun entry => entry.1.relaxed = key) =
      t.entries.filter fun entry => entry.1.relaxed = key := by
    rw [Table.erase, List.filter_filter]
    refine List.filter_congr fun entry _ => ?_
    by_cases hkey : entry.1.relaxed = key
    · have hne : entry.1 ≠ id := fun heq => h (heq ▸ hkey)
      simp [hkey, hne]
    · simp [hkey]
  rw [eldest?, hsame, eldest?]

theorem relaxed_of_eldest? {t : Table FlowId Syn} {key : RelaxedKey} {found : FlowId × Syn}
    (h : eldest? t key = some found) : found.1.relaxed = key :=
  (eldest?_eq_some_iff.mp h).2.1

/-- What is said of a pass whatever the order of its visits: the SYNs that are left, and the
report. -/
structure PassOutcome where
  syns : Table FlowId Syn
  report : PassReport

namespace PassOutcome

variable {o : PassOutcome} {t : Terms} {x y : FlowId × Connection}

def pair (o : PassOutcome) (id : FlowId) : PassOutcome :=
  if o.syns.contains id then
    { syns := o.syns.erase id, report := { o.report with exact := o.report.exact + 1 } }
  else o

def take (o : PassOutcome) (id : FlowId) : PassOutcome where
  syns := o.syns.erase id
  report := { o.report with guessed := o.report.guessed + 1 }

/-- The outcome when a connection gets no SYN, and gives up or stays. -/
def unmatched (o : PassOutcome) (givesUp : Bool) : PassOutcome where
  syns := o.syns
  report :=
    if givesUp then { o.report with noSyn := o.report.noSyn + 1 }
    else { o.report with pending := o.report.pending + 1 }

def guess? (t : Terms) (o : PassOutcome) (x : FlowId × Connection) : Option (FlowId × Syn) :=
  if t.mayGuess x.2 then eldest? o.syns x.1.relaxed else none

def givesUp (t : Terms) (o : PassOutcome) (x : FlowId × Connection) : Bool :=
  !t.closing && !(t.settings.synEmptyQueue && !o.syns.isEmpty) && t.isOverdue x.2

/-- The outcome when it is decided about a connection that has no SYN of its own. -/
def decided (t : Terms) (o : PassOutcome) (x : FlowId × Connection) : PassOutcome :=
  match o.guess? t x with
  | some found => o.take found.1
  | none => o.unmatched (o.givesUp t x)

theorem pair_comm (o : PassOutcome) (id id' : FlowId) :
    (o.pair id).pair id' = (o.pair id').pair id := by
  have hcontains : ∀ k k' : FlowId, k ≠ k' → (o.syns.erase k).contains k' = o.syns.contains k' := by
    intro k k' hne
    rw [Table.contains_eq_isSome, Table.contains_eq_isSome, Table.get?_erase, if_neg hne.symm]
  by_cases heq : id = id'
  · rw [heq]
  · cases hfirst : o.syns.contains id with
    | false =>
        cases hsecond : o.syns.contains id' with
        | false => simp [pair, hfirst, hsecond]
        | true => simp [pair, hfirst, hsecond, hcontains id' id (Ne.symm heq)]
    | true =>
        cases hsecond : o.syns.contains id' with
        | false => simp [pair, hfirst, hsecond, hcontains id id' heq]
        | true =>
            simp [pair, hfirst, hsecond, hcontains id id' heq, hcontains id' id (Ne.symm heq),
              Table.erase_comm o.syns id id']

theorem decided_of_guess {found : FlowId × Syn} (h : o.guess? t x = some found) :
    o.decided t x = o.take found.1 := by
  rw [decided, h]

theorem decided_of_no_guess (h : o.guess? t x = none) :
    o.decided t x = o.unmatched (o.givesUp t x) := by
  rw [decided, h]

/-- A guess for a connection spares the SYNs of other keys. -/
theorem guess?_take {found : FlowId × Syn} (h : o.guess? t x = some found)
    (hkey : x.1.relaxed ≠ y.1.relaxed) : (o.take found.1).guess? t y = o.guess? t y := by
  rw [guess?] at h
  split at h
  · have hne : found.1.relaxed ≠ y.1.relaxed := by rwa [relaxed_of_eldest? h]
    rw [guess?, guess?, take, eldest?_erase_of_ne hne]
  · cases h

/-- Where SYNs are guessed and no verdict is held back, giving up has nothing to do with SYNs. -/
theorem givesUp_take {found : FlowId × Syn}
    (hmode : ¬ (t.settings.guessAfter.isSome = true ∧ t.settings.synEmptyQueue = true))
    (h : o.guess? t x = some found) (y : FlowId × Connection) :
    (o.take found.1).givesUp t y = o.givesUp t y := by
  rw [guess?] at h
  split at h
  · next hmay =>
      obtain ⟨limit, hlimit, _⟩ := (Option.any_eq_true _ _).mp hmay
      have hqueue : t.settings.synEmptyQueue = false := by
        simpa [hlimit] using hmode
      simp only [givesUp, hqueue, Bool.false_and]
  · cases h

theorem take_comm (o : PassOutcome) (id id' : FlowId) :
    (o.take id).take id' = (o.take id').take id := by
  simp only [take, Table.erase_comm o.syns id id']

theorem unmatched_comm (o : PassOutcome) (a b : Bool) :
    (o.unmatched a).unmatched b = (o.unmatched b).unmatched a := by
  cases a <;> cases b <;> rfl

theorem unmatched_take (o : PassOutcome) (a : Bool) (id : FlowId) :
    (o.unmatched a).take id = (o.take id).unmatched a := by
  cases a <;> rfl

/-- Connections of one age and one relaxed key are alike. -/
theorem decided_congr (hage : x.2.unixtime = y.2.unixtime) (hkey : x.1.relaxed = y.1.relaxed)
    (t : Terms) (o : PassOutcome) : o.decided t x = o.decided t y := by
  have hmay : t.mayGuess x.2 = t.mayGuess y.2 := by rw [Terms.mayGuess, hage, Terms.mayGuess]
  have hold : t.isOverdue x.2 = t.isOverdue y.2 := by rw [Terms.isOverdue, hage, Terms.isOverdue]
  simp only [decided, guess?, givesUp, hmay, hold, hkey]

/-- Unless the pass both guesses and holds verdicts back, two connections of one age can be decided
about in any order. -/
theorem decided_comm
    (hmode : ¬ (t.settings.guessAfter.isSome = true ∧ t.settings.synEmptyQueue = true))
    (hage : x.2.unixtime = y.2.unixtime) (o : PassOutcome) :
    (o.decided t x).decided t y = (o.decided t y).decided t x := by
  by_cases hkey : x.1.relaxed = y.1.relaxed
  · rw [decided_congr hage hkey t o, decided_congr hage hkey]
  have hspares : ∀ (z : FlowId × Connection) (b : Bool),
      (o.unmatched b).guess? t z = o.guess? t z ∧ (o.unmatched b).givesUp t z = o.givesUp t z :=
    fun z b => ⟨rfl, rfl⟩
  cases hx : o.guess? t x with
  | none =>
      rw [decided_of_no_guess hx]
      cases hy : o.guess? t y with
      | none =>
          rw [decided_of_no_guess hy, decided_of_no_guess ((hspares y _).1.trans hy),
            decided_of_no_guess ((hspares x _).1.trans hx), (hspares y _).2, (hspares x _).2,
            unmatched_comm]
      | some found =>
          rw [decided_of_guess hy, decided_of_guess ((hspares y _).1.trans hy),
            decided_of_no_guess ((guess?_take hy (Ne.symm hkey)).trans hx), givesUp_take hmode hy,
            unmatched_take]
  | some found =>
      rw [decided_of_guess hx]
      cases hy : o.guess? t y with
      | none =>
          rw [decided_of_no_guess hy, decided_of_guess ((hspares x _).1.trans hx),
            decided_of_no_guess ((guess?_take hx hkey).trans hy), givesUp_take hmode hx,
            unmatched_take]
      | some other =>
          rw [decided_of_guess hy, decided_of_guess ((guess?_take hx hkey).trans hy),
            decided_of_guess ((guess?_take hy (Ne.symm hkey)).trans hx), take_comm]

end PassOutcome

namespace Session

variable {s : Session} {state : Session × PassReport} {now : Float} {id : FlowId}
  {con : Connection}

/-- What a pass under way has come to, whatever the order of its visits. -/
def outcome (state : Session × PassReport) : PassOutcome where
  syns := state.1.syns.records
  report := state.2

theorem outcome_matchExact (hcon : state.1.connections.get? id = some con) :
    outcome (matchExact state id) = (outcome state).pair id := by
  obtain ⟨s, report⟩ := state
  have hcon : s.connections.get? id = some con := hcon
  have hcontains : s.syns.records.contains id = (s.syns.get? id).isSome :=
    s.syns.records.contains_eq_isSome id
  cases hsyn : s.syns.get? id with
  | none =>
      rw [matchExact_eq_of_absent (.inr hsyn), PassOutcome.pair]
      simp [outcome, hcontains, hsyn]
  | some syn =>
      obtain ⟨rest, htake, hrecords⟩ := SynTable.take?_of_get? hsyn
      simp [matchExact, hcon, htake, PassOutcome.pair, outcome, emit_syns, hrecords, hcontains,
        hsyn]

/-- The connections lose the flow that is visited, if it has a SYN. -/
theorem get?_connections_matchExact (state : Session × PassReport) (id other : FlowId) :
    (matchExact state id).1.connections.get? other =
      if other = id ∧ (state.1.syns.get? id).isSome then none
      else state.1.connections.get? other := by
  obtain ⟨s, report⟩ := state
  cases hcon : s.connections.get? id with
  | none =>
      rw [matchExact_eq_of_absent (.inl hcon)]
      split
      · next h => rw [h.1, hcon]
      · rfl
  | some con =>
      cases hsyn : s.syns.get? id with
      | none =>
          rw [matchExact_eq_of_absent (.inr hsyn)]
          simp
      | some syn =>
          obtain ⟨rest, htake, _⟩ := SynTable.take?_of_get? hsyn
          simp [matchExact, hcon, htake, emit_connections, Table.get?_erase]

/-- The SYNs lose the flow that is visited, if it has a connection. -/
theorem get?_syns_matchExact (state : Session × PassReport) (id other : FlowId) :
    (matchExact state id).1.syns.get? other =
      if other = id ∧ (state.1.connections.get? id).isSome then none
      else state.1.syns.get? other := by
  obtain ⟨s, report⟩ := state
  cases hsyn : s.syns.get? id with
  | none =>
      rw [matchExact_eq_of_absent (.inr hsyn)]
      split
      · next h => rw [h.1, hsyn]
      · rfl
  | some syn =>
      cases hcon : s.connections.get? id with
      | none =>
          rw [matchExact_eq_of_absent (.inl hcon)]
          simp
      | some con =>
          obtain ⟨rest, htake, hrecords⟩ := SynTable.take?_of_get? hsyn
          simp [matchExact, hcon, htake, emit_syns, SynTable.get?, hrecords, Table.get?_erase]

theorem get?_connections_foldl_matchExact (ids : List FlowId) (state : Session × PassReport)
    (other : FlowId) : (ids.foldl matchExact state).1.connections.get? other =
      if other ∈ ids ∧ (state.1.syns.get? other).isSome then none
      else state.1.connections.get? other := by
  induction ids generalizing state with
  | nil => simp
  | cons first rest ih =>
      rw [List.foldl_cons, ih, get?_connections_matchExact, get?_syns_matchExact]
      by_cases heq : other = first
      · subst heq
        cases state.1.syns.get? other <;> cases state.1.connections.get? other <;> simp
      · simp [heq]

theorem foldl_matchExact_keeps (h : state.1.syns.Indexed) (ids : List FlowId) :
    state.1.Frame (ids.foldl matchExact state).1 ∧
      (ids.foldl matchExact state).1.syns.Indexed := by
  induction ids generalizing state with
  | nil => exact ⟨.refl _, h⟩
  | cons first rest ih =>
      have hvisit := matchExact_visits state.1 state.2 first
      obtain ⟨hframe, hindexed⟩ := ih (hvisit.indexed h)
      exact ⟨hvisit.frame.trans hframe, hindexed⟩

theorem outcome_foldl_matchExact {ids : List FlowId} (hnodup : ids.Nodup)
    (state : Session × PassReport)
    (hpending : ∀ id ∈ ids, ∃ con, state.1.connections.get? id = some con) :
    outcome (ids.foldl matchExact state) = ids.foldl PassOutcome.pair (outcome state) := by
  induction ids generalizing state with
  | nil => rfl
  | cons first rest ih =>
      obtain ⟨hfirst, hrest⟩ := List.nodup_cons.mp hnodup
      obtain ⟨⟨con, hcon⟩, hpending⟩ := List.forall_mem_cons.mp hpending
      rw [List.foldl_cons, List.foldl_cons, ← outcome_matchExact hcon]
      refine ih hrest _ fun id hmem => ?_
      have hne : id ≠ first := fun heq => hfirst (heq ▸ hmem)
      rw [get?_connections_matchExact, if_neg fun h => hne h.1]
      exact hpending id hmem

theorem outcome_decideRest (h : state.1.syns.Indexed)
    (hcon : state.1.connections.get? id = some con) :
    outcome (decideRest now state id) = (outcome state).decided (state.1.terms now) (id, con) := by
  obtain ⟨s, report⟩ := state
  have hcon : s.connections.get? id = some con := hcon
  have heldest : _ = ((outcome (s, report)).guess? (s.terms now) (id, con)).map _ :=
    guess?_eq_eldest h now id con
  cases hguess : s.guess? now id con with
  | none =>
      rw [hguess, Option.map_none, eq_comm, Option.map_eq_none_iff] at heldest
      have hgives : (outcome (s, report)).givesUp (s.terms now) (id, con) = s.lacksSyn now con :=
        rfl
      rw [PassOutcome.decided_of_no_guess heldest, hgives]
      cases hlacks : s.lacksSyn now con with
      | true => simp [decideRest, hcon, hguess, hlacks, outcome, emit_syns, PassOutcome.unmatched]
      | false => simp [decideRest, hcon, hguess, hlacks, outcome, PassOutcome.unmatched]
  | some taken =>
      rw [hguess, Option.map_some, eq_comm, Option.map_eq_some_iff] at heldest
      obtain ⟨⟨other, syn⟩, hfound, htaken⟩ := heldest
      obtain ⟨rfl, hrecords⟩ := Prod.mk.inj htaken
      rw [PassOutcome.decided_of_guess hfound]
      simp [decideRest, hcon, hguess, outcome, emit_syns, PassOutcome.take, hrecords]

theorem foldl_decideRest_keeps (h : state.1.syns.Indexed) (now : Float) (ids : List FlowId) :
    (ids.foldl (decideRest now) state).1.syns.Indexed := by
  induction ids generalizing state with
  | nil => exact h
  | cons first rest ih => exact ih ((decideRest_visits now state.1 state.2 first).indexed h)

theorem outcome_foldl_decideRest {entries : List (FlowId × Connection)}
    (hnodup : (entries.map Prod.fst).Nodup) (state : Session × PassReport)
    (hindexed : state.1.syns.Indexed)
    (hpending : ∀ x ∈ entries, state.1.connections.get? x.1 = some x.2) :
    outcome ((entries.map Prod.fst).foldl (decideRest now) state) =
      entries.foldl (PassOutcome.decided (state.1.terms now)) (outcome state) := by
  induction entries generalizing state with
  | nil => rfl
  | cons first rest ih =>
      rw [List.map_cons, List.nodup_cons] at hnodup
      obtain ⟨hfirst, hrest⟩ := List.forall_mem_cons.mp hpending
      have hvisit := decideRest_visits now state.1 state.2 first.1
      have hterms := hvisit.frame.terms now
      rw [List.map_cons, List.foldl_cons, List.foldl_cons,
        ← outcome_decideRest hindexed hfirst, ← hterms]
      refine ih hnodup.2 _ (hvisit.indexed hindexed) fun x hmem => ?_
      have hne : x.1 ≠ first.1 := fun heq => hnodup.1 (heq ▸ List.mem_map_of_mem hmem)
      rw [hvisit.get?_connections_of_ne hne]
      exact hrest x hmem

/-- The outcome of a pass: of the exact pairs first, and then of the other connections by age. -/
theorem outcome_matchPass (h : s.syns.Indexed) (now : Float) :
    outcome ((s.matchPass now).2, (s.matchPass now).1) =
      (entriesByAge s.exactPass.1.connections).foldl (PassOutcome.decided (s.terms now))
        (outcome s.exactPass) := by
  have hstart : (s, ({} : PassReport)).1.syns.Indexed := h
  obtain ⟨hframe, hindexed⟩ := foldl_matchExact_keeps hstart s.connections.byAge
  have hperm := entriesByAge_perm s.exactPass.1.connections
  have hnodup := (hperm.map Prod.fst).nodup_iff.mpr s.exactPass.1.connections.nodup
  rw [matchPass_eq_foldl, byAge_eq, outcome_foldl_decideRest hnodup s.exactPass hindexed
    fun x hmem => Table.mem_entries_iff.mp (hperm.mem_iff.mp hmem), ← hframe.terms now]
  rfl

theorem indexed_matchPass (h : s.syns.Indexed) (now : Float) :
    (s.matchPass now).2.syns.Indexed := by
  have hstart : (s, ({} : PassReport)).1.syns.Indexed := h
  have hindexed := (foldl_matchExact_keeps hstart s.connections.byAge).2
  exact foldl_decideRest_keeps hindexed now s.exactPass.1.connections.byAge

end Session

end FlowVerdict
