import FlowVerdict.Proofs.PassOutcome
import Mathlib.Data.List.Sort

/-!
# The order of equally old connections

A matching pass takes connections by age, and equally old ones as they come in the table. Which SYN
a connection gets may depend on that; how many are joined, and which SYNs are left, does not, since
equally old connections with one relaxed key are alike to the pass and those with different keys do
not meet. Only a pass that guesses, and also holds verdicts back until no SYN is pending, can tell.
-/

namespace FlowVerdict

/-- A walk in the order of ranks does not depend on the order of equal ranks, if any two steps of
one rank may change places. -/
theorem foldl_eq_of_sorted_perm {α β : Type} {rank : α → Int} {f : β → α → β} {l l' : List α}
    (hperm : l.Perm l') (hl : l.Pairwise fun x y => rank x ≤ rank y)
    (hl' : l'.Pairwise fun x y => rank x ≤ rank y)
    (hcomm : ∀ x y, rank x = rank y → ∀ b, f (f b x) y = f (f b y) x) (b : β) :
    l.foldl f b = l'.foldl f b := by
  induction l generalizing l' b with
  | nil => rw [List.nil_perm.mp hperm]
  | cons first rest ih =>
      obtain ⟨before, after, rfl⟩ := List.append_of_mem (hperm.mem_iff.mp List.mem_cons_self)
      obtain ⟨hleast, hrest⟩ := List.pairwise_cons.mp hl
      obtain ⟨_, _, hcross⟩ := List.pairwise_append.mp hl'
      have hperm' : rest.Perm (before ++ after) := (hperm.trans List.perm_middle).cons_inv
      -- what the other list has before its copy of the first element is of the same rank
      have htie : ∀ x ∈ first :: before, rank x = rank first := by
        refine List.forall_mem_cons.mpr ⟨rfl, fun x hx => ?_⟩
        have hmem : x ∈ rest := hperm'.mem_iff.mpr (List.mem_append_left after hx)
        exact Int.le_antisymm (hcross x hx first List.mem_cons_self) (hleast x hmem)
      have hfront : (before ++ [first]).foldl f b = (first :: before).foldl f b :=
        (List.perm_append_singleton first before).foldl_eq' (fun x hx y hy b => by
          have hx := (List.perm_append_singleton first before).mem_iff.mp hx
          have hy := (List.perm_append_singleton first before).mem_iff.mp hy
          exact hcomm x y ((htie x hx).trans (htie y hy).symm) b) b
      have hsorted : (before ++ after).Pairwise fun x y => rank x ≤ rank y :=
        hl'.sublist ((List.sublist_cons_self first after).append_left before)
      calc (first :: rest).foldl f b = (before ++ after).foldl f (f b first) :=
            ih hperm' hrest hsorted (f b first)
        _ = after.foldl f ((first :: before).foldl f b) := by rw [List.foldl_append]; rfl
        _ = (before ++ first :: after).foldl f b := by
            rw [← hfront, ← List.foldl_append, List.append_assoc]
            rfl

def Table.reversed {κ α : Type} (t : Table κ α) : Table κ α where
  entries := t.entries.reverse
  nodup := by
    rw [List.map_reverse, List.nodup_reverse]
    exact t.nodup

/-- Tables with the same answers have the same entries. -/
theorem Table.perm_of_get? {κ α : Type} [DecidableEq κ] {t t' : Table κ α}
    (h : ∀ k, t'.get? k = t.get? k) : t'.entries.Perm t.entries := by
  refine (List.perm_ext_iff_of_nodup (t'.nodup.of_map _) (t.nodup.of_map _)).mpr ?_
  rintro ⟨k, v⟩
  rw [mem_entries_iff, mem_entries_iff, h]

/-- An index in step answers with the flows that it names, if there are any. -/
theorem SynTable.Indexed.get?_index {t : SynTable} (h : t.Indexed) (key : RelaxedKey) :
    t.index.get? key =
      if flowsOf t.index key = [] then none else some (flowsOf t.index key) := by
  have hfull := h.no_empty key
  rw [flowsOf]
  cases hget : t.index.get? key with
  | none => simp
  | some ids =>
      have hids : ids ≠ [] := fun hnil => hfull (by rw [hget, hnil])
      simp [hids]

/-- Indexes in step with the same SYNs answer alike. -/
theorem SynTable.Indexed.get?_index_eq {t t' : SynTable} (h : t.Indexed) (h' : t'.Indexed)
    (hget : ∀ id, t'.get? id = t.get? id) (key : RelaxedKey) :
    t'.index.get? key = t.index.get? key := by
  have hmem : ∀ id, id ∈ flowsOf t'.index key ↔ id ∈ flowsOf t.index key := by
    intro id
    rw [h.mem_iff, h'.mem_iff, hget]
  have hperm : (flowsOf t'.index key).Perm (flowsOf t.index key) :=
    (List.perm_ext_iff_of_nodup (h'.ordered key).nodup (h.ordered key).nodup).mpr hmem
  have hflows : flowsOf t'.index key = flowsOf t.index key := by
    refine hperm.eq_of_pairwise ?_ (h'.ordered key) (h.ordered key)
    intro a b _ _ hab hba
    exact absurd (String.lt_trans hab hba) (String.lt_irrefl a.text)
  rw [h'.get?_index, h.get?_index, hflows]

namespace Session

variable {s s' : Session} {state state' : Session × PassReport} {now : Float} {id : FlowId}

/-- Two sessions that differ in the order of their connections at most. -/
structure Reordered (s s' : Session) : Prop where
  perm : s'.connections.entries.Perm s.connections.entries
  rest : s' = { s with connections := s'.connections }

theorem Reordered.of_perm {table : ConnectionTable}
    (h : table.entries.Perm s.connections.entries) :
    s.Reordered { s with connections := table } :=
  ⟨h, rfl⟩

theorem Reordered.emit (h : s.Reordered s') (e : Event) : (s.emit e).Reordered (s'.emit e) := by
  obtain ⟨hperm, hrest⟩ := h
  constructor
  · rwa [emit_connections, emit_connections]
  · rw [hrest]
    unfold Session.emit
    dsimp only
    split <;> rfl

theorem Reordered.matchExact (h : s.Reordered s') (report : PassReport) (id : FlowId) :
    (matchExact (s, report) id).1.Reordered (matchExact (s', report) id).1 ∧
      (matchExact (s', report) id).2 = (matchExact (s, report) id).2 := by
  obtain ⟨hperm, hrest⟩ := h
  have hget := Table.get?_eq_of_perm hperm id
  have hsyns : s'.syns = s.syns := by rw [hrest]
  have hsettings : s'.settings = s.settings := by rw [hrest]
  simp only [Session.matchExact, hget, hsyns, hsettings]
  split
  · refine ⟨.emit ⟨Table.perm_erase hperm id, ?_⟩ _, rfl⟩
    rw [hrest]
  · exact ⟨⟨hperm, hrest⟩, rfl⟩

theorem Reordered.decideRest (now : Float) (h : s.Reordered s') (report : PassReport)
    (id : FlowId) :
    (decideRest now (s, report) id).1.Reordered (decideRest now (s', report) id).1 ∧
      (decideRest now (s', report) id).2 = (decideRest now (s, report) id).2 := by
  obtain ⟨hperm, hrest⟩ := h
  have hget := Table.get?_eq_of_perm hperm id
  have hguess : ∀ con, s'.guess? now id con = s.guess? now id con := by
    rw [hrest]
    exact fun con => rfl
  have hlacks : ∀ con, s'.lacksSyn now con = s.lacksSyn now con := by
    rw [hrest]
    exact fun con => rfl
  simp only [Session.decideRest, hget, hguess, hlacks]
  split
  · exact ⟨⟨hperm, hrest⟩, rfl⟩
  · split
    · refine ⟨.emit ⟨Table.perm_erase hperm id, ?_⟩ _, rfl⟩
      rw [hrest]
    · split
      · refine ⟨.emit ⟨Table.perm_erase hperm id, ?_⟩ _, rfl⟩
        rw [hrest]
      · exact ⟨⟨hperm, hrest⟩, rfl⟩

/-- A walk over the same flows keeps the sessions alike. -/
theorem Reordered.foldl {f : Session × PassReport → FlowId → Session × PassReport}
    (hstep : ∀ {s s' : Session}, s.Reordered s' → ∀ report id,
      (f (s, report) id).1.Reordered (f (s', report) id).1 ∧
        (f (s', report) id).2 = (f (s, report) id).2)
    (ids : List FlowId) (h : state.1.Reordered state'.1) (hreport : state'.2 = state.2) :
    (ids.foldl f state).1.Reordered (ids.foldl f state').1 ∧
      (ids.foldl f state').2 = (ids.foldl f state).2 := by
  induction ids generalizing state state' with
  | nil => exact ⟨h, hreport⟩
  | cons first rest ih =>
      obtain ⟨s, report⟩ := state
      obtain ⟨s', report'⟩ := state'
      obtain rfl : report' = report := hreport
      obtain ⟨hfirst, hsame⟩ := hstep h report' first
      exact ih hfirst hsame

def DistinctTimes (t : ConnectionTable) : Prop :=
  ∀ id con id' con', t.get? id = some con → t.get? id' = some con' →
    Timestamp.rank con.unixtime = Timestamp.rank con'.unixtime → id = id'

/-- Where no two connections are equally old, there is one order of visits. -/
theorem DistinctTimes.byAge_eq {t t' : ConnectionTable} (h : DistinctTimes t)
    (hperm : t'.entries.Perm t.entries) : t'.byAge = t.byAge := by
  have hsame : (entriesByAge t').Perm (entriesByAge t) :=
    ((entriesByAge_perm t').trans hperm).trans (entriesByAge_perm t).symm
  rw [Session.byAge_eq, Session.byAge_eq]
  refine congrArg _ (hsame.eq_of_pairwise ?_ (sorted_entriesByAge t') (sorted_entriesByAge t))
  rintro ⟨id, con⟩ ⟨id', con'⟩ hmem hmem' hle hle'
  have hget := Table.mem_entries_iff.mp
    ((entriesByAge_perm t).mem_iff.mp (hsame.mem_iff.mp hmem))
  have hget' := Table.mem_entries_iff.mp ((entriesByAge_perm t).mem_iff.mp hmem')
  obtain rfl := h id con id' con' hget hget' (Int.le_antisymm hle hle')
  rw [Option.some.inj (hget.symm.trans hget')]

/-- Whatever the order, the same flows leave in exact pairs. -/
theorem Reordered.exactPass (h : s.Reordered s') :
    outcome s'.exactPass = outcome s.exactPass ∧
      s'.exactPass.1.connections.entries.Perm s.exactPass.1.connections.entries := by
  have hids : s'.connections.byAge.Perm s.connections.byAge :=
    ((byAge_perm _).trans (h.perm.map Prod.fst)).trans (byAge_perm _).symm
  have hnodup : ∀ u : Session, u.connections.byAge.Nodup := fun u =>
    (byAge_perm u.connections).nodup_iff.mpr u.connections.nodup_keys
  have hpending : ∀ u : Session, ∀ id ∈ u.connections.byAge,
      ∃ con, u.connections.get? id = some con := fun u id hmem =>
    Table.mem_keys_iff.mp ((byAge_perm u.connections).mem_iff.mp hmem)
  have hsyns : s'.syns = s.syns := by rw [h.rest]
  have hstart : outcome (s', {}) = outcome (s, {}) := by rw [outcome, outcome, hsyns]
  constructor
  · rw [Session.exactPass, Session.exactPass,
      outcome_foldl_matchExact (hnodup s') (s', {}) (hpending s'),
      outcome_foldl_matchExact (hnodup s) (s, {}) (hpending s), hstart]
    exact hids.foldl_eq' (fun id _ id' _ o => o.pair_comm id id') _
  · refine Table.perm_of_get? fun id => ?_
    rw [Session.exactPass, Session.exactPass, get?_connections_foldl_matchExact,
      get?_connections_foldl_matchExact, hsyns, Table.get?_eq_of_perm h.perm]
    simp only [hids.mem_iff]

/-- Unless a pass both guesses and holds verdicts back, its outcome is the same for every order. -/
theorem Reordered.outcome_matchPass (h : s.Reordered s') (hindexed : s.syns.Indexed)
    (hmode : ¬ (s.settings.guessAfter.isSome = true ∧ s.settings.synEmptyQueue = true))
    (now : Float) : outcome ((s'.matchPass now).2, (s'.matchPass now).1) =
      outcome ((s.matchPass now).2, (s.matchPass now).1) := by
  obtain ⟨hsame, hperm⟩ := h.exactPass
  have hindexed' : s'.syns.Indexed := by rwa [h.rest]
  have hterms : s'.terms now = s.terms now := by rw [h.rest, terms, terms]
  rw [Session.outcome_matchPass hindexed', Session.outcome_matchPass hindexed, hsame, hterms]
  refine foldl_eq_of_sorted_perm ?_ (sorted_entriesByAge _) (sorted_entriesByAge _) ?_ _
  · exact ((entriesByAge_perm _).trans hperm).trans (entriesByAge_perm _).symm
  · intro x y hrank o
    exact PassOutcome.decided_comm hmode (Timestamp.rank_inj hrank) o

/-- Without equally old connections, a pass does the same to two sessions that differ in the order
of their connections. -/
theorem Reordered.matchPass (h : s.Reordered s') (hdistinct : DistinctTimes s.connections)
    (now : Float) : (s.matchPass now).2.Reordered (s'.matchPass now).2 ∧
      (s'.matchPass now).1 = (s.matchPass now).1 := by
  have hexact : s.exactPass.1.Reordered s'.exactPass.1 ∧ s'.exactPass.2 = s.exactPass.2 := by
    rw [Session.exactPass, Session.exactPass, hdistinct.byAge_eq h.perm]
    exact Reordered.foldl Reordered.matchExact s.connections.byAge h rfl
  have hleft : DistinctTimes s.exactPass.1.connections := by
    intro id con id' con' hget hget'
    rw [Session.exactPass, get?_connections_foldl_matchExact] at hget hget'
    split at hget
    · cases hget
    · split at hget'
      · cases hget'
      · exact hdistinct id con id' con' hget hget'
  have hpass := Reordered.foldl (Reordered.decideRest now) s.exactPass.1.connections.byAge
    hexact.1 hexact.2
  rw [← matchPass_eq_foldl, ← hleft.byAge_eq hexact.1.perm, ← matchPass_eq_foldl] at hpass
  exact hpass

/-- A matching pass over the same connections in two orders. Unless it both guesses and holds
verdicts back until no SYN is pending, it reports the same and leaves the same SYNs. And however it
is set, without equally old connections it also sends the same events and leaves the same
connections. -/
theorem matchPass_in_any_order (h : s.syns.Indexed) (now : Float) (table : ConnectionTable)
    (hperm : table.entries.Perm s.connections.entries) :
    let other : Session := { s with connections := table }
    (¬ (s.settings.guessAfter.isSome = true ∧ s.settings.synEmptyQueue = true) →
      (other.matchPass now).1 = (s.matchPass now).1 ∧
      (other.matchPass now).2.syns.records = (s.matchPass now).2.syns.records ∧
      ∀ key, (other.matchPass now).2.syns.index.get? key =
        (s.matchPass now).2.syns.index.get? key) ∧
    (DistinctTimes s.connections →
      (other.matchPass now).1 = (s.matchPass now).1 ∧
      (other.matchPass now).2.syns = (s.matchPass now).2.syns ∧
      (other.matchPass now).2.emissions = (s.matchPass now).2.emissions ∧
      (other.matchPass now).2.connections.entries.Perm
        (s.matchPass now).2.connections.entries) := by
  intro other
  have hreordered : s.Reordered other := .of_perm hperm
  have hindexed : other.syns.Indexed := h
  refine ⟨fun hmode => ?_, fun hdistinct => ?_⟩
  · have houtcome := hreordered.outcome_matchPass h hmode now
    have hrecords := congrArg PassOutcome.syns houtcome
    refine ⟨congrArg PassOutcome.report houtcome, hrecords, fun key => ?_⟩
    exact (indexed_matchPass h now).get?_index_eq (indexed_matchPass hindexed now)
      (fun id => congrArg (·.get? id) hrecords) key
  · obtain ⟨hsame, hreport⟩ := hreordered.matchPass hdistinct now
    refine ⟨hreport, ?_, ?_, hsame.perm⟩
    · rw [hsame.rest]
    · rw [hsame.rest]

/-- A session that guesses after thirty seconds, with two connections of one age and one relaxed
key, and a SYN for one of them. -/
def exampleTwins : Session :=
  ((Office.start { CommandLine.Choices.standard.resolve.settings with guessAfter := some 30.0 }
    fun _ => .written).run
      [.connection (exampleConnectionFrom 40000 0), .connection (exampleConnectionFrom 40001 0),
        .header (exampleSynFrom 40002 1)]).session

/-- Whichever of the two comes first, the report is the same. -/
theorem exampleTwins_in_any_order :
    let other : Session := { exampleTwins with connections := exampleTwins.connections.reversed }
    exampleTwins.connections.keys = [⟨"10.0.0.1_80+40000"⟩, ⟨"10.0.0.1_80+40001"⟩] ∧
      other.connections.keys = [⟨"10.0.0.1_80+40001"⟩, ⟨"10.0.0.1_80+40000"⟩] ∧
      (other.matchPass 45.0).1 = (exampleTwins.matchPass 45.0).1 := by
  intro other
  have hreachable : exampleTwins.TablesReachable := ⟨_, ⟨_, _, _, rfl⟩, rfl, .refl _⟩
  have hmode : exampleTwins.settings.synEmptyQueue = false := by decide +kernel
  obtain ⟨hreport, _⟩ := matchPass_in_any_order hreachable.orderly.indexed 45.0
    exampleTwins.connections.reversed (List.reverse_perm _)
  refine ⟨by decide +kernel, by decide +kernel, (hreport fun hboth => ?_).1⟩
  rw [hmode] at hboth
  cases hboth.2

end Session

end FlowVerdict
