import FlowVerdict.Proofs.ExactPairs

/-!
# Guesses are made from the front of a line

The SYNs with one relaxed key stand in line, the oldest first. The connections that a guess may
serve come to the line in the order of their age, and each takes the SYN at the front. What other
connections do does not touch the line, so the pairs of a key are those of two sorted lists.
-/

namespace FlowVerdict

theorem rank_eq_of_not_precedes {a b : FlowId × Syn} (hab : ¬ Precedes a b) (hba : ¬ Precedes b a) :
    Timestamp.rank a.2.unixtime = Timestamp.rank b.2.unixtime := by
  simp only [Precedes, not_or] at hab hba
  omega

theorem not_precedes_trans {a b c : FlowId × Syn} (hba : ¬ Precedes b a) (hcb : ¬ Precedes c b) :
    ¬ Precedes c a := by
  intro hca
  have hbc : ¬ Precedes b c := fun hbc => hba (hbc.trans b c a hca)
  -- neither comes first, so nothing tells them apart from where `a` stands
  have hflow := flow_eq_of_not_precedes hbc hcb
  have hrank := rank_eq_of_not_precedes hbc hcb
  rw [Precedes, hflow, hrank] at hba
  exact hba hca

/-- The pending SYNs with a relaxed key, in their order. -/
structure InLine (t : Table FlowId Syn) (key : RelaxedKey) (line : List (FlowId × Syn)) : Prop where
  perm : line.Perm (t.entries.filter fun entry => entry.1.relaxed = key)
  sorted : line.Pairwise Precedes

namespace InLine

variable {t : Table FlowId Syn} {key : RelaxedKey} {line rest : List (FlowId × Syn)} {id : FlowId}
  {syn : Syn} {first : FlowId × Syn}

theorem mem_iff (h : InLine t key line) :
    (id, syn) ∈ line ↔ t.get? id = some syn ∧ id.relaxed = key := by
  rw [h.perm.mem_iff, List.mem_filter, Table.mem_entries_iff, decide_eq_true_eq]

/-- Every key has a line. -/
theorem exists_line (t : Table FlowId Syn) (key : RelaxedKey) : ∃ line, InLine t key line := by
  let before (a b : FlowId × Syn) : Bool := !decide (Precedes b a)
  let entries := t.entries.filter fun entry => entry.1.relaxed = key
  have hperm : (entries.mergeSort before).Perm entries := List.mergeSort_perm entries before
  have hsorted : (entries.mergeSort before).Pairwise fun a b => before a b = true := by
    apply List.pairwise_mergeSort
    · intro a b c hab hbc
      simp only [before, Bool.not_eq_true', decide_eq_false_iff_not] at *
      exact not_precedes_trans hab hbc
    · intro a b
      simp only [before, Bool.or_eq_true, Bool.not_eq_true', decide_eq_false_iff_not]
      by_contra hboth
      simp only [not_or, not_not] at hboth
      exact Precedes.irrefl a (hboth.2.trans a b a hboth.1)
  have hdistinct : (entries.mergeSort before).Pairwise fun a b => a.1 ≠ b.1 := by
    apply List.pairwise_map.mp
    exact (hperm.map Prod.fst).nodup_iff.mpr
      ((List.Sublist.map Prod.fst List.filter_sublist).nodup t.nodup)
  refine ⟨entries.mergeSort before, hperm, (hsorted.and hdistinct).imp ?_⟩
  rintro a b ⟨hnot, hne⟩
  by_contra hab
  simp only [before, Bool.not_eq_true', decide_eq_false_iff_not] at hnot
  exact hne (flow_eq_of_not_precedes hab hnot)

/-- A guess takes the front of the line. -/
theorem eldest?_eq_head? (h : InLine t key line) : eldest? t key = line.head? := by
  cases line with
  | nil =>
      apply eldest?_eq_none_iff.mpr
      intro id syn hget hkey
      exact List.not_mem_nil (h.mem_iff.mpr ⟨hget, hkey⟩)
  | cons first rest =>
      obtain ⟨id, syn⟩ := first
      obtain ⟨hget, hkey⟩ := h.mem_iff.mp List.mem_cons_self
      apply eldest?_eq_some_iff.mpr
      refine ⟨hget, hkey, fun other syn' hother hkey' hbefore => ?_⟩
      rcases List.mem_cons.mp (h.mem_iff.mpr ⟨hother, hkey'⟩) with heq | hmem
      · rw [heq] at hbefore
        exact Precedes.irrefl _ hbefore
      · have hafter := (List.pairwise_cons.mp h.sorted).1 _ hmem
        exact Precedes.irrefl _ (hafter.trans _ _ _ hbefore)

theorem erase_front (h : InLine t key (first :: rest)) : InLine (t.erase first.1) key rest := by
  obtain ⟨hfirst, hrest⟩ := List.pairwise_cons.mp h.sorted
  have hothers : ∀ entry ∈ rest, entry.1 ≠ first.1 := by
    rintro ⟨id, syn⟩ hmem heq
    have hother := (h.mem_iff.mp (List.mem_cons_of_mem first hmem)).1
    have hget := (h.mem_iff.mp (List.mem_cons_self (a := first))).1
    rw [show id = first.1 from heq, hget] at hother
    have hsame : (id, syn) = first := Prod.ext heq (Option.some.inj hother).symm
    exact Precedes.irrefl first (hsame ▸ hfirst _ hmem)
  refine ⟨?_, hrest⟩
  have hleft := h.perm.filter fun entry => entry.1 ≠ first.1
  rw [List.filter_cons_of_neg (by simp), List.filter_eq_self.mpr (by simpa using hothers),
    List.filter_comm] at hleft
  exact hleft

/-- The line does not miss a SYN with another key. -/
theorem erase_of_ne (h : InLine t key line) (hne : id.relaxed ≠ key) :
    InLine (t.erase id) key line := by
  refine ⟨?_, h.sorted⟩
  have hall : line.filter (fun entry => entry.1 ≠ id) = line := by
    apply List.filter_eq_self.mpr
    rintro ⟨other, syn⟩ hmem
    have hkey := (h.mem_iff.mp hmem).2
    simp only [ne_eq, decide_eq_true_eq]
    rintro rfl
    exact hne hkey
  have hleft := h.perm.filter fun entry => entry.1 ≠ id
  rw [hall, List.filter_comm] at hleft
  exact hleft

end InLine

/-- Whether a departure joins a connection with a SYN that was guessed under a relaxed key. -/
def Departure.isGuessUnder (key : RelaxedKey) : Departure → Bool
  | joined con _ (some true) => con.flowId.relaxed = key
  | _ => false

def guessed (con : Connection) (entry : FlowId × Syn) : Departure :=
  .joined con entry.2 (some true)

namespace Books

variable {b : Books} {t : Terms} {ids : List FlowId} {id : FlowId} {key : RelaxedKey}
  {line : List (FlowId × Syn)} {con : Connection}

/-- Those connections of some flows that come to the line of a relaxed key, in the order of the
flows. -/
def suitors (t : Terms) (key : RelaxedKey) (b : Books) (ids : List FlowId) : List Connection :=
  (ids.filterMap b.connections.get?).filter fun con =>
    con.flowId.relaxed = key && t.mayGuess con

theorem suitors_cons (t : Terms) (key : RelaxedKey) (b : Books) (id : FlowId) (ids : List FlowId) :
    b.suitors t key (id :: ids) = b.suitors t key [id] ++ b.suitors t key ids := by
  rw [suitors, suitors, suitors, ← List.filter_append, ← List.filterMap_append,
    List.singleton_append]

theorem suitors_eq_nil_of_absent (hcon : b.connections.get? id = none) :
    b.suitors t key [id] = [] := by
  simp [suitors, hcon]

theorem suitors_singleton (hf : b.Filed) (hcon : b.connections.get? id = some con) :
    b.suitors t key [id] = if id.relaxed = key ∧ t.mayGuess con = true then [con] else [] := by
  have hid := hf.connections id con hcon
  simp [suitors, hcon, hid, List.filter_singleton]

/-- A connection comes to the line of its key and takes the SYN at the front, if there is one; all
other connections leave the line as it is. -/
theorem serves_one (hf : b.Filed) (hline : InLine b.syns key line) (id : FlowId) :
    (b.verdict? t id).toList.filter (Departure.isGuessUnder key) =
        List.zipWith guessed (b.suitors t key [id]) line ∧
      InLine (b.after (b.verdict? t id).toList).syns key
        (line.drop (b.suitors t key [id]).length) := by
  cases hcon : b.connections.get? id with
  | none =>
      have hnone : b.verdict? t id = none := by simp [verdict?, hcon]
      rw [hnone, suitors_eq_nil_of_absent hcon]
      exact ⟨rfl, hline⟩
  | some con =>
      have hid := hf.connections id con hcon
      rw [suitors_singleton hf hcon]
      cases hguess : b.guess? t id con with
      | some syn =>
          obtain ⟨hmay, heldest⟩ := (guess?_eq_some_iff hf).mp hguess
          have hverdict : b.verdict? t id = some (.joined con syn (some true)) := by
            simp [verdict?, hcon, hguess]
          rw [hverdict]
          by_cases hkey : id.relaxed = key
          · rw [hkey, hline.eldest?_eq_head?, List.head?_eq_some_iff] at heldest
            obtain ⟨rest, rfl⟩ := heldest
            rw [if_pos ⟨hkey, hmay⟩]
            refine ⟨?_, hline.erase_front⟩
            simp [Departure.isGuessUnder, guessed, hid, hkey]
          · rw [if_neg fun hboth => hkey hboth.1]
            have hother := (eldest?_eq_some_iff.mp heldest).2.1
            refine ⟨?_, hline.erase_of_ne (hother ▸ hkey)⟩
            simp [Departure.isGuessUnder, hid, hkey]
      | none =>
          have hsyns : (b.after (b.verdict? t id).toList).syns = b.syns := by
            simp only [verdict?, hcon, hguess, Option.bind_eq_bind, Option.bind_some]
            split <;> rfl
          have hnothing : (b.verdict? t id).toList.filter (Departure.isGuessUnder key) = [] := by
            simp only [verdict?, hcon, hguess, Option.bind_eq_bind, Option.bind_some]
            split <;> rfl
          rw [hsyns, hnothing]
          split
          · next hboth =>
              have hnone := guess?_eq_none_iff.mp hguess hboth.2
              rw [hboth.1] at hnone
              have hempty := eldest?_eq_none_iff.mpr hnone
              rw [hline.eldest?_eq_head?, List.head?_eq_none_iff] at hempty
              subst hempty
              exact ⟨rfl, hline⟩
          · exact ⟨rfl, hline⟩

theorem zipWith_append_left {α β γ : Type} (f : α → β → γ) (as bs : List α) (line : List β) :
    List.zipWith f (as ++ bs) line =
      List.zipWith f as line ++ List.zipWith f bs (line.drop as.length) := by
  induction as generalizing line with
  | nil => rfl
  | cons a as ih =>
      cases line with
      | nil => simp
      | cons first rest => exact congrArg (f a first :: ·) (ih rest)

/-- A walk serves the line of a key from the front. -/
theorem serves_in_turn (hf : b.Filed) (hline : InLine b.syns key line) (hnodup : ids.Nodup) :
    (b.departing (verdict? t) ids).filter (Departure.isGuessUnder key) =
        List.zipWith guessed (b.suitors t key ids) line ∧
      InLine (b.after (b.departing (verdict? t) ids)).syns key
        (line.drop (b.suitors t key ids).length) := by
  induction ids generalizing b line with
  | nil => exact ⟨rfl, hline⟩
  | cons head tail ih =>
      obtain ⟨hhead, htail⟩ := List.nodup_cons.mp hnodup
      obtain ⟨hfirst, hleft⟩ := serves_one (t := t) hf hline head
      obtain ⟨hrest, hend⟩ := ih (hf.after _) hleft htail
      have hsame : (b.after (b.verdict? t head).toList).suitors t key tail =
          b.suitors t key tail := by
        refine congrArg (List.filter _) (List.filterMap_congr fun id hmem => ?_)
        cases hd : b.verdict? t head with
        | none => rfl
        | some d =>
            have hne : id ≠ head := fun heq => hhead (heq ▸ hmem)
            exact (lawful_verdict? t).get?_connections_of_ne hf hd hne
      rw [hsame] at hrest hend
      rw [departing_cons, after_append, List.filter_append, suitors_cons, zipWith_append_left,
        List.length_append, ← List.drop_drop, hfirst, hrest]
      exact ⟨rfl, hend⟩

/-- The connections of all flows by age, as a walk comes to them. -/
theorem filterMap_byAge (b : Books) : b.connections.byAge.filterMap b.connections.get? =
    (Session.entriesByAge b.connections).map Prod.snd := by
  rw [Session.byAge_eq, List.filterMap_map, ← List.filterMap_eq_map]
  apply List.filterMap_congr
  rintro ⟨id, con⟩ hmem
  exact Table.mem_entries_iff.mp ((Session.entriesByAge_perm _).mem_iff.mp hmem)

theorem perm_suitors (t : Terms) (key : RelaxedKey) (b : Books) :
    (b.suitors t key b.connections.byAge).Perm
      (b.connections.values.filter fun con => con.flowId.relaxed = key && t.mayGuess con) := by
  rw [suitors, filterMap_byAge]
  exact ((Session.entriesByAge_perm _).map Prod.snd).filter _

theorem sorted_suitors (t : Terms) (key : RelaxedKey) (b : Books) :
    (b.suitors t key b.connections.byAge).Pairwise fun x y =>
      Timestamp.le x.unixtime y.unixtime = true := by
  rw [suitors, filterMap_byAge]
  apply List.Pairwise.filter
  apply List.pairwise_map.mpr
  exact (Session.sorted_entriesByAge b.connections).imp decide_eq_true

theorem filter_paired_isGuessUnder (hf : b.Filed) (t : Terms) (key : RelaxedKey) :
    (b.paired t).filter (Departure.isGuessUnder key) = [] := by
  refine List.filter_eq_nil_iff.mpr fun d hd => ?_
  obtain ⟨con, syn, rfl, _⟩ := of_mem_paired hf hd
  cases t.settings.guessAfter with
  | none => exact Bool.false_ne_true
  | some limit => exact Bool.false_ne_true

end Books

namespace Session

variable {s : Session}

/-- A pass serves the line of a key from the front, and what it leaves is the rest of the line. -/
theorem filter_decisions (h : s.Orderly) (now : Float) {key : RelaxedKey}
    {line : List (FlowId × Syn)} (hline : InLine s.afterExact.syns.records key line) :
    let suitors := s.afterExact.books.suitors (s.terms now) key s.afterExact.connections.byAge
    (s.decisions now).filter (Departure.isGuessUnder key) = List.zipWith guessed suitors line ∧
      InLine (s.matchPass now).2.syns.records key (line.drop suitors.length) := by
  intro suitors
  obtain ⟨_, _, horderly⟩ := afterExact_books h now
  obtain ⟨hguesses, hleft⟩ := Books.serves_in_turn (t := s.terms now) horderly.filed hline
    s.afterExact.books.nodup_byAge
  rw [← Books.released, ← (matchPass_books h now).1] at hleft
  refine ⟨?_, hleft⟩
  rw [decisions, List.filter_append, Books.filter_paired_isGuessUnder h.filed, List.nil_append]
  exact hguesses

/-- Without guessing every SYN is joined with the connection of its own flow. With it, after the
exact pairs have left, the connections past the age for a guess and the SYNs with their relaxed key
form two lines, each with the oldest first; the pass joins the first with the first and so on until
one of the lines ends. No other connection takes part, and the SYNs that are left are the rest of
their line. -/
theorem guesses_oldest_first (h : s.TablesReachable) (now : Float) :
    ∃ ds : List Departure,
      (s.matchPass now).2.emissions.map Emission.event =
        s.emissions.map Emission.event ++ ds.map Departure.event ∧
      (s.settings.guessAfter = none → ∀ con syn guessed, .joined con syn guessed ∈ ds →
        guessed = none ∧ con.flowId = syn.flowId) ∧
      ∀ limit, s.settings.guessAfter = some limit →
        (∀ con syn, .joined con syn (some true) ∈ ds → limit < now - con.unixtime) ∧
        ∀ key, ∃ suitors line,
          suitors.Perm (s.afterExact.connections.values.filter fun con =>
            con.flowId.relaxed = key ∧ limit < now - con.unixtime) ∧
          (suitors.Pairwise fun x y => Timestamp.le x.unixtime y.unixtime = true) ∧
          InLine s.afterExact.syns.records key line ∧
          ds.filter (Departure.isGuessUnder key) = List.zipWith guessed suitors line ∧
          (ds.filter (Departure.isGuessUnder key)).length = min suitors.length line.length ∧
          InLine (s.matchPass now).2.syns.records key (line.drop suitors.length) := by
  refine ⟨s.decisions now, events_matchPass h.orderly now, ?_, ?_⟩
  · intro hoff con syn guessed hmem
    rcases of_mem_decisions h.orderly hmem with
      ⟨_, _, heq, hflow⟩ | ⟨_, _, _, hmay⟩ | ⟨_, heq, _⟩
    · rw [hoff] at heq
      cases heq
      exact ⟨rfl, hflow⟩
    · rw [mayGuess_terms, hoff] at hmay
      cases hmay
    · cases heq
  · intro limit hlimit
    have hmay : ∀ con, (s.terms now).mayGuess con = decide (limit < now - con.unixtime) := by
      intro con
      rw [mayGuess_terms, hlimit, Option.any_some]
    refine ⟨?_, fun key => ?_⟩
    · intro con syn hmem
      rcases of_mem_decisions h.orderly hmem with
        ⟨_, _, heq, _⟩ | ⟨_, _, heq, hold⟩ | ⟨_, heq, _⟩
      · rw [hlimit] at heq
        cases heq
      · cases heq
        rw [hmay] at hold
        exact of_decide_eq_true hold
      · cases heq
    · obtain ⟨line, hline⟩ := InLine.exists_line s.afterExact.syns.records key
      obtain ⟨hguesses, hleft⟩ := filter_decisions h.orderly now hline
      have hsuitors := Books.perm_suitors (s.terms now) key s.afterExact.books
      simp only [hmay, ← Bool.decide_and] at hsuitors
      have hcount := (congrArg List.length hguesses).trans List.length_zipWith
      exact ⟨_, line, hsuitors, Books.sorted_suitors _ _ _, hline, hguesses, hcount, hleft⟩

/-- The old connection is joined with a guess. -/
theorem exampleCrowd_guesses :
    ∃ ds : List Departure,
      (exampleCrowd.matchPass 45.0).2.emissions.map Emission.event =
        exampleCrowd.emissions.map Emission.event ++ ds.map Departure.event ∧
      0 < (ds.filter (Departure.isGuessUnder ⟨"10.0.0.1_80"⟩)).length := by
  obtain ⟨hmiddle, _⟩ := afterExact_books tablesReachable_exampleCrowd.orderly 45.0
  have hparted := Books.get?_after_paired (t := exampleCrowd.terms 45.0)
    tablesReachable_exampleCrowd.orderly.filed
  rw [← hmiddle] at hparted
  obtain ⟨ds, hevents, _, hon⟩ := guesses_oldest_first tablesReachable_exampleCrowd 45.0
  obtain ⟨_, hkeys⟩ := hon 30.0 guessAfter_exampleCrowd
  obtain ⟨suitors, line, hsuitors, _, hline, _, hcount, _⟩ := hkeys ⟨"10.0.0.1_80"⟩
  obtain ⟨con, hcon, hkey, hold⟩ : ∃ con,
      exampleCrowd.books.connections.get? ⟨"10.0.0.1_80+40000"⟩ = some con ∧
        con.flowId.relaxed = ⟨"10.0.0.1_80"⟩ ∧ (30.0 : Float) < 45.0 - con.unixtime := by
    have hany : (exampleCrowd.connections.get? ⟨"10.0.0.1_80+40000"⟩).any (fun con =>
        con.flowId.relaxed = ⟨"10.0.0.1_80"⟩ ∧ (30.0 : Float) < 45.0 - con.unixtime) = true := by
      decide +kernel
    obtain ⟨con, hcon, hboth⟩ := (Option.any_eq_true _ _).mp hany
    exact ⟨con, hcon, of_decide_eq_true hboth⟩
  have hpending : (exampleCrowd.books.syns.get? ⟨"10.0.0.1_80+40002"⟩).isSome ∧
      exampleCrowd.books.syns.get? ⟨"10.0.0.1_80+40000"⟩ = none ∧
      exampleCrowd.books.connections.get? ⟨"10.0.0.1_80+40002"⟩ = none := by decide +kernel
  obtain ⟨hsyn, hlone, hspare⟩ := hpending
  obtain ⟨syn, hsyn⟩ := Option.isSome_iff_exists.mp hsyn
  have hsuitor : exampleCrowd.afterExact.connections.get? ⟨"10.0.0.1_80+40000"⟩ = some con := by
    have hleft := (hparted ⟨"10.0.0.1_80+40000"⟩).2
    rw [hlone, hcon] at hleft
    exact hleft
  have hwaiting : exampleCrowd.afterExact.books.syns.get? ⟨"10.0.0.1_80+40002"⟩ = some syn := by
    have hleft := (hparted ⟨"10.0.0.1_80+40002"⟩).1
    rw [hspare, hsyn] at hleft
    exact hleft
  have hcame : con ∈ suitors := by
    rw [hsuitors.mem_iff, List.mem_filter]
    exact ⟨Table.mem_values_iff.mpr ⟨_, hsuitor⟩, decide_eq_true ⟨hkey, hold⟩⟩
  have hinLine : (⟨"10.0.0.1_80+40002"⟩, syn) ∈ line :=
    hline.mem_iff.mpr ⟨hwaiting, by decide +kernel⟩
  refine ⟨ds, hevents, ?_⟩
  rw [hcount]
  exact Nat.lt_min.mpr ⟨List.length_pos_of_mem hcame, List.length_pos_of_mem hinLine⟩

end Session

end FlowVerdict
