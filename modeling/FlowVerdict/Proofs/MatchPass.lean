import FlowVerdict.Proofs.Decisions
import FlowVerdict.Proofs.Frame
import FlowVerdict.Proofs.Orderly
import FlowVerdict.Proofs.Pairing

/-!
# A matching pass as the series of its departures

A session follows its books: each step of a pass makes the departure that the rule of its sweep
says, and the books after a pass are the books after these departures. What is said of passes from
here on is said of such a series.
-/

namespace FlowVerdict

open Books (pair? verdict?)

namespace Session

/-- The tables are those that some session can come to, the connections in any order; settings,
shutdown and all else are arbitrary. -/
def TablesReachable (s : Session) : Prop :=
  ∃ o : Office, o.Reachable ∧ s.syns = o.session.syns ∧
    s.connections.entries.Perm o.session.connections.entries

theorem TablesReachable.orderly {s : Session} (h : s.TablesReachable) : s.Orderly := by
  obtain ⟨o, ⟨settings, output, actions, rfl⟩, hsyns, hperm⟩ := h
  have horderly := Office.orderly_run (Office.orderly_start settings output) actions
  refine ⟨⟨?_, ?_⟩, ?_⟩
  · intro id syn hget
    rw [books, hsyns] at hget
    exact horderly.filed.syns id syn hget
  · intro id con hget
    rw [books, Table.get?_eq_of_perm hperm] at hget
    exact horderly.filed.connections id con hget
  · rw [hsyns]
    exact horderly.indexed

variable {s : Session} {state : Session × PassReport} {now : Float} {id : FlowId}

theorem Frame.terms {s' : Session} (h : s.Frame s') (now : Float) : s'.terms now = s.terms now := by
  rw [Session.terms, Session.terms, h.settings, h.shutdown]

theorem mayGuess_terms (now : Float) (con : Connection) (s : Session) :
    (s.terms now).mayGuess con =
      s.settings.guessAfter.any fun limit => limit < now - con.unixtime :=
  rfl

/-- With the index in step, a guess takes the eldest SYN of the relaxed key out of the table. -/
theorem guess?_eq_eldest (h : s.syns.Indexed) (now : Float) (id : FlowId) (con : Connection) :
    (s.guess? now id con).map (fun (syn, rest) => (syn, rest.records)) =
      (if (s.terms now).mayGuess con then eldest? s.syns.records id.relaxed else none).map
        fun (other, syn) => (syn, s.syns.records.erase other) := by
  have hplain := congrArg (Option.map fun found => (found.2.1, found.2.2))
    (h.takeRelaxed?_eq id.relaxed)
  simp only [plainStore, Option.map_map] at hplain
  rw [guess?, mayGuess_terms]
  cases s.settings.guessAfter with
  | none => rfl
  | some limit =>
      simp only [Option.bind_eq_bind, Option.bind_some, Option.any_some, decide_eq_true_eq]
      split
      · refine Eq.trans ?_ hplain
        cases s.syns.takeRelaxed? id.relaxed with
        | none => rfl
        | some found => rfl
      · rfl

/-- The guess of a session is the one that its books make. -/
theorem guess?_books (h : s.Orderly) (now : Float) (id : FlowId) (con : Connection) :
    (s.guess? now id con).map Prod.fst = s.books.guess? (s.terms now) id con := by
  have heldest := congrArg (Option.map Prod.fst) (guess?_eq_eldest h.indexed now id con)
  simp only [Option.map_map] at heldest
  refine heldest.trans ?_
  rw [Books.guess?]
  split <;> rfl

theorem lacksSyn_books (now : Float) (con : Connection) (s : Session) :
    s.lacksSyn now con = s.books.givesUp (s.terms now) con :=
  rfl

/-- The exact step follows the books. -/
theorem matchExact_books (h : state.1.Orderly) (now : Float) (id : FlowId) :
    (matchExact state id).1.books =
        state.1.books.after (state.1.books.pair? (state.1.terms now) id).toList ∧
      (matchExact state id).2.exact =
        state.2.exact + (state.1.books.pair? (state.1.terms now) id).toList.length := by
  cases hd : state.1.books.pair? (state.1.terms now) id with
  | none =>
      rw [matchExact_eq_of_absent (Books.pair?_eq_none_iff.mp hd)]
      exact ⟨rfl, rfl⟩
  | some d =>
      obtain ⟨con, syn, hcon, hsyn, rfl⟩ := Books.pair?_eq_some_iff.mp hd
      obtain ⟨rest, htake, _⟩ := SynTable.take?_of_get? hsyn
      have hcon : state.1.connections.get? id = some con := hcon
      obtain ⟨_, hjoins, _⟩ := matchExact_joins h.filed hcon hsyn
      refine ⟨Books.Drains.eq_after hjoins, ?_⟩
      simp only [matchExact, hcon, htake]
      rfl

/-- Where the books let nothing leave, nothing happens. -/
theorem decideRest_of_no_verdict (h : state.1.Orderly)
    (hd : state.1.books.verdict? (state.1.terms now) id = none) :
    (decideRest now state id).1 = state.1 := by
  obtain ⟨s, report⟩ := state
  cases hcon : s.connections.get? id with
  | none => simp only [decideRest, hcon]
  | some con =>
      obtain ⟨hguess, hgives⟩ := Books.verdict?_eq_none_iff.mp hd con hcon
      rw [← guess?_books h, Option.map_eq_none_iff] at hguess
      rw [← lacksSyn_books] at hgives
      simp only [decideRest, hcon, hguess, hgives, Bool.false_eq_true, if_false]

/-- Deciding about a connection without SYN of its own follows the books. -/
theorem decideRest_books (h : state.1.Orderly) (now : Float) (id : FlowId) :
    (decideRest now state id).1.books =
      state.1.books.after (state.1.books.verdict? (state.1.terms now) id).toList := by
  cases hd : state.1.books.verdict? (state.1.terms now) id with
  | none => exact congrArg books (decideRest_of_no_verdict h hd)
  | some d =>
      obtain ⟨s, report⟩ := state
      obtain ⟨con, hcon, hcases⟩ := Books.verdict?_eq_some_iff.mp hd
      have hconId : con.flowId = id := h.filed.connections id con hcon
      have hcon : s.connections.get? id = some con := hcon
      rcases hcases with ⟨syn, hguess, rfl⟩ | ⟨hguess, hgives, rfl⟩
      · rw [← guess?_books h, Option.map_eq_some_iff] at hguess
        obtain ⟨⟨_, rest⟩, hguess, rfl⟩ := hguess
        obtain ⟨other, htake⟩ := guess?_eq_some hguess
        obtain ⟨hsyn, hrecords⟩ := SynTable.of_takeRelaxed?_eq_some htake
        have hsynId : Syn.flowId _ = other := h.filed.syns other _ hsyn
        simp only [decideRest, hcon, hguess, books_emit, Option.toList_some,
          Books.after_singleton, Books.apply, hconId, hsynId]
        simp only [books, hrecords]
      · rw [← guess?_books h, Option.map_eq_none_iff] at hguess
        rw [← lacksSyn_books] at hgives
        simp only [decideRest, hcon, hguess, hgives, if_true, books_emit, Option.toList_some,
          Books.after_singleton, Books.apply, hconId]
        rfl

theorem exact_decideRest (state : Session × PassReport) (now : Float) (id : FlowId) :
    (decideRest now state id).2.exact = state.2.exact := by
  unfold decideRest
  dsimp only
  split
  · rfl
  · split
    · rfl
    · split <;> rfl

theorem foldl_matchExact_books (h : state.1.Orderly) (now : Float) (ids : List FlowId) :
    (ids.foldl matchExact state).1.books =
        state.1.books.after (state.1.books.departing (pair? (state.1.terms now)) ids) ∧
      (ids.foldl matchExact state).2.exact =
        state.2.exact + (state.1.books.departing (pair? (state.1.terms now)) ids).length ∧
      (ids.foldl matchExact state).1.terms now = state.1.terms now ∧
      (ids.foldl matchExact state).1.Orderly := by
  induction ids generalizing state with
  | nil => exact ⟨rfl, rfl, rfl, h⟩
  | cons head tail ih =>
      obtain ⟨hdrained, horderly⟩ := matchExact_matches h head
      obtain ⟨hbooks, hexact⟩ := matchExact_books h now head
      have hterms := hdrained.frame.terms now
      obtain ⟨hrest, hcount, hsame, hend⟩ := ih horderly
      rw [hterms, hbooks] at hrest hcount
      rw [List.foldl_cons, Books.departing_cons, Books.after_append, List.length_append,
        ← Nat.add_assoc, ← hexact]
      exact ⟨hrest, hcount, hsame.trans hterms, hend⟩

theorem foldl_decideRest_books (h : state.1.Orderly) (now : Float) (ids : List FlowId) :
    (ids.foldl (decideRest now) state).1.books =
        state.1.books.after (state.1.books.departing (verdict? (state.1.terms now)) ids) ∧
      (ids.foldl (decideRest now) state).2.exact = state.2.exact := by
  induction ids generalizing state with
  | nil => exact ⟨rfl, rfl⟩
  | cons head tail ih =>
      obtain ⟨hdrained, horderly⟩ := decideRest_matches h now head
      have hbooks := decideRest_books h now head
      obtain ⟨hrest, hexact⟩ := ih horderly
      rw [hdrained.frame.terms now, hbooks] at hrest
      rw [List.foldl_cons, Books.departing_cons, Books.after_append]
      exact ⟨hrest, hexact.trans (exact_decideRest state now head)⟩

/-- The session when the exact pairs of a pass have left. -/
def afterExact (s : Session) : Session :=
  s.exactPass.1

theorem afterExact_books (h : s.Orderly) (now : Float) :
    s.afterExact.books = s.books.after (s.books.paired (s.terms now)) ∧
      s.afterExact.terms now = s.terms now ∧ s.afterExact.Orderly := by
  have hstart : (s, ({} : PassReport)).1.Orderly := h
  obtain ⟨hbooks, _, hterms, horderly⟩ :=
    foldl_matchExact_books hstart now s.connections.byAge
  exact ⟨hbooks, hterms, horderly⟩

/-- A matching pass is the departures of the exact pairs and then those of the other connections. -/
theorem matchPass_books (h : s.Orderly) (now : Float) :
    (s.matchPass now).2.books =
        s.afterExact.books.after (s.afterExact.books.released (s.terms now)) ∧
      (s.matchPass now).1.exact = (s.books.paired (s.terms now)).length := by
  have hstart : (s, ({} : PassReport)).1.Orderly := h
  obtain ⟨_, hexact, hterms, horderly⟩ := foldl_matchExact_books hstart now s.connections.byAge
  obtain ⟨hreleased, hsame⟩ := foldl_decideRest_books horderly now s.afterExact.connections.byAge
  rw [hterms] at hreleased
  exact ⟨hreleased, hsame.trans (hexact.trans (Nat.zero_add _))⟩

/-- The departures of a whole pass: the exact pairs, and then those of the other connections. -/
def decisions (now : Float) (s : Session) : List Departure :=
  s.books.paired (s.terms now) ++ s.afterExact.books.released (s.terms now)

/-- A pass makes its departures one after the other, each of them permitted when it is made. -/
theorem matchPass_drains (h : s.Orderly) (now : Float) :
    s.books.Drains ((s.decisions now).map .departed) (s.matchPass now).2.books := by
  obtain ⟨hmiddle, _, horderly⟩ := afterExact_books h now
  have hpaired := (Books.lawful_pair? (s.terms now)).drains h.filed s.books.connections.byAge
  have hreleased := Books.released_drains (s.terms now) horderly.filed
  rw [← Books.paired, ← hmiddle] at hpaired
  rw [← (matchPass_books h now).1] at hreleased
  rw [decisions, List.map_append]
  exact hpaired.append hreleased

theorem matchPass_departs (h : s.Orderly) (now : Float) :
    (s.matchPass now).2.books = s.books.after (s.decisions now) :=
  (matchPass_drains h now).eq_after

theorem events_matchPass (h : s.Orderly) (now : Float) :
    (s.matchPass now).2.books.events =
      s.books.events ++ (s.decisions now).map Departure.event := by
  rw [matchPass_departs h, Books.events_after]

/-- Whatever leaves by a matching pass leaves in an exact pair, with a guess past the age for one,
or alone while no shutdown is on. -/
theorem of_mem_decisions {d : Departure} (h : s.Orderly) (hd : d ∈ s.decisions now) :
    (∃ con syn, d = .joined con syn (s.settings.guessAfter.map fun _ => false) ∧
        con.flowId = syn.flowId) ∨
      (∃ con syn, d = .joined con syn (some true) ∧ (s.terms now).mayGuess con = true) ∨
      ∃ con, d = .unanswered con ∧ s.shutdown.graceful = false := by
  obtain ⟨_, _, horderly⟩ := afterExact_books h now
  exact (List.mem_append.mp hd).imp (Books.of_mem_paired h.filed)
    (Books.of_mem_released horderly.filed)

def exampleSynFrom (port second : Nat) : Json.Bytes :=
  ("\x7b\"unixtime\":" ++ toString second ++ ",\"IP\":\x7b\"src_addr\":\"10.0.0.1\"," ++
    "\"dest_addr\":\"10.0.0.2\"\x7d,\"TCP\":\x7b\"src_port\":" ++ toString port ++
    ",\"dest_port\":80\x7d\x7d").toUTF8.toList

def exampleConnectionFrom (port second : Nat) : Json.Bytes :=
  ("\x7b\"src_ip\":\"10.0.0.1\",\"src_port\":" ++ toString port ++
    ",\"dest_ip\":\"10.0.0.2\",\"dest_port\":80,\"unixtime\":" ++ toString second ++
    "\x7d").toUTF8.toList

/-- A session that guesses after thirty seconds. Of one source there are an old connection without
SYN, an old SYN without connection, and a young pair. -/
def exampleCrowd : Session :=
  ((Office.start { CommandLine.Choices.standard.resolve.settings with guessAfter := some 30.0 }
    fun _ => .written).run
      [.connection (exampleConnectionFrom 40000 0), .header (exampleSynFrom 40001 39),
        .connection (exampleConnectionFrom 40001 40), .header (exampleSynFrom 40002 1)]).session

theorem tablesReachable_exampleCrowd : exampleCrowd.TablesReachable :=
  ⟨_, ⟨_, _, _, rfl⟩, rfl, .refl _⟩

theorem guessAfter_exampleCrowd : exampleCrowd.settings.guessAfter = some 30.0 :=
  congrArg Settings.guessAfter (Office.settings_run (Office.filed_start _ _) _)

end Session

end FlowVerdict
