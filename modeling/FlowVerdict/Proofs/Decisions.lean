import FlowVerdict.Proofs.Passes
import FlowVerdict.Proofs.PlainTable

/-!
# What a matching pass decides

A matching pass decides about one connection after the other. A decision depends on nothing but the
books, as the decisions before it have left them: a rule says which departure it is, if any, and a
walk over the connections is the series of these departures. A pass has two rules, that of the exact
pairs and that of all other connections.
-/

namespace FlowVerdict

/-- What a matching pass goes by. -/
structure Terms where
  settings : Settings
  /-- Whether a shutdown is in progress. -/
  closing : Bool
  now : Float

namespace Terms

def mayGuess (t : Terms) (con : Connection) : Bool :=
  t.settings.guessAfter.any fun limit => limit < t.now - con.unixtime

def isOverdue (t : Terms) (con : Connection) : Bool :=
  t.settings.noSynAfter < t.now - con.unixtime

end Terms

def Session.terms (now : Float) (s : Session) : Terms where
  settings := s.settings
  closing := s.shutdown.graceful
  now := now

namespace Books

def pair? (t : Terms) (b : Books) (id : FlowId) : Option Departure := do
  let con ← b.connections.get? id
  let syn ← b.syns.get? id
  some (.joined con syn (t.settings.guessAfter.map fun _ => false))

/-- The SYN that is guessed for the connection of a flow: the first in line with the relaxed key. -/
def guess? (t : Terms) (b : Books) (id : FlowId) (con : Connection) : Option Syn :=
  if t.mayGuess con then (eldest? b.syns id.relaxed).map Prod.snd else none

def givesUp (t : Terms) (b : Books) (con : Connection) : Bool :=
  !t.closing && !(t.settings.synEmptyQueue && !b.syns.isEmpty) && t.isOverdue con

/-- The departure of a connection that has no SYN of its own, if it leaves. -/
def verdict? (t : Terms) (b : Books) (id : FlowId) : Option Departure := do
  let con ← b.connections.get? id
  match b.guess? t id con with
  | some syn => some (.joined con syn (some true))
  | none => if b.givesUp t con then some (.unanswered con) else none

def after (b : Books) (ds : List Departure) : Books :=
  ds.foldl (fun b d => b.apply (.departed d)) b

/-- The departures on a walk over some flows, each decided by a rule on the books that the walk has
come to. -/
def departing (rule : Books → FlowId → Option Departure) : Books → List FlowId → List Departure
  | _, [] => []
  | b, id :: rest => (rule b id).toList ++ departing rule (b.after (rule b id).toList) rest

/-- A rule under which nothing leaves but pending records, among them the connection of the flow
that is decided about. -/
structure Lawful (rule : Books → FlowId → Option Departure) : Prop where
  permits : ∀ {b id d}, b.Filed → rule b id = some d → b.Permits (.departed d)
  connection : ∀ {b id d}, b.Filed → rule b id = some d →
    ∃ con, d.connection? = some con ∧ con.flowId = id

variable {b : Books} {rule : Books → FlowId → Option Departure} {t : Terms} {ids : List FlowId}
  {id : FlowId} {d : Departure} {con : Connection}

@[simp] theorem after_nil (b : Books) : b.after [] = b :=
  rfl

@[simp] theorem after_singleton (b : Books) (d : Departure) :
    b.after [d] = b.apply (.departed d) :=
  rfl

theorem after_append (b : Books) (ds es : List Departure) :
    b.after (ds ++ es) = (b.after ds).after es :=
  List.foldl_append

theorem departing_cons (rule : Books → FlowId → Option Departure) (b : Books) (id : FlowId)
    (ids : List FlowId) : b.departing rule (id :: ids) =
      (rule b id).toList ++ (b.after (rule b id).toList).departing rule ids := by
  rw [departing]

/-- Departures erase the flows of what leaves, and nothing else. -/
theorem get?_connections_after (b : Books) (ds : List Departure) (id : FlowId) :
    (b.after ds).connections.get? id =
      if ds.any (fun d => d.connection?.any fun con => con.flowId = id) then none
      else b.connections.get? id := by
  induction ds generalizing b with
  | nil => rfl
  | cons d ds ih =>
      have hstep : (b.after (d :: ds)).connections.get? id =
          ((b.apply (.departed d)).after ds).connections.get? id := rfl
      rw [hstep, ih, get?_connections_apply_departed, List.any_cons]
      cases d.connection?.any fun con => con.flowId = id with
      | true => simp
      | false => simp

theorem get?_syns_after (b : Books) (ds : List Departure) (id : FlowId) :
    (b.after ds).syns.get? id =
      if ds.any (fun d => d.syn?.any fun syn => syn.flowId = id) then none
      else b.syns.get? id := by
  induction ds generalizing b with
  | nil => rfl
  | cons d ds ih =>
      have hstep : (b.after (d :: ds)).syns.get? id =
          ((b.apply (.departed d)).after ds).syns.get? id := rfl
      rw [hstep, ih, get?_syns_apply_departed, List.any_cons]
      cases d.syn?.any fun syn => syn.flowId = id with
      | true => simp
      | false => simp

/-- Departures that do not concern a flow leave it as it is. -/
theorem get?_after_of_spared {ds : List Departure} (h : ∀ d ∈ ds, d.concerns id = false) :
    (b.after ds).syns.get? id = b.syns.get? id ∧
      (b.after ds).connections.get? id = b.connections.get? id := by
  have hspared : ∀ d ∈ ds, _ ∧ _ := fun d hmem => Bool.or_eq_false_iff.mp (h d hmem)
  have hsyns := List.any_eq_false.mpr fun d hmem => ne_true_of_eq_false (hspared d hmem).2
  have hcons := List.any_eq_false.mpr fun d hmem => ne_true_of_eq_false (hspared d hmem).1
  rw [get?_syns_after, get?_connections_after, hsyns, hcons]
  exact ⟨rfl, rfl⟩

theorem get?_syns_after_of_mem {ds : List Departure} {syn : Syn} (hmem : d ∈ ds)
    (h : d.syn? = some syn) : (b.after ds).syns.get? syn.flowId = none := by
  rw [get?_syns_after]
  exact if_pos (List.any_eq_true.mpr ⟨d, hmem, by simp [h]⟩)

theorem get?_connections_after_of_mem {ds : List Departure} (hmem : d ∈ ds)
    (h : d.connection? = some con) : (b.after ds).connections.get? con.flowId = none := by
  rw [get?_connections_after]
  exact if_pos (List.any_eq_true.mpr ⟨d, hmem, by simp [h]⟩)

theorem Filed.after (h : b.Filed) (ds : List Departure) : (b.after ds).Filed := by
  induction ds generalizing b with
  | nil => exact h
  | cons d ds ih => exact ih (h.apply (.departed d))

theorem Drains.eq_after {b' : Books} {ds : List Departure}
    (h : b.Drains (ds.map .departed) b') : b' = b.after ds := by
  induction ds generalizing b with
  | nil =>
      cases h
      rfl
  | cons d ds ih =>
      cases h with
      | next _ tail => exact ih tail

theorem departures_map (ds : List Departure) : departures (ds.map .departed) = ds := by
  induction ds with
  | nil => rfl
  | cons d ds ih => exact congrArg (d :: ·) ih

/-- A walk under a lawful rule is a sequence of permitted changes. -/
theorem Lawful.drains (h : Lawful rule) (hf : b.Filed) (ids : List FlowId) :
    b.Drains ((b.departing rule ids).map .departed) (b.after (b.departing rule ids)) := by
  induction ids generalizing b with
  | nil => exact .done b
  | cons id ids ih =>
      rw [departing_cons, after_append, List.map_append]
      refine .append ?_ (ih (hf.after _))
      cases hd : rule b id with
      | none => exact .done b
      | some d => exact .single (h.permits hf hd)

theorem events_after (b : Books) (ds : List Departure) :
    (b.after ds).events = b.events ++ ds.map Departure.event := by
  induction ds generalizing b with
  | nil => simp
  | cons d ds ih =>
      have hstep := ih (b.apply (.departed d))
      rw [events_apply, List.append_assoc] at hstep
      exact hstep

/-- A departure leaves the connections of other flows as they are. -/
theorem Lawful.get?_connections_of_ne {other : FlowId} (h : Lawful rule) (hf : b.Filed)
    (hd : rule b id = some d) (hne : other ≠ id) :
    (b.apply (.departed d)).connections.get? other = b.connections.get? other := by
  obtain ⟨con, hcon, rfl⟩ := h.connection hf hd
  rw [get?_connections_apply_departed, hcon, Option.any_some,
    decide_eq_false fun heq => hne heq.symm, if_neg Bool.false_ne_true]

/-- Each departure of a walk was decided by the books as the ones before it left them. -/
theorem decided_of_departing_eq {before later : List Departure}
    (h : b.departing rule ids = before ++ d :: later) :
    ∃ id ∈ ids, rule (b.after before) id = some d := by
  induction ids generalizing b before with
  | nil => simp [departing] at h
  | cons first rest ih =>
      rw [departing_cons] at h
      cases hfirst : rule b first with
      | none =>
          rw [hfirst] at h
          obtain ⟨id, hmem, hd⟩ := ih h
          exact ⟨id, List.mem_cons_of_mem first hmem, hd⟩
      | some e =>
          rw [hfirst] at h
          cases before with
          | nil =>
              obtain ⟨rfl, _⟩ := List.cons.inj h
              exact ⟨first, List.mem_cons_self, hfirst⟩
          | cons e' before =>
              obtain ⟨rfl, htail⟩ := List.cons.inj h
              obtain ⟨id, hmem, hd⟩ := ih htail
              exact ⟨id, List.mem_cons_of_mem first hmem, hd⟩

theorem decided_of_mem_departing (h : d ∈ b.departing rule ids) :
    ∃ before, ∃ id ∈ ids, rule (b.after before) id = some d := by
  obtain ⟨before, later, hsplit⟩ := List.append_of_mem h
  exact ⟨before, decided_of_departing_eq hsplit⟩

/-- What holds of a flow once the walk has come to it, and is kept by every departure, holds in the
end of all flows of the walk. -/
theorem departing_settles {Q : Books → FlowId → Prop}
    (hvisit : ∀ (b : Books) id, b.Filed → Q (b.after (rule b id).toList) id)
    (hkeep : ∀ (b : Books) other d id, b.Filed → rule b other = some d → Q b id →
      Q (b.apply (.departed d)) id)
    (hf : b.Filed) : ∀ id ∈ ids, Q (b.after (b.departing rule ids)) id := by
  have hkept : ∀ (ids : List FlowId) (b : Books) (id : FlowId), b.Filed → Q b id →
      Q (b.after (b.departing rule ids)) id := by
    intro ids
    induction ids with
    | nil => exact fun b id _ hQ => hQ
    | cons first rest ih =>
        intro b id hf hQ
        rw [departing_cons, after_append]
        refine ih _ id (hf.after _) ?_
        cases hd : rule b first with
        | none => exact hQ
        | some d => exact hkeep b first d id hf hd hQ
  induction ids generalizing b with
  | nil => simp
  | cons first rest ih =>
      intro id hmem
      rw [departing_cons, after_append]
      rcases List.mem_cons.mp hmem with rfl | hmem
      · exact hkept rest _ id (hf.after _) (hvisit b id hf)
      · exact ih (hf.after _) id hmem

theorem pair?_eq_some_iff : b.pair? t id = some d ↔
    ∃ con syn, b.connections.get? id = some con ∧ b.syns.get? id = some syn ∧
      d = .joined con syn (t.settings.guessAfter.map fun _ => false) := by
  simp only [pair?, Option.bind_eq_bind, Option.bind_eq_some_iff, Option.some.injEq]
  constructor
  · rintro ⟨con, hcon, syn, hsyn, rfl⟩
    exact ⟨con, syn, hcon, hsyn, rfl⟩
  · rintro ⟨con, syn, hcon, hsyn, rfl⟩
    exact ⟨con, hcon, syn, hsyn, rfl⟩

theorem pair?_eq_none_iff :
    b.pair? t id = none ↔ b.connections.get? id = none ∨ b.syns.get? id = none := by
  cases hcon : b.connections.get? id with
  | none => simp [pair?, hcon]
  | some con =>
      cases hsyn : b.syns.get? id with
      | none => simp [pair?, hcon, hsyn]
      | some syn => simp [pair?, hcon, hsyn]

theorem lawful_pair? (t : Terms) : Lawful (pair? t) where
  permits := by
    intro b id d hf hd
    obtain ⟨con, syn, hcon, hsyn, rfl⟩ := pair?_eq_some_iff.mp hd
    constructor
    · rintro _ ⟨⟩
      rwa [hf.connections id con hcon]
    · rintro _ ⟨⟩
      rwa [hf.syns id syn hsyn]
  connection := by
    intro b id d hf hd
    obtain ⟨con, syn, hcon, hsyn, rfl⟩ := pair?_eq_some_iff.mp hd
    exact ⟨con, rfl, hf.connections id con hcon⟩

theorem guess?_eq_some_iff {syn : Syn} (hf : b.Filed) : b.guess? t id con = some syn ↔
    t.mayGuess con = true ∧ eldest? b.syns id.relaxed = some (syn.flowId, syn) := by
  rw [guess?]
  split
  · next hmay =>
      rw [Option.map_eq_some_iff, hmay, eq_self, true_and]
      constructor
      · rintro ⟨⟨other, found⟩, heldest, rfl⟩
        have hget := (eldest?_eq_some_iff.mp heldest).1
        rw [heldest, hf.syns other found hget]
      · intro heldest
        exact ⟨_, heldest, rfl⟩
  · next hmay => simp [hmay]

theorem guess?_eq_none_iff : b.guess? t id con = none ↔
    (t.mayGuess con = true → ∀ other syn, b.syns.get? other = some syn →
      other.relaxed ≠ id.relaxed) := by
  rw [guess?]
  split
  · next hmay => rw [Option.map_eq_none_iff, eldest?_eq_none_iff, hmay, eq_self, true_implies]
  · next hmay => simp [hmay]

/-- A connection without SYN of its own leaves with the SYN that is guessed for it, or alone. -/
theorem verdict?_eq_some_iff : b.verdict? t id = some d ↔
    ∃ con, b.connections.get? id = some con ∧
      ((∃ syn, b.guess? t id con = some syn ∧ d = .joined con syn (some true)) ∨
        b.guess? t id con = none ∧ b.givesUp t con = true ∧ d = .unanswered con) := by
  simp only [verdict?, Option.bind_eq_bind, Option.bind_eq_some_iff]
  refine exists_congr fun con => and_congr_right fun _ => ?_
  cases b.guess? t id con with
  | some syn =>
      constructor
      · rintro ⟨⟩
        exact .inl ⟨syn, rfl, rfl⟩
      · rintro (⟨_, ⟨⟩, rfl⟩ | ⟨⟨⟩, _⟩)
        rfl
  | none =>
      cases b.givesUp t con with
      | false => simp
      | true => simp [eq_comm]

theorem verdict?_eq_none_iff : b.verdict? t id = none ↔
    ∀ con, b.connections.get? id = some con →
      b.guess? t id con = none ∧ b.givesUp t con = false := by
  cases hcon : b.connections.get? id with
  | none => simp [verdict?, hcon]
  | some con =>
      cases hguess : b.guess? t id con with
      | some syn => simp [verdict?, hcon, hguess]
      | none =>
          simp only [verdict?, hcon, hguess, Option.bind_eq_bind, Option.bind_some]
          cases hgives : b.givesUp t con with
          | true => simp [hguess, hgives]
          | false => simp [hguess, hgives]

theorem lawful_verdict? (t : Terms) : Lawful (verdict? t) where
  permits := by
    intro b id d hf hd
    obtain ⟨con, hcon, ⟨syn, hguess, rfl⟩ | ⟨_, _, rfl⟩⟩ := verdict?_eq_some_iff.mp hd
    · obtain ⟨_, heldest⟩ := (guess?_eq_some_iff hf).mp hguess
      constructor
      · rintro _ ⟨⟩
        rwa [hf.connections id con hcon]
      · rintro _ ⟨⟩
        exact (eldest?_eq_some_iff.mp heldest).1
    · constructor
      · rintro _ ⟨⟩
        rwa [hf.connections id con hcon]
      · rintro _ ⟨⟩
  connection := by
    intro b id d hf hd
    obtain ⟨con, hcon, ⟨_, _, rfl⟩ | ⟨_, _, rfl⟩⟩ := verdict?_eq_some_iff.mp hd
    · exact ⟨con, rfl, hf.connections id con hcon⟩
    · exact ⟨con, rfl, hf.connections id con hcon⟩

theorem nodup_byAge (b : Books) : b.connections.byAge.Nodup :=
  (Session.byAge_perm b.connections).nodup_iff.mpr b.connections.nodup_keys

theorem mem_byAge_of_get? (h : b.connections.get? id = some con) : id ∈ b.connections.byAge :=
  (Session.byAge_perm b.connections).mem_iff.mpr (Table.mem_keys_iff.mpr ⟨con, h⟩)

def paired (t : Terms) (b : Books) : List Departure :=
  b.departing (pair? t) b.connections.byAge

/-- The departures of the connections without SYN of their own. -/
def released (t : Terms) (b : Books) : List Departure :=
  b.departing (verdict? t) b.connections.byAge

theorem released_drains (t : Terms) (hf : b.Filed) :
    b.Drains ((b.released t).map .departed) (b.after (b.released t)) :=
  (lawful_verdict? t).drains hf b.connections.byAge

/-- A connection that gives up is past its age, and no shutdown is on. -/
theorem of_givesUp (h : b.givesUp t con = true) :
    t.isOverdue con = true ∧ t.closing = false ∧
      (t.settings.synEmptyQueue = true → b.syns.isEmpty = true) := by
  simp only [givesUp, Bool.and_eq_true, Bool.not_eq_true', Bool.and_eq_false_iff] at h
  obtain ⟨⟨hclosing, hheld⟩, hold⟩ := h
  refine ⟨hold, hclosing, fun hqueue => ?_⟩
  rcases hheld with hoff | hempty
  · rw [hqueue] at hoff
    cases hoff
  · simpa using hempty

/-- An exact pair is of one flow. -/
theorem of_mem_paired (hf : b.Filed) (hd : d ∈ b.paired t) :
    ∃ con syn, d = .joined con syn (t.settings.guessAfter.map fun _ => false) ∧
      con.flowId = syn.flowId := by
  obtain ⟨before, id, _, hpair⟩ := decided_of_mem_departing hd
  obtain ⟨con, syn, hcon, hsyn, heq⟩ := pair?_eq_some_iff.mp hpair
  have hfiled := hf.after before
  exact ⟨con, syn, heq, (hfiled.connections id con hcon).trans (hfiled.syns id syn hsyn).symm⟩

/-- Any other connection leaves with a guess or alone, and each only past its age. -/
theorem of_mem_released (hf : b.Filed) (hd : d ∈ b.released t) :
    (∃ con syn, d = .joined con syn (some true) ∧ t.mayGuess con = true) ∨
      ∃ con, d = .unanswered con ∧ t.closing = false := by
  obtain ⟨before, _, _, hverdict⟩ := decided_of_mem_departing hd
  obtain ⟨con, _, ⟨syn, hguess, heq⟩ | ⟨_, hgives, heq⟩⟩ := verdict?_eq_some_iff.mp hverdict
  · exact .inl ⟨con, syn, heq, ((guess?_eq_some_iff (hf.after before)).mp hguess).1⟩
  · exact .inr ⟨con, heq, (of_givesUp hgives).2.1⟩

end Books

end FlowVerdict
