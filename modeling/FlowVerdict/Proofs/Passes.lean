import FlowVerdict.Proofs.Books
import FlowVerdict.Proofs.Operations

/-!
# What the passes do to the books

Each pass is a walk over the flows of a table. One step of a walk changes nothing but the books, and
these by at most one departure; a whole walk is then a sequence of permitted changes.
-/

namespace FlowVerdict

open Books (Change)

/-- Whatever a change lets leave is of one flow. -/
def Books.Change.Only (id : FlowId) (c : Change) : Prop :=
  ∀ d, c = .departed d →
    (∀ con, d.connection? = some con → con.flowId = id) ∧ ∀ syn, d.syn? = some syn → syn.flowId = id

/-- No record of a flow leaves by a change. -/
def Books.Change.Spares (id : FlowId) (c : Change) : Prop :=
  ∀ d, c = .departed d → d.concerns id = false

/-- A SYN leaves by a change as a scan. -/
def Books.Change.IsScan (c : Change) : Prop :=
  ∃ syn, c = .departed (.scanned syn)

theorem Books.Change.Only.spares {id other : FlowId} {c : Change} (h : c.Only other)
    (hne : other ≠ id) : c.Spares id := by
  intro d hd
  obtain ⟨hcon, hsyn⟩ := h d hd
  have hc : d.connection?.any (fun con => con.flowId = id) = false := by
    cases hc : d.connection? with
    | none => rfl
    | some con => simpa [hcon con hc] using hne
  have hs : d.syn?.any (fun syn => syn.flowId = id) = false := by
    cases hs : d.syn? with
    | none => rfl
    | some syn => simpa [hsyn syn hs] using hne
  rw [Departure.concerns, hc, hs, Bool.or_self]

namespace Session

/-- What a pass reads and leaves as it is. -/
structure Frame (s s' : Session) : Prop where
  settings : s'.settings = s.settings
  snapshot : s'.snapshot = s.snapshot
  shutdown : s'.shutdown = s.shutdown

theorem Frame.refl (s : Session) : s.Frame s :=
  ⟨rfl, rfl, rfl⟩

theorem Frame.trans {s s' s'' : Session} (h : s.Frame s') (h' : s'.Frame s'') : s.Frame s'' :=
  ⟨h'.settings.trans h.settings, h'.snapshot.trans h.snapshot, h'.shutdown.trans h.shutdown⟩

theorem Frame.emit {s s' : Session} (h : s.Frame s') (e : Event) : s.Frame (s'.emit e) := by
  have hemit : s'.Frame (s'.emit e) := by
    unfold Session.emit
    dsimp only
    split <;> exact ⟨rfl, rfl, rfl⟩
  exact h.trans hemit

theorem books_emit (e : Event) (s : Session) :
    (s.emit e).books = { s.books with events := s.books.events ++ [e] } := by
  unfold emit
  dsimp only
  split <;> simp [books, log]

theorem emit_syns (e : Event) (s : Session) : (s.emit e).syns = s.syns := by
  unfold emit
  dsimp only
  split <;> rfl

theorem emit_connections (e : Event) (s : Session) : (s.emit e).connections = s.connections :=
  congrArg Books.connections (books_emit e s)

/-- A stretch of a pass: only the books change, by permitted changes that all satisfy `P`. -/
structure Drained (P : Change → Prop) (s s' : Session) : Prop where
  frame : s.Frame s'
  changes : ∃ cs, s.books.Drains cs s'.books ∧ ∀ c ∈ cs, P c

theorem Drained.refl (P : Change → Prop) (s : Session) : s.Drained P s :=
  ⟨.refl s, [], .done _, by simp⟩

theorem Drained.trans {P : Change → Prop} {s s' s'' : Session} (h : s.Drained P s')
    (h' : s'.Drained P s'') : s.Drained P s'' := by
  obtain ⟨cs, hcs, hP⟩ := h.changes
  obtain ⟨ds, hds, hQ⟩ := h'.changes
  refine ⟨h.frame.trans h'.frame, cs ++ ds, hcs.append hds, fun c hmem => ?_⟩
  rcases List.mem_append.mp hmem with hmem | hmem
  · exact hP c hmem
  · exact hQ c hmem

theorem Drained.mono {P Q : Change → Prop} {s s' : Session} (h : s.Drained P s')
    (himp : ∀ c, P c → Q c) : s.Drained Q s' := by
  obtain ⟨cs, hcs, hP⟩ := h.changes
  exact ⟨h.frame, cs, hcs, fun c hmem => himp c (hP c hmem)⟩

theorem Drained.filed {P : Change → Prop} {s s' : Session} (h : s.Drained P s')
    (hf : s.books.Filed) : s'.books.Filed := by
  obtain ⟨cs, hcs, _⟩ := h.changes
  exact hf.drains hcs

/-- A walk is drained if each of its steps is, and keeps what each step keeps. -/
theorem foldl_drained_keeps {β : Type} {f : Session × β → FlowId → Session × β}
    {P : FlowId → Change → Prop} {I : Session → Prop}
    (hstep : ∀ (state : Session × β) (id : FlowId), I state.1 →
      state.1.Drained (P id) (f state id).1 ∧ I (f state id).1)
    (ids : List FlowId) (state : Session × β) (h : I state.1) :
    state.1.Drained (fun c => ∃ id ∈ ids, P id c) (ids.foldl f state).1 ∧
      I (ids.foldl f state).1 := by
  induction ids generalizing state with
  | nil => exact ⟨.refl _ _, h⟩
  | cons head tail ih =>
      obtain ⟨hhead, hkept⟩ := hstep state head h
      obtain ⟨htail, hend⟩ := ih (f state head) hkept
      refine ⟨(hhead.mono fun c hc => ?_).trans (htail.mono fun c hc => ?_), hend⟩
      · exact ⟨head, List.mem_cons_self, hc⟩
      · obtain ⟨id, hmem, hP⟩ := hc
        exact ⟨id, List.mem_cons_of_mem head hmem, hP⟩

theorem foldl_drained {β : Type} {f : Session × β → FlowId → Session × β}
    {P : FlowId → Change → Prop}
    (hstep : ∀ (state : Session × β) (id : FlowId), state.1.books.Filed →
      state.1.Drained (P id) (f state id).1)
    (ids : List FlowId) (state : Session × β) (hf : state.1.books.Filed) :
    state.1.Drained (fun c => ∃ id ∈ ids, P id c) (ids.foldl f state).1 := by
  have hkeeps := foldl_drained_keeps (I := fun s => s.books.Filed)
    (fun state id hf => ⟨hstep state id hf, (hstep state id hf).filed hf⟩)
  exact (hkeeps ids state hf).1

/-- One departure, as the step of a walk makes it. -/
theorem drained_of_departed {P : Change → Prop} {s s' : Session} {d : Departure}
    (hframe : s.Frame s') (hpermits : s.books.Permits (.departed d))
    (hbooks : s'.books = s.books.apply (.departed d)) (hP : P (.departed d)) :
    s.Drained P s' := by
  refine ⟨hframe, [.departed d], ?_, by simpa using hP⟩
  rw [hbooks]
  exact .single hpermits

theorem guess?_eq_some {now : Float} {id : FlowId} {con : Connection} {s : Session} {syn : Syn}
    {rest : SynTable} (h : s.guess? now id con = some (syn, rest)) :
    ∃ other, s.syns.takeRelaxed? id.relaxed = some (other, syn, rest) := by
  simp only [guess?, Option.bind_eq_bind, Option.bind_eq_some_iff] at h
  obtain ⟨limit, _, h⟩ := h
  split at h
  · simp only [Option.bind_eq_some_iff, Option.some.injEq, Prod.exists, Prod.mk.injEq] at h
    obtain ⟨other, _, _, htake, rfl, rfl⟩ := h
    exact ⟨other, htake⟩
  · cases h

/-- What a step of a matching pass can do: nothing, or its connection leaves, in a pair with the SYN
of its flow or with a guess, or alone. -/
inductive Visit (id : FlowId) (s : Session) (report : PassReport) : Session × PassReport → Prop
  | skipped : Visit id s report (s, report)
  | paired {con : Connection} {syn : Syn} {syns : SynTable}
      (hcon : s.connections.get? id = some con) (htake : s.syns.take? id = some (syn, syns)) :
      Visit id s report
        ((s.withTables syns (s.connections.erase id)).emit
          (.accepted con syn (s.settings.guessAfter.map fun _ => false)),
        { report with exact := report.exact + 1 })
  | guessed {con : Connection} {other : FlowId} {syn : Syn} {syns : SynTable}
      (hcon : s.connections.get? id = some con)
      (htake : s.syns.takeRelaxed? id.relaxed = some (other, syn, syns)) :
      Visit id s report
        (((s.withTables syns (s.connections.erase id)).tallied fun t =>
          { t with guesses := t.guesses + 1 }).emit (.accepted con syn (some true)),
        { report with guessed := report.guessed + 1 })
  | unanswered {con : Connection} (hcon : s.connections.get? id = some con) :
      Visit id s report
        ((s.withTables s.syns (s.connections.erase id)).emit (.noSyn con),
        { report with noSyn := report.noSyn + 1 })
  | pending : Visit id s report (s, { report with pending := report.pending + 1 })

theorem matchExact_visits (s : Session) (report : PassReport) (id : FlowId) :
    Visit id s report (matchExact (s, report) id) := by
  rw [matchExact_eq]
  split
  · next hcon htake => exact .paired hcon htake
  · exact .skipped

theorem decideRest_visits (now : Float) (s : Session) (report : PassReport) (id : FlowId) :
    Visit id s report (decideRest now (s, report) id) := by
  rw [decideRest_eq]
  split
  · exact .skipped
  · next hcon =>
      split
      · next hguess =>
          obtain ⟨other, htake⟩ := guess?_eq_some hguess
          exact .guessed hcon htake
      · split
        · exact .unanswered hcon
        · exact .pending

section Visits

variable {id : FlowId} {s : Session} {report : PassReport} {state : Session × PassReport}

theorem Visit.frame (h : Visit id s report state) : s.Frame state.1 := by
  cases h with
  | skipped | pending => exact .refl s
  | paired | guessed | unanswered => exact .emit (by exact ⟨rfl, rfl, rfl⟩) _

/-- The connections of other flows stay pending. -/
theorem Visit.get?_connections_of_ne {other : FlowId} (h : Visit id s report state)
    (hne : other ≠ id) : state.1.connections.get? other = s.connections.get? other := by
  have herase : Table.get? (s.connections.erase id) other = s.connections.get? other := by
    rw [Table.get?_erase, if_neg hne]
  cases h with
  | skipped | pending => rfl
  | paired | guessed | unanswered =>
      rw [emit_connections]
      exact herase

end Visits

theorem matchExact_eq_of_absent {state : Session × PassReport} {id : FlowId}
    (h : state.1.connections.get? id = none ∨ state.1.syns.get? id = none) :
    matchExact state id = state := by
  obtain ⟨s, report⟩ := state
  rcases h with h | h
  · simp only [matchExact, h]
  · simp only [matchExact, SynTable.take?_eq_none_iff.mpr h]
    cases s.connections.get? id <;> rfl

/-- The exact step joins a connection with the SYN of its flow. -/
theorem matchExact_joins {state : Session × PassReport} {id : FlowId} {con : Connection}
    {syn : Syn} (hf : state.1.books.Filed) (hcon : state.1.connections.get? id = some con)
    (hsyn : state.1.syns.get? id = some syn) :
    state.1.Frame (matchExact state id).1 ∧
      state.1.books.Drains
        [.departed (.joined con syn (state.1.settings.guessAfter.map fun _ => false))]
        (matchExact state id).1.books ∧
      (matchExact state id).1.syns.get? id = none ∧
      (matchExact state id).1.connections.get? id = none := by
  obtain ⟨s, report⟩ := state
  obtain ⟨rest, htake, hrecords⟩ := SynTable.take?_of_get? hsyn
  have hconId : con.flowId = id := hf.connections id con hcon
  have hsynId : syn.flowId = id := hf.syns id syn hsyn
  simp only at hcon htake
  simp only [matchExact, hcon, htake]
  set d : Departure := .joined con syn (s.settings.guessAfter.map fun _ => false) with hd
  have hbooks : ({ s with connections := s.connections.erase id, syns := rest }.emit
      d.event).books = s.books.apply (.departed d) := by
    rw [books_emit, hd, Books.apply, hconId, hsynId]
    simp only [books, hrecords, Departure.event]
  have hpermits : s.books.Permits (.departed d) := by
    constructor
    · rintro _ ⟨⟩
      rwa [hconId]
    · rintro _ ⟨⟩
      rwa [hsynId]
  refine ⟨.emit (by exact ⟨rfl, rfl, rfl⟩) _, ?_, ?_, ?_⟩
  · exact hbooks ▸ .single hpermits
  · change (Session.books _).syns.get? id = none
    rw [show Event.accepted con syn (s.settings.guessAfter.map fun _ => false) = d.event from rfl,
      hbooks, Books.get?_syns_apply_departed]
    simp [hd, Departure.syn?, hsynId]
  · change (Session.books _).connections.get? id = none
    rw [show Event.accepted con syn (s.settings.guessAfter.map fun _ => false) = d.event from rfl,
      hbooks, Books.get?_connections_apply_departed]
    simp [hd, Departure.connection?, hconId]

theorem matchExact_drained (state : Session × PassReport) (id : FlowId)
    (hf : state.1.books.Filed) :
    state.1.Drained
      (fun c => c.Only id ∧ ∃ con syn guessed, c = .departed (.joined con syn guessed))
      (matchExact state id).1 := by
  cases hcon : state.1.connections.get? id with
  | none =>
      rw [matchExact_eq_of_absent (.inl hcon)]
      exact .refl _ _
  | some con =>
      cases hsyn : state.1.syns.get? id with
      | none =>
          rw [matchExact_eq_of_absent (.inr hsyn)]
          exact .refl _ _
      | some syn =>
          have hconId : con.flowId = id := hf.connections id con hcon
          have hsynId : syn.flowId = id := hf.syns id syn hsyn
          obtain ⟨hframe, hjoin, _⟩ := matchExact_joins hf hcon hsyn
          refine ⟨hframe, _, hjoin, fun c hmem => ?_⟩
          rw [List.mem_singleton.mp hmem]
          refine ⟨?_, _, _, _, rfl⟩
          rintro _ ⟨⟩
          constructor
          · rintro _ ⟨⟩
            exact hconId
          · rintro _ ⟨⟩
            exact hsynId

/-- What deciding about a connection without SYN of its own can do: nothing, let it leave alone, or
join it with a guess. -/
theorem decideRest_cases (now : Float) (state : Session × PassReport) (id : FlowId)
    (hf : state.1.books.Filed) :
    (decideRest now state id).1 = state.1 ∨ ∃ con d, con.flowId = id ∧
      state.1.Frame (decideRest now state id).1 ∧ state.1.books.Permits (.departed d) ∧
      (decideRest now state id).1.books = state.1.books.apply (.departed d) ∧
      (d = .unanswered con ∧ (decideRest now state id).1.syns = state.1.syns ∨
        ∃ other syn, d = .joined con syn (some true) ∧ state.1.syns.takeRelaxed? id.relaxed =
          some (other, syn, (decideRest now state id).1.syns)) := by
  obtain ⟨s, report⟩ := state
  cases hcon : s.connections.get? id with
  | none =>
      left
      simp only [decideRest, hcon]
  | some con =>
      have hconId : con.flowId = id := hf.connections id con hcon
      cases hguess : s.guess? now id con with
      | some taken =>
          obtain ⟨syn, rest⟩ := taken
          obtain ⟨other, htake⟩ := guess?_eq_some hguess
          obtain ⟨hsyn, hrecords⟩ := SynTable.of_takeRelaxed?_eq_some htake
          have hsynId : syn.flowId = other := hf.syns other syn hsyn
          right
          simp only [decideRest, hcon, hguess, emit_syns]
          refine ⟨con, .joined con syn (some true), hconId, .emit (by exact ⟨rfl, rfl, rfl⟩) _, ?_,
            ?_, .inr ⟨other, syn, rfl, htake⟩⟩
          · constructor
            · rintro _ ⟨⟩
              rwa [hconId]
            · rintro _ ⟨⟩
              rwa [hsynId]
          · rw [books_emit, Books.apply, hconId, hsynId]
            simp only [books, hrecords]
      | none =>
          simp only [decideRest, hcon, hguess]
          split
          · right
            refine ⟨con, .unanswered con, hconId, .emit (by exact ⟨rfl, rfl, rfl⟩) _, ?_, ?_,
              .inl ⟨rfl, emit_syns _ _⟩⟩
            · constructor
              · rintro _ ⟨⟩
                rwa [hconId]
              · rintro _ ⟨⟩
            · rw [books_emit, Books.apply, hconId]
              rfl
          · exact .inl rfl

theorem decideRest_drained (now : Float) (state : Session × PassReport) (id : FlowId)
    (hf : state.1.books.Filed) :
    state.1.Drained (fun c => ¬ c.IsScan) (decideRest now state id).1 := by
  rcases decideRest_cases now state id hf with
    hsame | ⟨con, d, _, hframe, hpermits, hbooks, ⟨rfl, _⟩ | ⟨_, syn, rfl, _⟩⟩
  · rw [hsame]
    exact .refl _ _
  · exact drained_of_departed hframe hpermits hbooks (by rintro ⟨_, ⟨⟩⟩)
  · exact drained_of_departed hframe hpermits hbooks (by rintro ⟨_, ⟨⟩⟩)

/-- Whether the scan step reports the SYN of a flow. -/
def isDue (horizon : Option Float) (now : Float) (id : FlowId) (s : Session) : Bool :=
  (s.syns.get? id).any fun syn => s.liveness? horizon id syn == some false && s.isExpired now syn

/-- Whether a SYN is due depends on what the pass does not change. -/
theorem isDue_congr {s s' : Session} {id : FlowId} {syn kept : Syn} (hframe : s.Frame s')
    (hsyn : s.syns.get? id = some syn) (hkept : s'.syns.get? id = some kept)
    (hsame : kept.unmarked = syn.unmarked) (horizon : Option Float) (now : Float) :
    s'.isDue horizon now id = s.isDue horizon now id := by
  obtain ⟨_, htime, _, htcp⟩ := Syn.unmarked_eq_iff.mp hsame
  simp only [isDue, hsyn, hkept, Option.any_some, liveness?, isExpired, hframe.snapshot,
    hframe.settings, htime, htcp]

@[simp] theorem isExpired_examined (now : Float) (live : Bool) (syn : Syn) (s : Session) :
    isExpired now (examined live syn) s = isExpired now syn s :=
  rfl

/-- What a step of a scan pass can do: nothing, or it reports its SYN, or marks it. -/
inductive Examination (horizon : Option Float) (now : Float) (id : FlowId) (s : Session)
    (emitted : Nat) : Session × Nat → Prop
  | skipped (hunknown : ∀ syn, s.syns.get? id = some syn → s.liveness? horizon id syn = none) :
      Examination horizon now id s emitted (s, emitted)
  | reported {syn : Syn} {syns : SynTable} (hsyn : s.syns.get? id = some syn)
      (hlive : s.liveness? horizon id syn = some false) (hexpired : s.isExpired now syn = true)
      (htake : s.syns.take? id = some (syn, syns)) :
      Examination horizon now id s emitted
        ((s.withTables syns s.connections).emit (.synScan (examined false syn)), emitted + 1)
  | marked {syn : Syn} {live : Bool} (hsyn : s.syns.get? id = some syn)
      (hlive : s.liveness? horizon id syn = some live)
      (hkept : (!live && s.isExpired now syn) = false) :
      Examination horizon now id s emitted
        (s.withTables (s.syns.modify id (examined live)) s.connections, emitted)

theorem scanOne_examines (horizon : Option Float) (now : Float) (s : Session) (emitted : Nat)
    (id : FlowId) : Examination horizon now id s emitted (scanOne horizon now (s, emitted) id) := by
  rw [scanOne_eq]
  cases hsyn : s.syns.get? id with
  | none => exact .skipped fun syn h => by simp [hsyn] at h
  | some syn =>
      cases hlive : s.liveness? horizon id syn with
      | none =>
          simp only [hlive]
          exact .skipped fun other h => Option.some.inj (hsyn.symm.trans h) ▸ hlive
      | some live =>
          cases hdue : !live && s.isExpired now syn with
          | false =>
              simp only [hlive, isExpired_examined, hdue, Bool.false_eq_true, if_false]
              exact .marked hsyn hlive hdue
          | true =>
              obtain ⟨rest, htake, _⟩ := SynTable.take?_of_get? hsyn
              obtain ⟨hdead, hexpired⟩ := Bool.and_eq_true_iff.mp hdue
              obtain rfl : live = false := by simpa using hdead
              simp only [hlive, isExpired_examined, hdue, htake, if_true]
              exact .reported hsyn hlive hexpired htake

section Examinations

variable {horizon : Option Float} {now : Float} {id : FlowId} {s : Session} {emitted : Nat}
  {state : Session × Nat}

theorem Examination.frame (h : Examination horizon now id s emitted state) :
    s.Frame state.1 := by
  cases h with
  | skipped => exact .refl s
  | reported => exact .emit (by exact ⟨rfl, rfl, rfl⟩) _
  | marked => exact ⟨rfl, rfl, rfl⟩

theorem Examination.connections (h : Examination horizon now id s emitted state) :
    state.1.connections = s.connections := by
  cases h with
  | skipped | marked => rfl
  | reported => exact emit_connections _ _

/-- A step reports a SYN that is due. -/
theorem Examination.reports {syn : Syn} (h : Examination horizon now id s emitted state)
    (hf : s.books.Filed) (hsyn : s.syns.get? id = some syn)
    (hdue : s.isDue horizon now id = true) :
    s.books.Drains [.examined id false, .departed (.scanned (examined false syn))]
        state.1.books ∧
      state.1.syns.get? id = none := by
  cases h with
  | skipped hunknown => simp [isDue, hsyn, hunknown syn hsyn] at hdue
  | @marked _ live hget hlive hkept =>
      cases live <;> simp_all [isDue]
  | @reported _ rest hget _ _ htake =>
      obtain rfl := Option.some.inj (hsyn.symm.trans hget)
      obtain ⟨_, hrecords⟩ := SynTable.of_take?_eq_some htake
      have hsynId : syn.flowId = id := hf.syns id syn hsyn
      have hmarked :
          (s.books.apply (.examined id false)).syns.get? id = some (examined false syn) := by
        rw [Books.get?_syns_apply_examined, if_pos rfl]
        exact congrArg _ hsyn
      have hbooks : ((s.withTables rest s.connections).emit (.synScan (examined false syn))).books =
          (s.books.apply (.examined id false)).apply
            (.departed (.scanned (examined false syn))) := by
        rw [books_emit]
        simp only [withTables, Books.apply, books, flowId_examined, hsynId, hrecords,
          Table.erase_modify]
      refine ⟨.next trivial (.next ?_ ?_), ?_⟩
      · constructor
        · rintro _ ⟨⟩
        · rintro _ ⟨⟩
          rwa [flowId_examined, hsynId]
      · exact hbooks ▸ .done _
      · change (Session.books _).syns.get? id = none
        rw [hbooks, Books.get?_syns_apply_departed]
        simp [Departure.syn?, hsynId]

/-- A step marks at most the SYN of a flow that is not due. -/
theorem Examination.keeps (h : Examination horizon now id s emitted state)
    (hdue : s.isDue horizon now id = false) :
    s.Drained (fun c => ∃ live, c = .examined id live) state.1 := by
  cases h with
  | skipped => exact .refl _ _
  | reported hsyn hlive hexpired => simp [isDue, hsyn, hlive, hexpired] at hdue
  | @marked _ live => exact ⟨⟨rfl, rfl, rfl⟩, [.examined id live], .single trivial, by simp⟩

theorem Examination.drained (h : Examination horizon now id s emitted state)
    (hf : s.books.Filed) : s.Drained (Change.Only id) state.1 := by
  cases hdue : s.isDue horizon now id with
  | false =>
      refine (h.keeps hdue).mono fun c hc => ?_
      obtain ⟨live, rfl⟩ := hc
      rintro _ ⟨⟩
  | true =>
      obtain ⟨syn, hsyn, _⟩ := (Option.any_eq_true _ _).mp hdue
      have hsynId : syn.flowId = id := hf.syns id syn hsyn
      refine ⟨h.frame, _, (h.reports hf hsyn hdue).1, fun c hmem => ?_⟩
      simp only [List.mem_cons, List.not_mem_nil, or_false] at hmem
      rcases hmem with rfl | rfl
      · rintro _ ⟨⟩
      · rintro _ ⟨⟩
        constructor
        · rintro _ ⟨⟩
        · rintro _ ⟨⟩
          rwa [flowId_examined]

end Examinations

theorem scanOne_drained (horizon : Option Float) (now : Float) (state : Session × Nat)
    (id : FlowId) (hf : state.1.books.Filed) :
    state.1.Drained (Change.Only id) (scanOne horizon now state id).1 :=
  (scanOne_examines horizon now state.1 state.2 id).drained hf

/-- The pending connections with their flows, as a matching pass visits them. -/
def entriesByAge (t : ConnectionTable) : List (FlowId × Connection) :=
  t.entries.mergeSort fun a b => Timestamp.le a.2.unixtime b.2.unixtime

theorem byAge_eq (t : ConnectionTable) : t.byAge = (entriesByAge t).map Prod.fst :=
  rfl

theorem entriesByAge_perm (t : ConnectionTable) : (entriesByAge t).Perm t.entries :=
  List.mergeSort_perm _ _

theorem sorted_entriesByAge (t : ConnectionTable) : (entriesByAge t).Pairwise fun a b =>
    Timestamp.rank a.2.unixtime ≤ Timestamp.rank b.2.unixtime := by
  refine (List.Pairwise.imp of_decide_eq_true
    (List.pairwise_mergeSort ?_ ?_ t.entries : (entriesByAge t).Pairwise _))
  · intro a b c hab hbc
    simp only [Timestamp.le, decide_eq_true_eq] at *
    exact Int.le_trans hab hbc
  · intro a b
    simp only [Timestamp.le, Bool.or_eq_true, decide_eq_true_eq]
    exact Int.le_total _ _

theorem byAge_perm (t : ConnectionTable) : t.byAge.Perm t.keys :=
  (entriesByAge_perm t).map Prod.fst

/-- A key in a list without repetitions splits the list into parts without it. -/
theorem exists_split_of_mem {ids : List FlowId} {id : FlowId} (hnodup : ids.Nodup)
    (hmem : id ∈ ids) :
    ∃ before after, ids = before ++ id :: after ∧ id ∉ before ∧ id ∉ after := by
  obtain ⟨before, after, rfl⟩ := List.append_of_mem hmem
  refine ⟨before, after, rfl, ?_, ?_⟩
  · intro hbefore
    exact (List.nodup_append.mp hnodup).2.2 id hbefore id List.mem_cons_self rfl
  · exact (List.nodup_cons.mp (List.nodup_append.mp hnodup).2.1).1

/-- A walk comes to a flow once: what the steps for other flows do lies before it or after it. -/
theorem walk_visits {β : Type} {f : Session × β → FlowId → Session × β}
    {P : FlowId → Change → Prop} {Q : Change → Prop} {ids : List FlowId} {id : FlowId}
    (hstep : ∀ (state : Session × β) (other : FlowId), state.1.books.Filed →
      state.1.Drained (P other) (f state other).1)
    (hother : ∀ other c, other ≠ id → P other c → Q c) (hnodup : ids.Nodup) (hmem : id ∈ ids)
    (state : Session × β) (hf : state.1.books.Filed) :
    ∃ middle : Session × β, state.1.Drained Q middle.1 ∧
      (f middle id).1.Drained Q (ids.foldl f state).1 := by
  obtain ⟨before, after, rfl, hbefore, hafter⟩ := exists_split_of_mem hnodup hmem
  have hhead := foldl_drained hstep before state hf
  have hfiled := hhead.filed hf
  have htail := foldl_drained hstep after (f (before.foldl f state) id)
    ((hstep _ id hfiled).filed hfiled)
  refine ⟨before.foldl f state, hhead.mono ?_, ?_⟩
  · rintro c ⟨other, hin, hP⟩
    exact hother other c (fun heq => hbefore (heq ▸ hin)) hP
  · rw [List.foldl_append, List.foldl_cons]
    refine htail.mono ?_
    rintro c ⟨other, hin, hP⟩
    exact hother other c (fun heq => hafter (heq ▸ hin)) hP

theorem filter_departures_eq_nil {cs : List Change} {id : FlowId}
    (h : ∀ d ∈ Books.departures cs, d.concerns id = false) :
    (Books.departures cs).filter (Departure.concerns id) = [] := by
  refine List.filter_eq_nil_iff.mpr fun d hmem => ?_
  simp [h d hmem]

theorem not_concerns_of_spares {cs : List Change} {id : FlowId} (h : ∀ c ∈ cs, c.Spares id) :
    ∀ d ∈ Books.departures cs, d.concerns id = false :=
  fun d hmem => h _ (Books.mem_departures_iff.mp hmem) d rfl

def exactPass (s : Session) : Session × PassReport :=
  s.connections.byAge.foldl matchExact (s, {})

theorem matchPass_eq_foldl (now : Float) (s : Session) :
    ((s.matchPass now).2, (s.matchPass now).1) =
      s.exactPass.1.connections.byAge.foldl (decideRest now) s.exactPass :=
  rfl

theorem matchPass_eq (now : Float) (s : Session) :
    (s.matchPass now).2 =
      (s.exactPass.1.connections.byAge.foldl (decideRest now) s.exactPass).1 :=
  congrArg Prod.fst (matchPass_eq_foldl now s)

theorem scanPass_eq (now : Float) (s : Session) :
    (s.scanPass now).2 = (s.syns.keys.foldl (scanOne s.horizon? now) (s, 0)).1 :=
  rfl

theorem decideRest_walk_drained (now : Float) (ids : List FlowId) (state : Session × PassReport)
    (hf : state.1.books.Filed) :
    state.1.Drained (fun c => ¬ c.IsScan) (ids.foldl (decideRest now) state).1 := by
  refine (foldl_drained (decideRest_drained now) ids state hf).mono fun c hc => ?_
  obtain ⟨_, _, hno⟩ := hc
  exact hno

theorem matchPass_drained (now : Float) (s : Session) (hf : s.books.Filed) :
    s.Drained (fun c => ¬ c.IsScan) (s.matchPass now).2 := by
  rw [matchPass_eq]
  have hexact := (foldl_drained matchExact_drained s.connections.byAge (s, {}) hf).mono
    (Q := fun c => ¬ c.IsScan) (by rintro _ ⟨_, _, _, _, _, _, rfl⟩ ⟨_, ⟨⟩⟩)
  exact hexact.trans (decideRest_walk_drained now _ _ (hexact.filed hf))

theorem scanPass_drained (now : Float) (s : Session) (hf : s.books.Filed) :
    s.Drained (fun _ => True) (s.scanPass now).2 := by
  rw [scanPass_eq]
  exact (foldl_drained (scanOne_drained _ now) _ (s, 0) hf).mono fun _ _ => trivial

/-- A matching pass joins the two records of a flow that is pending in both tables, and nothing
else that it reports concerns that flow. -/
theorem matchPass_joins {s : Session} {id : FlowId} {con : Connection} {syn : Syn}
    (hf : s.books.Filed) (hcon : s.connections.get? id = some con)
    (hsyn : s.syns.get? id = some syn) (now : Float) :
    ∃ cs, s.books.Drains cs (s.matchPass now).2.books ∧
      (Books.departures cs).filter (Departure.concerns id) =
        [.joined con syn (s.settings.guessAfter.map fun _ => false)] ∧
      (s.matchPass now).2.syns.get? id = none ∧
      (s.matchPass now).2.connections.get? id = none := by
  have hmem : id ∈ s.connections.byAge :=
    (byAge_perm s.connections).mem_iff.mpr (Table.mem_keys_iff.mpr ⟨con, hcon⟩)
  have hnodup : s.connections.byAge.Nodup :=
    (byAge_perm s.connections).nodup_iff.mpr s.connections.nodup_keys
  have hother : ∀ (other : FlowId) (c : Change), other ≠ id →
      (c.Only other ∧ ∃ con syn guessed, c = .departed (.joined con syn guessed)) →
        c.Spares id ∧ ∃ d, c = .departed d := by
    rintro _ _ hne ⟨honly, _, _, _, rfl⟩
    exact ⟨honly.spares hne, _, rfl⟩
  obtain ⟨middle, hhead, htail⟩ := walk_visits matchExact_drained hother hnodup hmem (s, {}) hf
  rw [← exactPass] at htail
  -- The walk up to the flow joins other flows only, so both records come to it as they were.
  obtain ⟨cs, hcs, hP⟩ := hhead.changes
  have hspare := not_concerns_of_spares fun c hc => (hP c hc).1
  have hcon' := hcs.keeps_connection hcon hspare
  obtain ⟨kept, hsyn', _, hequal⟩ := hcs.keeps_syn hsyn hspare
  have hkept : kept = syn := by
    refine hequal fun live hin => ?_
    obtain ⟨_, _, heq⟩ := hP _ hin
    cases heq
  subst hkept
  -- From here on the flow is in neither table, and no guess can take its SYN.
  obtain ⟨_, hjoin, hnosyn, hnocon⟩ := matchExact_joins (hhead.filed hf) hcon' hsyn'
  have hfiled := (hhead.filed hf).drains hjoin
  have hwalk := htail.mono (Q := fun _ => True) fun _ _ => trivial
  have hrest := hwalk.trans ((decideRest_walk_drained now
    s.exactPass.1.connections.byAge _ (hwalk.filed hfiled)).mono fun _ _ => trivial)
  rw [← matchPass_eq] at hrest
  obtain ⟨ds, hds, _⟩ := hrest.changes
  have hquiet := hds.not_concerns hnosyn hnocon
  refine ⟨_, (hcs.append hjoin).append hds, ?_, hds.get?_syns_eq_none hnosyn,
    hds.get?_connections_eq_none hnocon⟩
  have hconId : con.flowId = id := hf.connections id con hcon
  rw [Books.departures_append, Books.departures_append, List.filter_append, List.filter_append,
    filter_departures_eq_nil hspare, filter_departures_eq_nil hquiet, hhead.frame.settings]
  simp [Books.departures, Change.departure?, Departure.concerns, Departure.connection?, hconId]

/-- A scan pass reports a SYN that is due, whatever is pending beside it. -/
theorem scanPass_reports {s : Session} {id : FlowId} {syn : Syn} (hf : s.books.Filed)
    (hsyn : s.syns.get? id = some syn) {now : Float}
    (hdue : s.isDue s.horizon? now id = true) :
    ∃ cs kept, s.books.Drains cs (s.scanPass now).2.books ∧ kept.unmarked = syn.unmarked ∧
      (Books.departures cs).filter (Departure.concerns id) = [.scanned kept] ∧
      (s.scanPass now).2.syns.get? id = none := by
  have hmem : id ∈ s.syns.keys := Table.mem_keys_iff.mpr ⟨syn, hsyn⟩
  obtain ⟨middle, hhead, htail⟩ := walk_visits (scanOne_drained s.horizon? now)
    (fun _ _ hne hP => hP.spares hne) s.syns.records.nodup_keys hmem (s, 0) hf
  obtain ⟨cs, hcs, hP⟩ := hhead.changes
  have hspare := not_concerns_of_spares hP
  obtain ⟨kept, hsyn', hsame, _⟩ := hcs.keeps_syn hsyn hspare
  have hdue' := isDue_congr hhead.frame hsyn hsyn' hsame s.horizon? now
  obtain ⟨hscan, hnosyn⟩ := (scanOne_examines s.horizon? now middle.1 middle.2 id).reports
    (hhead.filed hf) hsyn' (hdue'.trans hdue)
  have hpass : (s.syns.records.keys.foldl (scanOne s.horizon? now) (s, 0)).1 =
      (s.scanPass now).2 := rfl
  rw [hpass] at htail
  obtain ⟨ds, hds, hQ⟩ := htail.changes
  have hquiet := not_concerns_of_spares hQ
  have hsynId : kept.flowId = id := (hhead.filed hf).syns id kept hsyn'
  refine ⟨_, examined false kept, (hcs.append hscan).append hds, hsame, ?_,
    hds.get?_syns_eq_none hnosyn⟩
  have hone : Books.departures [.examined id false, .departed (.scanned (examined false kept))] =
      [.scanned (examined false kept)] := rfl
  rw [Books.departures_append, Books.departures_append, List.filter_append, List.filter_append,
    filter_departures_eq_nil hspare, filter_departures_eq_nil hquiet, hone]
  simp [Departure.concerns, Departure.connection?, Departure.syn?, hsynId]

/-- A stretch of a pass that spares a flow does not make its SYN due. -/
theorem Drained.isDue_eq_false {s s' : Session} {id : FlowId} (h : s.Drained (Change.Spares id) s')
    {horizon : Option Float} {now : Float} (hdue : s.isDue horizon now id = false) :
    s'.isDue horizon now id = false := by
  obtain ⟨cs, hcs, hspare⟩ := h.changes
  cases hsyn : s.syns.get? id with
  | none =>
      have hnone : s'.syns.get? id = none := hcs.get?_syns_eq_none hsyn
      rw [isDue, hnone, Option.any_none]
  | some syn =>
      obtain ⟨kept, hkept, hsame, _⟩ := hcs.keeps_syn hsyn (not_concerns_of_spares hspare)
      rw [isDue_congr h.frame hsyn hkept hsame, hdue]

theorem scan_walk_spares {horizon : Option Float} {now : Float} {id : FlowId}
    (ids : List FlowId) (state : Session × Nat) (hf : state.1.books.Filed)
    (hdue : state.1.isDue horizon now id = false) :
    state.1.Drained (Change.Spares id) (ids.foldl (scanOne horizon now) state).1 := by
  induction ids generalizing state with
  | nil => exact .refl _ _
  | cons head tail ih =>
      have hhead : state.1.Drained (Change.Spares id) (scanOne horizon now state head).1 := by
        by_cases heq : head = id
        · subst heq
          have hstep := scanOne_examines horizon now state.1 state.2 head
          refine (hstep.keeps hdue).mono fun c hc => ?_
          obtain ⟨live, rfl⟩ := hc
          rintro _ ⟨⟩
        · exact (scanOne_drained horizon now state head hf).mono fun c hc => hc.spares heq
      exact hhead.trans (ih _ (hhead.filed hf) (hhead.isDue_eq_false hdue))

/-- A scan pass spares a SYN that is not due. -/
theorem scanPass_spares {s : Session} {id : FlowId} {now : Float} (hf : s.books.Filed)
    (hdue : s.isDue s.horizon? now id = false) :
    s.Drained (Change.Spares id) (s.scanPass now).2 := by
  rw [scanPass_eq]
  exact scan_walk_spares _ (s, 0) hf hdue

/-- A scan pass leaves the connections alone. -/
theorem scanPass_connections (now : Float) (s : Session) :
    (s.scanPass now).2.connections = s.connections := by
  have hwalk : ∀ (ids : List FlowId) (state : Session × Nat),
      (ids.foldl (scanOne s.horizon? now) state).1.connections = state.1.connections := by
    intro ids
    induction ids with
    | nil => exact fun _ => rfl
    | cons head tail ih =>
        exact fun state => (ih _).trans (scanOne_examines _ now state.1 state.2 head).connections
  rw [scanPass_eq]
  exact hwalk _ _

end Session

end FlowVerdict
