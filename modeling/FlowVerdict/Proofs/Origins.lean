import FlowVerdict.Proofs.OneFlow
import FlowVerdict.Proofs.Statuses

/-!
# Where the records of an event come from

Every record that an event reports came in a line of its stream. Nothing but a status is added to a
SYN on its way, and nothing but a status and perhaps another source port to a connection.
-/

namespace FlowVerdict

variable {line : Json.Bytes} {history longer : List Action} {con : Connection} {syn : Syn}

structure Syn.CameIn (syn : Syn) (line : Json.Bytes) (history : List Action) : Prop where
  mem : .header line ∈ history
  parse : Syn.parse line = .ok syn.unmarked

structure Connection.CameIn (con : Connection) (line : Json.Bytes) (history : List Action) :
    Prop where
  mem : .connection line ∈ history
  parse : ∃ parsed, Connection.parse line = .ok parsed ∧
    con = { parsed with srcPort := con.srcPort, status := con.status }

theorem Syn.CameIn.mono (h : syn.CameIn line history) (hsub : history ⊆ longer) :
    syn.CameIn line longer :=
  ⟨hsub h.mem, h.parse⟩

theorem Connection.CameIn.mono (h : con.CameIn line history) (hsub : history ⊆ longer) :
    con.CameIn line longer :=
  ⟨hsub h.mem, h.parse⟩

theorem Connection.CameIn.reconciled (h : con.CameIn line history) (s : Session) :
    (s.reconciled con).CameIn line history := by
  obtain ⟨hmem, parsed, hparse, heq⟩ := h
  refine ⟨hmem, parsed, hparse, ?_⟩
  unfold Session.reconciled
  split
  · unfold Kernel.Snapshot.reconcile
    split
    · rw [heq]
    · rw [heq]
    · split <;> rw [heq]
  · exact heq

namespace Office

variable {o : Office} {e : Event} {a : Action} {id : FlowId}

/-- The connections that are pending or wait came in lines of a history. -/
structure Traced (o : Office) (history : List Action) : Prop where
  pending : ∀ id con, o.books.connections.get? id = some con → ∃ line, con.CameIn line history
  held : ∀ held ∈ o.held, ∃ line, held.connection.CameIn line history

theorem Traced.arrival (h : o.Traced history) (harrival : o.arrival? a = some (.connection con)) :
    ∃ line, con.CameIn line (history ++ [a]) := by
  obtain ⟨parsed, rfl, hparsed⟩ := of_arrival?_eq_connection harrival
  rcases hparsed with ⟨line, rfl, hparse⟩ | ⟨held, hmem, rfl⟩
  · have hcame : parsed.CameIn line (history ++ [.connection line]) :=
      ⟨List.mem_append_right _ List.mem_cons_self, parsed, hparse, rfl⟩
    exact ⟨line, hcame.reconciled o.session⟩
  · obtain ⟨line, hcame⟩ := h.held held hmem
    exact ⟨line, (hcame.mono (List.subset_append_left _ _)).reconciled o.session⟩

theorem Traced.act (h : o.Traced history) (hf : o.books.Filed) (a : Action) :
    (o.act a).Traced (history ++ [a]) where
  pending id con hget := by
    rcases connection_before_act hf hget with harrival | hbefore
    · exact h.arrival harrival
    · obtain ⟨line, hcame⟩ := h.pending id con hbefore
      exact ⟨line, hcame.mono (List.subset_append_left _ _)⟩
  held held hmem := by
    rcases held_before_act hmem with hbefore | ⟨line, rfl, hparse⟩
    · obtain ⟨line, hcame⟩ := h.held held hbefore
      exact ⟨line, hcame.mono (List.subset_append_left _ _)⟩
    · exact ⟨line, List.mem_append_right _ List.mem_cons_self, held.connection, hparse, rfl⟩

theorem Traced.run (h : o.Traced []) (hf : o.books.Filed) (history : List Action) :
    (o.run history).Traced history := by
  induction history using List.reverseRecOn with
  | nil => exact h
  | append_singleton history a ih =>
      rw [run_concat]
      exact ih.act (filed_run hf history) a

theorem traced_start (settings : Settings) (output : Nat → Delivery) :
    (start settings output).Traced [] := by
  constructor
  · rintro id con ⟨⟩
  · rintro held ⟨⟩

/-- A pending SYN came in a line of the history. -/
theorem syn_cameIn (settings : Settings) (output : Nat → Delivery)
    (hget : ((start settings output).run history).session.syns.get? id = some syn) :
    ∃ line, syn.CameIn line history := by
  obtain ⟨before, a, later, rfl, hsince⟩ :=
    pending_since (orderly_start settings output) (fun _ => rfl) hget
  obtain ⟨line, rfl, hparse⟩ := of_arrival?_eq_syn hsince.filed
  exact ⟨line, List.mem_append_right before List.mem_cons_self, hparse⟩

/-- Every event reports records that came in lines of the history. -/
theorem exists_departure (settings : Settings) (output : Nat → Delivery)
    (h : e ∈ ((start settings output).run history).books.events) :
    ∃ d : Departure, e = d.event ∧
      (∀ con, d.connection? = some con → ∃ line, con.CameIn line history) ∧
      ∀ syn, d.syn? = some syn → ∃ line, syn.CameIn line history := by
  have hstart := orderly_start settings output
  rcases reported_in_run hstart.filed h with hold | ⟨before, a, after, rfl, hreports⟩
  · cases hold
  have horderly := orderly_run hstart before
  have htraced := (traced_start settings output).run hstart.filed before
  have hsub : before ⊆ before ++ a :: after := List.subset_append_left _ _
  rcases hreports.is_pass with ⟨now, rfl⟩ | ⟨now, rfl⟩
  · obtain ⟨cs, d, hcs, hmatches, hd, rfl⟩ := hreports.of_matchPass horderly
    refine ⟨d, rfl, ?_, ?_⟩
    · intro con hcon
      obtain ⟨line, hcame⟩ := htraced.pending _ con (hcs.connection_pending hd hcon)
      exact ⟨line, hcame.mono hsub⟩
    · intro syn hsyn
      have hpending := hcs.syn_pending (fun c hc => (hmatches c hc).departed) hd hsyn
      obtain ⟨line, hcame⟩ := syn_cameIn settings output hpending
      exact ⟨line, hcame.mono hsub⟩
  · obtain ⟨id, syn, hpending, _, rfl⟩ := hreports.of_scanPass
    refine ⟨.scanned (Session.examined false syn), rfl, ?_, ?_⟩
    · rintro con ⟨⟩
    · rintro _ ⟨⟩
      obtain ⟨line, hcame⟩ := syn_cameIn settings output hpending
      exact ⟨line, hsub hcame.mem, hcame.parse⟩

end Office

end FlowVerdict
