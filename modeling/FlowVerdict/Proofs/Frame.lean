import FlowVerdict.Proofs.Office

/-!
# What operations leave alone

No operation changes the settings, none but a cycle of the sampler changes the snapshot, and none
but a request changes how far a shutdown is; no request takes one back.
-/

namespace FlowVerdict

namespace Office

variable {o o' : Office} {a : Action}

/-- What an operation leaves alone, and how little it changes of the rest. -/
structure Keeps (o : Office) (a : Action) (o' : Office) : Prop where
  settings : o'.session.settings = o.session.settings
  snapshot : (∀ answer stamp, a ≠ .cycle answer stamp) → o'.session.snapshot = o.session.snapshot
  /-- Sampling is on for a whole session or not at all. -/
  sampling : o'.session.snapshot.isSome = o.session.snapshot.isSome
  /-- The shutdown stays where it is, or is taken as far as a graceful one at least. -/
  shutdown : o'.session.shutdown = o.session.shutdown ∨ o'.session.shutdown.graceful = true

theorem Keeps.of_frame (h : o.session.Frame o'.session) (a : Action) : o.Keeps a o' where
  settings := h.settings
  snapshot _ := h.snapshot
  sampling := congrArg Option.isSome h.snapshot
  shutdown := .inl h.shutdown

theorem act_keeps (hf : o.books.Filed) (a : Action) : o.Keeps a (o.act a) := by
  have hturn := o.turn a
  generalize o.act a = o', o.arrival? a = r, o.drops a = dropped at hturn ⊢
  cases hturn with
  | matchPass now => exact .of_frame (Session.matchPass_drained now o.session hf).frame _
  | scanPass now => exact .of_frame (Session.scanPass_drained now o.session hf).frame _
  | sampled => exact ⟨rfl, fun hno => absurd rfl (hno _ _), Option.isSome_map, .inl rfl⟩
  | closing hgraceful => exact ⟨rfl, fun _ => rfl, rfl, .inr hgraceful⟩
  | synFiled =>
      rw [Session.fileSyn_eq]
      exact ⟨rfl, fun _ => rfl, rfl, .inl rfl⟩
  | filed | settled =>
      rw [Session.fileConnection_eq]
      exact ⟨rfl, fun _ => rfl, rfl, .inl rfl⟩
  | _ => exact ⟨rfl, fun _ => rfl, rfl, .inl rfl⟩

theorem graceful_act (hf : o.books.Filed) (h : o.session.shutdown.graceful = true)
    (a : Action) : (o.act a).session.shutdown.graceful = true := by
  rcases (act_keeps hf a).shutdown with hsame | hgraceful
  · rw [hsame, h]
  · exact hgraceful

/-- A shutdown that is fast is graceful too. -/
theorem graceful_of_fast_run (hf : o.books.Filed)
    (h : o.session.shutdown.fast = true → o.session.shutdown.graceful = true)
    (actions : List Action) : (o.run actions).session.shutdown.fast = true →
      (o.run actions).session.shutdown.graceful = true := by
  induction actions generalizing o with
  | nil => exact h
  | cons a rest ih =>
      apply ih (filed_act hf a)
      rcases (act_keeps hf a).shutdown with hsame | hgraceful
      · rw [hsame]
        exact h
      · exact fun _ => hgraceful

theorem settings_run (hf : o.books.Filed) (actions : List Action) :
    (o.run actions).session.settings = o.session.settings := by
  induction actions generalizing o with
  | nil => rfl
  | cons a rest ih => exact (ih (filed_act hf a)).trans (act_keeps hf a).settings

theorem isSome_snapshot_run (hf : o.books.Filed) (actions : List Action) :
    (o.run actions).session.snapshot.isSome = o.session.snapshot.isSome := by
  induction actions generalizing o with
  | nil => rfl
  | cons a rest ih => exact (ih (filed_act hf a)).trans (act_keeps hf a).sampling

/-- Without sampling there never is a snapshot. -/
theorem snapshot_run_eq_none (hf : o.books.Filed) (h : o.session.snapshot = none)
    (actions : List Action) : (o.run actions).session.snapshot = none := by
  have hsame := isSome_snapshot_run hf actions
  rw [h] at hsame
  exact Option.not_isSome_iff_eq_none.mp (ne_true_of_eq_false hsame)

end Office

end FlowVerdict
