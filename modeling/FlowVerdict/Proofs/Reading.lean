import FlowVerdict.Record.Connection

/-!
# Records as they are read

A record comes out of the last step of its schema, whatever form the line has. So it has no status:
the streams do not carry one.
-/

namespace FlowVerdict

namespace Json

variable {α β δ ρ : Type}

/-- A computation that succeeds does so in each of its parts. -/
theorem exists_of_bind_eq_ok {first : Except Fault α} {second : α → Except Fault β} {b : β}
    (h : (first >>= second) = .ok b) : ∃ a, first = .ok a ∧ second a = .ok b := by
  cases first with
  | error fault => cases h
  | ok a => exact ⟨a, rfl, h⟩

theorem mistyped_ne_ok (expected : String) (b : UInt8) (rest : Bytes) (a : α) :
    mistyped expected b rest ≠ .ok a := by
  intro h
  unfold mistyped at h
  split at h
  · cases h
  · split at h
    · cases h
    · obtain ⟨_, _, h⟩ := exists_of_bind_eq_ok h
      cases h

variable {s : Schema δ ρ} {record : ρ} {rest : Bytes}

theorem Schema.of_complete_eq_ok {draft : δ} (h : s.complete draft = .ok record) :
    s.finish draft = some record := by
  unfold complete at h
  split at h
  · cases h
  · next hfinish => rw [hfinish, Except.ok.inj h]
  · cases h

/-- Whatever a schema reads is the finished form of some draft. -/
theorem Schema.of_read_eq_ok {depth : Nat} {text : Bytes}
    (h : s.read depth text = .ok (record, rest)) : ∃ draft, s.finish draft = some record := by
  unfold read at h
  obtain ⟨⟨b, body⟩, _, h⟩ := exists_of_bind_eq_ok h
  dsimp only at h
  split at h
  · split at h
    · cases h
    · unfold readObject at h
      obtain ⟨⟨draft, _⟩, _, h⟩ := exists_of_bind_eq_ok h
      obtain ⟨found, hcomplete, h⟩ := exists_of_bind_eq_ok h
      cases h
      exact ⟨draft, of_complete_eq_ok hcomplete⟩
  · split at h
    · split at h
      · cases h
      · unfold readArray at h
        obtain ⟨⟨draft, _⟩, _, h⟩ := exists_of_bind_eq_ok h
        obtain ⟨found, hcomplete, h⟩ := exists_of_bind_eq_ok h
        obtain ⟨_, _, h⟩ := exists_of_bind_eq_ok h
        cases h
        exact ⟨draft, of_complete_eq_ok hcomplete⟩
    · exact absurd h (mistyped_ne_ok _ _ _ _)

theorem of_readWhole_eq_ok {reader : Reader α} {text : Bytes} {value : α}
    (h : readWhole reader text = .ok value) : ∃ rest, reader text = .ok (value, rest) := by
  obtain ⟨⟨found, rest⟩, hread, h⟩ := exists_of_bind_eq_ok h
  obtain ⟨_, _, h⟩ := exists_of_bind_eq_ok h
  cases h
  exact ⟨rest, hread⟩

end Json

/-- A SYN comes without a status. -/
theorem Syn.status_of_parse {line : Json.Bytes} {syn : Syn} (h : Syn.parse line = .ok syn) :
    syn.status = none := by
  obtain ⟨rest, hread⟩ := Json.of_readWhole_eq_ok h
  obtain ⟨draft, hfinish⟩ := Json.Schema.of_read_eq_ok hread
  simp only [Syn.schema, Option.bind_eq_bind, Option.bind_eq_some_iff, Option.some.injEq] at hfinish
  obtain ⟨_, _, _, _, _, _, rfl⟩ := hfinish
  rfl

/-- A connection comes without a status. -/
theorem Connection.status_of_parse {line : Json.Bytes} {con : Connection}
    (h : Connection.parse line = .ok con) : con.status = none := by
  obtain ⟨rest, hread⟩ := Json.of_readWhole_eq_ok h
  obtain ⟨draft, hfinish⟩ := Json.Schema.of_read_eq_ok hread
  simp only [Connection.schema, Option.bind_eq_bind, Option.bind_eq_some_iff,
    Option.some.injEq] at hfinish
  obtain ⟨_, _, _, _, _, _, _, _, _, _, rfl⟩ := hfinish
  rfl

end FlowVerdict
