import FlowVerdict.Proofs.Office
import Mathlib.Data.List.Induction

/-!
# Looking back on a history

An event of a session was reported by one operation, in the state that this operation met. What is
asked of such an operation is asked of an office and an action.
-/

namespace FlowVerdict.Office

variable {o : Office} {a : Action} {history : List Action} {e : Event} {new : List Event}

/-- Some operation of a history was, in the state that it met, as `P` says. -/
def Sometime (P : Office → Action → Prop) (o : Office) (history : List Action) : Prop :=
  ∃ before a after, history = before ++ a :: after ∧ P (o.run before) a

theorem run_concat (o : Office) (history : List Action) (a : Action) :
    o.run (history ++ [a]) = (o.run history).act a :=
  run_append o history [a]

theorem not_sometime_nil (P : Office → Action → Prop) : ¬ Sometime P o [] := by
  rintro ⟨before, a, after, heq, _⟩
  simp at heq

theorem sometime_concat (P : Office → Action → Prop) :
    Sometime P o (history ++ [a]) ↔ Sometime P o history ∨ P (o.run history) a := by
  constructor
  · rintro ⟨before, b, after, heq, hP⟩
    rcases List.eq_nil_or_concat after with rfl | ⟨front, last, rfl⟩
    · obtain ⟨rfl, hlast⟩ := List.append_inj' heq rfl
      cases hlast
      exact Or.inr hP
    · rw [List.concat_eq_append, ← List.cons_append, ← List.append_assoc] at heq
      obtain ⟨rfl, _⟩ := List.append_inj' heq rfl
      exact Or.inl ⟨before, b, front, rfl, hP⟩
  · rintro (⟨before, b, after, rfl, hP⟩ | hP)
    · exact ⟨before, b, after ++ [a], by simp, hP⟩
    · exact ⟨history, a, [], rfl, hP⟩

def Reports (e : Event) (o : Office) (a : Action) : Prop :=
  ∃ new, (o.act a).books.events = o.books.events ++ new ∧ e ∈ new

theorem reports_iff (h : (o.act a).books.events = o.books.events ++ new) :
    o.Reports e a ↔ e ∈ new := by
  constructor
  · rintro ⟨new', hnew', hmem⟩
    rw [h] at hnew'
    rwa [List.append_cancel_left hnew']
  · intro hmem
    exact ⟨new, h, hmem⟩

/-- Whatever files a record reports nothing. -/
theorem events_act_of_arrival {r : Record} (h : o.arrival? a = some r) :
    (o.act a).books.events = o.books.events := by
  rw [books_act_of_arrival h]
  cases r <;> rfl

theorem events_act (hf : o.books.Filed) (a : Action) :
    ∃ new, (o.act a).books.events = o.books.events ++ new := by
  cases harrival : o.arrival? a with
  | some r => exact ⟨[], by rw [events_act_of_arrival harrival, List.append_nil]⟩
  | none =>
      obtain ⟨cs, hcs⟩ := drains_act_of_no_arrival harrival hf
      exact ⟨_, hcs.events_eq⟩

/-- Only a pass reports anything. -/
theorem Reports.is_pass (h : o.Reports e a) :
    (∃ now, a = .matchPass now) ∨ ∃ now, a = .scanPass now := by
  by_contra hno
  obtain ⟨hmatch, hscan⟩ := not_or.mp hno
  have hsame : (o.act a).books.events = o.books.events ++ [] := by
    rw [List.append_nil]
    cases harrival : o.arrival? a with
    | some r => exact events_act_of_arrival harrival
    | none =>
        rw [books_act_of_no_pass harrival (not_exists.mp hmatch) (not_exists.mp hscan)]
  exact List.not_mem_nil ((reports_iff hsame).mp h)

/-- An event was there at the start or was reported by an operation of the history. -/
theorem reported_in_run (hf : o.books.Filed) (h : e ∈ (o.run history).books.events) :
    e ∈ o.books.events ∨ Sometime (Reports e) o history := by
  induction history using List.reverseRecOn with
  | nil => exact Or.inl h
  | append_singleton history a ih =>
      rw [run_concat] at h
      obtain ⟨new, hnew⟩ := events_act (filed_run hf history) a
      rw [hnew] at h
      rcases List.mem_append.mp h with hold | hmem
      · exact (ih hold).imp_right fun hthen => (sometime_concat _).mpr (Or.inl hthen)
      · exact Or.inr ((sometime_concat _).mpr (Or.inr ⟨new, hnew, hmem⟩))

end FlowVerdict.Office
