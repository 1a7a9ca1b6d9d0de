import FlowVerdict.Kernel.Query
import FlowVerdict.Run.Basic

/-!
# Rehearsals

A run played through on a clock of its own, in a world that is known beforehand: every listing of
the kernel's connection table is the same, and somebody outside intervenes, one intervention after
the other, each as soon as what it waits for has come about. Time passes only when nobody can act.
-/

namespace FlowVerdict

/-- Something done to a session from outside once a condition holds. -/
structure Intervention where
  isDue : Session → Bool
  act : Session → Session
  /-- Whether it comes about between two steps of the same moment; otherwise it waits until nobody
  in the run can act. -/
  prompt : Bool := false

/-- The world of a rehearsal. -/
structure World where
  /-- How every question for a listing is answered. -/
  listing : Except Failure String
  interventions : List Intervention := []

/-- A run in its world. -/
structure Rehearsal where
  run : Run
  world : World

namespace Rehearsal

/-- The rehearsal after its next intervention, if that is due. -/
def intervene (r : Rehearsal) (atRest : Bool) : Option Rehearsal :=
  match r.world.interventions with
  | [] => none
  | first :: rest =>
    if (atRest || first.prompt) && first.isDue r.run.session then
      some {
        run := { r.run with session := first.act r.run.session }
        world := { r.world with interventions := rest } }
    else none

/-- What the run does by itself at this moment: the sampler gets its answer, or somebody acts. -/
def act (r : Rehearsal) : Option Rehearsal :=
  if r.run.isAsking then
    some { r with run := r.run.answer r.run.clock.unix r.world.listing }
  else r.run.step.map fun run => { r with run }

/-- The passing of time up to the next moment at which somebody wakes. -/
def wait (r : Rehearsal) : Option Rehearsal :=
  r.run.due?.map fun moment => { r with run := r.run.wait moment }

/-- The next thing that happens. Nothing does after the end of the run, or if everybody waits for
input that does not come. -/
def step (r : Rehearsal) : Option Rehearsal :=
  if r.run.ending?.isSome then none
  else r.intervene false <|> r.act <|> r.intervene true <|> r.wait

/-- Plays on for at most so many steps. -/
def play : Nat → Rehearsal → Rehearsal
  | 0, r => r
  | fuel + 1, r =>
    match r.step with
    | some next => play fuel next
    | none => r

end Rehearsal

end FlowVerdict
