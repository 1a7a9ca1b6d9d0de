import FlowVerdict.Failure
import FlowVerdict.Kernel.Snapshot
import FlowVerdict.Proofs.Table

/-!
# What a cycle does to the snapshot

A round of the sampler is taken apart into steps that are alike for both tables: the ageing at its
start, then one step for each row it takes up. Each step is described by what the two tables answer
after it.
-/

namespace FlowVerdict.Kernel

/-- The row that a line holds, if it is one to be taken up. -/
def Row.ofLine? (line : String) : Option Row :=
  match Reading.ofText line with
  | .tracked row => some row
  | _ => none

theorem Row.ofLine?_eq_some_iff {line : String} {row : Row} :
    ofLine? line = some row ↔ Reading.ofText line = .tracked row := by
  unfold ofLine?
  split
  · next h => simp [h]
  · next h => simpa using h row

def rows (listing : String) : List Row :=
  (Snapshot.listingLines listing).filterMap Row.ofLine?

/-- A row of one client, by its port before NAT and the one behind. -/
def exampleRow (port behind timeout : String) : String :=
  "tcp 6 " ++ timeout ++ " CLOSE src=a dst=b sport=" ++ port ++ " dport=80 src=b dst=a sport=1 " ++
    "dport=" ++ behind ++ " mark=0 use=1"

theorem rows_exampleRow_first : rows (exampleRow "5001" "7000" "0") =
    [⟨0, ⟨"a_80+7000"⟩, ⟨"a_80+5001"⟩, some 5001⟩] := by decide +kernel

theorem rows_exampleRow_second : rows (exampleRow "5002" "7000" "100") =
    [⟨100, ⟨"a_80+7000"⟩, ⟨"a_80+5002"⟩, some 5002⟩] := by decide +kernel

namespace Snapshot

variable {s : Snapshot} {row : Row} {id name : FlowId}

def conKey? (s : Snapshot) (id : FlowId) : Option FlowId :=
  (s.flows.get? id).map Tracked.conKey

theorem conKey?_eq_some_iff :
    s.conKey? id = some name ↔ ∃ flow, s.flows.get? id = some flow ∧ flow.conKey = name :=
  Option.map_eq_some_iff

theorem flows_merge (s : Snapshot) (row : Row) :
    (s.merge row).flows = s.flows.insert row.synKey ⟨row.conKey, .fresh row.timeout⟩ :=
  rfl

theorem conKey?_merge (s : Snapshot) (row : Row) (id : FlowId) :
    (s.merge row).conKey? id = if id = row.synKey then some row.conKey else s.conKey? id := by
  rw [conKey?, flows_merge, Table.get?_insert]
  split <;> rfl

/-- A row sets the port of its own name, and takes the name away that its flow had before. -/
theorem get?_ports_merge (s : Snapshot) (row : Row) (name : FlowId) :
    (s.merge row).ports.get? name =
      if name = row.conKey then some row.srcPort
      else if s.conKey? row.synKey = some name then none
      else s.ports.get? name := by
  unfold merge conKey?
  dsimp only
  cases hflow : s.flows.get? row.synKey with
  | none => simp [Table.get?_insert]
  | some before =>
      by_cases hsame : before.conKey = row.conKey
      · have hne : name ≠ row.conKey → before.conKey ≠ name := by
          rintro hne rfl
          exact hne hsame
        simp only [hsame, ne_eq, not_true_eq_false, if_false, Table.get?_insert, Option.map_some,
          Option.some.injEq]
        split
        · rfl
        · next hother => rw [if_neg (hsame ▸ hne hother)]
      · simp only [ne_eq, hsame, not_false_eq_true, if_true, Table.get?_erase, Table.get?_insert,
          Option.map_some, Option.some.injEq]
        by_cases hname : name = row.conKey
        · simp [hname, Ne.symm hsame]
        · simp [hname, eq_comm]

theorem mem_evicted_iff :
    name ∈ s.evicted ↔ ∃ id flow, s.flows.get? id = some flow ∧
      flow.liveness.age s.grace = none ∧ flow.conKey = name := by
  simp only [evicted, List.mem_filterMap, Table.mem_values_iff, Option.ite_none_right_eq_some,
    Option.isNone_iff_eq_none, Option.some.injEq]
  constructor
  · rintro ⟨flow, ⟨id, hflow⟩, hage, hname⟩
    exact ⟨id, flow, hflow, hage, hname⟩
  · rintro ⟨id, flow, hflow, hage, hname⟩
    exact ⟨flow, ⟨id, hflow⟩, hage, hname⟩

theorem get?_flows_age (s : Snapshot) (id : FlowId) :
    s.age.flows.get? id = (s.flows.get? id).bind fun flow =>
      (flow.liveness.age s.grace).map fun liveness => { flow with liveness } :=
  s.flows.get?_filterMap _ id

theorem get?_ports_age (s : Snapshot) (name : FlowId) :
    s.age.ports.get? name = if name ∈ s.evicted then none else s.ports.get? name :=
  s.ports.get?_eraseAll _ name

/-- A flow keeps its name while it is kept. -/
theorem conKey?_age_eq_some_iff :
    s.age.conKey? id = some name ↔
      ∃ flow, s.flows.get? id = some flow ∧ flow.liveness.age s.grace ≠ none ∧
        flow.conKey = name := by
  rw [conKey?, get?_flows_age]
  cases s.flows.get? id with
  | none => simp
  | some flow => cases hage : flow.liveness.age s.grace <;> simp [hage]

theorem foldl_mergeLine (lines : List String) (s : Snapshot) (report : Cycle) :
    (lines.foldl mergeLine (s, report)).1 = (lines.filterMap Row.ofLine?).foldl merge s := by
  induction lines generalizing s report with
  | nil => rfl
  | cons line rest ih =>
      rw [List.foldl_cons, List.filterMap_cons]
      unfold mergeLine Row.ofLine?
      dsimp only
      cases Reading.ofText line <;> exact ih _ _

def publish (s : Snapshot) (published : Publication) : Snapshot :=
  { s with published }

/-- A cycle ages the snapshot and takes up the rows of its listing. -/
theorem cycle_eq (s : Snapshot) (listing : String) (stamp : Float) :
    (s.cycle listing stamp).1 =
      ((rows listing).foldl merge s.age).publish (s.cycle listing stamp).1.published := by
  rw [rows, ← foldl_mergeLine _ s.age {}]
  rfl

end Snapshot

/-- A round of the sampler: what the tool answered, and when it was asked. -/
structure Round where
  answer : Except Failure String
  stamp : Float

/-- What changes the tables of a snapshot at one time. -/
inductive Step where
  | ageing
  | listed (row : Row)

def Step.Lists (name : FlowId) (x : Step) : Prop :=
  ∃ row, x = .listed row ∧ row.conKey = name

def Round.steps (r : Round) : List Step :=
  match r.answer with
  | .ok listing => .ageing :: (rows listing).map .listed
  | .error _ => []

namespace Snapshot

variable {s : Snapshot} {id name : FlowId}

def round (s : Snapshot) (r : Round) : Snapshot :=
  match r.answer with
  | .ok listing => (s.cycle listing r.stamp).1
  | .error _ => s

def rounds (s : Snapshot) (rs : List Round) : Snapshot :=
  rs.foldl round s

def step (s : Snapshot) : Step → Snapshot
  | .ageing => s.age
  | .listed row => s.merge row

def steps (s : Snapshot) (xs : List Step) : Snapshot :=
  xs.foldl step s

theorem steps_append (s : Snapshot) (xs ys : List Step) :
    s.steps (xs ++ ys) = (s.steps xs).steps ys :=
  List.foldl_append

theorem steps_listed (s : Snapshot) (rs : List Row) :
    s.steps (rs.map .listed) = rs.foldl merge s :=
  List.foldl_map

theorem steps_publish (s : Snapshot) (p : Publication) (xs : List Step) :
    (s.publish p).steps xs = (s.steps xs).publish p := by
  induction xs generalizing s with
  | nil => rfl
  | cons x rest ih =>
      have hstep : (s.publish p).step x = (s.step x).publish p := by cases x <;> rfl
      have hall : (s.publish p).steps (x :: rest) = ((s.publish p).step x).steps rest := rfl
      rw [hall, hstep, ih]
      rfl

theorem round_eq (s : Snapshot) (r : Round) :
    s.round r = (s.steps r.steps).publish (s.round r).published := by
  unfold round Round.steps
  cases r.answer with
  | error failure => rfl
  | ok listing =>
      dsimp only
      rw [cycle_eq, ← steps_listed]
      rfl

/-- Rounds are their steps, the publication apart. -/
theorem rounds_eq (s : Snapshot) (rs : List Round) :
    s.rounds rs = (s.steps (rs.flatMap Round.steps)).publish (s.rounds rs).published := by
  induction rs generalizing s with
  | nil => rfl
  | cons r rest ih =>
      have hall : s.rounds (r :: rest) = (s.round r).rounds rest := rfl
      rw [hall, ih (s.round r), round_eq s r, steps_publish, List.flatMap_cons, steps_append]
      rfl

end Snapshot

end FlowVerdict.Kernel
