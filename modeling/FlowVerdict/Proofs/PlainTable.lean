import FlowVerdict.Proofs.ByteOrder
import FlowVerdict.Proofs.Index
import Mathlib.Data.List.Induction

/-!
# The pending SYNs as a plain table

The index only makes guesses fast. A table without one, which for a guess looks through every SYN,
answers every call alike, and after the same calls it holds the same SYNs.
-/

namespace FlowVerdict

/-- What can be asked of a collection of SYNs that is kept as a `σ`. -/
structure Store (σ : Type) where
  insert : σ → FlowId → Syn → σ
  take? : σ → FlowId → Option (Syn × σ)
  takeRelaxed? : σ → RelaxedKey → Option (FlowId × Syn × σ)
  get? : σ → FlowId → Option Syn
  contains : σ → FlowId → Bool
  size : σ → Nat
  newest? : σ → Option Float
  modify : σ → FlowId → (Syn → Syn) → σ

namespace Store

inductive Call where
  | insert (id : FlowId) (syn : Syn)
  | take (id : FlowId)
  | takeRelaxed (key : RelaxedKey)
  | get (id : FlowId)
  | contains (id : FlowId)
  | size
  | newest
  /-- Sets what connection tracking found out about a SYN. -/
  | mark (id : FlowId) (status : Option TrackingStatus)

inductive Answer where
  /-- Whether the flow was there. -/
  | present (known : Bool)
  | record (found : Option Syn)
  | guess (found : Option (FlowId × Syn))
  | count (n : Nat)
  | time (newest : Option Float)

variable {σ : Type}

def call (store : Store σ) (s : σ) : Call → Answer × σ
  | .insert id syn => (.present (store.contains s id), store.insert s id syn)
  | .take id =>
    match store.take? s id with
    | none => (.record none, s)
    | some (syn, rest) => (.record (some syn), rest)
  | .takeRelaxed key =>
    match store.takeRelaxed? s key with
    | none => (.guess none, s)
    | some (id, syn, rest) => (.guess (some (id, syn)), rest)
  | .get id => (.record (store.get? s id), s)
  | .contains id => (.present (store.contains s id), s)
  | .size => (.count (store.size s), s)
  | .newest => (.time (store.newest? s), s)
  | .mark id status =>
    (.record (store.get? s id), store.modify s id fun syn => { syn with status })

def calls (store : Store σ) (s : σ) : List Call → List Answer × σ
  | [] => ([], s)
  | c :: rest =>
    let (answer, next) := store.call s c
    let (answers, last) := store.calls next rest
    (answer :: answers, last)

end Store

/-- The first of some values that no other of them comes before. -/
def foremost? {α : Type} (before : α → α → Prop) [DecidableRel before] (l : List α) : Option α :=
  l.find? fun a => l.all fun b => ¬ before b a

/-- The order of SYNs in line: the older one first, of equally old ones the one whose flow comes
first byte by byte. -/
def Precedes (a b : FlowId × Syn) : Prop :=
  Timestamp.rank a.2.unixtime < Timestamp.rank b.2.unixtime ∨
    Timestamp.rank a.2.unixtime = Timestamp.rank b.2.unixtime ∧
      Text.bytes a.1.text < Text.bytes b.1.text

instance (a b : FlowId × Syn) : Decidable (Precedes a b) :=
  inferInstanceAs (Decidable (_ ∨ _))

/-- The first SYN in line among those with a relaxed key. -/
def eldest? (t : Table FlowId Syn) (key : RelaxedKey) : Option (FlowId × Syn) :=
  foremost? Precedes (t.entries.filter fun entry => entry.1.relaxed = key)

def plainStore : Store (Table FlowId Syn) where
  insert := Table.insert
  take? t id := (t.get? id).map fun syn => (syn, t.erase id)
  takeRelaxed? t key := (eldest? t key).map fun (id, syn) => (id, syn, t.erase id)
  get? := Table.get?
  contains := Table.contains
  size := Table.size
  newest? t :=
    foremost? (fun a b => Timestamp.rank b < Timestamp.rank a) (t.values.map Syn.unixtime)
  modify := Table.modify

def indexedStore : Store SynTable where
  insert := SynTable.insert
  take? := SynTable.take?
  takeRelaxed? := SynTable.takeRelaxed?
  get? := SynTable.get?
  contains := SynTable.contains
  size := SynTable.size
  newest? := SynTable.newest?
  modify := SynTable.modify

section Foremost

variable {α : Type} {before : α → α → Prop} [DecidableRel before] {l : List α} {a : α}

theorem of_foremost?_eq_some (h : foremost? before l = some a) :
    a ∈ l ∧ ∀ b ∈ l, ¬ before b a := by
  refine ⟨List.mem_of_find?_eq_some h, ?_⟩
  have hall := List.find?_some h
  simpa only [List.all_eq_true, decide_eq_true_eq] using hall

theorem foremost?_eq_some (hmem : a ∈ l) (hfirst : ∀ b ∈ l, ¬ before b a)
    (honly : ∀ b ∈ l, ¬ before a b → ¬ before b a → b = a) : foremost? before l = some a := by
  cases h : foremost? before l with
  | none =>
      have hno := List.find?_eq_none.mp h a hmem
      simp only [List.all_eq_true, decide_eq_true_eq] at hno
      exact absurd hfirst hno
  | some b =>
      obtain ⟨hb, hfirst'⟩ := of_foremost?_eq_some h
      rw [honly b hb (hfirst' a hmem) (hfirst b hb)]

theorem exists_foremost (htrans : ∀ a b c, before a b → before b c → before a c)
    (hirrefl : ∀ a, ¬ before a a) (h : l ≠ []) : ∃ a ∈ l, ∀ b ∈ l, ¬ before b a := by
  induction l with
  | nil => exact absurd rfl h
  | cons head tail ih =>
      by_cases htail : tail = []
      · refine ⟨head, List.mem_cons_self, ?_⟩
        simpa [htail] using hirrefl head
      · obtain ⟨first, hmem, hfirst⟩ := ih htail
        by_cases hhead : before head first
        · refine ⟨head, List.mem_cons_self, List.forall_mem_cons.mpr ⟨hirrefl head, ?_⟩⟩
          intro b hb hbefore
          exact hfirst b hb (htrans b head first hbefore hhead)
        · exact ⟨first, List.mem_cons_of_mem head hmem, List.forall_mem_cons.mpr ⟨hhead, hfirst⟩⟩

theorem foremost?_eq_none_iff (htrans : ∀ a b c, before a b → before b c → before a c)
    (hirrefl : ∀ a, ¬ before a a) : foremost? before l = none ↔ l = [] := by
  constructor
  · intro hnone
    by_contra hne
    obtain ⟨first, hmem, hfirst⟩ := exists_foremost htrans hirrefl hne
    have hno := List.find?_eq_none.mp hnone first hmem
    simp only [List.all_eq_true, decide_eq_true_eq] at hno
    exact hno hfirst
  · rintro rfl
    rfl

end Foremost

theorem Timestamp.rank_inj {a b : Float} (h : rank a = rank b) : a = b := by
  have hbits : a.toBits = b.toBits := by
    apply UInt64.toNat_inj.mp
    simp only [rank] at h
    split at h <;> split at h <;> omega
  obtain ⟨⟨bits, hvalid⟩⟩ := a
  obtain ⟨⟨bits', hvalid'⟩⟩ := b
  congr

theorem Precedes.trans (a b c : FlowId × Syn) (hab : Precedes a b) (hbc : Precedes b c) :
    Precedes a c := by
  simp only [Precedes] at *
  rcases hab with hab | ⟨hab, hab'⟩
  · left
    omega
  · rcases hbc with hbc | ⟨hbc, hbc'⟩
    · left
      omega
    · exact Or.inr ⟨hab.trans hbc, List.lt_trans hab' hbc'⟩

theorem Precedes.irrefl (a : FlowId × Syn) : ¬ Precedes a a := by
  rintro (h | ⟨_, h⟩)
  · omega
  · exact List.lt_irrefl _ h

/-- Of two flows in line one comes first. -/
theorem flow_eq_of_not_precedes {a b : FlowId × Syn} (hab : ¬ Precedes a b)
    (hba : ¬ Precedes b a) : a.1 = b.1 := by
  simp only [Precedes, Text.bytes_lt_iff, not_or, not_and] at hab hba
  have hrank : Timestamp.rank a.2.unixtime = Timestamp.rank b.2.unixtime := by omega
  have htext := String.le_antisymm (String.not_lt.mp (hba.2 hrank.symm))
    (String.not_lt.mp (hab.2 hrank))
  exact FlowId.ext_text htext

/-- The plain table answers with the one SYN of the key that comes before all others of the key. -/
theorem eldest?_eq_some_iff {t : Table FlowId Syn} {key : RelaxedKey} {id : FlowId} {syn : Syn} :
    eldest? t key = some (id, syn) ↔ t.get? id = some syn ∧ id.relaxed = key ∧
      ∀ id' syn', t.get? id' = some syn' → id'.relaxed = key →
        ¬ Precedes (id', syn') (id, syn) := by
  have hmem : ∀ id syn, (id, syn) ∈ t.entries.filter (fun entry => entry.1.relaxed = key) ↔
      t.get? id = some syn ∧ id.relaxed = key := by
    intro id syn
    rw [List.mem_filter, Table.mem_entries_iff, decide_eq_true_eq]
  constructor
  · intro heldest
    obtain ⟨hin, hfirst⟩ := of_foremost?_eq_some heldest
    obtain ⟨hget, hkey⟩ := (hmem id syn).mp hin
    refine ⟨hget, hkey, fun id' syn' hget' hkey' => ?_⟩
    exact hfirst (id', syn') ((hmem id' syn').mpr ⟨hget', hkey'⟩)
  · rintro ⟨hget, hkey, hfirst⟩
    apply foremost?_eq_some ((hmem id syn).mpr ⟨hget, hkey⟩)
    · rintro ⟨id', syn'⟩ hin
      obtain ⟨hget', hkey'⟩ := (hmem id' syn').mp hin
      exact hfirst id' syn' hget' hkey'
    · rintro ⟨id', syn'⟩ hin hnot hnot'
      have hflow : id = id' := flow_eq_of_not_precedes hnot hnot'
      subst hflow
      rw [Option.some.inj (hget.symm.trans ((hmem id syn').mp hin).1)]

theorem eldest?_eq_none_iff {t : Table FlowId Syn} {key : RelaxedKey} :
    eldest? t key = none ↔ ∀ id syn, t.get? id = some syn → id.relaxed ≠ key := by
  rw [eldest?, foremost?_eq_none_iff Precedes.trans Precedes.irrefl, List.filter_eq_nil_iff]
  simp only [decide_eq_true_eq, Prod.forall, Table.mem_entries_iff, ne_eq]

namespace SynTable

variable {t : SynTable} {ids : List FlowId} {id : FlowId}

theorem oldest?_eq_none_iff : t.oldest? ids = none ↔ ∀ id ∈ ids, t.get? id = none := by
  induction ids with
  | nil => simp [oldest?]
  | cons first rest ih =>
      rw [oldest?, List.forall_mem_cons]
      split
      · next hfirst => rw [ih, hfirst, eq_self, true_and]
      · next hfirst _ => simp [hfirst]
      · next hfirst _ =>
          split
          · simp [hfirst]
          · simp [hfirst]

/-- Of flows in their order, `oldest?` finds the pending one that is first in line. -/
theorem of_oldest?_eq_some {time : Float} (hordered : Ordered ids)
    (h : t.oldest? ids = some (id, time)) : ∃ syn, t.get? id = some syn ∧ syn.unixtime = time ∧
      ∀ other ∈ ids, ∀ syn', t.get? other = some syn' →
        ¬ Precedes (other, syn') (id, syn) := by
  induction ids generalizing id time with
  | nil => cases h
  | cons first rest ih =>
      obtain ⟨hfirst, hrest⟩ := List.pairwise_cons.mp hordered
      rw [oldest?] at h
      split at h
      · next hnone =>
          obtain ⟨syn, hget, htime, hleast⟩ := ih hrest h
          refine ⟨syn, hget, htime, List.forall_mem_cons.mpr ⟨?_, hleast⟩⟩
          intro syn' hother
          rw [hnone] at hother
          cases hother
      · next syn hget hnone =>
          cases h
          refine ⟨syn, hget, rfl, List.forall_mem_cons.mpr ⟨?_, ?_⟩⟩
          · intro syn' hother
            rw [Option.some.inj (hget.symm.trans hother)]
            exact Precedes.irrefl _
          · intro other hmem syn' hother
            rw [oldest?_eq_none_iff.mp hnone other hmem] at hother
            cases hother
      · next syn second time' hget hsecond =>
          obtain ⟨syn₂, hget₂, rfl, hleast⟩ := ih hrest hsecond
          split at h
          · next hle =>
              -- Equally old, the earlier one in the list wins, as its text is the smaller one.
              have hsenior : Precedes (first, syn) (second, syn₂) := by
                have hbefore := hfirst second (mem_of_oldest?_eq_some hsecond)
                simp only [Timestamp.le, decide_eq_true_eq] at hle
                rcases Int.lt_or_eq_of_le hle with hlt | heq
                · exact Or.inl hlt
                · exact Or.inr ⟨heq, Text.bytes_lt_iff.mpr hbefore⟩
              cases h
              refine ⟨syn, hget, rfl, List.forall_mem_cons.mpr ⟨?_, ?_⟩⟩
              · intro syn' hother
                rw [Option.some.inj (hget.symm.trans hother)]
                exact Precedes.irrefl _
              · intro other hmem syn' hother hbefore
                exact hleast other hmem syn' hother (hbefore.trans _ _ _ hsenior)
          · next hnle =>
              have hsenior : Precedes (second, syn₂) (first, syn) := by
                simp only [Timestamp.le, decide_eq_true_eq] at hnle
                exact Or.inl (Int.not_le.mp hnle)
              cases h
              refine ⟨syn₂, hget₂, rfl, List.forall_mem_cons.mpr ⟨?_, hleast⟩⟩
              intro syn' hother hbefore
              rw [← Option.some.inj (hget.symm.trans hother)] at hbefore
              exact Precedes.irrefl _ (hbefore.trans _ _ _ hsenior)

/-- What a guess answers, and what it leaves, is what the plain table says. -/
theorem Indexed.takeRelaxed?_eq (h : t.Indexed) (key : RelaxedKey) :
    (t.takeRelaxed? key).map (fun (id, syn, rest) => (id, syn, rest.records)) =
      plainStore.takeRelaxed? t.records key := by
  have hmem := h.mem_iff key
  cases holdest : t.oldest? (flowsOf t.index key) with
  | none =>
      have htake : t.takeRelaxed? key = none := by
        apply Option.eq_none_iff_forall_ne_some.mpr
        rintro ⟨id, syn, rest⟩ htake
        obtain ⟨time, hsome, _⟩ := takeRelaxed?_eq_some_iff.mp htake
        rw [holdest] at hsome
        cases hsome
      have heldest : eldest? t.records key = none := by
        apply eldest?_eq_none_iff.mpr
        intro id syn hget hkey
        have hnone := oldest?_eq_none_iff.mp holdest id ((hmem id).mpr ⟨⟨syn, hget⟩, hkey⟩)
        rw [get?, hget] at hnone
        cases hnone
      simp [htake, plainStore, heldest]
  | some found =>
      obtain ⟨id, time⟩ := found
      obtain ⟨syn, hget, _, hleast⟩ := of_oldest?_eq_some (h.ordered key) holdest
      obtain ⟨rest, htake, hrest⟩ := take?_of_get? hget
      have hguess : t.takeRelaxed? key = some (id, syn, rest) :=
        takeRelaxed?_eq_some_iff.mpr ⟨time, holdest, htake⟩
      have heldest : eldest? t.records key = some (id, syn) := by
        apply eldest?_eq_some_iff.mpr
        refine ⟨hget, (h.takeRelaxed? hguess).1, fun other syn' hother hkey => ?_⟩
        exact hleast other ((hmem other).mpr ⟨⟨syn', hother⟩, hkey⟩) syn' hother
      simp [hguess, plainStore, heldest, hrest]

/-- The latest of some timestamps is one of them, and none of them is later. -/
theorem foldl_later (time : Float) (times : List Float) :
    times.foldl Timestamp.later time ∈ time :: times ∧
      ∀ other ∈ time :: times,
        Timestamp.rank other ≤ Timestamp.rank (times.foldl Timestamp.later time) := by
  induction times using List.reverseRecOn with
  | nil => simp
  | append_singleton times last ih =>
      obtain ⟨hmem, hlatest⟩ := ih
      rw [List.foldl_append, List.foldl_cons, List.foldl_nil]
      generalize times.foldl Timestamp.later time = best at *
      rw [Timestamp.later]
      split
      · next hle =>
          refine ⟨by simp, fun other hother => ?_⟩
          rw [← List.cons_append] at hother
          rcases List.mem_append.mp hother with hother | hother
          · exact Int.le_trans (hlatest other hother) hle
          · cases List.mem_singleton.mp hother
            exact Int.le_refl _
      · next hnle =>
          refine ⟨List.mem_append_left [last] hmem, fun other hother => ?_⟩
          rw [← List.cons_append] at hother
          rcases List.mem_append.mp hother with hother | hother
          · exact hlatest other hother
          · rw [List.mem_singleton.mp hother]
            omega

theorem newest?_eq (t : SynTable) : t.newest? = plainStore.newest? t.records := by
  rw [newest?, plainStore]
  dsimp only
  split
  · next hnil => rw [hnil]; rfl
  · next syn rest hvalues =>
      obtain ⟨hmem, hlatest⟩ := foldl_later syn.unixtime (rest.map Syn.unixtime)
      rw [hvalues, List.map_cons, eq_comm, List.foldl_map] at *
      apply foremost?_eq_some hmem
      · intro other hother
        exact Int.not_lt.mpr (hlatest other hother)
      · intro other hother hnot _
        apply Timestamp.rank_inj
        exact Int.le_antisymm (hlatest other hother) (Int.not_lt.mp hnot)

theorem Indexed.call (h : t.Indexed) (c : Store.Call) :
    (indexedStore.call t c).1 = (plainStore.call t.records c).1 ∧
      (indexedStore.call t c).2.records = (plainStore.call t.records c).2 ∧
      (indexedStore.call t c).2.Indexed := by
  cases c with
  | insert id syn => exact ⟨rfl, rfl, h.insert⟩
  | take id =>
      cases hget : t.get? id with
      | none =>
          have htake : t.take? id = none := take?_eq_none_iff.mpr hget
          have hplain : t.records.get? id = none := hget
          simpa [Store.call, indexedStore, plainStore, htake, hplain] using h
      | some syn =>
          obtain ⟨rest, htake, hrest⟩ := take?_of_get? hget
          have hplain : t.records.get? id = some syn := hget
          simpa [Store.call, indexedStore, plainStore, htake, hplain, hrest] using h.take? htake
  | takeRelaxed key =>
      have hplain := h.takeRelaxed?_eq key
      cases htake : t.takeRelaxed? key with
      | none =>
          rw [htake, Option.map_none] at hplain
          simpa [Store.call, indexedStore, htake, ← hplain] using h
      | some found =>
          obtain ⟨id, syn, rest⟩ := found
          rw [htake, Option.map_some] at hplain
          simpa [Store.call, indexedStore, htake, ← hplain] using (h.takeRelaxed? htake).2
  | get id => exact ⟨rfl, rfl, h⟩
  | contains id => exact ⟨rfl, rfl, h⟩
  | size => exact ⟨rfl, rfl, h⟩
  | newest => exact ⟨congrArg Store.Answer.time t.newest?_eq, rfl, h⟩
  | mark id status => exact ⟨rfl, rfl, h.modify _⟩

/-- From a table whose index is in step, every series of calls is answered as the plain table
answers it, and leaves the same SYNs and an index in step. -/
theorem Indexed.calls (h : t.Indexed) (cs : List Store.Call) :
    (indexedStore.calls t cs).1 = (plainStore.calls t.records cs).1 ∧
      (indexedStore.calls t cs).2.records = (plainStore.calls t.records cs).2 ∧
      (indexedStore.calls t cs).2.Indexed := by
  induction cs generalizing t with
  | nil => exact ⟨rfl, rfl, h⟩
  | cons c rest ih =>
      obtain ⟨hanswer, hrecords, hindexed⟩ := h.call c
      obtain ⟨hanswers, hlast, hend⟩ := ih hindexed
      rw [hrecords] at hanswers hlast
      exact ⟨congrArg₂ List.cons hanswer hanswers, hlast, hend⟩

/-- From the empty table, whatever the calls: each is answered as the plain table answers it, the
SYNs at the end are those of the plain table, and the index names under each relaxed key exactly
the stored flows of that key. -/
theorem answers_as_plain (cs : List Store.Call) :
    (indexedStore.calls {} cs).1 = (plainStore.calls .empty cs).1 ∧
      (indexedStore.calls {} cs).2.records = (plainStore.calls .empty cs).2 ∧
      (indexedStore.calls {} cs).2.Indexed :=
  indexed_empty.calls cs

end SynTable

end FlowVerdict
