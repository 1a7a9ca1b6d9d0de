import FlowVerdict.Json.Reader
import Mathlib.Data.List.Induction
import Mathlib.Order.Basic
import Mathlib.Data.String.Basic

/-!
# Members of JSON objects

An object that is read keeps one member for each key, sorted, with the value that came last. As a
map from keys to values that is all that there is to say about it, at every level of a value.
-/

namespace FlowVerdict.Json

variable {key other : String} {value : Json} {ms : Members} {m : String × Json}

namespace Members

@[simp] theorem get?_nil (key : String) : get? key [] = none :=
  rfl

theorem get?_cons (key : String) (m : String × Json) (ms : Members) :
    get? key (m :: ms) = if m.1 = key then some m.2 else get? key ms := by
  unfold get?
  by_cases h : m.1 = key <;> simp [h]

theorem mem_of_get?_eq_some (h : get? key ms = some value) : (key, value) ∈ ms := by
  induction ms with
  | nil => cases h
  | cons m ms ih =>
      rw [get?_cons] at h
      split at h
      · next heq =>
          cases h
          rw [← heq]
          exact List.mem_cons_self
      · exact List.mem_cons_of_mem m (ih h)

theorem get?_eq_none_iff : get? key ms = none ↔ key ∉ ms.map Prod.fst := by
  induction ms with
  | nil => simp
  | cons m ms ih =>
      rw [get?_cons, List.map_cons, List.mem_cons, not_or, ← ih]
      split
      · next heq => simp [heq]
      · next hne => simp [Ne.symm hne]

theorem get?_put (key other : String) (value : Json) (ms : Members) :
    get? other (put key value ms) = if key = other then some value else get? other ms := by
  induction ms with
  | nil => exact get?_cons other (key, value) []
  | cons m ms ih =>
      obtain ⟨k, v⟩ := m
      rw [put]
      split
      · next heq =>
          subst heq
          simp only [get?_cons]
          split <;> rfl
      · next hne =>
          split
          · exact get?_cons other (key, value) _
          · rw [get?_cons, get?_cons, ih]
            by_cases hk : k = other
            · rw [if_pos hk, if_pos hk, if_neg (fun h => hne (h.trans hk.symm))]
            · rw [if_neg hk, if_neg hk]

theorem mem_put (h : m ∈ put key value ms) : m = (key, value) ∨ m ∈ ms := by
  induction ms with
  | nil => exact .inl (List.mem_singleton.mp h)
  | cons n ms ih =>
      obtain ⟨k, v⟩ := n
      rw [put] at h
      split at h
      · rcases List.mem_cons.mp h with rfl | hmem
        · exact .inl rfl
        · exact .inr (List.mem_cons_of_mem _ hmem)
      · split at h
        · exact List.mem_cons.mp h
        · rcases List.mem_cons.mp h with rfl | hmem
          · exact .inr List.mem_cons_self
          · exact (ih hmem).imp_right (List.mem_cons_of_mem _)

def Unique (ms : Members) : Prop :=
  (ms.map Prod.fst).Nodup

def Ordered (ms : Members) : Prop :=
  ms.Pairwise fun m n => m.1 < n.1

theorem Ordered.unique (h : Ordered ms) : ms.Unique :=
  List.pairwise_map.mpr (h.imp fun hlt => ne_of_lt hlt)

theorem Ordered.put (h : Ordered ms) (key : String) (value : Json) :
    Ordered (ms.put key value) := by
  induction ms with
  | nil => exact List.pairwise_singleton _ _
  | cons m ms ih =>
      obtain ⟨k, v⟩ := m
      obtain ⟨hfirst, hrest⟩ := List.pairwise_cons.mp h
      rw [Members.put]
      split
      · next heq =>
          subst heq
          exact List.pairwise_cons.mpr ⟨hfirst, hrest⟩
      · next hne =>
          split
          · next hlt =>
              refine List.pairwise_cons.mpr ⟨?_, h⟩
              intro n hn
              rcases List.mem_cons.mp hn with rfl | hn
              · exact hlt
              · exact hlt.trans (hfirst n hn)
          · next hnlt =>
              have hlt : k < key := lt_of_le_of_ne (le_of_not_gt hnlt) (Ne.symm hne)
              refine List.pairwise_cons.mpr ⟨?_, ih hrest⟩
              intro n hn
              rcases mem_put hn with rfl | hn
              · exact hlt
              · exact hfirst n hn

theorem sorted_concat (ms : Members) (key : String) (value : Json) :
    (ms ++ [(key, value)]).sorted = ms.sorted.put key value :=
  List.foldl_append

theorem ordered_sorted (ms : Members) : Ordered ms.sorted := by
  induction ms using List.reverseRecOn with
  | nil => exact List.Pairwise.nil
  | append_singleton ms m ih =>
      rw [sorted_concat]
      exact ih.put m.1 m.2

theorem mem_sorted (h : m ∈ ms.sorted) : m ∈ ms := by
  induction ms using List.reverseRecOn with
  | nil => exact h
  | append_singleton ms n ih =>
      rw [sorted_concat] at h
      rcases mem_put h with rfl | hmem
      · exact List.mem_append_right ms List.mem_cons_self
      · exact List.mem_append_left _ (ih hmem)

/-- A member is what its key is mapped to. -/
theorem Unique.get?_eq (h : ms.Unique) (hm : m ∈ ms) : get? m.1 ms = some m.2 := by
  induction ms with
  | nil => cases hm
  | cons n ms ih =>
      obtain ⟨hnew, hrest⟩ := List.nodup_cons.mp h
      rw [get?_cons]
      rcases List.mem_cons.mp hm with rfl | hm
      · exact if_pos rfl
      · have hne : n.1 ≠ m.1 := by
          intro heq
          exact hnew (heq ▸ List.mem_map_of_mem hm)
        rw [if_neg hne]
        exact ih hrest hm

end Members

/-- Induction over a value: an array or object has a property if all its parts have it. -/
@[induction_eliminator]
theorem parts_induction {P : Json → Prop} (null : P .null) (bool : ∀ b, P (.bool b))
    (int : ∀ n, P (.int n)) (float : ∀ x, P (.float x)) (str : ∀ text, P (.str text))
    (arr : ∀ items, (∀ item ∈ items, P item) → P (.arr items))
    (obj : ∀ members : Members, (∀ m ∈ members, P m.2) → P (.obj members)) (j : Json) : P j :=
  @Json.rec P (fun items => ∀ item ∈ items, P item) (fun members => ∀ m ∈ members, P m.2)
    (fun m => P m.2) null bool int float str arr obj (List.forall_mem_nil _)
    (fun _ _ hitem hitems => List.forall_mem_cons.mpr ⟨hitem, hitems⟩) (List.forall_mem_nil _)
    (fun _ _ hm hms => List.forall_mem_cons.mpr ⟨hm, hms⟩) (fun _ _ hvalue => hvalue) j

mutual

/-- A value with its objects as they are kept, at every level. -/
def merged : Json → Json
  | arr items => arr (mergedItems items)
  | obj members => obj (Members.sorted (mergedMembers members))
  | null => null
  | bool b => bool b
  | int n => int n
  | float x => float x
  | str text => str text

def mergedItems : List Json → List Json
  | [] => []
  | item :: rest => merged item :: mergedItems rest

def mergedMembers : Members → Members
  | [] => []
  | (key, value) :: rest => (key, merged value) :: mergedMembers rest

end

theorem mergedItems_eq (items : List Json) : mergedItems items = items.map merged := by
  induction items with
  | nil => rfl
  | cons item rest ih => rw [mergedItems, ih, List.map_cons]

theorem mergedMembers_eq (members : Members) :
    mergedMembers members = members.map fun m => (m.1, m.2.merged) := by
  induction members with
  | nil => rfl
  | cons m rest ih => rw [mergedMembers, ih, List.map_cons]

end FlowVerdict.Json
