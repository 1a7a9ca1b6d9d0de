import FlowVerdict.Proofs.Kept

/-!
# Members of headers

A header puts its declared members in front and all others, sorted, behind them. As a map from keys
to values that is the object that stands in the line, with the last value of a repeated key: the
declared members cannot be repeated, and no other member has the key of a declared one.
-/

namespace FlowVerdict

namespace Json

variable {δ ρ : Type} {depth : Nat} {text rest : Bytes} {a b key name : String}
  {v w value given : Json} {x y : Option Json} {members kept others : Members} {m : String × Json}

/-- Members say what the members of a text say, with the last value of a repeated key. -/
structure Carries (kept given : Members) : Prop where
  unique : kept.Unique
  get?_eq : ∀ key, kept.get? key = (Members.get? key given.reverse).map merged

def CarriesObject (j given : Json) : Prop :=
  ∃ kept members, j = .obj kept ∧ given = .obj members ∧ Carries kept members

theorem Carries.exists_of_mem (h : Carries kept members) (hm : m ∈ kept) :
    ∃ value, (m.1, value) ∈ members ∧ m.2 = value.merged := by
  have hget := h.get?_eq m.1
  rw [h.unique.get?_eq hm] at hget
  obtain ⟨value, hvalue, heq⟩ := Option.map_eq_some_iff.mp hget.symm
  exact ⟨value, List.mem_reverse.mp (Members.mem_of_get?_eq_some hvalue), heq.symm⟩

/-- What is kept of an object by a header is kept part by part. -/
theorem CarriesObject.partByPart {R : Json → Json → Prop} {j : Json} (h : CarriesObject j given)
    (hparts : PartByPart R) : R given j := by
  obtain ⟨kept, members, rfl, rfl, hcarries⟩ := h
  refine hparts.obj members kept hcarries.unique fun m hm => ?_
  obtain ⟨value, hvalue, heq⟩ := hcarries.exists_of_mem hm
  exact ⟨value, hvalue, heq ▸ hparts.merged value⟩

theorem get?_reverse_concat (key : String) (members : Members) (m : String × Json) :
    Members.get? key (members ++ [m]).reverse =
      if m.1 = key then some m.2 else Members.get? key members.reverse := by
  rw [List.reverse_append]
  exact Members.get?_cons key m members.reverse

/-- What a header under way has taken up: two declared members by their keys, if they have come, and
the others. -/
structure Shows (a b : String) (x y : Option Json) (others members : Members) : Prop where
  first : x = (Members.get? a members.reverse).map merged
  second : y = (Members.get? b members.reverse).map merged
  ordered : others.Ordered
  others_eq : ∀ key, others.get? key =
    if key = a ∨ key = b then none else (Members.get? key members.reverse).map merged

theorem shows_nil (a b : String) : Shows a b none none [] [] where
  first := rfl
  second := rfl
  ordered := List.Pairwise.nil
  others_eq key := by split <;> rfl

theorem Shows.takeFirst (h : Shows a b x y others members) (hne : a ≠ b) (given : Json) :
    Shows a b (some given.merged) y others (members ++ [(a, given)]) where
  first := by rw [get?_reverse_concat, if_pos rfl]; rfl
  second := by rw [get?_reverse_concat, if_neg hne]; exact h.second
  ordered := h.ordered
  others_eq key := by
    rw [h.others_eq, get?_reverse_concat]
    by_cases hkey : key = a ∨ key = b
    · rw [if_pos hkey, if_pos hkey]
    · rw [if_neg hkey, if_neg hkey, if_neg fun heq => hkey (.inl heq.symm)]

theorem Shows.swap (h : Shows a b x y others members) : Shows b a y x others members where
  first := h.second
  second := h.first
  ordered := h.ordered
  others_eq key := by
    rw [h.others_eq]
    exact if_congr or_comm rfl rfl

theorem Shows.takeSecond (h : Shows a b x y others members) (hne : a ≠ b) (given : Json) :
    Shows a b x (some given.merged) others (members ++ [(b, given)]) :=
  (h.swap.takeFirst hne.symm given).swap

theorem Shows.takeOther (h : Shows a b x y others members) (ha : name ≠ a) (hb : name ≠ b)
    (given : Json) :
    Shows a b x y (others.put name given.merged) (members ++ [(name, given)]) where
  first := by rw [get?_reverse_concat, if_neg ha]; exact h.first
  second := by rw [get?_reverse_concat, if_neg hb]; exact h.second
  ordered := h.ordered.put name _
  others_eq key := by
    rw [Members.get?_put, h.others_eq, get?_reverse_concat]
    by_cases hname : name = key
    · subst hname
      rw [if_pos rfl, if_pos rfl, if_neg (not_or.mpr ⟨ha, hb⟩)]
      rfl
    · rw [if_neg hname, if_neg hname]

/-- A finished header carries what stands in the text. -/
theorem Shows.carries (h : Shows a b (some v) (some w) others members) (hne : a ≠ b) :
    Carries ([(a, v), (b, w)] ++ others) members where
  unique := by
    have hnot : ∀ key, key = a ∨ key = b → key ∉ others.map Prod.fst := by
      intro key hkey
      apply Members.get?_eq_none_iff.mp
      rw [h.others_eq, if_pos hkey]
    refine List.nodup_cons.mpr ⟨?_, List.nodup_cons.mpr ⟨hnot b (.inr rfl), h.ordered.unique⟩⟩
    intro hmem
    rcases List.mem_cons.mp hmem with heq | hmem
    · exact hne heq
    · exact hnot a (.inl rfl) hmem
  get?_eq key := by
    rw [List.cons_append, List.cons_append, List.nil_append, Members.get?_cons, Members.get?_cons,
      h.others_eq]
    by_cases ha : a = key
    · subst ha
      rw [if_pos rfl]
      exact h.first
    · by_cases hb : b = key
      · subst hb
        rw [if_neg ha, if_pos rfl]
        exact h.second
      · have hkey : ¬ (key = a ∨ key = b) := fun hor => hor.elim (Ne.symm ha) (Ne.symm hb)
        rw [if_neg ha, if_neg hb, if_neg hkey]

theorem of_field_read {n : String} {required : Bool} {reader : Reader α} {get : δ → Option α}
    {set : δ → α → δ} {draft next : δ}
    (h : (Field.of n required reader get set).read draft text = .ok (next, rest)) :
    ∃ a, reader text = .ok (a, rest) ∧ next = set draft a := by
  obtain ⟨⟨a, after⟩, hread, h⟩ := exists_of_bind_eq_ok h
  cases h
  exact ⟨a, hread, rfl⟩

/-- What follows a key in a record of two declared fields. -/
theorem Schema.member_of_two {s : Schema δ ρ} {f g : Field δ} {draft next : δ}
    (hfields : s.fields = [f, g]) (h : s.member draft name text = .ok (next, rest)) :
    ∃ after, readColon text = .ok after ∧
      ((name = f.name ∧ f.read draft after = .ok (next, rest)) ∨
        (name = g.name ∧ g.read draft after = .ok (next, rest)) ∨
        (name ≠ f.name ∧ name ≠ g.name ∧ s.other draft name after = .ok (next, rest))) := by
  unfold Schema.member at h
  rw [hfields] at h
  by_cases hf : f.name = name
  · rw [List.find?_cons_of_pos (by simpa using hf)] at h
    dsimp only at h
    split at h
    · cases h
    · obtain ⟨after, hcolon, h⟩ := exists_of_bind_eq_ok h
      exact ⟨after, hcolon, .inl ⟨hf.symm, h⟩⟩
  · rw [List.find?_cons_of_neg (by simpa using hf)] at h
    by_cases hg : g.name = name
    · rw [List.find?_cons_of_pos (by simpa using hg)] at h
      dsimp only at h
      split at h
      · cases h
      · obtain ⟨after, hcolon, h⟩ := exists_of_bind_eq_ok h
        exact ⟨after, hcolon, .inr (.inl ⟨hg.symm, h⟩)⟩
    · rw [List.find?_cons_of_neg (by simpa using hg)] at h
      obtain ⟨after, hcolon, h⟩ := exists_of_bind_eq_ok h
      exact ⟨after, hcolon, .inr (.inr ⟨Ne.symm hf, Ne.symm hg, h⟩)⟩

theorem of_keepOther {others others' : Members}
    (h : keepOther depth name others text = .ok (others', rest)) :
    ∃ given, readListed depth text = .ok (given, rest) ∧
      others' = others.put name given.merged := by
  obtain ⟨⟨value, after⟩, hvalue, h⟩ := exists_of_bind_eq_ok h
  cases h
  obtain ⟨given, hgiven, rfl⟩ := exists_of_readValue hvalue
  exact ⟨given, hgiven, rfl⟩

section Headers

variable {α : Type} {title : String} {reader : Reader α} {build : α → α → Members → ρ}
  {written : α → Json} {toJson : ρ → Json} {draft next : HeaderDraft α}

/-- What a header takes up of its text: a declared member as it is written, any other as it is
kept. -/
theorem listMember_headerSchema (hne : a ≠ b)
    (hfollows : Follows reader depth fun value given => given.merged = written value)
    (hshows : Shows a b (draft.first.map written) (draft.second.map written) draft.others members)
    (hread : (headerSchema title a b reader build depth).member draft name text =
      .ok (next, rest)) :
    ∃ members', listMember (readListed depth) members name text = .ok (members', rest) ∧
      Shows a b (next.first.map written) (next.second.map written) next.others members' := by
  obtain ⟨after, hcolon, hcases⟩ := Schema.member_of_two rfl hread
  have hlisted : ∀ given, readListed depth after = .ok (given, rest) →
      listMember (readListed depth) members name text = .ok (members ++ [(name, given)], rest) := by
    intro given hgiven
    simp only [listMember, hcolon, hgiven, bind, Except.bind]
  rcases hcases with ⟨rfl, h⟩ | ⟨rfl, h⟩ | ⟨hfirst, hsecond, h⟩
  · obtain ⟨value, hvalue, rfl⟩ := of_field_read h
    obtain ⟨given, hgiven, hwritten⟩ := hfollows _ _ _ hvalue
    refine ⟨_, hlisted given hgiven, ?_⟩
    rw [Option.map_some, ← hwritten]
    exact hshows.takeFirst hne given
  · obtain ⟨value, hvalue, rfl⟩ := of_field_read h
    obtain ⟨given, hgiven, hwritten⟩ := hfollows _ _ _ hvalue
    refine ⟨_, hlisted given hgiven, ?_⟩
    rw [Option.map_some, ← hwritten]
    exact hshows.takeSecond hne given
  · obtain ⟨⟨others, _⟩, hkeep, h⟩ := exists_of_bind_eq_ok h
    cases h
    obtain ⟨given, hgiven, rfl⟩ := of_keepOther hkeep
    exact ⟨_, hlisted given hgiven, hshows.takeOther hfirst hsecond given⟩

/-- A header carries the object that stands in the text. -/
theorem follows_headerSchema (written : α → Json) (hne : a ≠ b)
    (hfollows : Follows reader depth fun value given => given.merged = written value)
    (hjson : ∀ v w others,
      toJson (build v w others) = .obj ([(a, written v), (b, written w)] ++ others)) :
    Follows ((headerSchema title a b reader build depth).read (depth + 1)) (depth + 1)
      fun record given => CarriesObject (toJson record) given := by
  intro text record rest hread
  obtain ⟨⟨c, body⟩, hstart, hread⟩ := exists_of_bind_eq_ok hread
  dsimp only at hread
  split at hread
  · next hobj =>
      subst hobj
      rw [if_neg (Nat.succ_ne_zero depth)] at hread
      obtain ⟨⟨draft, _⟩, hmembers, hread⟩ := exists_of_bind_eq_ok hread
      obtain ⟨_, hcomplete, hread⟩ := exists_of_bind_eq_ok hread
      cases hread
      obtain ⟨members, hlisted, hshows⟩ := readMembers_simulates
        (R := fun (draft : HeaderDraft α) members =>
          Shows a b (draft.first.map written) (draft.second.map written) draft.others members)
        hmembers (shows_nil a b)
        fun _ _ _ _ _ _ hshows hmember => listMember_headerSchema hne hfollows hshows hmember
      have hfinish := Schema.of_complete_eq_ok hcomplete
      simp only [headerSchema, Option.bind_eq_bind, Option.bind_eq_some_iff,
        Option.some.injEq] at hfinish
      obtain ⟨v, hv, w, hw, rfl⟩ := hfinish
      rw [hv, hw] at hshows
      refine ⟨.obj members, ?_, _, members, hjson v w draft.others, rfl, hshows.carries hne⟩
      have hlength : body.length = (body.drop 1).length + 1 := by
        rw [of_valueStart hstart]
        rfl
      have harr : byte '\x7b' ≠ byte '[' := by decide
      simp only [readListed, hstart, hlength, hlisted, bind, Except.bind, if_neg harr, if_true]
      rfl
  · have harray : (headerSchema title a b reader build depth).fromArray = false := rfl
    rw [harray, Bool.and_false, if_neg (by decide)] at hread
    exact absurd hread (mistyped_ne_ok _ _ _ _)

end Headers

end Json

end FlowVerdict
