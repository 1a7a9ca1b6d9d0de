import FlowVerdict.Proofs.Listing
import FlowVerdict.Proofs.Reading
import Mathlib.Data.List.DropRight

/-!
# What a record keeps of its line

A record reads its declared members one by one and passes over the others, whichever form the line
has. The same line can be read for the declared members as they stand: wherever the record is read,
that reading gets along as well, and it finds the members that the record keeps. A header keeps all
of its members, its declared ones first.
-/

namespace FlowVerdict.Json

variable {α δ ρ σ τ : Type} {depth : Nat} {text rest : Bytes} {key name : String}
  {value given : Json} {members kept : Members}

/-- A reader takes the value that stands in the text, as `P` says. -/
def Follows (reader : Reader α) (depth : Nat) (P : α → Json → Prop) : Prop :=
  ∀ text a rest, reader text = .ok (a, rest) →
    ∃ given, readListed depth text = .ok (given, rest) ∧ P a given

theorem of_valueStart {b : UInt8} {body : Bytes} (h : valueStart text = .ok (b, body)) :
    body = b :: body.drop 1 := by
  unfold valueStart at h
  split at h
  · cases h
  · cases h
    rfl

theorem follows_readText (depth : Nat) :
    Follows readText depth fun s given => given = .str s := by
  intro text s rest h
  obtain ⟨⟨b, body⟩, hstart, h⟩ := exists_of_bind_eq_ok h
  dsimp only at h
  split at h
  · next hquote =>
      subst hquote
      refine ⟨.str s, ?_, rfl⟩
      rw [readListed_of_start hstart (by decide) (by decide), readScalar_quote, h]
      rfl
  · exact absurd h (mistyped_ne_ok _ _ _ _)

/-- Where a number begins, the value is the number. -/
theorem readListed_of_number {b : UInt8} {body : Bytes} {number : Number}
    (hstart : valueStart text = .ok (b, body)) (hstarts : startsNumber b = true)
    (h : readNumber body = .ok (number, rest)) (depth : Nat) :
    readListed depth text = .ok (number.found.toJson, rest) := by
  obtain ⟨_, harr, hobj, _⟩ := of_startsNumber hstarts
  rw [of_valueStart hstart] at h
  rw [readListed_of_start hstart harr hobj, readScalar_number hstarts, h]
  rfl

theorem follows_readPort (depth : Nat) :
    Follows readPort depth fun port given => given = .ofNat port.toNat := by
  intro text port rest h
  obtain ⟨⟨b, body⟩, hstart, h⟩ := exists_of_bind_eq_ok h
  dsimp only at h
  split at h
  · exact absurd h (mistyped_ne_ok _ _ _ _)
  · next hstarts =>
      rw [Bool.not_eq_true', Bool.not_eq_false] at hstarts
      obtain ⟨⟨number, _⟩, hnumber, h⟩ := exists_of_bind_eq_ok h
      refine ⟨number.found.toJson, ?_⟩
      cases number with
      | natural n =>
          dsimp only at h
          split at h
          · next hsmall =>
              cases h
              refine ⟨readListed_of_number hstart hstarts hnumber depth, ?_⟩
              exact congrArg ofNat (UInt16.toNat_ofNat_of_lt' hsmall).symm
          · cases h
      | negative n => cases h
      | float x => cases h

theorem follows_readDouble (depth : Nat) : Follows readDouble depth fun _ _ => True := by
  intro text x rest h
  obtain ⟨⟨b, body⟩, hstart, h⟩ := exists_of_bind_eq_ok h
  dsimp only at h
  split at h
  · exact absurd h (mistyped_ne_ok _ _ _ _)
  · next hstarts =>
      rw [Bool.not_eq_true', Bool.not_eq_false] at hstarts
      obtain ⟨⟨number, after⟩, hnumber, h⟩ := exists_of_bind_eq_ok h
      have hrest : after = rest := by
        cases number <;> cases h <;> rfl
      subst hrest
      exact ⟨_, readListed_of_number hstart hstarts hnumber depth, trivial⟩

/-- Blanks in front do not matter. -/
theorem readListed_body {b : UInt8} {body : Bytes} (h : valueStart text = .ok (b, body))
    (depth : Nat) : readListed depth body = readListed depth text := by
  have hbody : valueStart body = valueStart text := by
    unfold valueStart at h ⊢
    cases hskip : skipBlanks text with
    | nil =>
        rw [hskip] at h
        cases h
    | cons c tail =>
        have hsame : skipBlanks (c :: tail) = c :: tail := by
          rw [← hskip]
          exact List.dropWhile_idempotent _ _
        rw [hskip] at h
        cases h
        rw [hsame]
  cases depth with
  | zero => simp only [readListed, hbody]
  | succ depth => simp only [readListed, hbody]

theorem follows_readOptional (depth : Nat) :
    Follows (readOptional depth) depth fun value? given => value?.getD .null = given.merged := by
  intro text value? rest h
  obtain ⟨⟨b, body⟩, hstart, h⟩ := exists_of_bind_eq_ok h
  dsimp only at h
  split at h
  · next hnull =>
      subst hnull
      obtain ⟨after, hword, heq⟩ := exists_of_map_eq_ok h
      cases heq
      refine ⟨.null, ?_, rfl⟩
      rw [readListed_of_start hstart (by decide) (by decide), readScalar, if_pos rfl, hword]
      rfl
  · obtain ⟨⟨value, after⟩, hvalue, heq⟩ := exists_of_map_eq_ok h
    cases heq
    obtain ⟨given, hgiven, hmerged⟩ := exists_of_readValue hvalue
    rw [readListed_body hstart] at hgiven
    exact ⟨given, hgiven, hmerged⟩

def listedField (depth : Nat) (name : String) : Field Members where
  name := name
  required := false
  filled _ := false
  read sofar text := do
    let (given, rest) ← readListed depth text
    .ok (sofar.put name given, rest)

/-- How the declared members of a record are read as they stand. -/
def Schema.listed (s : Schema δ ρ) (depth : Nat) : Schema Members Members where
  title := s.title
  fields := s.fields.map fun field => listedField depth field.name
  blank := []
  other := ignoreOther
  fromArray := s.fromArray
  finish := some

/-- What a draft has taken up is what the members that stand in the line say, as `R` puts it. -/
structure Schema.Lists (s : Schema δ ρ) (depth : Nat) (R : δ → Members → Prop) : Prop where
  blank : R s.blank []
  read : ∀ field ∈ s.fields, ∀ draft listed text next rest, R draft listed →
    field.read draft text = .ok (next, rest) →
      ∃ given, readListed depth text = .ok (given, rest) ∧ R next (listed.put field.name given)
  other : s.other = ignoreOther

def Members.Fit (depth : Nat) (members : Members) : Prop :=
  ∀ m ∈ members, Fits depth m.2

theorem Members.Fit.put (h : members.Fit depth) (name : String) (hvalue : Fits depth value) :
    (members.put name value).Fit depth := by
  intro m hm
  rcases Members.mem_put hm with rfl | hm
  · exact hvalue
  · exact h m hm

namespace Schema.Lists

variable {s : Schema δ ρ} {R : δ → Members → Prop} {draft next : δ} {listed : Members}
  {record : ρ}

/-- A field is read wherever the record reads it. -/
theorem read_listedField (h : s.Lists depth R) {field : Field δ} (hfield : field ∈ s.fields)
    (hR : R draft listed) (hfit : listed.Fit depth)
    (hread : field.read draft text = .ok (next, rest)) :
    ∃ listed', (listedField depth field.name).read listed text = .ok (listed', rest) ∧
      R next listed' ∧ listed'.Fit depth := by
  obtain ⟨given, hgiven, hnext⟩ := h.read field hfield draft listed text next rest hR hread
  refine ⟨listed.put field.name given, ?_, hnext, hfit.put _ (fits_of_readListed hgiven)⟩
  simp only [listedField, hgiven, bind, Except.bind]

theorem member (h : s.Lists depth R) (hR : R draft listed) (hfit : listed.Fit depth)
    (hread : s.member draft name text = .ok (next, rest)) :
    ∃ listed', (s.listed depth).member listed name text = .ok (listed', rest) ∧
      R next listed' ∧ listed'.Fit depth := by
  have hfind : (s.listed depth).fields.find? (·.name = name) =
      (s.fields.find? (·.name = name)).map fun field => listedField depth field.name :=
    List.find?_map
  unfold Schema.member at hread ⊢
  rw [hfind]
  cases hfield : s.fields.find? (·.name = name) with
  | none =>
      rw [hfield] at hread
      obtain ⟨after, hcolon, hread⟩ := exists_of_bind_eq_ok hread
      rw [h.other] at hread
      obtain ⟨skipped, hskip, hread⟩ := exists_of_bind_eq_ok hread
      cases hread
      refine ⟨listed, ?_, hR, hfit⟩
      simp only [Option.map_none, hcolon, Schema.listed, ignoreOther, hskip, bind, Except.bind]
  | some field =>
      rw [hfield] at hread
      dsimp only at hread
      split at hread
      · cases hread
      · obtain ⟨after, hcolon, hread⟩ := exists_of_bind_eq_ok hread
        obtain ⟨listed', hlisted, hnext⟩ :=
          h.read_listedField (List.mem_of_find?_eq_some hfield) hR hfit hread
        refine ⟨listed', ?_, hnext⟩
        have hunfilled : (listedField depth field.name).filled listed = false := rfl
        simp only [Option.map_some, hunfilled, hcolon, hlisted, bind, Except.bind]
        rfl

theorem fillFrom (h : s.Lists depth R) {fields : List (Field δ)} {index : Nat}
    (hfields : ∀ field ∈ fields, field ∈ s.fields) (hR : R draft listed) (hfit : listed.Fit depth)
    (hread : s.fillFrom fields index draft text = .ok (next, rest)) :
    ∃ listed', (s.listed depth).fillFrom (fields.map fun field => listedField depth field.name)
        index listed text = .ok (listed', rest) ∧ R next listed' ∧ listed'.Fit depth := by
  induction fields generalizing index draft listed text with
  | nil =>
      cases hread
      exact ⟨listed, rfl, hR, hfit⟩
  | cons field fields ih =>
      obtain ⟨hfield, hfields⟩ := List.forall_mem_cons.mp hfields
      rw [List.map_cons, Schema.fillFrom]
      rw [Schema.fillFrom] at hread
      obtain ⟨step, hstep, hread⟩ := exists_of_bind_eq_ok hread
      cases step with
      | item body =>
          obtain ⟨⟨middle, after⟩, hmember, hread⟩ := exists_of_bind_eq_ok hread
          obtain ⟨listed', hlisted, hmiddle, hfit'⟩ := h.read_listedField hfield hR hfit hmember
          obtain ⟨listed'', hrest, hnext⟩ := ih hfields hmiddle hfit' hread
          refine ⟨listed'', ?_, hnext⟩
          simp only [hstep, hlisted, hrest, bind, Except.bind]
      | done after =>
          dsimp only at hread
          split at hread
          · cases hread
          · obtain ⟨listed', hrest, hnext⟩ := ih hfields hR hfit hread
            refine ⟨listed', ?_, hnext⟩
            have hoptional : (listedField depth field.name).required = false := rfl
            simp only [hstep, hoptional, hrest, bind, Except.bind]
            rfl

theorem complete_listed (s : Schema δ ρ) (depth : Nat) (listed : Members) :
    (s.listed depth).complete listed = .ok listed := by
  have hnone : (s.listed depth).missing? listed = none := by
    rw [Schema.missing?, Option.map_eq_none_iff, List.find?_eq_none]
    intro field hfield
    obtain ⟨_, _, rfl⟩ := List.mem_map.mp hfield
    simp [listedField]
  rw [Schema.complete, hnone]
  rfl

theorem readObject (h : s.Lists depth R) (hread : s.readObject text = .ok (record, rest)) :
    ∃ draft listed, s.finish draft = some record ∧
      (s.listed depth).readObject text = .ok (listed, rest) ∧ R draft listed ∧
      listed.Fit depth := by
  have hblank : (s.listed depth).blank = [] := rfl
  obtain ⟨⟨draft, _⟩, hmembers, hread⟩ := exists_of_bind_eq_ok hread
  obtain ⟨_, hcomplete, hread⟩ := exists_of_bind_eq_ok hread
  cases hread
  obtain ⟨listed, hlisted, hR⟩ := readMembers_simulates
    (R := fun draft listed => R draft listed ∧ listed.Fit depth) hmembers
    ⟨h.blank, List.forall_mem_nil _⟩
    fun _ _ _ _ _ _ hR hmember => h.member hR.1 hR.2 hmember
  refine ⟨draft, listed, of_complete_eq_ok hcomplete, ?_, hR⟩
  simp only [Schema.readObject, hblank, hlisted, complete_listed, bind, Except.bind]

theorem readArray (h : s.Lists depth R) (hread : s.readArray text = .ok (record, rest)) :
    ∃ draft listed, s.finish draft = some record ∧
      (s.listed depth).readArray text = .ok (listed, rest) ∧ R draft listed ∧
      listed.Fit depth := by
  have hblank : (s.listed depth).blank = [] := rfl
  have hfields : (s.listed depth).fields =
    s.fields.map fun field => listedField depth field.name := rfl
  obtain ⟨⟨draft, after⟩, hitems, hread⟩ := exists_of_bind_eq_ok hread
  obtain ⟨_, hcomplete, hread⟩ := exists_of_bind_eq_ok hread
  obtain ⟨_, hclose, hread⟩ := exists_of_bind_eq_ok hread
  cases hread
  obtain ⟨listed, hlisted, hR⟩ :=
    h.fillFrom (fun _ hf => hf) h.blank (List.forall_mem_nil _) hitems
  refine ⟨draft, listed, of_complete_eq_ok hcomplete, ?_, hR⟩
  simp only [Schema.readArray, hblank, hfields, hlisted, complete_listed, hclose, bind,
    Except.bind]

/-- Wherever a record is read its declared members can be read as they stand. -/
theorem of_read (h : s.Lists depth R) {room : Nat}
    (hread : s.read room text = .ok (record, rest)) :
    ∃ draft listed, s.finish draft = some record ∧
      (s.listed depth).read room text = .ok (listed, rest) ∧ R draft listed ∧
      listed.Fit depth := by
  have hform : (s.listed depth).fromArray = s.fromArray := rfl
  unfold Schema.read at hread ⊢
  obtain ⟨⟨b, body⟩, hstart, hread⟩ := exists_of_bind_eq_ok hread
  simp only [hstart, bind, Except.bind] at hread ⊢
  split at hread
  · next hobj =>
      rw [if_pos hobj]
      split at hread
      · cases hread
      · next hroom =>
          rw [if_neg hroom]
          exact h.readObject hread
  · next hobj =>
      rw [if_neg hobj]
      split at hread
      · next harr =>
          rw [hform, if_pos harr]
          split at hread
          · cases hread
          · next hroom =>
              rw [if_neg hroom]
              exact h.readArray hread
      · exact absurd hread (mistyped_ne_ok _ _ _ _)

end Schema.Lists

end FlowVerdict.Json
