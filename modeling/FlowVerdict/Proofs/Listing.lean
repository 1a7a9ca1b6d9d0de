import FlowVerdict.Proofs.DigitText
import FlowVerdict.Proofs.Members
import FlowVerdict.Proofs.Reading

/-!
# JSON values as they stand

Reading a value merges the members of its objects. Here the same text is read with all members in
their order, repeated keys and all, and the value that is kept is what merging makes of that. What
is read has no more arrays and objects inside each other than there was room for, and no whole
number beyond 64 bits.
-/

namespace FlowVerdict.Json

variable {α β σ τ : Type} {depth : Nat} {text rest : Bytes} {given : Json}

def mapRead (f : α → β) (result : Except Fault (α × Bytes)) : Except Fault (β × Bytes) :=
  result.map fun (a, rest) => (f a, rest)

theorem readItems_map {item : Reader α} {item' : Reader β} {f : α → β}
    (h : ∀ text, item' text = mapRead f (item text)) (fuel : Nat) (first : Bool) (text : Bytes) :
    readItems item' fuel first text = mapRead (List.map f) (readItems item fuel first text) := by
  induction fuel generalizing first text with
  | zero => rfl
  | succ fuel ih =>
      simp only [readItems]
      cases nextItem first text with
      | error fault => rfl
      | ok next =>
          cases next with
          | done rest => rfl
          | item text =>
              simp only [h, ih, mapRead, bind, Except.bind]
              cases item text with
              | error fault => rfl
              | ok read =>
                  simp only [Except.map]
                  cases readItems item fuel false read.2 <;> rfl

theorem readMembers_map {member : σ → String → Reader σ} {member' : τ → String → Reader τ}
    {f : σ → τ} (h : ∀ sofar name text, member' (f sofar) name text =
      mapRead f (member sofar name text)) (fuel : Nat) (first : Bool) (sofar : σ) (text : Bytes) :
    readMembers member' fuel first (f sofar) text =
      mapRead f (readMembers member fuel first sofar text) := by
  induction fuel generalizing first sofar text with
  | zero => rfl
  | succ fuel ih =>
      simp only [readMembers]
      cases nextMember first text with
      | error fault => rfl
      | ok next =>
          cases next with
          | done rest => rfl
          | key name rest =>
              simp only [h, mapRead, bind, Except.bind]
              cases member sofar name rest with
              | error fault => rfl
              | ok read => exact ih false read.1 read.2

/-- What holds of all items that can be read holds of all that are. -/
theorem forall_of_readItems {item : Reader α} {P : α → Prop} {fuel : Nat} {first : Bool}
    {values : List α} (h : ∀ text value rest, item text = .ok (value, rest) → P value)
    (hread : readItems item fuel first text = .ok (values, rest)) : ∀ value ∈ values, P value := by
  induction fuel generalizing first text values with
  | zero => cases hread
  | succ fuel ih =>
      rw [readItems] at hread
      obtain ⟨next, _, hread⟩ := exists_of_bind_eq_ok hread
      cases next with
      | done rest =>
          cases hread
          exact List.forall_mem_nil _
      | item text =>
          obtain ⟨⟨value, _⟩, hvalue, hread⟩ := exists_of_bind_eq_ok hread
          obtain ⟨⟨values, _⟩, hvalues, hread⟩ := exists_of_bind_eq_ok hread
          cases hread
          exact List.forall_mem_cons.mpr ⟨h _ _ _ hvalue, ih hvalues⟩

/-- What two ways of taking up members keep in step is in step at the end. -/
theorem readMembers_simulates {member : σ → String → Reader σ} {member' : τ → String → Reader τ}
    {R : σ → τ → Prop} {fuel : Nat} {first : Bool} {sofar last : σ} {sofar' : τ}
    (hread : readMembers member fuel first sofar text = .ok (last, rest)) (hR : R sofar sofar')
    (h : ∀ sofar sofar' name text next rest, R sofar sofar' →
      member sofar name text = .ok (next, rest) →
        ∃ next', member' sofar' name text = .ok (next', rest) ∧ R next next') :
    ∃ last', readMembers member' fuel first sofar' text = .ok (last', rest) ∧ R last last' := by
  induction fuel generalizing first sofar sofar' text with
  | zero => cases hread
  | succ fuel ih =>
      rw [readMembers] at hread ⊢
      obtain ⟨step, hstep, hread⟩ := exists_of_bind_eq_ok hread
      cases step with
      | done after =>
          cases hread
          refine ⟨sofar', ?_, hR⟩
          simp only [hstep, bind, Except.bind]
      | key name after =>
          obtain ⟨⟨next, _⟩, hmember, hread⟩ := exists_of_bind_eq_ok hread
          obtain ⟨next', hmember', hnext⟩ := h _ _ _ _ _ _ hR hmember
          obtain ⟨last', hrest, hlast⟩ := ih hread hnext
          refine ⟨last', ?_, hlast⟩
          simp only [hstep, hmember', hrest, bind, Except.bind]

/-- What each member preserves holds at the end. -/
theorem readMembers_preserves {member : σ → String → Reader σ} {P : σ → Prop} {fuel : Nat}
    {first : Bool} {sofar last : σ}
    (hread : readMembers member fuel first sofar text = .ok (last, rest)) (hP : P sofar)
    (h : ∀ sofar name text next rest, P sofar → member sofar name text = .ok (next, rest) →
      P next) : P last := by
  have hstep : ∀ sofar sofar' name text next rest, sofar' = sofar ∧ P sofar →
      member sofar name text = .ok (next, rest) →
        ∃ next', member sofar' name text = .ok (next', rest) ∧ next' = next ∧ P next := by
    rintro sofar _ name text next rest ⟨rfl, hP⟩ hnext
    exact ⟨next, hnext, rfl, h _ _ _ _ _ hP hnext⟩
  obtain ⟨_, _, _, hlast⟩ := readMembers_simulates hread ⟨rfl, hP⟩ hstep
  exact hlast

/-- Takes up a member behind those that came before. -/
def listMember (value : Reader Json) (sofar : Members) (name : String) : Reader Members :=
  fun text => do
    let (given, rest) ← value (← readColon text)
    .ok (sofar ++ [(name, given)], rest)

/-- A value, its objects with all their members in order. -/
def readListed : Nat → Reader Json
  | 0, text => do
    let (b, text) ← valueStart text
    if b = byte '[' || b = byte '\x7b' then .error .recursionLimit
    else (readScalar b (text.drop 1)).map fun (found, rest) => (found.toJson, rest)
  | depth + 1, text => do
    let (b, text) ← valueStart text
    let rest := text.drop 1
    if b = byte '[' then
      (readItems (readListed depth) text.length true rest).map fun (items, rest) =>
        (.arr items, rest)
    else if b = byte '\x7b' then
      (readMembers (listMember (readListed depth)) text.length true [] rest).map
        fun (members, rest) => (.obj members, rest)
    else (readScalar b rest).map fun (found, rest) => (found.toJson, rest)

def parseListed (text : Bytes) : Except Fault Json :=
  readWhole (readListed nestingLimit) text

theorem readWhole_eq_ok_iff {reader : Reader α} {value : α} :
    readWhole reader text = .ok value ↔
      ∃ rest, reader text = .ok (value, rest) ∧ ensureEnd rest = .ok () := by
  constructor
  · intro h
    obtain ⟨⟨found, rest⟩, hread, h⟩ := exists_of_bind_eq_ok h
    obtain ⟨⟨⟩, hend, h⟩ := exists_of_bind_eq_ok h
    cases h
    exact ⟨rest, hread, hend⟩
  · rintro ⟨rest, hread, hend⟩
    simp only [readWhole, hread, hend, bind, Except.bind]

theorem readListed_of_start {b : UInt8} {body : Bytes} (h : valueStart text = .ok (b, body))
    (harr : b ≠ byte '[') (hobj : b ≠ byte '\x7b') (depth : Nat) :
    readListed depth text =
      (readScalar b (body.drop 1)).map fun (found, rest) => (found.toJson, rest) := by
  cases depth with
  | zero => simp [readListed, h, bind, Except.bind, harr, hobj]
  | succ depth => simp [readListed, h, bind, Except.bind, harr, hobj]

theorem of_startsNumber {b : UInt8} (h : startsNumber b = true) :
    isBlankByte b = false ∧ b ≠ byte '[' ∧ b ≠ byte '\x7b' ∧ b ≠ byte ']' ∧ b ≠ byte 'n' ∧
      b ≠ byte 't' ∧ b ≠ byte 'f' := by
  have hne : ∀ c, startsNumber c = false → b ≠ c := by
    rintro c hc rfl
    rw [hc] at h
    cases h
  refine ⟨?_, hne _ (by decide), hne _ (by decide), hne _ (by decide), hne _ (by decide),
    hne _ (by decide), hne _ (by decide)⟩
  simp [isBlankByte, hne 0x20 (by decide), hne 0x09 (by decide), hne 0x0A (by decide),
    hne 0x0D (by decide)]

theorem readScalar_number {b : UInt8} (h : startsNumber b = true) (text : Bytes) :
    readScalar b text = (readNumber (b :: text)).map fun (n, rest) => (n.found, rest) := by
  obtain ⟨_, _, _, _, hn, ht, hf⟩ := of_startsNumber h
  rw [readScalar, if_neg hn, if_neg ht, if_neg hf, if_pos h]

theorem readScalar_quote (text : Bytes) :
    readScalar (byte '"') text = (readString text).map fun (s, rest) => (.text s, rest) := by
  rw [readScalar, if_neg (by decide), if_neg (by decide), if_neg (by decide), if_neg (by decide),
    if_pos rfl]

theorem merged_toJson (found : Found) : found.toJson.merged = found.toJson := by
  cases found <;> rfl

theorem mapRead_scalar (result : Except Fault (Found × Bytes)) :
    result.map (fun (found, rest) => (found.toJson, rest)) =
      mapRead merged (result.map fun (found, rest) => (found.toJson, rest)) := by
  cases result with
  | error fault => rfl
  | ok read => simp only [mapRead, Except.map, merged_toJson]

def putMember (value : Reader Json) (sofar : Members) (name : String) : Reader Members :=
  fun text => do
    let (given, rest) ← value (← readColon text)
    .ok (sofar.put name given, rest)

theorem readValue_succ (depth : Nat) (text : Bytes) : readValue (depth + 1) text = (do
    let (b, text) ← valueStart text
    let rest := text.drop 1
    if b = byte '[' then
      (readItems (readValue depth) text.length true rest).map fun (items, rest) =>
        (.arr items, rest)
    else if b = byte '\x7b' then
      (readMembers (putMember (readValue depth)) text.length true [] rest).map
        fun (members, rest) => (.obj members, rest)
    else (readScalar b rest).map fun (found, rest) => (found.toJson, rest)) :=
  rfl

theorem mergedMembers_concat (members : Members) (name : String) (given : Json) :
    mergedMembers (members ++ [(name, given)]) =
      mergedMembers members ++ [(name, given.merged)] := by
  simp only [mergedMembers_eq, List.map_append, List.map_cons, List.map_nil]

theorem putMember_sorted {value value' : Reader Json}
    (h : ∀ text, value text = mapRead merged (value' text)) (sofar : Members) (name : String)
    (text : Bytes) :
    putMember value (Members.sorted (mergedMembers sofar)) name text =
      mapRead (fun members => Members.sorted (mergedMembers members))
        (listMember value' sofar name text) := by
  simp only [putMember, listMember, h, bind, Except.bind]
  cases readColon text with
  | error fault => rfl
  | ok text =>
      dsimp only
      cases value' text with
      | error fault => rfl
      | ok read => simp only [mapRead, Except.map, mergedMembers_concat, Members.sorted_concat]

/-- The value that is kept is the one that stands there, with its members merged. -/
theorem readValue_eq (depth : Nat) (text : Bytes) :
    readValue depth text = mapRead merged (readListed depth text) := by
  induction depth generalizing text with
  | zero =>
      simp only [readValue, readListed, bind, Except.bind]
      cases valueStart text with
      | error fault => rfl
      | ok start =>
          dsimp only
          split
          · rfl
          · exact mapRead_scalar _
  | succ depth ih =>
      simp only [readValue_succ, readListed, bind, Except.bind]
      cases valueStart text with
      | error fault => rfl
      | ok start =>
          obtain ⟨b, text⟩ := start
          dsimp only
          split
          · rw [readItems_map ih]
            cases readItems (readListed depth) text.length true (text.drop 1) with
            | error fault => rfl
            | ok read => simp only [mapRead, Except.map, merged, mergedItems_eq]
          · split
            · have hmembers : readMembers (putMember (readValue depth)) text.length true []
                  (text.drop 1) = mapRead (fun members => Members.sorted (mergedMembers members))
                    (readMembers (listMember (readListed depth)) text.length true []
                      (text.drop 1)) :=
                readMembers_map (putMember_sorted ih) text.length true [] (text.drop 1)
              rw [hmembers]
              cases readMembers (listMember (readListed depth)) text.length true []
                (text.drop 1) <;> rfl
            · exact mapRead_scalar _

/-- A value is kept exactly if it can be read as it stands. -/
theorem readValue_of_readListed (h : readListed depth text = .ok (given, rest)) :
    readValue depth text = .ok (given.merged, rest) := by
  rw [readValue_eq, h]
  rfl

theorem parse_of_parseListed (h : parseListed text = .ok given) :
    parse text = .ok given.merged := by
  obtain ⟨rest, hread, hend⟩ := readWhole_eq_ok_iff.mp h
  exact readWhole_eq_ok_iff.mpr ⟨rest, readValue_of_readListed hread, hend⟩

theorem exists_of_readValue {value : Json} (h : readValue depth text = .ok (value, rest)) :
    ∃ given, readListed depth text = .ok (given, rest) ∧ value = given.merged := by
  rw [readValue_eq] at h
  cases hread : readListed depth text with
  | error fault =>
      rw [hread] at h
      cases h
  | ok read =>
      rw [hread] at h
      cases h
      exact ⟨read.1, rfl, rfl⟩

/-- A value with no more than `depth` arrays and objects inside each other, and whole numbers of 64
bits. -/
inductive Fits : Nat → Json → Prop where
  | null {d : Nat} : Fits d .null
  | bool {d : Nat} (b : Bool) : Fits d (.bool b)
  | int {d : Nat} {n : Int} (h : InRange n) : Fits d (.int n)
  | float {d : Nat} (x : Float) : Fits d (.float x)
  | str {d : Nat} (text : String) : Fits d (.str text)
  | arr {d : Nat} {items : List Json} (h : ∀ item ∈ items, Fits d item) : Fits (d + 1) (.arr items)
  | obj {d : Nat} {members : Members} (h : ∀ m ∈ members, Fits d m.2) : Fits (d + 1) (.obj members)

/-- A value whose numbers are whole. A zero with a minus sign is kept as a double. -/
inductive Whole : Json → Prop where
  | null : Whole .null
  | bool (b : Bool) : Whole (.bool b)
  | int (n : Int) : Whole (.int n)
  | negativeZero : Whole (.float (-0.0))
  | str (text : String) : Whole (.str text)
  | arr {items : List Json} (h : ∀ item ∈ items, Whole item) : Whole (.arr items)
  | obj {members : Members} (h : ∀ m ∈ members, Whole m.2) : Whole (.obj members)

mutual

def isWhole : Json → Bool
  | .float x => decide (x = -0.0)
  | .arr items => areWhole items
  | .obj members => haveWhole members
  | .null | .bool _ | .int _ | .str _ => true

def areWhole : List Json → Bool
  | [] => true
  | item :: rest => isWhole item && areWhole rest

def haveWhole : Members → Bool
  | [] => true
  | (_, value) :: rest => isWhole value && haveWhole rest

end

theorem areWhole_eq_true_iff (items : List Json) :
    areWhole items = true ↔ ∀ item ∈ items, isWhole item = true := by
  induction items with
  | nil => exact iff_of_true rfl (List.forall_mem_nil _)
  | cons item rest ih => rw [areWhole, Bool.and_eq_true, ih, List.forall_mem_cons]

theorem haveWhole_eq_true_iff (members : Members) :
    haveWhole members = true ↔ ∀ m ∈ members, isWhole m.2 = true := by
  induction members with
  | nil => exact iff_of_true rfl (List.forall_mem_nil _)
  | cons m rest ih => rw [haveWhole, Bool.and_eq_true, ih, List.forall_mem_cons]

theorem isWhole_eq_true_iff (j : Json) : isWhole j = true ↔ Whole j := by
  constructor
  · intro h
    induction j with
    | null => exact .null
    | bool b => exact .bool b
    | int n => exact .int n
    | float x =>
        rw [of_decide_eq_true h]
        exact .negativeZero
    | str text => exact .str text
    | arr items ih =>
        have hitems := (areWhole_eq_true_iff items).mp h
        exact .arr fun item hitem => ih item hitem (hitems item hitem)
    | obj members ih =>
        have hmembers := (haveWhole_eq_true_iff members).mp h
        exact .obj fun m hm => ih m hm (hmembers m hm)
  · intro h
    induction h with
    | negativeZero => exact decide_eq_true (Eq.refl (-0.0 : Float))
    | arr _ ih => exact (areWhole_eq_true_iff _).mpr ih
    | obj _ ih => exact (haveWhole_eq_true_iff _).mpr ih
    | _ => rfl

theorem whole_of_haveWhole {members : Members} {key : String} (h : haveWhole members = true)
    (hget : members.get? key = some given) : Whole given := by
  have hvalue := (haveWhole_eq_true_iff members).mp h _ (Members.mem_of_get?_eq_some hget)
  exact (isWhole_eq_true_iff given).mp hvalue

/-- A value in which no object has a key twice. -/
inductive Distinct : Json → Prop where
  | null : Distinct .null
  | bool (b : Bool) : Distinct (.bool b)
  | int (n : Int) : Distinct (.int n)
  | float (x : Float) : Distinct (.float x)
  | str (text : String) : Distinct (.str text)
  | arr {items : List Json} (h : ∀ item ∈ items, Distinct item) : Distinct (.arr items)
  | obj {members : Members} (hkeys : members.Unique) (h : ∀ m ∈ members, Distinct m.2) :
      Distinct (.obj members)

theorem gatherDigits_le {limit value : Nat} (count : Nat) (h : value ≤ limit) (text : Bytes) :
    (gatherDigits limit value count text).1 ≤ limit := by
  induction text generalizing value count with
  | nil => exact h
  | cons b text ih =>
      rw [gatherDigits]
      split
      · exact h
      · split
        · next hnext => exact ih (count + 1) hnext
        · exact h

/-- What a number is read as, if it is whole, is of 64 bits. -/
def Number.Fits (number : Number) : Prop :=
  ∀ n, number.found = .int n → InRange n

theorem fits_wholeNumber (negative : Bool) {digits : Nat} (h : digits ≤ digitLimit) :
    (wholeNumber negative digits).Fits := by
  have hlimit : digitLimit = 2 ^ 64 - 1 := by decide
  have hpow : Nat.pow 2 63 = 2 ^ 63 := rfl
  intro n hn
  unfold wholeNumber at hn
  split at hn
  · cases hn
    constructor <;> omega
  · split at hn
    · cases hn
    · next hsmall =>
        cases hn
        simp only [Bool.or_eq_true, decide_eq_true_eq, not_or] at hsmall
        constructor <;> omega

theorem fits_float (x : Float) : (Number.float x).Fits := by
  rintro n ⟨⟩

theorem fits_of_map_float {result : Except Fault (Float × Bytes)} {number : Number}
    (h : result.map (fun (x, rest) => (Number.float x, rest)) = .ok (number, rest)) :
    number.Fits := by
  cases result with
  | error fault => cases h
  | ok read =>
      cases h
      exact fits_float _

theorem fits_of_readUnsigned {negative : Bool} {number : Number}
    (h : readUnsigned negative text = .ok (number, rest)) : number.Fits := by
  cases text with
  | nil => cases h
  | cons first text =>
      have hlimit : (gatherDigits digitLimit 0 0 (first :: text)).1 ≤ digitLimit :=
        gatherDigits_le 0 (Nat.zero_le _) _
      unfold readUnsigned at h
      dsimp only at h
      split at h
      · cases h
      · split at h
        · cases h
        · split at h
          · cases h
            exact fits_wholeNumber negative hlimit
          · split at h
            · exact fits_of_map_float h
            · split at h
              · exact fits_of_map_float h
              · split at h
                · exact fits_of_map_float h
                · cases h
                  exact fits_wholeNumber negative hlimit

theorem fits_of_readNumber {number : Number} (h : readNumber text = .ok (number, rest)) :
    number.Fits := by
  unfold readNumber at h
  split at h
  · split at h
    · exact fits_of_readUnsigned h
    · exact fits_of_readUnsigned h
  · cases h

theorem exists_of_map_eq_ok {result : Except Fault α} {f : α → β} {value : β}
    (h : result.map f = .ok value) : ∃ a, result = .ok a ∧ f a = value := by
  cases result with
  | error fault => cases h
  | ok a => exact ⟨a, rfl, Except.ok.inj h⟩

theorem fits_of_readScalar {b : UInt8} {found : Found}
    (h : readScalar b text = .ok (found, rest)) : Fits depth found.toJson := by
  unfold readScalar at h
  split at h
  · obtain ⟨_, _, heq⟩ := exists_of_map_eq_ok h
    cases heq
    exact .null
  · split at h
    · obtain ⟨_, _, heq⟩ := exists_of_map_eq_ok h
      cases heq
      exact .bool true
    · split at h
      · obtain ⟨_, _, heq⟩ := exists_of_map_eq_ok h
        cases heq
        exact .bool false
      · split at h
        · obtain ⟨⟨number, _⟩, hnumber, heq⟩ := exists_of_map_eq_ok h
          cases heq
          have hfits := fits_of_readNumber hnumber
          cases number with
          | natural n => exact .int (hfits n rfl)
          | negative n => exact .int (hfits n rfl)
          | float x => exact .float x
        · split at h
          · obtain ⟨_, _, heq⟩ := exists_of_map_eq_ok h
            cases heq
            exact .str _
          · cases h

/-- What is read fits the room that there was. -/
theorem fits_of_readListed (h : readListed depth text = .ok (given, rest)) :
    Fits depth given := by
  induction depth generalizing text given rest with
  | zero =>
      obtain ⟨⟨b, start⟩, _, h⟩ := exists_of_bind_eq_ok h
      dsimp only at h
      split at h
      · cases h
      · obtain ⟨⟨found, _⟩, hscalar, heq⟩ := exists_of_map_eq_ok h
        cases heq
        exact fits_of_readScalar hscalar
  | succ depth ih =>
      obtain ⟨⟨b, start⟩, _, h⟩ := exists_of_bind_eq_ok h
      dsimp only at h
      split at h
      · obtain ⟨⟨items, _⟩, hitems, heq⟩ := exists_of_map_eq_ok h
        cases heq
        exact .arr (forall_of_readItems (fun _ _ _ hitem => ih hitem) hitems)
      · split at h
        · obtain ⟨⟨members, _⟩, hmembers, heq⟩ := exists_of_map_eq_ok h
          cases heq
          apply Fits.obj
          refine readMembers_preserves (P := fun members : Members => ∀ m ∈ members, Fits depth m.2)
            hmembers (List.forall_mem_nil _) ?_
          intro sofar name text next rest hsofar hmember m hm
          obtain ⟨after, _, hmember⟩ := exists_of_bind_eq_ok hmember
          obtain ⟨⟨value, _⟩, hvalue, hmember⟩ := exists_of_bind_eq_ok hmember
          cases hmember
          rcases List.mem_append.mp hm with hm | hm
          · exact hsofar m hm
          · rw [List.mem_singleton.mp hm]
            exact ih hvalue
        · obtain ⟨⟨found, _⟩, hscalar, heq⟩ := exists_of_map_eq_ok h
          cases heq
          exact fits_of_readScalar hscalar

/-- Each member of a merged object is one of the object, merged. -/
theorem exists_of_mem_merged {members : Members} {m : String × Json}
    (h : m ∈ Members.sorted (mergedMembers members)) :
    ∃ value, (m.1, value) ∈ members ∧ m.2 = value.merged := by
  have hmem := Members.mem_sorted h
  rw [mergedMembers_eq] at hmem
  obtain ⟨⟨key, value⟩, hgiven, rfl⟩ := List.mem_map.mp hmem
  exact ⟨value, hgiven, rfl⟩

/-- A relation between a value and what is kept of it that holds of the wholes if it holds of the
parts. -/
structure PartByPart (R : Json → Json → Prop) : Prop where
  scalar : ∀ j : Json, (∀ items, j ≠ .arr items) → (∀ members, j ≠ .obj members) → R j j
  arr : ∀ items : List Json, (∀ item ∈ items, R item item.merged) →
    R (.arr items) (.arr (items.map merged))
  obj : ∀ members kept : Members, kept.Unique →
    (∀ m ∈ kept, ∃ value, (m.1, value) ∈ members ∧ R value m.2) → R (.obj members) (.obj kept)

theorem PartByPart.merged {R : Json → Json → Prop} (h : PartByPart R) (given : Json) :
    R given given.merged := by
  induction given with
  | null | bool | int | float | str => exact h.scalar _ (fun _ => nofun) fun _ => nofun
  | arr items ih =>
      rw [Json.merged, mergedItems_eq]
      exact h.arr items ih
  | obj members ih =>
      refine h.obj members _ (Members.ordered_sorted _).unique fun m hm => ?_
      obtain ⟨value, hgiven, hvalue⟩ := exists_of_mem_merged hm
      exact ⟨value, hgiven, hvalue ▸ ih _ hgiven⟩

theorem Fits.partByPart :
    PartByPart fun given kept => ∀ depth, Fits depth given → Fits depth kept where
  scalar _ _ _ _ h := h
  arr items ih depth h := by
    cases h with
    | arr h => exact .arr (List.forall_mem_map.mpr fun item hm => ih item hm _ (h item hm))
  obj members kept _ ih depth h := by
    cases h with
    | obj h =>
        refine .obj fun m hm => ?_
        obtain ⟨value, hgiven, hkept⟩ := ih m hm
        exact hkept _ (h _ hgiven)

theorem Whole.partByPart : PartByPart fun given kept => Whole given → Whole kept where
  scalar _ _ _ h := h
  arr items ih h := by
    cases h with
    | arr h => exact .arr (List.forall_mem_map.mpr fun item hm => ih item hm (h item hm))
  obj members kept _ ih h := by
    cases h with
    | obj h =>
        refine .obj fun m hm => ?_
        obtain ⟨value, hgiven, hkept⟩ := ih m hm
        exact hkept (h _ hgiven)

theorem Distinct.partByPart : PartByPart fun _ kept => Distinct kept where
  scalar j harr hobj := by
    cases j with
    | arr items => exact absurd rfl (harr items)
    | obj members => exact absurd rfl (hobj members)
    | _ => constructor
  arr items ih := .arr (List.forall_mem_map.mpr ih)
  obj members kept hunique ih := by
    refine .obj hunique fun m hm => ?_
    obtain ⟨_, _, hkept⟩ := ih m hm
    exact hkept

end FlowVerdict.Json
