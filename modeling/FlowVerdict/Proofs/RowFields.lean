import FlowVerdict.Proofs.FlowText
import Mathlib.Data.List.Induction
import Mathlib.Logic.Relation

/-!
# What the fields of a row tell

To each of its keys a row gives a first value and a second one, wherever they stand and whatever
stands between them. These values, the timeout and the state are all that is read of a row.
-/

namespace FlowVerdict

namespace Decimal

variable {limit sofar n : Nat} {overflow : IntegerFault} {text : String} {cs : List Char}

/-- A text writes a number with digits, at least one of them, and a plus sign in front if need
be. -/
def Writes (text : String) (n : Nat) : Prop :=
  ∃ digits, digits ≠ [] ∧ (∀ c ∈ digits, c.isDigit = true) ∧
    (text.toList = digits ∨ text.toList = '+' :: digits) ∧ Nat.ofDigitChars 10 digits 0 = n

theorem of_readDigits_eq_ok (h : readDigits limit overflow sofar cs = .ok n)
    (hsofar : sofar ≤ limit) :
    (∀ c ∈ cs, c.isDigit = true) ∧ Nat.ofDigitChars 10 cs sofar = n ∧ n ≤ limit := by
  induction cs generalizing sofar with
  | nil =>
      cases h
      simpa using hsofar
  | cons c rest ih =>
      rw [readDigits] at h
      split at h
      · cases h
      · next d hdigit =>
          split at h
          · next hfits =>
              obtain ⟨hrest, hvalue, hlimit⟩ := ih h hfits
              rw [digit?] at hdigit
              split at hdigit
              · next hc =>
                  cases hdigit
                  rw [Nat.ofDigitChars_cons, Nat.mul_comm]
                  exact ⟨List.forall_mem_cons.mpr ⟨hc, hrest⟩, hvalue, hlimit⟩
              · cases hdigit
          · cases h

/-- A number is read where one is written that is within bounds. -/
theorem readNat_eq_ok_iff : readNat limit text = .ok n ↔ Writes text n ∧ n ≤ limit := by
  constructor
  · intro h
    unfold readNat at h
    split at h
    · cases h
    · cases h
    · next digits hsome htext =>
        obtain ⟨hdigits, hvalue, hlimit⟩ := of_readDigits_eq_ok h (Nat.zero_le limit)
        exact ⟨⟨digits, fun hnil => hsome (by rw [hnil]), hdigits, .inr htext, hvalue⟩, hlimit⟩
    · next hsome _ _ =>
        obtain ⟨hdigits, hvalue, hlimit⟩ := of_readDigits_eq_ok h (Nat.zero_le limit)
        exact ⟨⟨_, hsome, hdigits, .inl rfl, hvalue⟩, hlimit⟩
  · rintro ⟨⟨digits, hsome, hdigits, htext, rfl⟩, hlimit⟩
    have hread : readDigits limit .tooLarge 0 digits = .ok _ := readDigits_eq_ok 0 hdigits hlimit
    unfold readNat
    rcases htext with htext | htext
    · have hsign : '+' ∉ digits := fun hmem => by simpa using hdigits '+' hmem
      rw [htext]
      split
      · contradiction
      · simp at hsign
      · simp at hsign
      · exact hread
    · rw [htext]
      split
      · next hnil => cases hnil
      · next hnil => exact absurd (List.cons.inj hnil).2 hsome
      · next heq =>
          cases heq
          exact hread
      · next hno => exact absurd rfl (hno digits)

end Decimal

namespace Kernel

theorem readPort?_eq_some_iff {text : String} {port : UInt16} :
    readPort? text = some port ↔ Decimal.Writes text port.toNat := by
  have hlimit : port.toNat ≤ Nat.pow 2 16 - 1 := Nat.le_pred_of_lt port.toNat_lt
  constructor
  · intro h
    obtain ⟨n, hread, rfl⟩ := Option.map_eq_some_iff.mp h
    cases hnat : Decimal.readNat (Nat.pow 2 16 - 1) text with
    | error fault => simp [hnat, Except.toOption] at hread
    | ok found =>
        have heq : found = n := by simpa [hnat, Except.toOption] using hread
        obtain ⟨hwrites, hfits⟩ := Decimal.readNat_eq_ok_iff.mp hnat
        have hsmall : n < 2 ^ 16 := by
          rw [← heq]
          exact Nat.lt_of_le_pred (by decide) hfits
        rwa [UInt16.toNat_ofNat_of_lt' hsmall, ← heq]
  · intro hwrites
    rw [readPort?, Decimal.readNat_eq_ok_iff.mpr ⟨hwrites, hlimit⟩]
    simp [Except.toOption]

/-- The value that a field gives to a key, if it is that key, an equals sign and the value. -/
def valueFor? (key field : String) : Option String :=
  (field.toList.dropPrefix? (key.toList ++ ['='])).map String.ofList

def valuesOf (key : String) (fields : List String) : List String :=
  fields.filterMap (valueFor? key)

def directionKeys : List String :=
  ["src", "dst", "sport", "dport"]

variable {key name value field : String} {fields fields' words : List String} {d : Direction}

theorem valuesOf_append (key : String) (front back : List String) :
    valuesOf key (front ++ back) = valuesOf key front ++ valuesOf key back :=
  List.filterMap_append

theorem valueFor?_eq_some_iff :
    valueFor? key field = some value ↔ field = key ++ "=" ++ value := by
  simp only [valueFor?, Option.map_eq_some_iff, List.dropPrefix?_eq_some_iff, beq_iff_eq]
  constructor
  · rintro ⟨rest, ⟨start, hfield, rfl⟩, rfl⟩
    apply String.toList_injective
    simp [hfield]
  · rintro rfl
    exact ⟨value.toList, ⟨_, by simp, rfl⟩, String.ofList_toList⟩

theorem cut?_append (hkey : '=' ∉ key.toList) : cut? (key ++ "=" ++ value) = some (key, value) := by
  have htext : (key ++ "=" ++ value).toList = key.toList ++ '=' :: value.toList := by simp
  have hfront : ∀ c ∈ key.toList, decide (c ≠ '=') = true := fun c hc => by
    simpa using fun heq : c = '=' => hkey (heq ▸ hc)
  simp only [cut?, htext]
  rw [if_pos (by simp), List.takeWhile_append_of_pos hfront, List.dropWhile_append_of_pos hfront]
  simp

/-- A field is cut at its first equals sign. -/
theorem cut?_eq_some_iff :
    cut? field = some (key, value) ↔ '=' ∉ key.toList ∧ field = key ++ "=" ++ value := by
  constructor
  · intro h
    by_cases hsign : '=' ∈ field.toList
    · obtain ⟨front, rest, hfield, hfront⟩ := List.eq_append_cons_of_mem hsign
      have htext : field = String.ofList front ++ "=" ++ String.ofList rest := by
        apply String.toList_injective
        simpa using hfield
      have hkey : '=' ∉ (String.ofList front).toList := by rwa [String.toList_ofList]
      rw [htext, cut?_append hkey] at h
      cases h
      exact ⟨hkey, htext⟩
    · simp [cut?, hsign] at h
  · rintro ⟨hkey, rfl⟩
    exact cut?_append hkey

/-- A key without an equals sign gets from a field what stands behind the cut. -/
theorem valueFor?_eq_cut? (hkey : '=' ∉ key.toList) :
    valueFor? key field =
      (cut? field).bind fun cut => if cut.1 = key then some cut.2 else none := by
  ext value
  rw [valueFor?_eq_some_iff, Option.bind_eq_some_iff]
  constructor
  · intro h
    exact ⟨(key, value), cut?_eq_some_iff.mpr ⟨hkey, h⟩, if_pos rfl⟩
  · rintro ⟨⟨name, found⟩, hcut, hname⟩
    split at hname
    · next heq =>
        cases hname
        rw [← heq]
        exact (cut?_eq_some_iff.mp hcut).2
    · cases hname

def Direction.get? (d : Direction) : String → Option String
  | "src" => d.src
  | "dst" => d.dst
  | "sport" => d.sport
  | "dport" => d.dport
  | _ => none

theorem Direction.ext_get? {d d' : Direction}
    (h : ∀ key ∈ directionKeys, d'.get? key = d.get? key) : d' = d := by
  cases d
  cases d'
  simpa [directionKeys, get?] using h

theorem Direction.complete_iff {d : Direction} :
    d.complete = true ↔ ∀ key ∈ directionKeys, (d.get? key).isSome = true := by
  simp [complete, directionKeys, get?, and_assoc]

theorem Direction.set?_of_not_mem (hkey : key ∉ directionKeys) (d : Direction) (value : String) :
    d.set? key value = some d := by
  simp only [directionKeys, List.mem_cons, List.not_mem_nil, or_false, not_or] at hkey
  simp [set?, hkey]

/-- A direction takes a value for each of its keys once. -/
theorem Direction.set?_cases (hkey : key ∈ directionKeys) (d : Direction) (value : String) :
    (∃ old, d.get? key = some old ∧ d.set? key value = none) ∨
      (d.get? key = none ∧ ∃ filled, d.set? key value = some filled ∧
        ∀ other ∈ directionKeys,
          filled.get? other = if other = key then some value else d.get? other) := by
  cases hslot : d.get? key with
  | some old =>
      refine .inl ⟨old, rfl, ?_⟩
      simp only [directionKeys, List.mem_cons, List.not_mem_nil, or_false] at hkey
      rcases hkey with rfl | rfl | rfl | rfl <;> simp_all [set?, get?]
  | none =>
      refine .inr ⟨rfl, ?_⟩
      simp only [directionKeys, List.mem_cons, List.not_mem_nil, or_false] at hkey
      rcases hkey with rfl | rfl | rfl | rfl <;> simp_all [set?, get?, directionKeys]

/-- A value goes to the origin direction, or to the reply direction if the origin has one, or
nowhere if both have one. -/
theorem Directions.get?_add (hkey : key ∈ directionKeys) {other : String}
    (hother : other ∈ directionKeys) (d : Directions) (value : String) :
    (d.add key value).origin.get? other =
        (if other = key then (d.origin.get? key).or (some value) else d.origin.get? other) ∧
      (d.add key value).reply.get? other =
        if other = key ∧ (d.origin.get? key).isSome then (d.reply.get? key).or (some value)
        else d.reply.get? other := by
  rcases Direction.set?_cases hkey d.origin value with
    ⟨old, hold, hset⟩ | ⟨hnone, filled, hset, hfilled⟩
  · rw [add, hset, hold]
    refine ⟨by split <;> simp_all, ?_⟩
    rcases Direction.set?_cases hkey d.reply value with
      ⟨later, hlater, hset'⟩ | ⟨hnone, filled, hset', hfilled⟩
    · rw [hset', hlater]
      split <;> simp_all
    · rw [hset', hnone]
      simpa using hfilled other hother
  · rw [add, hset, hnone]
    exact ⟨by simpa using hfilled other hother, by simp⟩

/-- What two directions have of a key: the first and the second of the values given to it. -/
structure Directions.Hold (d : Directions) (key : String) (values : List String) : Prop where
  first : d.origin.get? key = values[0]?
  second : d.reply.get? key = values[1]?

/-- The third value of a key and all that follow it are dropped. -/
theorem Directions.Hold.add {d : Directions} {values : List String} (h : d.Hold key values)
    (hkey : key ∈ directionKeys) (value : String) :
    (d.add key value).Hold key (values ++ [value]) := by
  obtain ⟨hfirst, hsecond⟩ := h
  obtain ⟨horigin, hreply⟩ := get?_add hkey hkey d value
  constructor
  · rw [horigin, if_pos rfl, hfirst]
    cases values <;> rfl
  · rw [hreply, hfirst, hsecond]
    rcases values with _ | ⟨_, _ | ⟨_, _⟩⟩ <;> simp

/-- A field for another key changes nothing. -/
theorem Directions.Hold.add_of_ne {d : Directions} {values : List String} (h : d.Hold key values)
    (hkey : key ∈ directionKeys) (hne : key ≠ name) (value : String) :
    (d.add name value).Hold key values := by
  obtain ⟨hfirst, hsecond⟩ := h
  by_cases hname : name ∈ directionKeys
  · obtain ⟨horigin, hreply⟩ := get?_add hname hkey d value
    exact ⟨by rw [horigin, if_neg hne, hfirst], by rw [hreply, if_neg (by simp [hne]), hsecond]⟩
  · rw [Directions.add, Direction.set?_of_not_mem hname]
    exact ⟨hfirst, hsecond⟩

theorem not_mem_of_directionKeys (hkey : key ∈ directionKeys) : '=' ∉ key.toList := by
  have hall : ∀ key ∈ directionKeys, '=' ∉ key.toList := by decide +kernel
  exact hall key hkey

/-- The fields of a row give the origin direction the first value of each key, and the reply
direction the second. -/
theorem hold_ofFields (hkey : key ∈ directionKeys) (fields : List String) :
    (Directions.ofFields fields).Hold key (valuesOf key fields) := by
  induction fields using List.reverseRecOn with
  | nil =>
      simp only [directionKeys, List.mem_cons, List.not_mem_nil, or_false] at hkey
      rcases hkey with rfl | rfl | rfl | rfl <;> exact ⟨rfl, rfl⟩
  | append_singleton fields field ih =>
      have hvalue : valueFor? key field = _ := valueFor?_eq_cut? (not_mem_of_directionKeys hkey)
      rw [Directions.ofFields, List.foldl_append, ← Directions.ofFields, valuesOf_append]
      simp only [List.foldl_cons, List.foldl_nil]
      cases hcut : cut? field with
      | none =>
          rw [hcut, Option.bind_none] at hvalue
          simpa [valuesOf, hvalue] using ih
      | some cut =>
          obtain ⟨name, value⟩ := cut
          rw [hcut, Option.bind_some] at hvalue
          split at hvalue
          · next heq =>
              subst heq
              simpa [valuesOf, hvalue] using ih.add hkey value
          · next hne =>
              simpa [valuesOf, hvalue] using ih.add_of_ne hkey (Ne.symm hne) value

theorem complete_ofFields_iff (fields : List String) :
    ((Directions.ofFields fields).origin.complete && (Directions.ofFields fields).reply.complete) =
        true ↔
      ∀ key ∈ directionKeys, 2 ≤ (valuesOf key fields).length := by
  rw [Bool.and_eq_true, Direction.complete_iff, Direction.complete_iff]
  constructor
  · rintro ⟨_, hreply⟩ key hkey
    have hsecond := hreply key hkey
    rw [(hold_ofFields hkey fields).second] at hsecond
    have hlong : 1 < (valuesOf key fields).length := by simpa using hsecond
    exact hlong
  · intro h
    constructor
    · intro key hkey
      rw [(hold_ofFields hkey fields).first]
      simpa using Nat.lt_of_lt_of_le Nat.zero_lt_two (h key hkey)
    · intro key hkey
      rw [(hold_ofFields hkey fields).second]
      simpa using Nat.lt_of_lt_of_le Nat.one_lt_two (h key hkey)

def first? (key : String) (words : List String) : Option String :=
  (valuesOf key (words.drop 4))[0]?

def second? (key : String) (words : List String) : Option String :=
  (valuesOf key (words.drop 4))[1]?

/-- The state of a row is one in which the kernel knows a flow of interest. -/
def InTrackedState (words : List String) : Prop :=
  ∃ state ∈ ["ESTABLISHED", "CLOSE", "SYN_SENT"], words[3]? = some state

/-- A row has a timeout of 32 bits, and each key of a direction at least twice. -/
structure Whole (words : List String) : Prop where
  timeout : ∃ word n, words[2]? = some word ∧ Decimal.Writes word n ∧ n < Nat.pow 2 32
  twice : ∀ key ∈ directionKeys, 2 ≤ (valuesOf key (words.drop 4)).length

/-- What the words of a row tell of its flow. -/
structure Row.Told (row : Row) (words : List String) : Prop where
  timeout : ∃ word, words[2]? = some word ∧ Decimal.Writes word row.timeout
  conKey : ∃ dst dport dport', second? "dst" words = some dst ∧ first? "dport" words = some dport ∧
    second? "dport" words = some dport' ∧ row.conKey = .ofParts dst dport dport'
  synKey : ∃ src dport sport, first? "src" words = some src ∧ first? "dport" words = some dport ∧
    first? "sport" words = some sport ∧ row.synKey = .ofParts src dport sport
  srcPort : ∃ sport, first? "sport" words = some sport ∧
    ∀ port, row.srcPort = some port ↔ Decimal.Writes sport port.toNat

theorem isTrackedState_iff (hlength : 3 < words.length) :
    isTrackedState (words.getD 3 "") = true ↔ InTrackedState words := by
  simp [isTrackedState, InTrackedState, hlength, or_assoc]

/-- The row that two directions make. -/
theorem Row.of_ofDirections? {timeout : Nat} {d : Directions} {row : Row}
    (h : ofDirections? timeout d = some row) : ∃ src sport dport dst dport',
      d.origin.src = some src ∧ d.origin.sport = some sport ∧ d.origin.dport = some dport ∧
      d.reply.dst = some dst ∧ d.reply.dport = some dport' ∧
      row = ⟨timeout, .ofParts dst dport dport', .ofParts src dport sport, readPort? sport⟩ := by
  simp only [ofDirections?] at h
  split at h
  · simp only [Option.bind_eq_bind, Option.bind_eq_some_iff, Option.some.injEq] at h
    obtain ⟨src, hsrc, sport, hsport, dport, hdport, dst, hdst, dport', hdport', hrow⟩ := h
    exact ⟨src, sport, dport, dst, dport', hsrc, hsport, hdport, hdst, hdport', hrow.symm⟩
  · cases h

/-- It is the one that the words tell. -/
theorem Row.told_of_ofDirections? {timeout : Nat} {row : Row}
    (hword : ∃ word, words[2]? = some word ∧ Decimal.Writes word timeout)
    (h : ofDirections? timeout (.ofFields (words.drop 4)) = some row) : row.Told words := by
  obtain ⟨src, sport, dport, dst, dport', hsrc, hsport, hdport, hdst, hdport', rfl⟩ :=
    of_ofDirections? h
  have hold (key : String) (hkey : key ∈ directionKeys) := hold_ofFields hkey (words.drop 4)
  have hsrc : first? "src" words = some src := (hold "src" (by decide)).first.symm.trans hsrc
  have hsport : first? "sport" words = some sport :=
    (hold "sport" (by decide)).first.symm.trans hsport
  have hdport : first? "dport" words = some dport :=
    (hold "dport" (by decide)).first.symm.trans hdport
  have hdst : second? "dst" words = some dst := (hold "dst" (by decide)).second.symm.trans hdst
  have hdport' : second? "dport" words = some dport' :=
    (hold "dport" (by decide)).second.symm.trans hdport'
  exact {
    timeout := hword
    conKey := ⟨dst, dport, dport', hdst, hdport, hdport', rfl⟩
    synKey := ⟨src, dport, sport, hsrc, hdport, hsport, rfl⟩
    srcPort := ⟨sport, hsport, fun _ => readPort?_eq_some_iff⟩ }

theorem Row.exists_ofDirections? (htwice : ∀ key ∈ directionKeys, 2 ≤ (valuesOf key fields).length)
    (timeout : Nat) : ∃ row, ofDirections? timeout (.ofFields fields) = some row := by
  have hcomplete := (complete_ofFields_iff fields).mpr htwice
  rw [ofDirections?, if_pos hcomplete]
  simp only [Bool.and_eq_true, Direction.complete, Option.isSome_iff_exists] at hcomplete
  obtain ⟨⟨⟨⟨⟨_, hsrc⟩, _⟩, _, hsport⟩, _, hdport⟩, ⟨⟨_, _, hdst⟩, _⟩, _, hdport'⟩ := hcomplete
  rw [hsrc, hsport, hdport, hdst, hdport']
  exact ⟨_, rfl⟩

/-- How a row reads, by its words. -/
inductive Reads (words : List String) : Reading → Prop where
  | short (hlength : words.length < 14) : Reads words .malformed
  | aside (hlength : 14 ≤ words.length) (hstate : ¬ InTrackedState words) : Reads words .ignored
  | garbled (hlength : 14 ≤ words.length) (hstate : InTrackedState words)
      (hgarbled : ¬ Whole words) : Reads words .malformed
  | tracked (hlength : 14 ≤ words.length) (hstate : InTrackedState words) (hwhole : Whole words)
      (row : Row) (htold : row.Told words) : Reads words (.tracked row)

theorem reads_ofWords (words : List String) : Reads words (.ofWords words) := by
  rw [Reading.ofWords]
  split
  · next hshort => exact .short hshort
  next hlength =>
  have hlength : 14 ≤ words.length := Nat.le_of_not_lt hlength
  have hword : words[2]? = some (words.getD 2 "") := by
    rw [List.getD_eq_getElem?_getD, List.getElem?_eq_getElem (by omega), Option.getD_some]
  have hstate : isTrackedState (words.getD 3 "") = true ↔ _ := isTrackedState_iff (by omega)
  split
  · next haside =>
      refine .aside hlength fun htracked => ?_
      rw [hstate.mpr htracked] at haside
      cases haside
  · next htracked =>
      have htracked : InTrackedState words := hstate.mp (by simpa using htracked)
      split
      · next fault hread =>
          refine .garbled hlength htracked fun hwhole => ?_
          obtain ⟨word, n, hfound, hwrites, hn⟩ := hwhole.timeout
          rw [hword] at hfound
          cases hfound
          have hfits : n ≤ timeoutLimit := Nat.le_pred_of_lt hn
          rw [Decimal.readNat_eq_ok_iff.mpr ⟨hwrites, hfits⟩] at hread
          cases hread
      · next timeout hread =>
          obtain ⟨hwrites, hlimit⟩ := Decimal.readNat_eq_ok_iff.mp hread
          split
          · next row hrow =>
              obtain ⟨hcomplete, _⟩ := Option.ite_none_right_eq_some.mp hrow
              refine .tracked hlength htracked ⟨⟨_, timeout, hword, hwrites, ?_⟩, ?_⟩ row ?_
              · exact Nat.lt_of_le_pred (by decide) hlimit
              · exact (complete_ofFields_iff _).mp hcomplete
              · exact Row.told_of_ofDirections? ⟨_, hword, hwrites⟩ hrow
          · next hnone =>
              refine .garbled hlength htracked fun hwhole => ?_
              obtain ⟨row, hsome⟩ := Row.exists_ofDirections? hwhole.twice timeout
              rw [hnone] at hsome
              cases hsome

/-- A change of the fields of a row that it does not show in what it tells. -/
inductive Rearranged : List String → List String → Prop where
  /-- A field comes in that is for no key of a direction. -/
  | inserted (front back : List String) (field : String)
      (hother : ∀ key ∈ directionKeys, valueFor? key field = none) :
      Rearranged (front ++ back) (front ++ field :: back)
  /-- A key that has two values already gets another one. -/
  | repeated (front back : List String) (key value : String) (hkey : key ∈ directionKeys)
      (htwice : 2 ≤ (valuesOf key front).length) :
      Rearranged (front ++ back) (front ++ (key ++ "=" ++ value) :: back)
  /-- The fields come in another order, but those of one key in the same. -/
  | reordered (fields fields' : List String) (hperm : fields'.Perm fields)
      (hsame : ∀ key ∈ directionKeys, valuesOf key fields' = valuesOf key fields) :
      Rearranged fields fields'

theorem Rearranged.keeps (h : Rearranged fields fields') :
    fields.length ≤ fields'.length ∧
      ∀ key ∈ directionKeys, (valuesOf key fields').take 2 = (valuesOf key fields).take 2 := by
  cases h with
  | inserted front back field hother =>
      refine ⟨by simp, fun key hkey => ?_⟩
      simp [valuesOf, hother key hkey]
  | repeated front back name value hname htwice =>
      refine ⟨by simp, fun key hkey => ?_⟩
      by_cases heq : key = name
      · subst heq
        rw [valuesOf_append, valuesOf_append, List.take_append_of_le_length htwice,
          List.take_append_of_le_length htwice]
      · have hcut : cut? (name ++ "=" ++ value) = _ :=
          cut?_append (not_mem_of_directionKeys hname)
        have hnone : valueFor? key (name ++ "=" ++ value) = none := by
          rw [valueFor?_eq_cut? (not_mem_of_directionKeys hkey), hcut]
          exact if_neg (Ne.symm heq)
        simp [valuesOf, hnone]
  | reordered _ _ hperm hsame =>
      exact ⟨Nat.le_of_eq hperm.length_eq.symm, fun key hkey => by rw [hsame key hkey]⟩

theorem keeps_of_rearranged (h : Relation.ReflTransGen Rearranged fields fields') :
    fields.length ≤ fields'.length ∧
      ∀ key ∈ directionKeys, (valuesOf key fields').take 2 = (valuesOf key fields).take 2 := by
  induction h with
  | refl => exact ⟨Nat.le_refl _, fun _ _ => rfl⟩
  | tail _ hlast ih =>
      obtain ⟨hlength, hvalues⟩ := hlast.keeps
      exact ⟨Nat.le_trans ih.1 hlength, fun key hkey => (hvalues key hkey).trans (ih.2 key hkey)⟩

/-- The first two values of each key are all that the directions are made from. -/
theorem ofFields_congr
    (h : ∀ key ∈ directionKeys, (valuesOf key fields').take 2 = (valuesOf key fields).take 2) :
    Directions.ofFields fields' = Directions.ofFields fields := by
  have hvalue (n : Nat) (hn : n < 2) (key : String) (hkey : key ∈ directionKeys) :
      (valuesOf key fields')[n]? = (valuesOf key fields)[n]? := by
    rw [← List.getElem?_take_of_lt hn, h key hkey, List.getElem?_take_of_lt hn]
  have horigin : (Directions.ofFields fields').origin = (Directions.ofFields fields).origin := by
    refine Direction.ext_get? fun key hkey => ?_
    rw [(hold_ofFields hkey fields').first, (hold_ofFields hkey fields).first]
    exact hvalue 0 (by decide) key hkey
  have hreply : (Directions.ofFields fields').reply = (Directions.ofFields fields).reply := by
    refine Direction.ext_get? fun key hkey => ?_
    rw [(hold_ofFields hkey fields').second, (hold_ofFields hkey fields).second]
    exact hvalue 1 (by decide) key hkey
  have hext : ∀ d d' : Directions, d'.origin = d.origin → d'.reply = d.reply → d' = d := by
    rintro ⟨_, _⟩ ⟨_, _⟩ rfl rfl
    rfl
  exact hext _ _ horigin hreply

/-- Two rows begin with the same four words, and the fields of the second are those of the first
with any number of such changes. -/
structure SameButArranged (text text' : String) : Prop where
  front : (Text.words text').take 4 = (Text.words text).take 4
  fields : Relation.ReflTransGen Rearranged ((Text.words text).drop 4) ((Text.words text').drop 4)

theorem SameButArranged.ofText_eq {text text' : String} (h : SameButArranged text text')
    (hlength : 14 ≤ (Text.words text).length) : Reading.ofText text' = Reading.ofText text := by
  obtain ⟨hfields, hvalues⟩ := keeps_of_rearranged h.fields
  simp only [List.length_drop] at hfields
  have hlength' : 14 ≤ (Text.words text').length := by omega
  have hword (n : Nat) (hn : n < 4) : (Text.words text')[n]? = (Text.words text)[n]? := by
    rw [← List.getElem?_take_of_lt hn, h.front, List.getElem?_take_of_lt hn]
  simp only [Reading.ofText, Reading.ofWords, leastWords, List.getD_eq_getElem?_getD,
    hword 2 (by decide), hword 3 (by decide), ofFields_congr hvalues]
  rw [if_neg (Nat.not_lt.mpr hlength), if_neg (Nat.not_lt.mpr hlength')]

/-- A row of fewer than fourteen words is malformed. Otherwise it is ignored in any other state than
three; and in these it is taken up exactly if it has a timeout of 32 bits and each key of a
direction at least twice. Then timeout, names and port are those that the first and second values
tell, and fields for other keys, another order among fields of different keys and further values of
a key change nothing. -/
theorem row_reads (text : String) :
    let words := Text.words text
    (Reading.ofText text = .malformed ↔
      words.length < 14 ∨ (InTrackedState words ∧ ¬ Whole words)) ∧
    (Reading.ofText text = .ignored ↔ 14 ≤ words.length ∧ ¬ InTrackedState words) ∧
    ((∃ row, Reading.ofText text = .tracked row) ↔
      14 ≤ words.length ∧ InTrackedState words ∧ Whole words) ∧
    (∀ row, Reading.ofText text = .tracked row → row.Told words) ∧
    ∀ text' row, SameButArranged text text' → Reading.ofText text = .tracked row →
      Reading.ofText text' = .tracked row := by
  intro words
  have hreads : Reads words (.ofText text) := reads_ofWords words
  have hsame : ∀ text' row, SameButArranged text text' → Reading.ofText text = .tracked row →
      Reading.ofText text' = .tracked row := by
    intro text' row hsame htracked
    rw [htracked] at hreads
    cases hreads with
    | tracked hlength => rw [hsame.ofText_eq hlength, htracked]
  generalize Reading.ofText text = reading at hreads hsame ⊢
  cases hreads with
  | short hlength =>
      have hnot : ¬ 14 ≤ words.length := Nat.not_le.mpr hlength
      simp [hlength, hnot]
  | aside hlength hstate =>
      have hnot : ¬ words.length < 14 := Nat.not_lt.mpr hlength
      simp [hlength, hstate, hnot]
  | garbled hlength hstate hgarbled =>
      simp [hlength, hstate, hgarbled]
  | tracked hlength hstate hwhole row htold =>
      have hnot : ¬ words.length < 14 := Nat.not_lt.mpr hlength
      simpa [hlength, hstate, hwhole, htold, hnot] using hsame

def exampleUnreplied : String :=
  "tcp 6 100 SYN_SENT src=a dst=b sport=5001 dport=80 [UNREPLIED] " ++
    "src=b dst=c sport=9 dport=7000 use=1"

/-- The same row with two of its fields exchanged, a field for another key and a third source. -/
def exampleCounted : String :=
  "tcp 6 100 SYN_SENT src=a sport=5001 dst=b dport=80 [UNREPLIED] packets=3 " ++
    "src=b dst=c sport=9 dport=7000 use=1 src=d"

theorem exampleCounted_sameButArranged : SameButArranged exampleUnreplied exampleCounted := by
  have hwords : Text.words exampleUnreplied = ["tcp", "6", "100", "SYN_SENT", "src=a", "dst=b",
    "sport=5001", "dport=80", "[UNREPLIED]", "src=b", "dst=c", "sport=9", "dport=7000",
    "use=1"] := by decide +kernel
  have hwords' : Text.words exampleCounted = ["tcp", "6", "100", "SYN_SENT", "src=a", "sport=5001",
    "dst=b", "dport=80", "[UNREPLIED]", "packets=3", "src=b", "dst=c", "sport=9", "dport=7000",
    "use=1", "src=d"] := by decide +kernel
  refine ⟨by rw [hwords, hwords']; rfl, ?_⟩
  rw [hwords, hwords']
  have hexchanged := Rearranged.reordered
    ["src=a", "dst=b", "sport=5001", "dport=80", "[UNREPLIED]", "src=b", "dst=c", "sport=9",
      "dport=7000", "use=1"]
    ["src=a", "sport=5001", "dst=b", "dport=80", "[UNREPLIED]", "src=b", "dst=c", "sport=9",
      "dport=7000", "use=1"] (by decide +kernel) (by decide +kernel)
  have hinserted := Rearranged.inserted
    ["src=a", "sport=5001", "dst=b", "dport=80", "[UNREPLIED]"]
    ["src=b", "dst=c", "sport=9", "dport=7000", "use=1"] "packets=3" (by decide +kernel)
  have hrepeated := Rearranged.repeated
    ["src=a", "sport=5001", "dst=b", "dport=80", "[UNREPLIED]", "packets=3", "src=b", "dst=c",
      "sport=9", "dport=7000", "use=1"] [] "src" "d" (by decide) (by decide +kernel)
  exact ((Relation.ReflTransGen.single hexchanged).tail hinserted).tail hrepeated

theorem exampleCounted_read : SameButArranged exampleUnreplied exampleCounted ∧
    Reading.ofText exampleUnreplied =
      .tracked ⟨100, .ofParts "c" "80" "7000", .ofParts "a" "80" "5001", some 5001⟩ ∧
    Reading.ofText exampleCounted =
      .tracked ⟨100, .ofParts "c" "80" "7000", .ofParts "a" "80" "5001", some 5001⟩ := by
  have hread : Reading.ofText exampleUnreplied =
      .tracked ⟨100, .ofParts "c" "80" "7000", .ofParts "a" "80" "5001", some 5001⟩ := by
    decide +kernel
  obtain ⟨_, _, _, _, hsame⟩ := row_reads exampleUnreplied
  exact ⟨exampleCounted_sameButArranged, hread, hsame _ _ exampleCounted_sameButArranged hread⟩

end Kernel

end FlowVerdict
