import FlowVerdict.Json.Printer
import FlowVerdict.Proofs.DoubleText
import FlowVerdict.Proofs.Listing
import FlowVerdict.Proofs.QuotedText

/-!
# Reading what was written

A written value is read back as it is, if its numbers are whole and there is room for its arrays and
objects: members come back in their order, and nothing is merged. A written value has no control
character, so it is one line.
-/

namespace FlowVerdict.Json

open Text.Utf8 (encode)

variable {depth : Nat} {rest text : Bytes} {j : Json}

/-- A text that begins with a byte that begins a value. -/
def Leads (text : Bytes) : Prop :=
  ∃ b tail, text = b :: tail ∧ isBlankByte b = false ∧ b ≠ byte ']'

theorem Leads.append (h : Leads text) (rest : Bytes) : Leads (text ++ rest) := by
  obtain ⟨b, tail, rfl, hblank, hclose⟩ := h
  exact ⟨b, tail ++ rest, rfl, hblank, hclose⟩

theorem skipBlanks_cons {b : UInt8} (h : isBlankByte b = false) (tail : Bytes) :
    skipBlanks (b :: tail) = b :: tail :=
  List.dropWhile_cons_of_neg (by simp [h])

theorem valueStart_cons {b : UInt8} (h : isBlankByte b = false) (tail : Bytes) :
    valueStart (b :: tail) = .ok (b, b :: tail) := by
  rw [valueStart, skipBlanks_cons h]

theorem readListed_scalar {b : UInt8} (hblank : isBlankByte b = false) (harr : b ≠ byte '[')
    (hobj : b ≠ byte '\x7b') (depth : Nat) (tail : Bytes) :
    readListed depth (b :: tail) =
      (readScalar b tail).map fun (found, rest) => (found.toJson, rest) :=
  readListed_of_start (valueStart_cons hblank tail) harr hobj depth

theorem startsNumber_of_readNumber {number : Number} (h : readNumber text = .ok (number, rest)) :
    ∃ b tail, text = b :: tail ∧ startsNumber b = true := by
  cases text with
  | nil => cases h
  | cons b tail =>
      refine ⟨b, tail, rfl, ?_⟩
      rw [readNumber] at h
      split at h
      · next hminus => simp [startsNumber, hminus]
      · rw [readUnsigned] at h
        split at h
        · cases h
        · next hdigit =>
            rw [Bool.not_eq_true', Bool.not_eq_false] at hdigit
            simp [startsNumber, hdigit]

/-- What is read as a number is the value. -/
theorem readListed_number {number : Number} (h : readNumber text = .ok (number, rest))
    (depth : Nat) : readListed depth text = .ok (number.found.toJson, rest) := by
  obtain ⟨b, tail, rfl, hstarts⟩ := startsNumber_of_readNumber h
  obtain ⟨hblank, harr, hobj, _⟩ := of_startsNumber hstarts
  rw [readListed_scalar hblank harr hobj, readScalar_number hstarts, h]
  rfl

/-- A value that is written is read back, whatever the text goes on with. -/
structure Reads (depth : Nat) (j found : Json) : Prop where
  leads : Leads (encode j.write)
  read : ∀ rest, Ends rest → readListed depth (encode j.write ++ rest) = .ok (found, rest)

theorem encode_null : encode (write .null) = byte 'n' :: nullTail := by
  decide +kernel

theorem encode_true : encode (write (.bool true)) = byte 't' :: trueTail := by
  decide +kernel

theorem encode_false : encode (write (.bool false)) = byte 'f' :: falseTail := by
  decide +kernel

theorem reads_null : Reads depth .null .null := by
  constructor
  · exact ⟨_, _, encode_null, by decide, by decide⟩
  · intro rest _
    rw [encode_null, List.cons_append, readListed_scalar (by decide) (by decide) (by decide)]
    rfl

theorem reads_bool (b : Bool) : Reads depth (.bool b) (.bool b) := by
  cases b with
  | true =>
      constructor
      · exact ⟨_, _, encode_true, by decide, by decide⟩
      · intro rest _
        rw [encode_true, List.cons_append, readListed_scalar (by decide) (by decide) (by decide)]
        rfl
  | false =>
      constructor
      · exact ⟨_, _, encode_false, by decide, by decide⟩
      · intro rest _
        rw [encode_false, List.cons_append, readListed_scalar (by decide) (by decide) (by decide)]
        rfl

/-- A value that is written as a number is read as that number. -/
theorem reads_number {found : Json}
    (h : ∀ rest, Ends rest → ∃ number, readNumber (encode j.write ++ rest) = .ok (number, rest) ∧
      number.found.toJson = found) : Reads depth j found := by
  constructor
  · obtain ⟨number, hread, _⟩ := h [] ends_nil
    rw [List.append_nil] at hread
    obtain ⟨b, tail, htext, hstarts⟩ := startsNumber_of_readNumber hread
    obtain ⟨hblank, _, _, hclose, _⟩ := of_startsNumber hstarts
    exact ⟨b, tail, htext, hblank, hclose⟩
  · intro rest hrest
    obtain ⟨number, hread, rfl⟩ := h rest hrest
    exact readListed_number hread depth

theorem reads_int {n : Int} (h : InRange n) : Reads depth (.int n) (.int n) := by
  apply reads_number
  intro rest hrest
  obtain ⟨number, hread, hfound⟩ := readNumber_toString h hrest
  exact ⟨number, hread, by rw [hfound]; rfl⟩

theorem reads_str (text : String) : Reads depth (.str text) (.str text) := by
  have htext : encode (write (.str text)) = byte '"' :: (content text.toList ++ [byte '"']) :=
    encode_quote text
  constructor
  · exact ⟨_, _, htext, by decide, by decide⟩
  · intro rest _
    rw [htext, List.cons_append, List.append_assoc, List.singleton_append,
      readListed_scalar (by decide) (by decide) (by decide)]
    rw [readScalar_quote, readString_content]
    rfl

/-- The items behind the first, each with its comma. -/
def moreItems (items : List Json) : Bytes :=
  items.flatMap fun item => byte ',' :: encode item.write

theorem encode_writeItems_nil : encode (writeItems []) = [] := by
  decide +kernel

theorem encode_writeItems (item : Json) (items : List Json) :
    encode (writeItems (item :: items)) = encode item.write ++ moreItems items := by
  have hcomma : encode "," = [byte ','] := by decide +kernel
  induction items generalizing item with
  | nil => simp [writeItems, moreItems]
  | cons next rest ih =>
      rw [writeItems, Text.Utf8.encode_append, Text.Utf8.encode_append, hcomma, ih]
      · simp [moreItems]
      · rintro ⟨⟩

theorem ends_of_closes {b : UInt8} (h : b = byte ',' ∨ b = byte ']' ∨ b = byte '\x7d')
    (tail : Bytes) : Ends (b :: tail) := by
  intro c hc
  obtain rfl : b = c := Option.some.inj hc
  rcases h with rfl | rfl | rfl <;> decide

theorem ends_moreItems (items : List Json) (rest : Bytes) :
    Ends (moreItems items ++ byte ']' :: rest) := by
  cases items with
  | nil => exact ends_of_closes (.inr (.inl rfl)) rest
  | cons item items => exact ends_of_closes (.inl rfl) _

/-- Before the first item there is nothing. -/
theorem nextItem_first (h : Leads text) : nextItem true text = .ok (.item text) := by
  obtain ⟨b, tail, rfl, hblank, hclose⟩ := h
  rw [nextItem, skipBlanks_cons hblank]
  simp [hclose]

/-- Before every other item there is a comma. -/
theorem nextItem_comma (h : Leads text) : nextItem false (byte ',' :: text) = .ok (.item text) := by
  obtain ⟨b, tail, rfl, hblank, hclose⟩ := h
  have hcomma : isBlankByte (byte ',') = false := by decide
  have hne : byte ',' ≠ byte ']' := by decide
  rw [nextItem, skipBlanks_cons hcomma]
  simp [skipBlanks_cons hblank, hclose, hne]

theorem nextItem_close (first : Bool) (rest : Bytes) :
    nextItem first (byte ']' :: rest) = .ok (.done rest) := by
  have hclose : isBlankByte (byte ']') = false := by decide
  rw [nextItem, skipBlanks_cons hclose]
  simp

theorem readItems_moreItems {items found : List Json} (h : List.Forall₂ (Reads depth) items found)
    {fuel : Nat} (hfuel : items.length < fuel) (rest : Bytes) :
    readItems (readListed depth) fuel false (moreItems items ++ byte ']' :: rest) =
      .ok (found, rest) := by
  induction h generalizing fuel with
  | nil =>
      obtain ⟨fuel, rfl⟩ := Nat.exists_eq_succ_of_ne_zero (Nat.ne_zero_of_lt hfuel)
      simp [readItems, moreItems, nextItem_close, bind, Except.bind]
  | @cons item value items found hitem _ ih =>
      obtain ⟨fuel, rfl⟩ := Nat.exists_eq_succ_of_ne_zero (Nat.ne_zero_of_lt hfuel)
      have htext : moreItems (item :: items) ++ byte ']' :: rest =
          byte ',' :: (encode item.write ++ (moreItems items ++ byte ']' :: rest)) := by
        simp [moreItems]
      have hread := hitem.read _ (ends_moreItems items rest)
      have hrest := ih (Nat.lt_of_succ_lt_succ hfuel)
      simp only [htext, readItems, nextItem_comma (hitem.leads.append _), hread, hrest, bind,
        Except.bind]

theorem length_le_moreItems (items : List Json) : items.length ≤ (moreItems items).length := by
  induction items with
  | nil => exact Nat.zero_le _
  | cons item items ih =>
      simp only [moreItems, List.flatMap_cons, List.length_append, List.length_cons] at ih ⊢
      omega

theorem encode_arr (items : List Json) :
    encode (write (.arr items)) = byte '[' :: (encode (writeItems items) ++ [byte ']']) := by
  have hopen : encode "[" = [byte '['] := by decide +kernel
  have hclose : encode "]" = [byte ']'] := by decide +kernel
  rw [write, Text.Utf8.encode_append, Text.Utf8.encode_append, hopen, hclose]
  rfl

theorem readItems_items {items found : List Json} (h : List.Forall₂ (Reads depth) items found)
    {fuel : Nat} (hfuel : items.length < fuel) (rest : Bytes) :
    readItems (readListed depth) fuel true (encode (writeItems items) ++ byte ']' :: rest) =
      .ok (found, rest) := by
  obtain ⟨fuel, rfl⟩ := Nat.exists_eq_succ_of_ne_zero (Nat.ne_zero_of_lt hfuel)
  cases h with
  | nil =>
      simp [readItems, encode_writeItems_nil, nextItem_close, bind, Except.bind]
  | @cons item value items found hitem hmore =>
      have hread := hitem.read _ (ends_moreItems items rest)
      have hrest := readItems_moreItems hmore (Nat.lt_of_succ_lt_succ hfuel) rest
      simp only [readItems, encode_writeItems, List.append_assoc,
        nextItem_first (hitem.leads.append _), hread, hrest, bind, Except.bind]

theorem Leads.length_pos (h : Leads text) : 0 < text.length := by
  obtain ⟨b, tail, rfl, _⟩ := h
  exact Nat.succ_pos _

theorem length_le_writeItems {items found : List Json}
    (h : List.Forall₂ (Reads depth) items found) :
    items.length ≤ (encode (writeItems items)).length := by
  cases h with
  | nil => exact Nat.zero_le _
  | @cons item value items found hitem hmore =>
      have hfirst := hitem.leads.length_pos
      have hlength := length_le_moreItems items
      rw [encode_writeItems, List.length_append, List.length_cons]
      omega

theorem Reads.arr {items found : List Json} (h : List.Forall₂ (Reads depth) items found) :
    Reads (depth + 1) (.arr items) (.arr found) := by
  have hopen : isBlankByte (byte '[') = false := by decide
  constructor
  · exact ⟨_, _, encode_arr items, by decide, by decide⟩
  · intro rest _
    have hlength := length_le_writeItems h
    have hitems : readItems (readListed depth)
        (byte '[' :: (encode (writeItems items) ++ byte ']' :: rest)).length true
        (encode (writeItems items) ++ byte ']' :: rest) = .ok (found, rest) := by
      apply readItems_items h
      rw [List.length_cons, List.length_append]
      omega
    rw [encode_arr, List.cons_append, List.append_assoc, List.singleton_append]
    simp only [readListed, valueStart_cons hopen, bind, Except.bind, if_true, List.drop_one,
      List.tail_cons, hitems]
    rfl

def memberBytes (m : String × Json) : Bytes :=
  encode (quote m.1) ++ byte ':' :: encode m.2.write

def moreMembers (members : Members) : Bytes :=
  members.flatMap fun m => byte ',' :: memberBytes m

/-- A member that is written is read back. -/
def ReadsMember (depth : Nat) (m found : String × Json) : Prop :=
  found.1 = m.1 ∧ Reads depth m.2 found.2

theorem encode_writeMembers_nil : encode (writeMembers []) = [] := by
  decide +kernel

theorem encode_writeMembers (m : String × Json) (members : Members) :
    encode (writeMembers (m :: members)) = memberBytes m ++ moreMembers members := by
  have hcomma : encode "," = [byte ','] := by decide +kernel
  have hcolon : encode ":" = [byte ':'] := by decide +kernel
  induction members generalizing m with
  | nil => simp [writeMembers, moreMembers, memberBytes, hcolon]
  | cons next rest ih =>
      rw [writeMembers]
      · simp [ih, hcomma, hcolon, moreMembers, memberBytes]
      · rintro ⟨⟩

theorem ends_moreMembers (members : Members) (rest : Bytes) :
    Ends (moreMembers members ++ byte '\x7d' :: rest) := by
  cases members with
  | nil => exact ends_of_closes (.inr (.inr rfl)) rest
  | cons m members => exact ends_of_closes (.inl rfl) _

theorem readKey_quote (key : String) (rest : Bytes) :
    readKey (byte '"') (content key.toList ++ byte '"' :: rest) = .ok (.key key rest) := by
  rw [readKey, if_pos rfl, readString_content]
  rfl

theorem encode_quote_append (key : String) (rest : Bytes) :
    encode (quote key) ++ rest = byte '"' :: (content key.toList ++ byte '"' :: rest) := by
  rw [encode_quote, List.cons_append, List.append_assoc, List.singleton_append]

/-- Before the first member there is nothing. -/
theorem nextMember_first (key : String) (rest : Bytes) :
    nextMember true (encode (quote key) ++ rest) = .ok (.key key rest) := by
  have hquote : isBlankByte (byte '"') = false := by decide
  have hclose : byte '"' ≠ byte '\x7d' := by decide
  rw [encode_quote_append, nextMember, skipBlanks_cons hquote]
  simp [hclose, readKey_quote]

/-- Before every other member there is a comma. -/
theorem nextMember_comma (key : String) (rest : Bytes) :
    nextMember false (byte ',' :: (encode (quote key) ++ rest)) = .ok (.key key rest) := by
  have hquote : isBlankByte (byte '"') = false := by decide
  have hcomma : isBlankByte (byte ',') = false := by decide
  have hclose : byte '"' ≠ byte '\x7d' := by decide
  have hmore : byte ',' ≠ byte '\x7d' := by decide
  rw [encode_quote_append, nextMember, skipBlanks_cons hcomma]
  simp [hclose, hmore, skipBlanks_cons hquote, readKey_quote]

theorem nextMember_close (first : Bool) (rest : Bytes) :
    nextMember first (byte '\x7d' :: rest) = .ok (.done rest) := by
  have hclose : isBlankByte (byte '\x7d') = false := by decide
  rw [nextMember, skipBlanks_cons hclose]
  simp

theorem readColon_colon (rest : Bytes) : readColon (byte ':' :: rest) = .ok rest := by
  have hcolon : isBlankByte (byte ':') = false := by decide
  rw [readColon, skipBlanks_cons hcolon]
  simp

theorem listMember_member {m found : String × Json} (h : ReadsMember depth m found)
    (sofar : Members) (hrest : Ends rest) :
    listMember (readListed depth) sofar m.1 (byte ':' :: (encode m.2.write ++ rest)) =
      .ok (sofar ++ [found], rest) := by
  obtain ⟨hname, hvalue⟩ := h
  simp only [listMember, readColon_colon, hvalue.read rest hrest, bind, Except.bind, ← hname]

theorem readMembers_moreMembers {members found : Members}
    (h : List.Forall₂ (ReadsMember depth) members found) {fuel : Nat}
    (hfuel : members.length < fuel) (sofar : Members) (rest : Bytes) :
    readMembers (listMember (readListed depth)) fuel false sofar
        (moreMembers members ++ byte '\x7d' :: rest) = .ok (sofar ++ found, rest) := by
  induction h generalizing fuel sofar with
  | nil =>
      obtain ⟨fuel, rfl⟩ := Nat.exists_eq_succ_of_ne_zero (Nat.ne_zero_of_lt hfuel)
      simp [readMembers, moreMembers, nextMember_close, bind, Except.bind]
  | @cons m value members found hm _ ih =>
      obtain ⟨fuel, rfl⟩ := Nat.exists_eq_succ_of_ne_zero (Nat.ne_zero_of_lt hfuel)
      have htext : moreMembers (m :: members) ++ byte '\x7d' :: rest =
          byte ',' :: (encode (quote m.1) ++ byte ':' :: (encode m.2.write ++
            (moreMembers members ++ byte '\x7d' :: rest))) := by
        simp [moreMembers, memberBytes]
      have hmember := listMember_member hm sofar (ends_moreMembers members rest)
      have hrest := ih (Nat.lt_of_succ_lt_succ hfuel) (sofar ++ [value])
      rw [List.append_assoc, List.singleton_append] at hrest
      simp only [htext, readMembers, nextMember_comma, hmember, hrest, bind, Except.bind]

theorem readMembers_members {members found : Members}
    (h : List.Forall₂ (ReadsMember depth) members found) {fuel : Nat}
    (hfuel : members.length < fuel) (rest : Bytes) :
    readMembers (listMember (readListed depth)) fuel true []
        (encode (writeMembers members) ++ byte '\x7d' :: rest) = .ok (found, rest) := by
  obtain ⟨fuel, rfl⟩ := Nat.exists_eq_succ_of_ne_zero (Nat.ne_zero_of_lt hfuel)
  cases h with
  | nil =>
      simp [readMembers, encode_writeMembers_nil, nextMember_close, bind, Except.bind]
  | @cons m value members found hm hmore =>
      have htext : encode (writeMembers (m :: members)) ++ byte '\x7d' :: rest =
          encode (quote m.1) ++ byte ':' :: (encode m.2.write ++
            (moreMembers members ++ byte '\x7d' :: rest)) := by
        simp [encode_writeMembers, memberBytes]
      have hmember := listMember_member hm [] (ends_moreMembers members rest)
      have hrest := readMembers_moreMembers hmore (Nat.lt_of_succ_lt_succ hfuel) [value] rest
      simp only [htext, readMembers, nextMember_first, hmember, hrest, bind, Except.bind,
        List.nil_append, List.singleton_append]

theorem length_le_writeMembers (members : Members) :
    members.length ≤ (encode (writeMembers members)).length := by
  have hmore : members.tail.length ≤ (moreMembers members.tail).length := by
    induction members.tail with
    | nil => exact Nat.zero_le _
    | cons m members ih =>
        simp only [moreMembers, List.flatMap_cons, List.length_append, List.length_cons] at ih ⊢
        omega
  cases members with
  | nil => exact Nat.zero_le _
  | cons m members =>
      rw [List.tail_cons] at hmore
      simp only [encode_writeMembers, memberBytes, List.length_append, List.length_cons]
      omega

theorem encode_obj (members : Members) :
    encode (write (.obj members)) =
      byte '\x7b' :: (encode (writeMembers members) ++ [byte '\x7d']) := by
  have hopen : encode "\x7b" = [byte '\x7b'] := by decide +kernel
  have hclose : encode "\x7d" = [byte '\x7d'] := by decide +kernel
  rw [write, Text.Utf8.encode_append, Text.Utf8.encode_append, hopen, hclose]
  rfl

theorem Reads.obj {members found : Members}
    (h : List.Forall₂ (ReadsMember depth) members found) :
    Reads (depth + 1) (.obj members) (.obj found) := by
  have hopen : isBlankByte (byte '\x7b') = false := by decide
  have hne : byte '\x7b' ≠ byte '[' := by decide
  constructor
  · exact ⟨_, _, encode_obj members, by decide, by decide⟩
  · intro rest _
    have hlength := length_le_writeMembers members
    have hmembers : readMembers (listMember (readListed depth))
        (byte '\x7b' :: (encode (writeMembers members) ++ byte '\x7d' :: rest)).length true []
        (encode (writeMembers members) ++ byte '\x7d' :: rest) = .ok (found, rest) := by
      apply readMembers_members h
      rw [List.length_cons, List.length_append]
      omega
    rw [encode_obj, List.cons_append, List.append_assoc, List.singleton_append]
    simp only [readListed, valueStart_cons hopen, bind, Except.bind, if_neg hne, if_true,
      List.drop_one, List.tail_cons, hmembers]
    rfl

/-- A double of a magnitude below `1e300` is written as a number. -/
theorem exists_reads_float (depth : Nat) {x : Float} (hlow : -1e300 < x) (hhigh : x < 1e300) :
    ∃ y, Reads depth (.float x) (.float y) := by
  obtain ⟨y, hread⟩ := exists_readNumber_write hlow hhigh
  refine ⟨y, reads_number ?_⟩
  intro rest hrest
  exact ⟨.float y, hread rest hrest, rfl⟩

/-- A zero with a minus sign is written as a double. -/
theorem reads_negativeZero : Reads depth (.float (-0.0)) (.float (-0.0)) := by
  have hrange : (-1e300 : Float) < -0.0 ∧ (-0.0 : Float) < 1e300 := by decide +kernel
  obtain ⟨y, hread⟩ := exists_readNumber_write hrange.1 hrange.2
  have hwrite : Decimal.jsonNumber.write (-0.0) = "-0.0" := rfl
  have htext : encode "-0.0" = [byte '-', byte '0', byte '.', byte '0'] := by decide +kernel
  have hzero : readNumber [byte '-', byte '0', byte '.', byte '0'] = .ok (.float (-0.0), []) := rfl
  have hsame := hread [] ends_nil
  rw [List.append_nil, hwrite, htext, hzero] at hsame
  cases hsame
  apply reads_number
  intro rest hrest
  exact ⟨.float (-0.0), hread rest hrest, rfl⟩

/-- Whole numbers, texts and what is made of them are read back as they are. -/
theorem reads_of_fits (h : Fits depth j) (hwhole : Whole j) : Reads depth j j := by
  induction h with
  | null => exact reads_null
  | bool b => exact reads_bool b
  | int h => exact reads_int h
  | float x =>
      cases hwhole with
      | negativeZero => exact reads_negativeZero
  | str text => exact reads_str text
  | arr h ih =>
      cases hwhole with
      | arr hwhole =>
          apply Reads.arr
          apply List.forall₂_same.mpr
          intro item hitem
          exact ih item hitem (hwhole item hitem)
  | obj h ih =>
      cases hwhole with
      | obj hwhole =>
          apply Reads.obj
          apply List.forall₂_same.mpr
          intro m hm
          exact ⟨rfl, ih m hm (hwhole m hm)⟩

/-- No byte is a control character. -/
def Visible (text : Bytes) : Prop :=
  ∀ b ∈ text, 0x20 ≤ b

theorem Visible.append (h : Visible text) (hrest : Visible rest) : Visible (text ++ rest) := by
  intro b hb
  rcases List.mem_append.mp hb with hb | hb
  · exact h b hb
  · exact hrest b hb

theorem Visible.cons {b : UInt8} (hb : 0x20 ≤ b) (h : Visible text) : Visible (b :: text) :=
  List.forall_mem_cons.mpr ⟨hb, h⟩

theorem visible_nil : Visible [] :=
  List.forall_mem_nil _

theorem Printable.visible {cs : List Char} (h : Printable cs) : Visible (cs.map byte) := by
  intro b hb
  obtain ⟨c, hc, rfl⟩ := List.mem_map.mp hb
  obtain ⟨hlow, hhigh⟩ := h c hc
  rw [UInt8.le_iff_toNat_le, toNat_byte hhigh]
  exact hlow

theorem Printable.visible_encode {text : String} (h : Printable text.toList) :
    Visible (encode text) := by
  rw [encode_of_ascii fun c hc => (h c hc).2]
  exact h.visible

theorem visible_toString (n : Int) : Visible (encode (toString n)) := by
  cases n with
  | ofNat n =>
      rw [Int.ofNat_eq_natCast, encode_ofNat]
      exact (Digits.printable (digits_toDigits n)).visible
  | negSucc n =>
      rw [encode_negSucc]
      exact (Digits.printable (digits_toDigits (n + 1))).visible.cons (by decide)

theorem visible_moreItems {items : List Json} (h : ∀ item ∈ items, Visible (encode item.write)) :
    Visible (moreItems items) := by
  intro b hb
  obtain ⟨item, hitem, hb⟩ := List.mem_flatMap.mp hb
  exact (h item hitem).cons (by decide) b hb

theorem visible_memberBytes {m : String × Json} (h : Visible (encode m.2.write)) :
    Visible (memberBytes m) := by
  have hkey : Visible (encode (quote m.1)) := fun _ hb => le_of_mem_quote hb
  exact hkey.append (h.cons (by decide))

theorem visible_moreMembers {members : Members}
    (h : ∀ m ∈ members, Visible (encode m.2.write)) : Visible (moreMembers members) := by
  intro b hb
  obtain ⟨m, hm, hb⟩ := List.mem_flatMap.mp hb
  exact (visible_memberBytes (h m hm)).cons (by decide) b hb

/-- A written value has no control character, so it is one line. -/
theorem visible_write (j : Json) : Visible (encode j.write) := by
  induction j with
  | null => exact Printable.visible_encode (by simp [Printable, write])
  | bool b => cases b <;> exact Printable.visible_encode (by simp [Printable, write])
  | int n => exact visible_toString n
  | float x => exact Printable.visible_encode (printable_write x)
  | str text => exact fun _ hb => le_of_mem_quote hb
  | arr items ih =>
      have hitems : Visible (encode (writeItems items)) := by
        cases items with
        | nil =>
            rw [encode_writeItems_nil]
            exact visible_nil
        | cons item items =>
            obtain ⟨hitem, hmore⟩ := List.forall_mem_cons.mp ih
            rw [encode_writeItems]
            exact hitem.append (visible_moreItems hmore)
      rw [encode_arr]
      exact (hitems.append (visible_nil.cons (by decide))).cons (by decide)
  | obj members ih =>
      have hmembers : Visible (encode (writeMembers members)) := by
        cases members with
        | nil =>
            rw [encode_writeMembers_nil]
            exact visible_nil
        | cons m members =>
            obtain ⟨hm, hmore⟩ := List.forall_mem_cons.mp ih
            rw [encode_writeMembers]
            exact (visible_memberBytes hm).append (visible_moreMembers hmore)
      rw [encode_obj]
      exact (hmembers.append (visible_nil.cons (by decide))).cons (by decide)

end FlowVerdict.Json
