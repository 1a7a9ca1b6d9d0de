import FlowVerdict.Proofs.ByteOrder
import FlowVerdict.Text.Utf8

/-!
# Texts and their bytes

A text is written character by character, ASCII characters as one byte and all others as bytes
beyond ASCII, and is read back as it was.
-/

namespace FlowVerdict.Text

/-- The bytes of a character that takes several of them are beyond ASCII. -/
theorem le_of_mem_sextets {lead k n b : Nat} (hlead : 0x80 ≤ lead) (h : b ∈ sextets lead k n) :
    0x80 ≤ b := by
  induction k generalizing n with
  | zero =>
      rw [List.mem_singleton.mp h]
      exact Nat.le_add_right_of_le hlead
  | succ k ih =>
      rcases List.mem_append.mp h with hfront | hlast
      · exact ih hfront
      · rw [List.mem_singleton.mp hlast]
        exact Nat.le_add_left _ _

namespace Utf8

variable {c : Char} {b : UInt8} {n : Nat}

theorem toList_loop_eq (bytes : ByteArray) (i : Nat) (sofar : List UInt8) :
    ByteArray.toList.loop bytes i sofar = sofar.reverse ++ bytes.data.toList.drop i := by
  rw [ByteArray.toList.loop]
  split
  · next hlt =>
      rw [toList_loop_eq bytes (i + 1)]
      have hbound : i < bytes.data.toList.length := hlt
      have hget : bytes.get! i = bytes.data.toList[i] := getElem!_pos bytes.data i hlt
      rw [hget, List.reverse_cons, List.append_assoc, List.singleton_append,
        List.getElem_cons_drop]
  · next hge =>
      have hsize : bytes.data.toList.length ≤ i := Nat.le_of_not_lt hge
      rw [List.drop_of_length_le hsize, List.append_nil]
termination_by bytes.size - i

theorem encode_eq_flatMap (text : String) :
    encode text = text.toList.flatMap String.utf8EncodeChar := by
  rw [encode, ByteArray.toList, toList_loop_eq, String.toUTF8_eq_toByteArray,
    ← String.utf8Encode_toList, List.utf8Encode.eq_1, List.toList_data_toByteArray]
  rfl

@[simp] theorem encode_append (a b : String) : encode (a ++ b) = encode a ++ encode b := by
  simp only [encode_eq_flatMap, String.toList_append, List.flatMap_append]

@[simp] theorem encode_ofList (cs : List Char) :
    encode (String.ofList cs) = cs.flatMap String.utf8EncodeChar := by
  rw [encode_eq_flatMap, String.toList_ofList]

/-- An ASCII character is one byte. -/
theorem utf8EncodeChar_of_lt (h : c.toNat < 0x80) :
    String.utf8EncodeChar c = [UInt8.ofNat c.toNat] :=
  if_pos (Nat.le_of_lt_succ h)

/-- The bytes of any other character are beyond ASCII. -/
theorem le_of_mem_utf8EncodeChar (h : 0x80 ≤ c.toNat) (hb : b ∈ String.utf8EncodeChar c) :
    0x80 ≤ b := by
  obtain ⟨lead, k, hbytes, hcase⟩ := charBytes_eq c
  have hmem : b.toNat ∈ charBytes c := List.mem_map_of_mem hb
  rw [hbytes] at hmem
  have hc : 0x80 ≤ c.val.toNat := h
  exact UInt8.le_iff_toNat_le.mpr (le_of_mem_sextets (by omega) hmem)

theorem toNat_ofNat (h : n < 256) : (UInt8.ofNat n).toNat = n :=
  UInt8.toNat_ofNat_of_lt' h

/-- The byte for the last six bits of a number. -/
def tailByte (n : Nat) : UInt8 :=
  UInt8.ofNat (n % 64 + 128)

theorem toNat_tailByte (n : Nat) : (tailByte n).toNat = n % 64 + 128 :=
  toNat_ofNat (by omega)

theorem isTail_tailByte (n : Nat) : isTail (tailByte n) = true := by
  simp only [isTail, UInt8.le_iff_toNat_le, UInt8.reduceToNat, toNat_tailByte, Bool.and_eq_true,
    decide_eq_true_eq]
  omega

theorem extend_tailByte (value n : Nat) : extend value (tailByte n) = value * 64 + n % 64 := by
  have htail := toNat_tailByte n
  unfold extend
  omega

theorem isSecond_tailByte {lead : Nat} (hlead : lead < 256) (he0 : lead = 0xE0 → 0x20 ≤ n % 64)
    (hed : lead = 0xED → n % 64 < 0x20) (hf0 : lead = 0xF0 → 0x10 ≤ n % 64)
    (hf4 : lead = 0xF4 → n % 64 < 0x10) : isSecond (UInt8.ofNat lead) (tailByte n) = true := by
  have hbound := Nat.mod_lt n (show 64 > 0 by decide)
  simp only [isSecond, isTail_tailByte, ← UInt8.toNat_inj, UInt8.le_iff_toNat_le,
    UInt8.reduceToNat, toNat_ofNat hlead, toNat_tailByte]
  generalize n % 64 = m at *
  split_ifs <;> simp only [Bool.and_eq_true, decide_eq_true_eq] <;> omega

theorem takeTails_map_tailByte (ns : List Nat) (value : Nat) (rest : List UInt8) :
    takeTails ns.length value (ns.map tailByte ++ rest) =
      (some (Char.ofNat (ns.foldl (fun value n => value * 64 + n % 64) value)), rest) := by
  induction ns generalizing value with
  | nil => rfl
  | cons n ns ih =>
      rw [List.length_cons, List.map_cons, List.cons_append, takeTails, isTail_tailByte, if_pos rfl,
        extend_tailByte, ih, List.foldl_cons]

/-- Behind a lead byte stand the further bits of the scalar value, six in a byte. -/
theorem takeSequence_map_tailByte {lead : UInt8} (ns : List Nat) (value : Nat)
    (h : isSecond lead (tailByte n) = true) (rest : List UInt8) :
    takeSequence lead ns.length value ((n :: ns).map tailByte ++ rest) =
      (some (Char.ofNat ((n :: ns).foldl (fun value n => value * 64 + n % 64) value)), rest) := by
  rw [List.map_cons, List.cons_append, takeSequence, if_pos h, extend_tailByte,
    takeTails_map_tailByte, List.foldl_cons]

/-- The first character of a text is cut off as it was written. -/
theorem takeHead_utf8EncodeChar (c : Char) :
    ∃ b tail, String.utf8EncodeChar c = b :: tail ∧
      ∀ rest, takeHead b (tail ++ rest) = (some c, rest) := by
  have hvalid := c.valid
  simp only [UInt32.isValidChar, Nat.isValidChar] at hvalid
  have hself : Char.ofNat c.val.toNat = c := Char.ofNat_toNat c
  have hmany : ∀ (lead value n : Nat) (ns : List Nat) (rest : List UInt8),
      isSecond (UInt8.ofNat lead) (tailByte n) = true →
      (n :: ns).foldl (fun value n => value * 64 + n % 64) value = c.val.toNat →
      takeSequence (UInt8.ofNat lead) ns.length value ((n :: ns).map tailByte ++ rest) =
        (some c, rest) := by
    intro lead value n ns rest hsecond hvalue
    rw [takeSequence_map_tailByte ns value hsecond rest, hvalue, hself]
  simp only [String.utf8EncodeChar]
  generalize c.val.toNat = n at *
  split_ifs with hone htwo hthree
  · refine ⟨_, [], rfl, fun rest => ?_⟩
    have hlead : (UInt8.ofNat n).toNat = n := toNat_ofNat (by omega)
    simp only [takeHead, UInt8.lt_iff_toNat_lt, UInt8.reduceToNat, hlead]
    rw [if_pos (by omega), hself, List.nil_append]
  · refine ⟨_, [n].map tailByte, rfl, fun rest => ?_⟩
    have hlead : (UInt8.ofNat (n / 64 % 32 + 192)).toNat = n / 64 % 32 + 192 :=
      toNat_ofNat (by omega)
    have hvalue : n / 64 % 32 * 64 + n % 64 = n := by omega
    have hsecond : isSecond (UInt8.ofNat (n / 64 % 32 + 192)) (tailByte n) = true := by
      apply isSecond_tailByte <;> omega
    simp only [takeHead, UInt8.lt_iff_toNat_lt, UInt8.reduceToNat, hlead, Nat.add_sub_cancel]
    rw [if_neg (by omega), if_neg (by omega), if_pos (by omega)]
    exact hmany _ _ n [] rest hsecond hvalue
  · refine ⟨_, [n / 64, n].map tailByte, rfl, fun rest => ?_⟩
    have hlead : (UInt8.ofNat (n / 4096 % 16 + 224)).toNat = n / 4096 % 16 + 224 :=
      toNat_ofNat (by omega)
    have hvalue : (n / 4096 % 16 * 64 + n / 64 % 64) * 64 + n % 64 = n := by omega
    have hsecond : isSecond (UInt8.ofNat (n / 4096 % 16 + 224)) (tailByte (n / 64)) = true := by
      apply isSecond_tailByte <;> omega
    simp only [takeHead, UInt8.lt_iff_toNat_lt, UInt8.reduceToNat, hlead, Nat.add_sub_cancel]
    rw [if_neg (by omega), if_neg (by omega), if_neg (by omega), if_pos (by omega)]
    exact hmany _ _ (n / 64) [n] rest hsecond hvalue
  · refine ⟨_, [n / 4096, n / 64, n].map tailByte, rfl, fun rest => ?_⟩
    have hlead : (UInt8.ofNat (n / 262144 % 8 + 240)).toNat = n / 262144 % 8 + 240 :=
      toNat_ofNat (by omega)
    have hvalue :
        ((n / 262144 % 8 * 64 + n / 4096 % 64) * 64 + n / 64 % 64) * 64 + n % 64 = n := by omega
    have hsecond : isSecond (UInt8.ofNat (n / 262144 % 8 + 240)) (tailByte (n / 4096)) = true := by
      apply isSecond_tailByte <;> omega
    simp only [takeHead, UInt8.lt_iff_toNat_lt, UInt8.reduceToNat, hlead, Nat.add_sub_cancel]
    rw [if_neg (by omega), if_neg (by omega), if_neg (by omega), if_neg (by omega),
      if_pos (by omega)]
    exact hmany _ _ (n / 4096) [n / 64, n] rest hsecond hvalue

theorem unitsWithin_flatMap {cs : List Char} {fuel : Nat} (h : cs.length ≤ fuel) :
    unitsWithin fuel (cs.flatMap String.utf8EncodeChar) = cs.map some := by
  induction cs generalizing fuel with
  | nil => cases fuel <;> rfl
  | cons c cs ih =>
      obtain ⟨fuel, rfl⟩ := Nat.exists_eq_succ_of_ne_zero (Nat.ne_of_gt (Nat.zero_lt_of_lt h))
      obtain ⟨b, tail, hbytes, hhead⟩ := takeHead_utf8EncodeChar c
      rw [List.flatMap_cons, hbytes, List.cons_append, unitsWithin, hhead]
      exact congrArg (some c :: ·) (ih (Nat.le_of_succ_le_succ h))

theorem length_le_flatMap (cs : List Char) :
    cs.length ≤ (cs.flatMap String.utf8EncodeChar).length := by
  induction cs with
  | nil => exact Nat.le_refl _
  | cons c cs ih =>
      obtain ⟨b, tail, hbytes, _⟩ := takeHead_utf8EncodeChar c
      rw [List.flatMap_cons, hbytes, List.cons_append, List.length_cons, List.length_cons,
        List.length_append]
      omega

/-- A text is read back from its bytes. -/
theorem decode?_encode (text : String) : decode? (encode text) = some text := by
  have hunits : units (encode text) = text.toList.map some := by
    rw [encode_eq_flatMap, units]
    exact unitsWithin_flatMap (length_le_flatMap _)
  have hall : ∀ cs : List Char, (cs.map some).mapM id = some cs := by
    intro cs
    induction cs with
    | nil => rfl
    | cons c cs ih => rw [List.map_cons, List.mapM_cons, ih]; rfl
  rw [decode?, hunits, hall, Option.map_some, String.ofList_toList]

end Utf8

end FlowVerdict.Text
