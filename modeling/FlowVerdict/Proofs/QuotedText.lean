import FlowVerdict.Json.Lexeme
import FlowVerdict.Json.Printer
import FlowVerdict.Proofs.Utf8

/-!
# Strings in JSON text

A string is written between quotes, with what would end or break it escaped: so no byte of it is a
control character, and it is read back as it was, whatever characters it holds.
-/

namespace FlowVerdict.Json

open Text.Utf8 (encode)

variable {c : Char} {fuel : Nat} {seen tail rest : Bytes}

def content (cs : List Char) : Bytes :=
  cs.flatMap fun c => encode (escaped c)

theorem encode_quote (text : String) :
    encode (quote text) = byte '"' :: (content text.toList ++ [byte '"']) := by
  have hfold : ∀ (cs : List Char) (written : String),
      encode (cs.foldl (fun written c => written ++ escaped c) written) =
        encode written ++ content cs := by
    intro cs
    induction cs with
    | nil => exact fun written => (List.append_nil _).symm
    | cons c cs ih =>
        intro written
        rw [List.foldl_cons, ih, Text.Utf8.encode_append, List.append_assoc]
        rfl
  have hquote : encode "\"" = [byte '"'] := by
    rw [Text.Utf8.encode_eq_flatMap]
    decide
  rw [quote, Text.Utf8.encode_append, String.foldl_eq_foldl_toList, hfold, hquote]
  rfl

/-- A byte that stands for itself inside a string. -/
def IsPlain (b : UInt8) : Prop :=
  b ≠ byte '"' ∧ b ≠ byte '\\' ∧ ¬ b < 0x20

theorem readContentWithin_plain {escape : Reader Bytes} {bytes : Bytes}
    (h : ∀ b ∈ bytes, IsPlain b) :
    readContentWithin escape (fuel + bytes.length) seen (bytes ++ tail) =
      readContentWithin escape fuel (bytes.reverse ++ seen) tail := by
  induction bytes generalizing seen with
  | nil => rfl
  | cons b bytes ih =>
      obtain ⟨hquote, hslash, hcontrol⟩ := h b List.mem_cons_self
      rw [List.length_cons, ← Nat.add_assoc, List.cons_append, readContentWithin, if_neg hquote,
        if_neg hslash, if_neg hcontrol, ih fun a ha => h a (List.mem_cons_of_mem b ha),
        List.reverse_cons, List.append_assoc]
      rfl

theorem isPlain_of_toNat {b : UInt8} (hcontrol : 0x20 ≤ b.toNat) (hquote : b.toNat ≠ 0x22)
    (hslash : b.toNat ≠ 0x5C) : IsPlain b := by
  refine ⟨?_, ?_, ?_⟩
  · rintro rfl
    exact hquote rfl
  · rintro rfl
    exact hslash rfl
  · rw [UInt8.lt_iff_toNat_lt]
    exact Nat.not_lt_of_le hcontrol

/-- A character that is not escaped is written in plain bytes. -/
theorem isPlain_of_mem (hcontrol : ¬ c.toNat < 0x20) (hquote : c ≠ '"') (hslash : c ≠ '\\')
    {b : UInt8} (hb : b ∈ String.utf8EncodeChar c) : IsPlain b := by
  by_cases hascii : c.toNat < 0x80
  · rw [Text.Utf8.utf8EncodeChar_of_lt hascii, List.mem_singleton] at hb
    have hself : b.toNat = c.toNat := hb ▸ Text.Utf8.toNat_ofNat (by omega)
    refine isPlain_of_toNat (by omega) (fun heq => hquote ?_) (fun heq => hslash ?_)
    · exact Char.toNat_inj.mp (hself.symm.trans heq)
    · exact Char.toNat_inj.mp (hself.symm.trans heq)
  · have hle := Text.Utf8.le_of_mem_utf8EncodeChar (Nat.le_of_not_lt hascii) hb
    have hbeyond : 0x80 ≤ b.toNat := UInt8.le_iff_toNat_le.mp hle
    exact isPlain_of_toNat (by omega) (by omega) (by omega)

theorem encode_numberedEscape (h : c.toNat < 0x20) :
    encode (numberedEscape c) = [byte '\\', byte 'u', byte '0', byte '0',
      byte (Nat.digitChar (c.toNat / 16)), byte (Nat.digitChar (c.toNat % 16))] := by
  have hascii : ∀ d < 16, (Nat.digitChar d).toNat < 0x80 := by decide
  have hfront : encode "\\u00" = [byte '\\', byte 'u', byte '0', byte '0'] := by
    rw [Text.Utf8.encode_eq_flatMap]
    decide
  rw [numberedEscape, Text.Utf8.encode_append, hfront, Text.Utf8.encode_ofList, List.flatMap_cons,
    List.flatMap_singleton, Text.Utf8.utf8EncodeChar_of_lt (hascii _ (by omega)),
    Text.Utf8.utf8EncodeChar_of_lt (hascii _ (by omega))]
  rfl

theorem encode_toString (c : Char) : encode c.toString = String.utf8EncodeChar c := by
  rw [Text.Utf8.encode_eq_flatMap, Char.toString_eq_singleton, String.toList_singleton,
    List.flatMap_singleton]

/-- The characters that are written by a letter after a backslash, each with its letter. -/
def namedEscapes : List (Char × Char) :=
  [('"', '"'), ('\\', '\\'), ('\x08', 'b'), ('\x0c', 'f'), ('\n', 'n'), ('\r', 'r'), ('\t', 't')]

/-- A character with a letter of its own. -/
structure Named (c letter : Char) : Prop where
  escaped_eq : escaped c = String.ofList ['\\', letter]
  letter_ascii : letter.toNat < 0x80
  letter_visible : 0x20 ≤ byte letter
  ascii : c.toNat < 0x80
  read_eq : namedEscape? (byte letter) = some (UInt8.ofNat c.toNat)

theorem named_of_mem {m : Char × Char} (h : m ∈ namedEscapes) : Named m.1 m.2 := by
  simp only [namedEscapes, List.mem_cons, List.not_mem_nil, or_false] at h
  rcases h with rfl | rfl | rfl | rfl | rfl | rfl | rfl <;>
    exact ⟨rfl, by decide, by decide, by decide, by decide⟩

theorem Named.encode_escaped {letter : Char} (h : Named c letter) :
    encode (escaped c) = [byte '\\', byte letter] := by
  rw [h.escaped_eq, Text.Utf8.encode_ofList, List.flatMap_cons, List.flatMap_singleton,
    Text.Utf8.utf8EncodeChar_of_lt h.letter_ascii]
  rfl

/-- A character without a letter is written by its number or as it is. -/
theorem escaped_of_not_mem (h : c ∉ namedEscapes.map Prod.fst) :
    escaped c = if c.toNat < 0x20 then numberedEscape c else c.toString := by
  simp only [namedEscapes, List.map_cons, List.map_nil, List.mem_cons, List.not_mem_nil, or_false,
    not_or] at h
  obtain ⟨hquote, hslash, hback, hfeed, hline, hreturn, htab⟩ := h
  rw [escaped, if_neg hquote, if_neg hslash, if_neg hback, if_neg hfeed, if_neg hline,
    if_neg hreturn, if_neg htab]

/-- A character is written by a letter after a backslash, by its number, or as it is. -/
theorem escaped_cases (c : Char) :
    (∃ letter, encode (escaped c) = [byte '\\', letter] ∧
        namedEscape? letter = some (UInt8.ofNat c.toNat) ∧ c.toNat < 0x80 ∧ 0x20 ≤ letter) ∨
      (encode (escaped c) = encode (numberedEscape c) ∧ c.toNat < 0x20) ∨
      (encode (escaped c) = String.utf8EncodeChar c ∧
        ∀ b ∈ String.utf8EncodeChar c, IsPlain b) := by
  by_cases hmem : c ∈ namedEscapes.map Prod.fst
  · obtain ⟨m, hm, rfl⟩ := List.mem_map.mp hmem
    have hnamed := named_of_mem hm
    exact .inl ⟨byte m.2, hnamed.encode_escaped, hnamed.read_eq, hnamed.ascii,
      hnamed.letter_visible⟩
  · refine .inr ?_
    rw [escaped_of_not_mem hmem]
    by_cases hcontrol : c.toNat < 0x20
    · rw [if_pos hcontrol]
      exact .inl ⟨rfl, hcontrol⟩
    · have hquote : c ≠ '"' := by
        rintro rfl
        exact hmem List.mem_cons_self
      have hslash : c ≠ '\\' := by
        rintro rfl
        exact hmem (List.mem_cons_of_mem _ List.mem_cons_self)
      rw [if_neg hcontrol, encode_toString]
      exact .inr ⟨rfl, fun b hb => isPlain_of_mem hcontrol hquote hslash hb⟩

/-- A control character is read back from its number. -/
theorem readEscape_numbered (h : c.toNat < 0x20) :
    readEscape (byte 'u' :: byte '0' :: byte '0' :: byte (Nat.digitChar (c.toNat / 16)) ::
      byte (Nat.digitChar (c.toNat % 16)) :: rest) = .ok (String.utf8EncodeChar c, rest) := by
  have hdigit : ∀ d < 16, hexDigit? (byte (Nat.digitChar d)) = some d := by decide
  have hzero : hexDigit? (byte '0') = some 0 := by decide
  have hhex : readHex (byte '0' :: byte '0' :: byte (Nat.digitChar (c.toNat / 16)) ::
      byte (Nat.digitChar (c.toNat % 16)) :: rest) = .ok (c.toNat, rest) := by
    simp only [readHex, hzero, hdigit (c.toNat / 16) (by omega), hdigit (c.toNat % 16) (by omega)]
    congr 2
    omega
  have hcode : readNumberedEscape (byte '0' :: byte '0' :: byte (Nat.digitChar (c.toNat / 16)) ::
      byte (Nat.digitChar (c.toNat % 16)) :: rest) = .ok (c.toNat, rest) := by
    simp only [readNumberedEscape, hhex, bind, Except.bind]
    rw [if_neg (by simp; omega), if_neg (by simp; omega)]
  have hletter : namedEscape? (byte 'u') = none := by decide
  simp only [readEscape, hletter, hcode, bind, Except.bind]
  rw [if_pos trivial, Char.ofNat_toNat, encode_toString]

/-- A character is read back from inside a string, with a step left for what follows it. -/
theorem readContentWithin_escaped (c : Char) (seen : Bytes)
    (h : (encode (escaped c) ++ tail).length < fuel) :
    ∃ left, tail.length < left ∧
      readContentWithin readEscape fuel seen (encode (escaped c) ++ tail) =
        readContentWithin readEscape left ((String.utf8EncodeChar c).reverse ++ seen) tail := by
  have hslash : byte '\\' ≠ byte '"' := by decide
  rcases escaped_cases c with ⟨letter, hbytes, hnamed, hascii, _⟩ | ⟨hbytes, hcontrol⟩ |
    ⟨hbytes, hplain⟩
  · rw [hbytes, List.length_append] at h
    obtain ⟨fuel, rfl⟩ := Nat.exists_eq_succ_of_ne_zero (Nat.ne_of_gt (Nat.zero_lt_of_lt h))
    refine ⟨fuel, by simp at h; omega, ?_⟩
    have hescape : readEscape (letter :: tail) = .ok ([UInt8.ofNat c.toNat], tail) := by
      simp only [readEscape, hnamed]
    rw [hbytes, Text.Utf8.utf8EncodeChar_of_lt hascii, List.cons_append, readContentWithin,
      if_neg hslash, if_pos rfl]
    simp only [List.cons_append, List.nil_append, hescape, bind, Except.bind]
  · rw [hbytes, encode_numberedEscape hcontrol, List.length_append] at h
    obtain ⟨fuel, rfl⟩ := Nat.exists_eq_succ_of_ne_zero (Nat.ne_of_gt (Nat.zero_lt_of_lt h))
    refine ⟨fuel, by simp at h; omega, ?_⟩
    rw [hbytes, encode_numberedEscape hcontrol, List.cons_append, readContentWithin,
      if_neg hslash, if_pos rfl]
    simp only [List.cons_append, List.nil_append, readEscape_numbered hcontrol, bind, Except.bind]
  · rw [hbytes, List.length_append] at h
    obtain ⟨left, rfl⟩ : ∃ left, fuel = left + (String.utf8EncodeChar c).length :=
      ⟨fuel - (String.utf8EncodeChar c).length, by omega⟩
    exact ⟨left, by omega, by rw [hbytes, readContentWithin_plain hplain]⟩

/-- The bytes of a string are read back up to its closing quote. -/
theorem readContentWithin_content (cs : List Char) (rest : Bytes) :
    ∀ fuel seen, (content cs ++ byte '"' :: rest).length < fuel →
      readContentWithin readEscape fuel seen (content cs ++ byte '"' :: rest) =
        .ok (seen.reverse ++ cs.flatMap String.utf8EncodeChar, rest) := by
  induction cs with
  | nil =>
      intro fuel seen h
      obtain ⟨fuel, rfl⟩ := Nat.exists_eq_succ_of_ne_zero (Nat.ne_of_gt (Nat.zero_lt_of_lt h))
      rw [content, List.flatMap_nil, List.flatMap_nil, List.nil_append, readContentWithin,
        if_pos rfl, List.append_nil]
  | cons c cs ih =>
      intro fuel seen h
      rw [content, List.flatMap_cons, List.append_assoc] at h ⊢
      obtain ⟨left, hleft, hread⟩ := readContentWithin_escaped c seen h
      rw [hread]
      exact (ih left _ hleft).trans (by simp)

/-- A string is read back as it was written. -/
theorem readString_content (text : String) :
    readString (content text.toList ++ byte '"' :: rest) = .ok (text, rest) := by
  have hbytes := readContentWithin_content text.toList rest _ [] (Nat.lt_succ_self _)
  rw [← Text.Utf8.encode_eq_flatMap] at hbytes
  simp only [readString, hbytes, bind, Except.bind, List.reverse_nil, List.nil_append,
    Text.Utf8.decode?_encode]

theorem le_of_mem_escaped {b : UInt8} (h : b ∈ encode (escaped c)) : 0x20 ≤ b := by
  rcases escaped_cases c with ⟨letter, hbytes, _, _, hletter⟩ | ⟨hbytes, hcontrol⟩ |
    ⟨hbytes, hplain⟩
  · rw [hbytes] at h
    rcases List.mem_pair.mp h with rfl | rfl
    · decide
    · exact hletter
  · have hdigit : ∀ d < 16, 0x20 ≤ byte (Nat.digitChar d) := by decide
    rw [hbytes, encode_numberedEscape hcontrol] at h
    simp only [List.mem_cons, List.not_mem_nil, or_false] at h
    rcases h with rfl | rfl | rfl | rfl | rfl | rfl
    · decide
    · decide
    · decide
    · decide
    · exact hdigit _ (by omega)
    · exact hdigit _ (by omega)
  · rw [hbytes] at h
    obtain ⟨_, _, hcontrol⟩ := hplain b h
    exact UInt8.not_lt.mp hcontrol

/-- No byte of a string is a control character. -/
theorem le_of_mem_quote {text : String} {b : UInt8} (h : b ∈ encode (quote text)) : 0x20 ≤ b := by
  rw [encode_quote, List.mem_cons, List.mem_append, List.mem_singleton] at h
  rcases h with rfl | hcontent | rfl
  · decide
  · obtain ⟨c, _, hc⟩ := List.mem_flatMap.mp hcontent
    exact le_of_mem_escaped hc
  · decide

end FlowVerdict.Json
