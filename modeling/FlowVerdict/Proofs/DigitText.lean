import FlowVerdict.Json.Number
import FlowVerdict.Proofs.Utf8
import Mathlib.Algebra.Ring.Int.Defs

/-!
# Whole numbers in JSON text

A whole number is written with its digits and read back from them, as long as the text does not go
on with something that belongs to a number.
-/

namespace FlowVerdict.Json

open Text.Utf8 (encode)

variable {c : Char} {cs : List Char} {rest : Bytes} {limit n value count : Nat}

abbrev Digits (cs : List Char) : Prop := ∀ c ∈ cs, c.isDigit = true

/-- A text that goes on with no part of a number. -/
def Ends (rest : Bytes) : Prop :=
  ∀ b ∈ rest.head?, isDigit b = false ∧ b ≠ byte '.' ∧ isPowerMark b = false

theorem ends_nil : Ends [] := by
  intro b h
  cases h

def NoDigit (rest : Bytes) : Prop :=
  ∀ b ∈ rest.head?, isDigit b = false

theorem Ends.noDigit (h : Ends rest) : NoDigit rest :=
  fun b hb => (h b hb).1

theorem range_of_isDigit (h : c.isDigit = true) : 48 ≤ c.toNat ∧ c.toNat ≤ 57 := by
  simp only [Char.isDigit, Bool.and_eq_true, decide_eq_true_eq] at h
  exact ⟨UInt32.le_iff_toNat_le.mp h.1, UInt32.le_iff_toNat_le.mp h.2⟩

theorem toNat_byte (h : c.toNat < 0x80) : (byte c).toNat = c.toNat :=
  Text.Utf8.toNat_ofNat (by omega)

theorem toNat_byte_digit (h : c.isDigit = true) : (byte c).toNat = c.toNat := by
  have hrange := range_of_isDigit h
  exact toNat_byte (by omega)

theorem isDigit_byte (h : c.isDigit = true) : isDigit (byte c) = true := by
  obtain ⟨hlow, hhigh⟩ := range_of_isDigit h
  have hself := toNat_byte_digit h
  have hzero : (byte '0').toNat = 48 := rfl
  have hnine : (byte '9').toNat = 57 := rfl
  simp only [isDigit, UInt8.le_iff_toNat_le, Bool.and_eq_true, decide_eq_true_eq]
  omega

theorem digitOf?_byte (h : c.isDigit = true) : digitOf? (byte c) = some (c.toNat - 48) := by
  have hdigit := isDigit_byte h
  unfold isDigit at hdigit
  rw [digitOf?, if_pos hdigit, toNat_byte_digit h]

theorem digitOf?_eq_none {b : UInt8} (h : isDigit b = false) : digitOf? b = none := by
  unfold isDigit at h
  rw [digitOf?, if_neg (by simp [h])]

/-- ASCII characters are written as one byte each. -/
theorem encode_of_ascii {text : String} (h : ∀ c ∈ text.toList, c.toNat < 0x80) :
    encode text = text.toList.map byte := by
  rw [Text.Utf8.encode_eq_flatMap]
  generalize text.toList = cs at h
  induction cs with
  | nil => rfl
  | cons c cs ih =>
      rw [List.flatMap_cons, Text.Utf8.utf8EncodeChar_of_lt (h c List.mem_cons_self),
        ih fun d hd => h d (List.mem_cons_of_mem c hd)]
      rfl

theorem toNat_lt_of_isDigit (h : c.isDigit = true) : c.toNat < 0x80 := by
  have hrange := range_of_isDigit h
  omega

theorem ofDigitChars_le (cs : List Char) (value : Nat) : value ≤ Nat.ofDigitChars 10 cs value := by
  rw [Nat.ofDigitChars_eq_ofDigitChars_zero]
  have hpower : 1 * value ≤ 10 ^ cs.length * value :=
    Nat.mul_le_mul_right value (Nat.one_le_pow _ _ (by decide))
  omega

/-- Digits are gathered from the front: all of them unless the number that they are is too big. -/
theorem exists_gathered (limit value count : Nat) (h : Digits cs) :
    ∃ taken left, cs = taken ++ left ∧
      (value ≤ limit → Nat.ofDigitChars 10 taken value ≤ limit) ∧
      (left = [] ∨ limit < Nat.ofDigitChars 10 cs value) ∧
      ∀ rest, NoDigit rest → gatherDigits limit value count (cs.map byte ++ rest) =
        (Nat.ofDigitChars 10 taken value, count + taken.length, left.map byte ++ rest) := by
  induction cs generalizing value count with
  | nil =>
      refine ⟨[], [], rfl, id, .inl rfl, ?_⟩
      intro rest hrest
      cases rest with
      | nil => rfl
      | cons b rest =>
          have hnone := digitOf?_eq_none (hrest b rfl)
          simp [gatherDigits, hnone]
  | cons c cs ih =>
      have hdigit := digitOf?_byte (h c List.mem_cons_self)
      have hvalue : value * 10 + (c.toNat - 48) = 10 * value + (c.toNat - '0'.toNat) := by
        rw [Nat.mul_comm]
        rfl
      simp only [List.map_cons, List.cons_append, gatherDigits, hdigit, hvalue]
      by_cases hstep : 10 * value + (c.toNat - '0'.toNat) ≤ limit
      · obtain ⟨taken, left, rfl, htaken, hleft, hgather⟩ :=
          ih (10 * value + (c.toNat - '0'.toNat)) (count + 1)
            fun d hd => h d (List.mem_cons_of_mem c hd)
        refine ⟨c :: taken, left, rfl, fun _ => ?_, ?_, fun rest hrest => ?_⟩
        · rw [Nat.ofDigitChars_cons]
          exact htaken hstep
        · rwa [Nat.ofDigitChars_cons]
        · rw [if_pos hstep, hgather rest hrest, Nat.ofDigitChars_cons, List.length_cons,
            Nat.add_assoc, Nat.add_comm 1]
      · refine ⟨[], c :: cs, rfl, id, .inr ?_, fun _ _ => if_neg hstep⟩
        rw [Nat.ofDigitChars_cons]
        exact Nat.lt_of_lt_of_le (Nat.lt_of_not_le hstep) (ofDigitChars_le _ _)

theorem gatherDigits_eq (h : Digits cs) (hlimit : Nat.ofDigitChars 10 cs value ≤ limit)
    (hrest : NoDigit rest) :
    gatherDigits limit value count (cs.map byte ++ rest) =
      (Nat.ofDigitChars 10 cs value, count + cs.length, rest) := by
  obtain ⟨taken, left, rfl, _, hleft, hgather⟩ := exists_gathered limit value count h
  obtain rfl := hleft.resolve_right (Nat.not_lt_of_le hlimit)
  rw [hgather rest hrest, List.append_nil]
  rfl

theorem digits_toDigits (n : Nat) : Digits (Nat.toDigits 10 n) :=
  fun _ h => Nat.isDigit_of_mem_toDigits (by decide) (by decide) h

theorem encode_repr (n : Nat) : encode n.repr = (Nat.toDigits 10 n).map byte := by
  have hascii : ∀ c ∈ n.repr.toList, c.toNat < 0x80 := by
    rw [Nat.toList_repr]
    exact fun c hc => toNat_lt_of_isDigit (digits_toDigits n c hc)
  rw [encode_of_ascii hascii, Nat.toList_repr]

/-- No number but zero is written with a zero in front. -/
theorem head?_toDigits_ne (h : 0 < n) : (Nat.toDigits 10 n).head? ≠ some '0' := by
  induction n using Nat.strongRecOn with
  | ind n ih =>
      rw [Nat.toDigits_eq_if (by decide)]
      split
      · next hlt =>
          have hdigit : ∀ d < 10, 0 < d → Nat.digitChar d ≠ '0' := by decide
          exact fun heq => hdigit n hlt h (Option.some.inj heq)
      · next hge =>
          have hfront := ih (n / 10) (by omega) (by omega)
          cases hdigits : Nat.toDigits 10 (n / 10) with
          | nil => exact absurd hdigits Nat.toDigits_ne_nil
          | cons c cs =>
              rw [hdigits] at hfront
              exact hfront

/-- Digits begin in a way that a number may begin. -/
structure Starts (cs : List Char) : Prop where
  digits : Digits cs
  ne_nil : cs ≠ []
  /-- A zero stands alone. -/
  zero : cs.head? = some '0' → cs = ['0']

theorem starts_toDigits (n : Nat) : Starts (Nat.toDigits 10 n) := by
  refine ⟨digits_toDigits n, Nat.toDigits_ne_nil, fun hzero => ?_⟩
  rcases Nat.eq_zero_or_pos n with rfl | hpos
  · rfl
  · exact absurd hzero (head?_toDigits_ne hpos)

theorem byte_ne_zero (h : c.isDigit = true) (hne : c ≠ '0') : byte c ≠ byte '0' := by
  intro heq
  have hnat := congrArg UInt8.toNat heq
  rw [toNat_byte_digit h] at hnat
  exact hne (Char.toNat_inj.mp hnat)

/-- No digit follows a zero in front. -/
theorem Starts.not_padded (h : Starts (c :: cs)) (hrest : NoDigit rest) :
    (decide (byte c = byte '0') && (cs.map byte ++ rest).head?.any isDigit) = false := by
  rw [Bool.and_eq_false_iff, decide_eq_false_iff_not, or_iff_not_imp_left, not_not]
  intro hzero
  have hc : c = '0' := by
    by_contra hne
    exact byte_ne_zero (h.digits c List.mem_cons_self) hne hzero
  have hnil : cs = [] := (List.cons.inj (h.zero (congrArg some hc))).2
  rw [hnil, List.map_nil, List.nil_append]
  cases rest with
  | nil => rfl
  | cons b tail => exact hrest b rfl

/-- The whole part of a number is gathered before anything else is looked at. -/
theorem readUnsigned_digits (negative : Bool) (h : Starts cs)
    (hlimit : Nat.ofDigitChars 10 cs 0 ≤ digitLimit) : NoDigit rest →
    readUnsigned negative (cs.map byte ++ rest) =
      match rest with
      | [] => .ok (wholeNumber negative (Nat.ofDigitChars 10 cs 0), [])
      | b :: tail =>
        if b = byte '.' then
          (readFraction negative (Nat.ofDigitChars 10 cs 0) 0 tail).map fun (x, rest) =>
            (.float x, rest)
        else if isPowerMark b then
          (readPower negative (Nat.ofDigitChars 10 cs 0) 0 tail).map fun (x, rest) =>
            (.float x, rest)
        else .ok (wholeNumber negative (Nat.ofDigitChars 10 cs 0), b :: tail) := by
  -- As a binder the hypothesis would become part of the match on `rest`.
  intro hrest
  have hgather : gatherDigits digitLimit 0 0 (cs.map byte ++ rest) =
      (Nat.ofDigitChars 10 cs 0, 0 + cs.length, rest) := gatherDigits_eq h.digits hlimit hrest
  cases cs with
  | nil => exact absurd rfl h.ne_nil
  | cons c cs =>
      have hdigit : (!isDigit (byte c)) = false := by
        rw [isDigit_byte (h.digits c List.mem_cons_self)]
        rfl
      rw [List.map_cons, List.cons_append] at hgather ⊢
      rw [readUnsigned]
      simp only [hdigit, hgather, h.not_padded hrest]
      cases rest with
      | nil => rfl
      | cons b tail =>
          have hnot : isDigit b = false := hrest b rfl
          simp only [hnot]
          rfl

/-- A whole number that ends after its digits. -/
theorem readUnsigned_whole {negative : Bool} (h : Starts cs)
    (hlimit : Nat.ofDigitChars 10 cs 0 ≤ digitLimit) (hrest : Ends rest) :
    readUnsigned negative (cs.map byte ++ rest) =
      .ok (wholeNumber negative (Nat.ofDigitChars 10 cs 0), rest) := by
  rw [readUnsigned_digits negative h hlimit hrest.noDigit]
  cases rest with
  | nil => rfl
  | cons b tail =>
      obtain ⟨_, hpoint, hpower⟩ := hrest b rfl
      simp [hpoint, hpower]

/-- A number without sign begins with a digit. -/
theorem readNumber_unsigned (h : Starts cs) :
    readNumber (cs.map byte ++ rest) = readUnsigned false (cs.map byte ++ rest) := by
  cases cs with
  | nil => exact absurd rfl h.ne_nil
  | cons c cs =>
      have hminus : byte c ≠ byte '-' := by
        intro heq
        have hdigit := isDigit_byte (h.digits c List.mem_cons_self)
        rw [heq] at hdigit
        exact absurd hdigit (by decide)
      rw [List.map_cons, List.cons_append, readNumber, if_neg hminus]

theorem readNumber_negative : readNumber (byte '-' :: rest) = readUnsigned true rest := by
  rw [readNumber, if_pos rfl]

/-- A number of 64 bits, with or without sign. -/
def InRange (n : Int) : Prop :=
  -2 ^ 63 ≤ n ∧ n < 2 ^ 64

theorem encode_ofNat (n : Nat) : encode (toString (n : Int)) = (Nat.toDigits 10 n).map byte :=
  encode_repr n

theorem encode_negSucc (n : Nat) :
    encode (toString (Int.negSucc n)) = byte '-' :: (Nat.toDigits 10 (n + 1)).map byte := by
  have hminus : encode "-" = [byte '-'] := by decide +kernel
  change encode ("-" ++ (n + 1).repr) = _
  rw [Text.Utf8.encode_append, hminus, encode_repr]
  rfl

/-- A whole number is read back as it was written. -/
theorem readNumber_toString {n : Int} (h : InRange n) (hrest : Ends rest) :
    ∃ number, readNumber (encode (toString n) ++ rest) = .ok (number, rest) ∧
      number.found = .int n := by
  obtain ⟨hlow, hhigh⟩ := h
  have hvalue : ∀ m, Nat.ofDigitChars 10 (Nat.toDigits 10 m) 0 = m :=
    fun _ => Nat.ofDigitChars_ten_toDigits
  have hlimit : digitLimit = 2 ^ 64 - 1 := by decide
  cases n with
  | ofNat n =>
      rw [Int.ofNat_eq_natCast] at hhigh
      have hle : n ≤ digitLimit := by omega
      refine ⟨.natural n, ?_, rfl⟩
      rw [Int.ofNat_eq_natCast, encode_ofNat, readNumber_unsigned (starts_toDigits n),
        readUnsigned_whole (starts_toDigits n) (by rwa [hvalue]) hrest, hvalue]
      rfl
  | negSucc n =>
      have hsmall : ¬ Nat.pow 2 63 < n + 1 := by
        change ¬ 2 ^ 63 < n + 1
        omega
      refine ⟨.negative (-((n + 1 : Nat) : Int)), ?_, rfl⟩
      rw [encode_negSucc, List.cons_append, readNumber_negative,
        readUnsigned_whole (starts_toDigits _) (by rw [hvalue]; omega) hrest, hvalue]
      simp [wholeNumber, hsmall]

end FlowVerdict.Json
