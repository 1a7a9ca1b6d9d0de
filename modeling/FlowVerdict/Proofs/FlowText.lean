import FlowVerdict.Flow
import FlowVerdict.Kernel.Row
import Mathlib.Data.List.Basic

/-!
# The text of a flow identifier

Ports are written with decimal digits only, so the separators of an identifier are its last `+` and
its last `_`, whatever is in the address. Its text therefore tells all three parts.
-/

namespace FlowVerdict

namespace Decimal

/-- Digits read as the number that they are, if it is within bounds. -/
theorem readDigits_eq_ok {limit : Nat} {overflow : IntegerFault} {cs : List Char} (sofar : Nat)
    (hdigits : ∀ c ∈ cs, c.isDigit = true) (hlimit : Nat.ofDigitChars 10 cs sofar ≤ limit) :
    readDigits limit overflow sofar cs = .ok (Nat.ofDigitChars 10 cs sofar) := by
  induction cs generalizing sofar with
  | nil => simp [readDigits]
  | cons c rest ih =>
      have hdigit : digit? c = some (c.toNat - '0'.toNat) := by
        rw [digit?, if_pos (hdigits c List.mem_cons_self)]
      rw [Nat.ofDigitChars_cons, Nat.mul_comm] at hlimit ⊢
      have hgrows : ∀ n, n ≤ Nat.ofDigitChars 10 rest n := by
        intro n
        rw [Nat.ofDigitChars_eq_ofDigitChars_zero]
        have hpower : 1 * n ≤ 10 ^ rest.length * n :=
          Nat.mul_le_mul_right n (Nat.one_le_pow _ _ (by decide))
        omega
      simp only [readDigits, hdigit]
      rw [if_pos (Nat.le_trans (hgrows _) hlimit)]
      exact ih _ (fun d hmem => hdigits d (List.mem_cons_of_mem c hmem)) hlimit

/-- A number reads back as it was written. -/
theorem readNat_toString {limit n : Nat} (h : n ≤ limit) : readNat limit (toString n) = .ok n := by
  have hdigits : ∀ c ∈ Nat.toDigits 10 n, c.isDigit = true := fun c hmem =>
    Nat.isDigit_of_mem_toDigits (by decide) (by decide) hmem
  have hread : readDigits limit .tooLarge 0 (Nat.toDigits 10 n) = .ok n := by
    have hvalue : Nat.ofDigitChars 10 (Nat.toDigits 10 n) 0 = n := Nat.ofDigitChars_ten_toDigits
    rw [readDigits_eq_ok 0 hdigits (by rwa [hvalue]), hvalue]
  unfold readNat
  rw [Nat.toString_eq_repr, Nat.toList_repr]
  split
  · next hnil => exact absurd hnil Nat.toDigits_ne_nil
  · next hplus =>
      have hsign := hdigits '+' (by simp [hplus])
      cases hsign
  · next hplus =>
      have hsign := hdigits '+' (by simp [hplus])
      cases hsign
  · exact hread

end Decimal

/-- The text of a port holds digits only. -/
theorem isDigit_of_mem_port {port : UInt16} {c : Char} (h : c ∈ (toString port).toList) :
    c.isDigit = true := by
  have htext : (toString port).toList = Nat.toDigits 10 port.toNat := Nat.toList_repr
  rw [htext] at h
  exact Nat.isDigit_of_mem_toDigits (by decide) (by decide) h

theorem Kernel.readPort?_toString (port : UInt16) : readPort? (toString port) = some port := by
  have hlimit : port.toNat ≤ Nat.pow 2 16 - 1 := Nat.le_pred_of_lt port.toNat_lt
  have hread : Decimal.readNat (Nat.pow 2 16 - 1) (toString port) = .ok port.toNat :=
    Decimal.readNat_toString hlimit
  rw [readPort?, hread]
  simp [Except.toOption]

theorem append_cons_inj_of_last {c : Char} {front front' back back' : List Char}
    (hback : c ∉ back) (hback' : c ∉ back')
    (h : front ++ c :: back = front' ++ c :: back') : front = front' ∧ back = back' := by
  rcases List.append_eq_append_iff.mp h with ⟨gap, hfront, hgap⟩ | ⟨gap, hfront, hgap⟩
  · cases gap with
    | nil =>
        rw [List.append_nil] at hfront
        exact ⟨hfront.symm, (List.cons.inj hgap).2⟩
    | cons d rest =>
        have hmem : c ∈ back := by
          rw [(List.cons.inj hgap).2]
          exact List.mem_append_right rest List.mem_cons_self
        exact absurd hmem hback
  · cases gap with
    | nil =>
        rw [List.append_nil] at hfront
        exact ⟨hfront, (List.cons.inj hgap).2.symm⟩
    | cons d rest =>
        have hmem : c ∈ back' := by
          rw [(List.cons.inj hgap).2]
          exact List.mem_append_right rest List.mem_cons_self
        exact absurd hmem hback'

namespace FlowId

/-- An identifier tells its parts as long as no port holds a separator. -/
theorem ofParts_inj {source source' destPort destPort' srcPort srcPort' : String}
    (hdest : '_' ∉ destPort.toList) (hdest' : '_' ∉ destPort'.toList)
    (hsrc : '+' ∉ srcPort.toList) (hsrc' : '+' ∉ srcPort'.toList)
    (h : ofParts source destPort srcPort = ofParts source' destPort' srcPort') :
    source = source' ∧ destPort = destPort' ∧ srcPort = srcPort' := by
  have htext : ∀ source destPort srcPort, (ofParts source destPort srcPort).text.toList =
      (source.toList ++ '_' :: destPort.toList) ++ '+' :: srcPort.toList := by
    intro source destPort srcPort
    simp [ofParts]
  have hlists := congrArg (fun id => id.text.toList) h
  simp only [htext] at hlists
  obtain ⟨hfront, hlast⟩ := append_cons_inj_of_last hsrc hsrc' hlists
  obtain ⟨hsource, hmiddle⟩ := append_cons_inj_of_last hdest hdest' hfront
  exact ⟨String.toList_injective hsource, String.toList_injective hmiddle,
    String.toList_injective hlast⟩

theorem separator_not_mem_port (port : UInt16) {c : Char} (h : c.isDigit = false) :
    c ∉ (toString port).toList := by
  intro hmem
  rw [isDigit_of_mem_port hmem] at h
  cases h

theorem port_inj {port port' : UInt16} (h : toString port = toString port') : port = port' := by
  have hread := congrArg Kernel.readPort? h
  rw [Kernel.readPort?_toString, Kernel.readPort?_toString] at hread
  exact Option.some.inj hread

/-- Two flows of the monitors have one identifier only if they are alike. -/
theorem ofPorts_inj {source source' : String} {destPort destPort' srcPort srcPort' : UInt16}
    (h : ofPorts source destPort srcPort = ofPorts source' destPort' srcPort') :
    source = source' ∧ destPort = destPort' ∧ srcPort = srcPort' := by
  obtain ⟨hsource, hdest, hsrc⟩ := ofParts_inj (separator_not_mem_port _ rfl)
    (separator_not_mem_port _ rfl) (separator_not_mem_port _ rfl) (separator_not_mem_port _ rfl) h
  exact ⟨hsource, port_inj hdest, port_inj hsrc⟩

end FlowId

/-- What stands before a separator that does not come again. -/
theorem beforeLast_append_cons {c : Char} (front : List Char) {back : List Char}
    (h : c ∉ back) : beforeLast c (front ++ c :: back) = front := by
  have hmem : c ∈ front ++ c :: back := List.mem_append_right front List.mem_cons_self
  have hskip : (back.reverse ++ c :: front.reverse).dropWhile (fun d => decide (d ≠ c)) =
      c :: front.reverse := by
    rw [List.dropWhile_append_of_pos, List.dropWhile_cons_of_neg (by simp)]
    intro d hd
    have hne : d ≠ c := fun heq => h (heq ▸ List.mem_reverse.mp hd)
    simpa using hne
  rw [beforeLast, if_pos hmem, List.reverse_append, List.reverse_cons, List.append_assoc,
    List.singleton_append, hskip, List.drop_one, List.tail_cons, List.reverse_reverse]

namespace FlowId

theorem relaxed_ofPorts (source : String) (destPort srcPort : UInt16) :
    (ofPorts source destPort srcPort).relaxed = ⟨source ++ "_" ++ toString destPort⟩ := by
  have htext : (ofPorts source destPort srcPort).text.toList =
      (source ++ "_" ++ toString destPort).toList ++ '+' :: (toString srcPort).toList := by
    simp [ofPorts, ofParts]
  rw [relaxed, htext, beforeLast_append_cons _ (separator_not_mem_port srcPort rfl),
    String.ofList_toList]

/-- Two flows of the monitors have one relaxed key only if they come from one address and go to one
port. -/
theorem relaxed_ofPorts_inj {source source' : String}
    {destPort destPort' srcPort srcPort' : UInt16}
    (h : (ofPorts source destPort srcPort).relaxed = (ofPorts source' destPort' srcPort').relaxed) :
    source = source' ∧ destPort = destPort' := by
  rw [relaxed_ofPorts, relaxed_ofPorts] at h
  have htexts := congrArg (fun key => key.text.toList) h
  simp only [String.toList_append, List.append_assoc] at htexts
  obtain ⟨hsource, hdest⟩ := append_cons_inj_of_last (separator_not_mem_port destPort rfl)
    (separator_not_mem_port destPort' rfl) htexts
  exact ⟨String.toList_injective hsource, port_inj (String.toList_injective hdest)⟩

/-- Whatever the addresses are, two flows have one identifier exactly if address and ports agree,
and one relaxed key exactly if address and destination do. -/
theorem text_tells_parts (source source' : String) (destPort destPort' srcPort srcPort' : UInt16) :
    (ofPorts source destPort srcPort = ofPorts source' destPort' srcPort' ↔
      source = source' ∧ destPort = destPort' ∧ srcPort = srcPort') ∧
    ((ofPorts source destPort srcPort).relaxed = (ofPorts source' destPort' srcPort').relaxed ↔
      source = source' ∧ destPort = destPort') := by
  constructor
  · constructor
    · exact ofPorts_inj
    · rintro ⟨rfl, rfl, rfl⟩
      rfl
  · constructor
    · exact relaxed_ofPorts_inj
    · rintro ⟨rfl, rfl⟩
      rw [relaxed_ofPorts, relaxed_ofPorts]

/-- An address that looks like an identifier is not taken for one. -/
example : (ofPorts "1_80+5" 443 6).relaxed = ⟨"1_80+5_443"⟩ := by decide +kernel

end FlowId

end FlowVerdict
