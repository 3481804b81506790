import TraceLedger.Address.Text
import TraceLedger.Proofs.Text.Digits

/-! # Addresses by their texts

On one network no two addresses have the same text. Behind the letter of the network stands the
protocol, so that only addresses of one protocol need to be compared, and behind that the whole
payload, whatever the checksum is. -/

namespace TraceLedger

theorem Blake2b.length_hash {size : Nat} (h : size ≤ 64) (data : List UInt8) :
    (hash size data).length = size := by
  have hword (w : UInt64) : (wordBytes w).length = 8 := by
    rw [wordBytes, List.length_map, List.length_range]
  simp only [hash, Row.toList, List.cons_append, List.nil_append, List.flatMap_cons,
    List.flatMap_nil, List.append_nil, List.length_take, List.length_append, hword]
  omega

namespace Address

theorem toList_toString (n : UInt64) : (toString n).toList = Nat.toDigits 10 n.toNat := by
  change (toString n.toNat).toList = _
  rw [Nat.toString_eq_ofList_toDigits, String.toList_ofList]

/-- A number is told by its decimal digits. -/
theorem eq_of_toList_toString_eq {m n : UInt64}
    (h : (toString m).toList = (toString n).toList) : m = n := by
  rw [toList_toString, toList_toString] at h
  have hvalue (k : Nat) : Nat.ofDigitChars 10 (Nat.toDigits 10 k) 0 = k :=
    Nat.ofDigitChars_toDigits (by decide) (by decide)
  exact UInt64.toNat_inj.mp (by rw [← hvalue m.toNat, h, hvalue])

/-- No decimal digit is taken for what ends the number of a manager. -/
theorem ne_of_mem_toString {n : UInt64} {c : Char} (h : c ∈ (toString n).toList) : c ≠ 'f' := by
  rw [toList_toString] at h
  rintro rfl
  exact absurd (Nat.isDigit_of_mem_toDigits (by decide) (by decide) h) (by decide)

/-- The number of a manager ends where the letter behind it stands. -/
theorem append_inj_of_ne {first first' rest rest' : List Char}
    (hfirst : ∀ c ∈ first, c ≠ 'f') (hfirst' : ∀ c ∈ first', c ≠ 'f')
    (h : first ++ 'f' :: rest = first' ++ 'f' :: rest') : first = first' ∧ rest = rest' := by
  have htake (text more : List Char) (htext : ∀ c ∈ text, c ≠ 'f') :
      (text ++ 'f' :: more).takeWhile (· ≠ 'f') = text := by
    rw [List.takeWhile_append_of_pos fun c hc => decide_eq_true (htext c hc),
      List.takeWhile_cons_of_neg (by decide), List.append_nil]
  have heq : first = first' := by rw [← htake first rest hfirst, h, htake first' rest' hfirst']
  subst heq
  exact ⟨rfl, (List.cons_inj_right _).mp (List.append_cancel_left h)⟩

theorem length_checksum (a : Address) : a.checksum.length = 4 := Blake2b.length_hash (by decide) _

/-- Base 32 text of bytes and a checksum tells the bytes. -/
theorem eq_of_encode_append_checksum {a b : Address} {bytes other : List UInt8}
    (h : Base32.encode (bytes ++ a.checksum) = Base32.encode (other ++ b.checksum)) :
    bytes = other :=
  (List.append_inj' (Base32.encode_injective h)
    (a.length_checksum.trans b.length_checksum.symm)).1

theorem body_injective : Function.Injective body := by
  intro a b h
  cases a <;> cases b <;> simp only [body, List.cons_append, List.cons.injEq] at h
  all_goals try exact absurd h.1 (by decide)
  case id.id => exact congrArg id (eq_of_toList_toString_eq h.2)
  case secp256k1.secp256k1 =>
    exact congrArg secp256k1 (Subtype.ext (eq_of_encode_append_checksum h.2))
  case actor.actor => exact congrArg actor (Subtype.ext (eq_of_encode_append_checksum h.2))
  case bls.bls => exact congrArg bls (Subtype.ext (eq_of_encode_append_checksum h.2))
  case delegated.delegated manager name manager' name' =>
    obtain ⟨hmanager, hname⟩ := append_inj_of_ne (fun _ => ne_of_mem_toString)
      (fun _ => ne_of_mem_toString) h.2
    rw [eq_of_toList_toString_eq hmanager, Subtype.ext (eq_of_encode_append_checksum hname)]

/-- An address is told by its text. -/
theorem toText_injective (network : Network) : Function.Injective (toText network) := by
  intro a b h
  have hchars := String.ofList_injective h
  exact body_injective ((List.cons_inj_right _).mp hchars)

theorem toText_ne_empty (network : Network) (a : Address) : a.toText network ≠ "" := by
  intro h
  have hchars : network.letter :: a.body = [] := String.ofList_injective h
  cases hchars

end Address
end TraceLedger
