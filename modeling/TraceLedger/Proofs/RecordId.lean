import TraceLedger.Proofs.Text.Digits
import TraceLedger.Proofs.Wire.Numbers
import TraceLedger.RecordId

/-! # What is hashed tells the parts

Each part stands behind its length, so the first part of a preimage can be cut off, whatever the
parts are made of and however many there are. Identifiers that are equal therefore come from equal
parts, unless two different preimages have one hash. -/

namespace TraceLedger

namespace Utf8

theorem encode_injective : Function.Injective encode := injective_of_decode?_encode decode?_encode

theorem utf8ByteSize_ofList_le (cs : List Char) :
    (String.ofList cs).utf8ByteSize ≤ 4 * cs.length := by
  induction cs with
  | nil => simp
  | cons c cs ih =>
      have hc := c.utf8Size_le_four
      rw [String.ofList_cons, String.utf8ByteSize_append, String.utf8ByteSize_singleton,
        List.length_cons]
      omega

theorem length_encode_le (text : String) : (encode text).length ≤ 4 * text.toList.length := by
  have h := utf8ByteSize_ofList_le text.toList
  rw [String.ofList_toList] at h
  exact h

end Utf8

namespace Blake2b

/-- Different bytes have one hash. -/
def Collide (size : Nat) (first second : List UInt8) : Prop :=
  first ≠ second ∧ hash size first = hash size second

end Blake2b

namespace RecordId

variable {parts parts' : List String}

/-- The length of a part fits the eight bytes in front of it. -/
def IsShort (part : String) : Prop := (Utf8.encode part).length < 256 ^ 8

instance (part : String) : Decidable (IsShort part) := inferInstanceAs (Decidable (_ < _))

theorem isShort_of_length_le {part : String} {n : Nat} (h : part.toList.length ≤ n)
    (hn : 4 * n < 256 ^ 8) : IsShort part := by
  have hle := Utf8.length_encode_le part
  unfold IsShort
  omega

theorem encodePart_append_inj {first second : String} {rest rest' : List UInt8}
    (hfirst : IsShort first) (hsecond : IsShort second)
    (h : encodePart first ++ rest = encodePart second ++ rest') :
    first = second ∧ rest = rest' := by
  simp only [encodePart, List.append_assoc] at h
  obtain ⟨hsize, hbytes⟩ := List.append_inj h (by simp [BigEndian.length_fixed])
  have hlength : (Utf8.encode first).length = (Utf8.encode second).length := by
    have hdecode := congrArg BigEndian.decode hsize
    rwa [BigEndian.decode_fixed_of_lt hfirst, BigEndian.decode_fixed_of_lt hsecond] at hdecode
  obtain ⟨hencode, hrest⟩ := List.append_inj hbytes hlength
  exact ⟨Utf8.encode_injective hencode, hrest⟩

theorem preimage_cons (part : String) (parts : List String) :
    preimage (part :: parts) = encodePart part ++ preimage parts := List.flatMap_cons

theorem preimage_cons_inj (part : String) :
    preimage (part :: parts) = preimage (part :: parts') ↔ preimage parts = preimage parts' := by
  rw [preimage_cons, preimage_cons, List.append_cancel_left_eq]

/-- The first part can be cut off. -/
theorem of_preimage_cons_eq {first second : String}
    (hfirst : IsShort first) (hsecond : IsShort second)
    (h : preimage (first :: parts) = preimage (second :: parts')) :
    first = second ∧ preimage parts = preimage parts' :=
  encodePart_append_inj hfirst hsecond (by rwa [preimage_cons, preimage_cons] at h)

/-- A single part is what stands behind its length, however long it is. -/
theorem of_preimage_singleton_eq {first second : String}
    (h : preimage [first] = preimage [second]) : first = second := by
  simp only [preimage, List.flatMap_singleton, encodePart] at h
  obtain ⟨-, hbytes⟩ := List.append_inj h (by simp [BigEndian.length_fixed])
  exact Utf8.encode_injective hbytes

/-- Identifiers are alike exactly if the hashes are. -/
theorem ofParts_eq_iff : ofParts parts = ofParts parts' ↔
    Blake2b.hash 32 (preimage parts) = Blake2b.hash 32 (preimage parts') :=
  Hex.encode_injective.eq_iff

theorem isShort_ofParts (parts : List String) : IsShort (ofParts parts) := by
  have hsize : (Blake2b.hash 32 (preimage parts)).length ≤ 32 := by
    unfold Blake2b.hash
    exact List.length_take_le _ _
  refine isShort_of_length_le (n := 64) ?_ (by decide)
  rw [ofParts, Hex.length_toList_encode]
  omega

/-! ## Lists of parts -/

/-- The length stands there even for the empty part. -/
theorem encodePart_ne_nil (part : String) : encodePart part ≠ [] := by
  refine List.append_ne_nil_of_left_ne_nil (List.ne_nil_of_length_pos ?_) _
  rw [BigEndian.length_fixed]
  decide

theorem eq_of_preimage_eq (hshort : ∀ part ∈ parts, IsShort part)
    (hshort' : ∀ part ∈ parts', IsShort part) (h : preimage parts = preimage parts') :
    parts = parts' :=
  eq_of_flatMap_eq (fun part _ => encodePart_ne_nil part)
    (fun _ _ _ _ hfirst hsecond => encodePart_append_inj hfirst hsecond) hshort hshort' h

/-- Lists of parts are hashed from the same bytes only if they are the same list. So they have one
identifier only if they are the same, or else the bytes that they are hashed from collide. -/
theorem parts_told_by_preimages (hshort : ∀ part ∈ parts, IsShort part)
    (hshort' : ∀ part ∈ parts', IsShort part) :
    (preimage parts = preimage parts' ↔ parts = parts') ∧
      (ofParts parts = ofParts parts' ↔
        parts = parts' ∨ Blake2b.Collide 32 (preimage parts) (preimage parts')) := by
  have hinj : preimage parts = preimage parts' ↔ parts = parts' :=
    ⟨eq_of_preimage_eq hshort hshort', congrArg preimage⟩
  refine ⟨hinj, ?_⟩
  rw [ofParts_eq_iff]
  constructor
  · intro hhash
    by_cases hparts : parts = parts'
    · exact .inl hparts
    · exact .inr ⟨fun hbytes => hparts (hinj.mp hbytes), hhash⟩
  · rintro (rfl | hcollide)
    · rfl
    · exact hcollide.2

/-- A part that ends in what the empty part is encoded as. -/
def zeroTail : String := "a\x00\x00\x00\x00\x00\x00\x00\x00"

/-- The end of a part is not taken for another part, though the two preimages differ in one byte
only. -/
theorem parts_told_by_preimages_zeroTail :
    (∀ part ∈ ["a", ""], IsShort part) ∧ (∀ part ∈ [zeroTail], IsShort part) ∧
      preimage ["a", ""] ≠ preimage [zeroTail] ∧
      (ofParts ["a", ""] = ofParts [zeroTail] →
        Blake2b.Collide 32 (preimage ["a", ""]) (preimage [zeroTail])) := by
  have hshort : ∀ part ∈ ["a", ""], IsShort part := by decide
  have hshort' : ∀ part ∈ [zeroTail], IsShort part := by decide
  obtain ⟨hbytes, hid⟩ := parts_told_by_preimages hshort hshort'
  exact ⟨hshort, hshort', mt hbytes.mp (by decide), fun h => (hid.mp h).resolve_left (by decide)⟩

end RecordId

theorem toString_nat_injective {m n : Nat} (h : toString m = toString n) : m = n := by
  rw [Nat.toString_eq_ofList_toDigits, Nat.toString_eq_ofList_toDigits, String.ofList_inj] at h
  have hm := Nat.ofDigitChars_ten_toDigits (n := m)
  rw [h, Nat.ofDigitChars_ten_toDigits] at hm
  exact hm.symm

end TraceLedger
