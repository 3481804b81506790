import Mathlib.Algebra.Group.Nat.Defs
import Mathlib.Data.List.Induction
import TraceLedger.Text.Base32
import TraceLedger.Text.Hex

/-! # Texts of digits read back

Bytes that were written as digits of a few bits each are read back from them: the digits hold all
bits of the bytes, and then fewer zero bits than a digit has. -/

namespace TraceLedger

namespace BitDigits

theorem ofBits_concat (bits : List Bool) (b : Bool) :
    ofBits (bits ++ [b]) = 2 * ofBits bits + b.toNat := by
  simp [ofBits]

theorem length_bitsOf (width n : Nat) : (bitsOf width n).length = width := by
  induction width with
  | zero => rfl
  | succ width ih => rw [bitsOf, List.length_cons, ih]

/-- The lowest bit of a number comes last. -/
theorem bitsOf_succ (width n : Nat) :
    bitsOf (width + 1) n = bitsOf width (n / 2) ++ [n.testBit 0] := by
  induction width with
  | zero => rfl
  | succ width ih =>
      rw [bitsOf, ih, ← List.cons_append, bitsOf, Nat.testBit_div_two]

theorem ofBits_bitsOf (width n : Nat) : ofBits (bitsOf width n) = n % 2 ^ width := by
  induction width generalizing n with
  | zero => simp [bitsOf, ofBits, Nat.mod_one]
  | succ width ih =>
      have hbit : (n.testBit 0).toNat = n % 2 := by
        rw [Nat.testBit_zero]
        rcases Nat.mod_two_eq_zero_or_one n with h | h <;> simp [h]
      rw [bitsOf_succ, ofBits_concat, ih, hbit, Nat.pow_succ', Nat.mod_mul]
      omega

theorem ofBits_lt (bits : List Bool) : ofBits bits < 2 ^ bits.length := by
  induction bits using List.reverseRecOn with
  | nil => decide
  | append_singleton front b ih =>
      have hb := Bool.toNat_lt b
      rw [ofBits_concat, List.length_append, List.length_singleton, Nat.pow_succ]
      omega

theorem bitsOf_ofBits (bits : List Bool) : bitsOf bits.length (ofBits bits) = bits := by
  induction bits using List.reverseRecOn with
  | nil => rfl
  | append_singleton front b ih =>
      have hb := Bool.toNat_lt b
      have hhalf : (2 * ofBits front + b.toNat) / 2 = ofBits front := by omega
      have hlow : (2 * ofBits front + b.toNat).testBit 0 = b := by
        rw [Nat.testBit_zero]
        cases b with
        | false => exact decide_eq_false (by rw [Bool.toNat_false]; omega)
        | true => exact decide_eq_true (by rw [Bool.toNat_true]; omega)
      rw [ofBits_concat, List.length_append, List.length_singleton, bitsOf_succ, hhalf, ih, hlow]

theorem length_group (width : Nat) (bits : List Bool) :
    (bits.take width ++ List.replicate (width - (bits.take width).length) false).length =
      width := by
  rw [List.length_append, List.length_replicate, List.length_take]
  omega

/-- The bits of a group and those behind it are all bits, and the zeros come last. -/
theorem group_append_rest {width room : Nat} {bits : List Bool} (h : bits.length ≤ room + width) :
    (bits.take width ++ List.replicate (width - (bits.take width).length) false) ++
        (bits.drop width ++ List.replicate (room - (bits.drop width).length) false) =
      bits ++ List.replicate (room + width - bits.length) false := by
  by_cases hlong : width ≤ bits.length
  · have htake : (bits.take width).length = width := by simp [hlong]
    rw [htake, Nat.sub_self, List.replicate_zero, List.append_nil, ← List.append_assoc,
      List.take_append_drop, List.length_drop]
    congr 2
    omega
  · have htake : bits.take width = bits := List.take_of_length_le (by omega)
    have hdrop : bits.drop width = [] := List.drop_of_length_le (by omega)
    rw [htake, hdrop, List.nil_append, List.length_nil, List.append_assoc,
      List.replicate_append_replicate]
    congr 2
    omega

/-- Groups that are long enough together hold all bits, and then zeros. -/
theorem flatMap_groups {width : Nat} {count : Nat} {bits : List Bool}
    (h : bits.length ≤ count * width) :
    ((groups width count bits).map ofBits).flatMap (bitsOf width) =
      bits ++ List.replicate (count * width - bits.length) false := by
  induction count generalizing bits with
  | zero =>
      have hnil : bits = [] := List.length_eq_zero_iff.mp (by omega)
      simp [hnil, groups]
  | succ count ih =>
      rw [Nat.succ_mul] at h ⊢
      have hdrop : (bits.drop width).length ≤ count * width := by
        rw [List.length_drop]
        omega
      have hgroup := bitsOf_ofBits
        (bits.take width ++ List.replicate (width - (bits.take width).length) false)
      rw [length_group] at hgroup
      rw [groups, List.map_cons, List.flatMap_cons, hgroup, ih hdrop, group_append_rest h]

/-- The groups of eight among the bits of bytes are those of each byte. -/
theorem groups_flatMap_bitsOf (bytes : List UInt8) (rest : List Bool) :
    groups 8 bytes.length ((bytes.flatMap fun b => bitsOf 8 b.toNat) ++ rest) =
      bytes.map fun b => bitsOf 8 b.toNat := by
  induction bytes with
  | nil => rfl
  | cons b bytes ih =>
      have hlength : (bitsOf 8 b.toNat).length = 8 := length_bitsOf 8 b.toNat
      rw [List.length_cons, groups, List.flatMap_cons, List.append_assoc,
        List.take_left' hlength, List.drop_left' hlength, ih, hlength]
      simp

theorem length_flatMap_bitsOf (bytes : List UInt8) :
    (bytes.flatMap fun b => bitsOf 8 b.toNat).length = 8 * bytes.length := by
  induction bytes with
  | nil => rfl
  | cons b bytes ih =>
      rw [List.flatMap_cons, List.length_append, length_bitsOf, ih, List.length_cons]
      omega

theorem decode?_encode {width : Nat} (hpos : 0 < width) (hle : width ≤ 8) (bytes : List UInt8) :
    decode? width (encode width bytes) = some bytes := by
  let bits := bytes.flatMap fun b => bitsOf 8 b.toNat
  let count := (bits.length + width - 1) / width
  have hbits : bits.length = 8 * bytes.length := length_flatMap_bitsOf bytes
  -- The digits hold all bits, and less than a digit more.
  have hmod := Nat.div_add_mod (bits.length + width - 1) width
  have hlt := Nat.mod_lt (bits.length + width - 1) hpos
  have henough : bits.length ≤ count * width := by
    rw [Nat.mul_comm]
    simp only [count]
    omega
  have hfill : count * width - bits.length < width := by
    rw [Nat.mul_comm]
    simp only [count]
    omega
  have hdigits : (encode width bytes).flatMap (bitsOf width) =
      bits ++ List.replicate (count * width - bits.length) false := flatMap_groups henough
  have hcount : (bits ++ List.replicate (count * width - bits.length) false).length / 8 =
      bytes.length := by
    rw [List.length_append, List.length_replicate]
    omega
  have hdrop : (bits ++ List.replicate (count * width - bits.length) false).drop
      (8 * bytes.length) = List.replicate (count * width - bits.length) false :=
    List.drop_left' hbits
  unfold decode?
  simp only [hdigits, hcount, hdrop]
  rw [if_pos ⟨by simpa using hfill, by simp⟩, groups_flatMap_bitsOf, List.map_map]
  congr 1
  have hbyte (b : UInt8) : UInt8.ofNat (ofBits (bitsOf 8 b.toNat)) = b := by
    rw [ofBits_bitsOf, Nat.mod_eq_of_lt b.toNat_lt, UInt8.ofNat_toNat]
  simp [Function.comp_def, hbyte]

theorem length_groups (width count : Nat) (bits : List Bool) :
    (groups width count bits).length = count := by
  induction count generalizing bits with
  | zero => rfl
  | succ count ih => rw [groups, List.length_cons, ih]

theorem length_encode (width : Nat) (bytes : List UInt8) :
    (encode width bytes).length = (8 * bytes.length + width - 1) / width := by
  simp only [encode, List.length_map, length_groups, length_flatMap_bitsOf]

theorem length_of_mem_groups {width count : Nat} {bits group : List Bool}
    (h : group ∈ groups width count bits) : group.length = width := by
  induction count generalizing bits with
  | zero => cases h
  | succ count ih =>
      rw [groups] at h
      rcases List.mem_cons.mp h with rfl | h
      · exact length_group width bits
      · exact ih h

/-- A digit is less than the base. -/
theorem lt_of_mem_encode {width : Nat} {bytes : List UInt8} {d : Nat}
    (h : d ∈ encode width bytes) : d < 2 ^ width := by
  obtain ⟨group, hgroup, rfl⟩ := List.mem_map.mp h
  rw [← length_of_mem_groups hgroup]
  exact ofBits_lt group

end BitDigits

theorem mapM_map_eq_some {α β : Type} {f : α → β} {g : β → Option α} {items : List α}
    (h : ∀ a ∈ items, g (f a) = some a) : (items.map f).mapM g = some items := by
  induction items with
  | nil => rfl
  | cons a items ih =>
      have hrest := ih fun a ha => h a (List.mem_cons_of_mem _ ha)
      rw [List.map_cons, List.mapM_cons, h a List.mem_cons_self, hrest]
      rfl

/-- What can be read back was written in one way only. -/
theorem injective_of_decode?_encode {α β : Type} {encode : α → β} {decode? : β → Option α}
    (h : ∀ a, decode? (encode a) = some a) : Function.Injective encode := by
  intro a b hab
  have ha := h a
  rw [hab, h] at ha
  exact (Option.some.inj ha).symm

/-- Items that stand one behind the other are told apart, if each one can be cut off the front and
none is written as nothing. -/
theorem eq_of_flatMap_eq {α β : Type} {p : α → Prop} {encode : α → List β}
    (hne : ∀ a, p a → encode a ≠ [])
    (hcut : ∀ a b rest rest', p a → p b → encode a ++ rest = encode b ++ rest' →
      a = b ∧ rest = rest')
    {items others : List α} (hitems : ∀ a ∈ items, p a) (hothers : ∀ b ∈ others, p b)
    (h : items.flatMap encode = others.flatMap encode) : items = others := by
  have hends (a : α) (rest : List α) (ha : p a) : (a :: rest).flatMap encode ≠ [] := by
    rw [List.flatMap_cons]
    exact List.append_ne_nil_of_left_ne_nil (hne a ha) _
  -- The first item is cut off both lists, and a list that has none left is at its end.
  induction items generalizing others with
  | nil =>
      cases others with
      | nil => rfl
      | cons b others => exact (hends b others (hothers b List.mem_cons_self) h.symm).elim
  | cons a items ih =>
      obtain ⟨ha, hitems⟩ := List.forall_mem_cons.mp hitems
      cases others with
      | nil => exact (hends a items ha h).elim
      | cons b others =>
          obtain ⟨hb, hrest⟩ := List.forall_mem_cons.mp hothers
          rw [List.flatMap_cons, List.flatMap_cons] at h
          obtain ⟨rfl, htail⟩ := hcut a b _ _ ha hb h
          rw [ih hitems hrest htail]

namespace Base32

theorem value?_symbol {n : Nat} (h : n < 32) : value? (symbol n) = some n := by
  have hall : ∀ i : Fin 32, value? (symbol i) = some i.1 := by decide
  exact hall ⟨n, h⟩

theorem decode?_encode (bytes : List UInt8) : decode? (encode bytes) = some bytes := by
  have hdigits : (encode bytes).mapM value? = some (BitDigits.encode 5 bytes) :=
    mapM_map_eq_some fun n hn => value?_symbol (BitDigits.lt_of_mem_encode hn)
  rw [decode?, hdigits]
  exact BitDigits.decode?_encode (by decide) (by decide) bytes

theorem encode_injective : Function.Injective encode := injective_of_decode?_encode decode?_encode

theorem length_encode (bytes : List UInt8) :
    (encode bytes).length = (8 * bytes.length + 4) / 5 := by
  rw [encode, List.length_map, BitDigits.length_encode]
  rfl

end Base32

namespace Hex

theorem value?_digit {n : Nat} (h : n < 16) : value? (digit n) = some n := by
  have hall : ∀ i : Fin 16, value? (digit i) = some i.1 := by decide
  exact hall ⟨n, h⟩

theorem decodeChars?_digits (bytes : List UInt8) :
    decodeChars? (bytes.flatMap fun b => [digit (b.toNat / 16), digit (b.toNat % 16)]) =
      some bytes := by
  induction bytes with
  | nil => rfl
  | cons b bytes ih =>
      have hlt := b.toNat_lt
      have hbyte : 16 * (b.toNat / 16) + b.toNat % 16 = b.toNat := Nat.div_add_mod _ _
      rw [List.flatMap_cons, List.cons_append, List.cons_append, List.nil_append, decodeChars?,
        value?_digit (by omega), value?_digit (by omega), ih]
      change some (UInt8.ofNat (16 * (b.toNat / 16) + b.toNat % 16) :: bytes) = _
      rw [hbyte, UInt8.ofNat_toNat]

theorem decode?_encode (bytes : List UInt8) : decode? (encode bytes) = some bytes := by
  rw [decode?, encode, String.toList_ofList, decodeChars?_digits]

theorem encode_injective : Function.Injective encode := injective_of_decode?_encode decode?_encode

theorem length_toList_encode (bytes : List UInt8) :
    (encode bytes).toList.length = 2 * bytes.length := by
  rw [encode, String.toList_ofList]
  induction bytes with
  | nil => rfl
  | cons b bytes ih =>
      rw [List.flatMap_cons, List.length_append, ih, List.length_cons, List.length_cons,
        List.length_cons, List.length_nil]
      omega

end Hex
end TraceLedger
