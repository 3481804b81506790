import TraceLedger.Json.Doc
import TraceLedger.Json.Printer
import TraceLedger.Proofs.Text.Digits

/-! # Quoted texts are read back

Reading undoes the escapes of a text, character by character. A character without one is kept byte
by byte, and none of its bytes is a quote, a backslash or a control character. -/

namespace TraceLedger

namespace Utf8

theorem encode_ofList (chars : List Char) :
    encode (String.ofList chars) = chars.flatMap String.utf8EncodeChar := by
  rw [encode, String.toByteArray_ofList, List.utf8Encode, List.toList_data_toByteArray]

theorem encode_toList (text : String) :
    encode text = text.toList.flatMap String.utf8EncodeChar := by
  rw [← encode_ofList, String.ofList_toList]

@[simp] theorem encode_append (first second : String) :
    encode (first ++ second) = encode first ++ encode second := by
  rw [encode, String.toByteArray_append, ByteArray.toList_data_append]
  rfl

end Utf8

namespace Json.Doc

/-- A byte that stands for itself in a text. -/
def IsPlain (b : UInt8) : Prop := b ≠ 0x22 ∧ b ≠ 0x5c ∧ ¬ b < 0x20

theorem textBytes_plain {bytes : List UInt8} (h : ∀ b ∈ bytes, IsPlain b) (fuel : Nat)
    (done input : List UInt8) :
    textBytes (fuel + bytes.length) done (bytes ++ input) =
      textBytes fuel (bytes.reverse ++ done) input := by
  induction bytes generalizing done with
  | nil => rfl
  | cons b rest ih =>
      obtain ⟨hquote, hbackslash, hcontrol⟩ := h b List.mem_cons_self
      have hrest := ih (fun x hx => h x (List.mem_cons_of_mem _ hx)) (b :: done)
      rw [List.length_cons, ← Nat.add_assoc, List.cons_append, textBytes, if_neg hquote,
        if_neg hbackslash, if_neg hcontrol, hrest, List.reverse_cons, List.append_assoc]
      rfl

/-- Some step or other reads an escape, and leaves what it stands for. -/
theorem textBytes_escape {bytes written : List UInt8} {input : List UInt8}
    (h : escape (written ++ input) = some (bytes, input)) (fuel : Nat) (done : List UInt8) :
    textBytes (fuel + 1) done (0x5c :: written ++ input) =
      textBytes fuel (bytes.reverse ++ done) input := by
  rw [List.cons_append, textBytes, if_neg (by decide), if_pos rfl, h]

/-! ## One character -/

/-- The bytes that a character is written as. -/
def escapedBytes (c : Char) : List UInt8 := (Json.escape c).flatMap String.utf8EncodeChar

theorem isPlain_ofNat {n : Nat} (hquote : n ≠ 0x22) (hbackslash : n ≠ 0x5c)
    (hcontrol : 0x20 ≤ n) (hbyte : n < 256) : IsPlain (UInt8.ofNat n) := by
  have htoNat : (UInt8.ofNat n).toNat = n := UInt8.toNat_ofNat_of_lt' hbyte
  refine ⟨fun h => hquote ?_, fun h => hbackslash ?_, fun h => ?_⟩
  · rw [← htoNat, h]
    rfl
  · rw [← htoNat, h]
    rfl
  · have hlt := UInt8.lt_iff_toNat_lt.mp h
    rw [htoNat] at hlt
    exact Nat.not_lt.mpr hcontrol hlt

theorem isPlain_of_mem_utf8EncodeChar {c : Char} (hquote : c ≠ '"') (hbackslash : c ≠ '\\')
    (hcontrol : ¬ c.toNat < 0x20) : ∀ b ∈ String.utf8EncodeChar c, IsPlain b := by
  have hquote : c.val.toNat ≠ 0x22 := fun h => hquote (Char.toNat_inj.mp h)
  have hbackslash : c.val.toNat ≠ 0x5c := fun h => hbackslash (Char.toNat_inj.mp h)
  have hcontrol : 0x20 ≤ c.val.toNat := Nat.not_lt.mp hcontrol
  -- Bytes of longer characters have their highest bit set.
  have hhigh : ∀ {n : Nat}, 128 ≤ n → n < 256 → IsPlain (UInt8.ofNat n) := by
    intro n hlow hbyte
    exact isPlain_ofNat (by omega) (by omega) (by omega) hbyte
  intro b hb
  simp only [String.utf8EncodeChar] at hb
  split_ifs at hb
  · rw [List.mem_singleton.mp hb]
    exact isPlain_ofNat hquote hbackslash hcontrol (by omega)
  all_goals
    simp only [List.mem_cons, List.not_mem_nil, or_false] at hb
    rcases hb with rfl | rfl | rfl | rfl <;> exact hhigh (by omega) (by omega)

theorem charBytes_toNat (c : Char) : charBytes c.toNat = String.utf8EncodeChar c := by
  rw [charBytes, Char.ofNat_toNat, String.singleton_eq_ofList, Utf8.encode_ofList]
  exact List.append_nil _

/-- The byte of a hexadecimal digit. -/
def hexByte (n : Nat) : UInt8 := UInt8.ofNat (Hex.digit n).toNat

theorem utf8EncodeChar_digit {n : Nat} (h : n < 16) :
    String.utf8EncodeChar (Hex.digit n) = [hexByte n] := by
  decide +revert

theorem value?_hexByte {n : Nat} (h : n < 16) :
    Hex.value? (Char.ofNat (hexByte n).toNat) = some n := by
  decide +revert

theorem hex4_hexByte {a b c d : Nat} (ha : a < 16) (hb : b < 16) (hc : c < 16) (hd : d < 16)
    (input : List UInt8) :
    hex4 (hexByte a :: hexByte b :: hexByte c :: hexByte d :: input) =
      some (16 * (16 * (16 * a + b) + c) + d, input) := by
  simp only [hex4, List.mapM_cons, List.mapM_nil, value?_hexByte ha, value?_hexByte hb,
    value?_hexByte hc, value?_hexByte hd, Option.bind_eq_bind, Option.bind_some, Option.pure_def,
    List.foldl_cons, List.foldl_nil, Nat.mul_zero, Nat.zero_add]

/-- A control character is escaped by its number. -/
theorem unicodeEscape_control {c : Char} (h : c.toNat < 0x20) (input : List UInt8) :
    unicodeEscape (hexByte 0 :: hexByte 0 :: hexByte (c.toNat / 16) :: hexByte (c.toNat % 16) ::
      input) = some (String.utf8EncodeChar c, input) := by
  have hcode : 16 * (16 * (16 * 0 + 0) + c.toNat / 16) + c.toNat % 16 = c.toNat := by omega
  have hlowHalf : ¬ (0xdc00 ≤ c.toNat ∧ c.toNat ≤ 0xdfff) := by omega
  have hhighHalf : ¬ (0xd800 ≤ c.toNat ∧ c.toNat ≤ 0xdbff) := by omega
  rw [unicodeEscape, hex4_hexByte (by omega) (by omega) (by omega) (by omega), hcode]
  simp only [Option.bind_eq_bind, Option.bind_some, if_neg hlowHalf, if_neg hhighHalf,
    charBytes_toNat]

/-- Whatever a character is written as, some steps read it and leave its bytes. -/
theorem textBytes_escapedBytes (c : Char) : ∃ steps, 0 < steps ∧ steps ≤ (escapedBytes c).length ∧
    ∀ fuel done input, textBytes (fuel + steps) done (escapedBytes c ++ input) =
      textBytes fuel ((String.utf8EncodeChar c).reverse ++ done) input := by
  -- An escape takes one step, and another character one for each of its bytes.
  suffices (∃ written, escapedBytes c = 0x5c :: written ∧
      ∀ input, escape (written ++ input) = some (String.utf8EncodeChar c, input)) ∨
      escapedBytes c = String.utf8EncodeChar c ∧
        ∀ b ∈ String.utf8EncodeChar c, IsPlain b by
    rcases this with ⟨written, hwritten, hescape⟩ | ⟨hself, hplain⟩
    · rw [hwritten]
      exact ⟨1, Nat.one_pos, Nat.le_add_left _ _, fun fuel done input =>
        textBytes_escape (hescape input) fuel done⟩
    · rw [hself]
      exact ⟨_, List.length_pos_iff.mpr String.utf8EncodeChar_ne_nil, Nat.le_refl _,
        fun fuel done input => textBytes_plain hplain fuel done input⟩
  unfold escapedBytes
  fun_cases Json.escape c
  case case8 hcontrol =>
    left
    refine ⟨0x75 :: hexByte 0 :: hexByte 0 :: hexByte (c.toNat / 16) :: [hexByte (c.toNat % 16)],
      ?_, fun input => ?_⟩
    · simp only [List.flatMap_cons, List.flatMap_nil]
      rw [utf8EncodeChar_digit (by omega), utf8EncodeChar_digit (by omega)]
      rfl
    · exact unicodeEscape_control hcontrol input
  case case9 hquote hbackslash _ _ _ _ _ hcontrol =>
    right
    refine ⟨List.append_nil _, isPlain_of_mem_utf8EncodeChar hquote hbackslash hcontrol⟩
  all_goals
    subst c
    exact .inl ⟨_, rfl, fun _ => rfl⟩

/-! ## Whole texts -/

/-- The bytes of a text up to its closing quote are those of its characters. -/
theorem textBytes_append_quote {chars : List Char} {fuel : Nat}
    (h : (chars.flatMap escapedBytes).length < fuel) (done input : List UInt8) :
    textBytes fuel done (chars.flatMap escapedBytes ++ 0x22 :: input) =
      some (done.reverse ++ chars.flatMap String.utf8EncodeChar, input) := by
  induction chars generalizing fuel done with
  | nil =>
      obtain ⟨fuel, rfl⟩ := Nat.exists_eq_add_of_lt h
      simp [textBytes]
  | cons c rest ih =>
      obtain ⟨steps, hpos, hle, hsteps⟩ := textBytes_escapedBytes c
      rw [List.flatMap_cons, List.length_append] at h
      obtain ⟨fuel, rfl⟩ := Nat.exists_eq_add_of_le' (Nat.le_trans hle (by omega : _ ≤ fuel))
      rw [List.flatMap_cons, List.append_assoc, hsteps, ih (by omega)]
      simp

/-- The bytes of a quoted text. -/
theorem encode_quote (text : String) :
    Utf8.encode (quote text) = 0x22 :: text.toList.flatMap escapedBytes ++ [0x22] := by
  rw [quote, Utf8.encode_ofList]
  simp only [List.cons_append, List.flatMap_cons, List.flatMap_append, List.flatMap_assoc,
    List.flatMap_nil, List.append_nil]
  rfl

/-- A quoted text is read back behind its opening quote. -/
theorem string_quoted {text : String} {fuel : Nat}
    (h : (text.toList.flatMap escapedBytes).length < fuel) (input : List UInt8) :
    string fuel (text.toList.flatMap escapedBytes ++ 0x22 :: input) = some (some text, input) := by
  rw [string, textBytes_append_quote h, List.reverse_nil, List.nil_append, ← Utf8.encode_toList]
  simp only [Option.bind_eq_bind, Option.bind_some, Utf8.decode?_encode, Option.pure_def]

end Json.Doc
end TraceLedger
