import TraceLedger.Proofs.Address.Texts
import TraceLedger.Proofs.Wire.Numbers

/-! # Addresses read back from their texts

The text of an address holds visible characters only, so white space around it is told from it,
and each part of it tells where it ends: the letter and the protocol take one character each, the
number of a manager is followed by a letter that is no digit, and the checksum has four bytes. -/

namespace TraceLedger

/-! ## White space around a text -/

namespace Blank

theorem dropWhile_eq_self {text : List Char} (h : ∀ c ∈ text, isBlank c = false) :
    text.dropWhile isBlank = text := by
  cases text with
  | nil => rfl
  | cons c rest =>
      rw [List.dropWhile_cons_of_neg]
      simpa using h c List.mem_cons_self

/-- The text without the white space behind it. -/
def trimEnd (text : List Char) : List Char := (text.reverse.dropWhile isBlank).reverse

/-- Where a text begins with another character, only its end has white space to take off. -/
theorem trim_cons {c : Char} (h : isBlank c = false) (rest : List Char) :
    trim (c :: rest) = c :: trimEnd rest := by
  have hc : ¬isBlank c = true := by simp [h]
  have hdrop : (rest.reverse ++ [c]).dropWhile isBlank = rest.reverse.dropWhile isBlank ++ [c] := by
    rw [List.dropWhile_append]
    split
    next hnil => rw [List.isEmpty_iff.mp hnil, List.dropWhile_cons_of_neg hc, List.nil_append]
    next => rfl
  rw [trim, List.dropWhile_cons_of_neg hc, List.reverse_cons, hdrop, List.reverse_append]
  rfl

theorem trim_append {before : List Char} (h : ∀ c ∈ before, isBlank c) (text : List Char) :
    trim (before ++ text) = trim text := by
  rw [trim, List.dropWhile_append_of_pos h, ← trim]

theorem trimEnd_append {text after : List Char} (htext : ∀ c ∈ text, isBlank c = false)
    (hafter : ∀ c ∈ after, isBlank c) : trimEnd (text ++ after) = text := by
  have hrest : ∀ c ∈ after.reverse, isBlank c := fun c hc => hafter c (List.mem_reverse.mp hc)
  rw [trimEnd, List.reverse_append, List.dropWhile_append_of_pos hrest, dropWhile_eq_self,
    List.reverse_reverse]
  exact fun c hc => htext c (List.mem_reverse.mp hc)

end Blank

namespace Address

/-! ## The characters of a text -/

/-- A character that is written and takes one byte. -/
def Visible (c : Char) : Prop := 0x20 < c.toNat ∧ c.toNat < 0x7f

instance (c : Char) : Decidable (Visible c) := inferInstanceAs (Decidable (_ ∧ _))

theorem Visible.isBlank_eq_false {c : Char} (h : Visible c) : Blank.isBlank c = false := by
  obtain ⟨hlow, hhigh⟩ := h
  simp only [Blank.isBlank, Bool.or_eq_false_iff, Bool.and_eq_false_iff, decide_eq_false_iff_not,
    beq_eq_false_iff_ne]
  omega

theorem Visible.utf8Size_eq_one {c : Char} (h : Visible c) : c.utf8Size = 1 := by
  rw [Char.utf8Size_eq_one_iff]
  have hlt : c.toNat ≤ 127 := by
    have := h.2
    omega
  exact UInt32.le_iff_toNat_le.mpr hlt

/-- Visible characters take one byte each. -/
theorem size_eq_length {text : List Char} (h : ∀ c ∈ text, Visible c) :
    size text = text.length := by
  induction text with
  | nil => rfl
  | cons c rest ih =>
      have hc := (h c List.mem_cons_self).utf8Size_eq_one
      have hrest := ih fun d hd => h d (List.mem_cons_of_mem _ hd)
      rw [size] at hrest ⊢
      rw [String.ofList_cons, String.utf8ByteSize_append, String.utf8ByteSize_singleton, hc,
        hrest, List.length_cons, Nat.add_comm]

theorem visible_of_isDigit {c : Char} (h : c.isDigit) : Visible c := by
  obtain ⟨hlow, hhigh⟩ := Char.isDigit_iff_toNat.mp h
  exact ⟨Nat.lt_of_lt_of_le (by decide) hlow, Nat.lt_of_le_of_lt hhigh (by decide)⟩

theorem isDigit_of_mem_toString {n : UInt64} {c : Char} (h : c ∈ (toString n).toList) :
    c.isDigit := by
  rw [toList_toString] at h
  exact Nat.isDigit_of_mem_toDigits (by decide) (by decide) h

theorem visible_symbol {n : Nat} (h : n < 32) : Visible (Base32.symbol n) := by
  have hall : ∀ i : Fin 32, Visible (Base32.symbol i) := by decide
  exact hall ⟨n, h⟩

theorem visible_of_mem_encode {bytes : List UInt8} {c : Char} (h : c ∈ Base32.encode bytes) :
    Visible c := by
  obtain ⟨n, hn, rfl⟩ := List.mem_map.mp h
  exact visible_symbol (BitDigits.lt_of_mem_encode hn)

theorem visible_of_mem_body {a : Address} {c : Char} (h : c ∈ a.body) : Visible c := by
  cases a <;> simp only [body, List.cons_append, List.mem_cons, List.mem_append] at h
  case id number =>
    rcases h with rfl | h
    · decide
    · exact visible_of_isDigit (isDigit_of_mem_toString h)
  case delegated manager name =>
    rcases h with rfl | h | rfl | h
    · decide
    · exact visible_of_isDigit (isDigit_of_mem_toString h)
    · decide
    · exact visible_of_mem_encode h
  all_goals
    rcases h with rfl | h
    · decide
    · exact visible_of_mem_encode h

/-! ## Numbers -/

theorem nat?_of_isDigit {digits : List Char} (hne : digits ≠ []) (h : ∀ c ∈ digits, c.isDigit) :
    Decimal.nat? digits = some (Nat.ofDigitChars 10 digits 0) := by
  cases digits with
  | nil => exact absurd rfl hne
  | cons c rest => exact Decimal.foldlM_of_isDigit (fun _ _ hc => if_pos hc) h 0

theorem word?_toString (n : UInt64) : Decimal.word? (toString n).toList = some n := by
  have hdigits : ∀ c ∈ (toString n).toList, c.isDigit := fun _ => isDigit_of_mem_toString
  have hne : (toString n).toList ≠ [] := by
    rw [toList_toString]
    exact Nat.toDigits_ne_nil
  have hvalue : Decimal.nat? (toString n).toList = some n.toNat := by
    rw [nat?_of_isDigit hne hdigits, toList_toString, Nat.ofDigitChars_ten_toDigits]
  unfold Decimal.word?
  split
  next rest heq => exact absurd (hdigits '+' (heq ▸ List.mem_cons_self)) (by decide)
  next => simp [hvalue, n.toNat_lt]

theorem length_toString_le (n : UInt64) : (toString n).toList.length ≤ 20 := by
  rw [toList_toString, Nat.length_toDigits_le_iff (by decide) (by decide)]
  exact Nat.lt_trans n.toNat_lt (by decide)

theorem number?_toString (n : UInt64) : number? (toString n).toList = .ok n := by
  have hsize : ¬20 < size (toString n).toList := by
    rw [size_eq_length fun c hc => visible_of_isDigit (isDigit_of_mem_toString hc)]
    have := length_toString_le n
    omega
  rw [number?, if_neg hsize, word?_toString]

/-! ## Payloads and their checksums -/

/-- The payload is told from the checksum, which is as it should be. -/
theorem checked_encode (a : Address) {head payload : List UInt8}
    (h : a.toBytes = head ++ payload) :
    checked head (Base32.encode (payload ++ a.checksum)) = .ok payload := by
  have hchecksum : Blake2b.hash checksumSize (head ++ payload) = a.checksum := by
    rw [← h]
    rfl
  have hsize : a.checksum.length = checksumSize := a.length_checksum
  have hpayload : (payload ++ a.checksum).length - checksumSize = payload.length := by
    rw [List.length_append, hsize, Nat.add_sub_cancel]
  have hlong : ¬(payload ++ a.checksum).length < checksumSize := by
    rw [List.length_append, hsize]
    exact Nat.not_lt.mpr (Nat.le_add_left _ _)
  simp only [checked, Base32.decode?_encode, if_neg hlong, hpayload, List.take_left,
    List.drop_left, hchecksum, if_true]

theorem sized_encode (a : Address) {n : Nat} (octets : Octets n) {protocol : UInt8}
    (make : Octets n → Address) (h : a.toBytes = protocol :: octets.1) :
    sized n protocol make (Base32.encode (octets.1 ++ a.checksum)) = .ok (make octets) := by
  have hchecked : checked [protocol] (Base32.encode (octets.1 ++ a.checksum)) = .ok octets.1 :=
    checked_encode a h
  simp only [sized, hchecked, Octets.ofList?_val]

theorem delegatedOfText_body (manager : UInt64)
    (name : { bytes : List UInt8 // bytes.length ≤ 54 }) :
    delegatedOfText ((toString manager).toList ++
      'f' :: Base32.encode (name.1 ++ (delegated manager name).checksum)) =
        .ok (delegated manager name) := by
  have hdigits : ∀ c ∈ (toString manager).toList, decide (c ≠ 'f') = true :=
    fun c hc => decide_eq_true (ne_of_mem_toString hc)
  have hchecked : checked (4 :: Varint.encode manager)
      (Base32.encode (name.1 ++ (delegated manager name).checksum)) = .ok name.1 :=
    checked_encode _ rfl
  rw [delegatedOfText, List.dropWhile_append_of_pos hdigits, List.dropWhile_cons_of_neg (by decide),
    List.takeWhile_append_of_pos hdigits, List.takeWhile_cons_of_neg (by decide), List.append_nil]
  simp only [number?_toString, hchecked, delegated?, dif_pos name.2]

/-! ## Whole texts -/

/-- The longest text is that of a manager with a number of twenty digits and a name of 54 bytes. -/
theorem length_body_le (a : Address) : a.body.length ≤ 115 := by
  have hchecksum := a.length_checksum
  cases a with
  | id number =>
      have := length_toString_le number
      rw [body, List.length_cons]
      omega
  | secp256k1 hash | actor hash | bls hash =>
      have hhash := hash.2
      rw [body, List.length_cons, Base32.length_encode, List.length_append, hchecksum]
      omega
  | delegated manager name =>
      have hmanager := length_toString_le manager
      have hname := name.2
      rw [body, List.cons_append, List.length_cons, List.length_append, List.length_cons,
        Base32.length_encode, List.length_append, hchecksum]
      omega

theorem two_le_length_body (a : Address) : 2 ≤ a.body.length := by
  have hchecksum := a.length_checksum
  cases a with
  | id number =>
      have hne : (toString number).toList ≠ [] := by
        rw [toList_toString]
        exact Nat.toDigits_ne_nil
      have := List.length_pos_iff.mpr hne
      rw [body, List.length_cons]
      omega
  | secp256k1 hash | actor hash | bls hash =>
      rw [body, List.length_cons, Base32.length_encode, List.length_append, hchecksum]
      omega
  | delegated manager name =>
      rw [body, List.cons_append, List.length_cons, List.length_append, List.length_cons]
      omega

theorem ofBody_body (a : Address) : ofBody a.body = .ok a := by
  have hsize : ¬(size a.body < 2 ∨ 137 < size a.body) := by
    have hlow := a.two_le_length_body
    have hhigh := a.length_body_le
    rw [size_eq_length fun _ => visible_of_mem_body]
    omega
  unfold ofBody
  rw [if_neg hsize]
  cases a with
  | id number =>
      show (number? _).map id = _
      rw [number?_toString]
      rfl
  | secp256k1 hash => exact sized_encode _ hash secp256k1 rfl
  | actor hash => exact sized_encode _ hash actor rfl
  | bls key => exact sized_encode _ key bls rfl
  | delegated manager name => exact delegatedOfText_body manager name

/-- What is read of a text that begins with the letter of a network. -/
theorem toOption_ofText {text : String} {letter : Char} {rest : List Char}
    (hletter : letter = 'f' ∨ letter = 't') (htext : Blank.trim text.toList = letter :: rest) :
    (ofText text).toOption = if rest.isEmpty then none else (ofBody rest).toOption := by
  have hblank : ¬(rest.isEmpty ∨ ¬(letter = 'f' ∨ letter = 't')) ↔ ¬rest.isEmpty := by
    simp [hletter]
  simp only [ofText, htext]
  by_cases hempty : rest.isEmpty
  · rw [if_pos (.inl hempty), if_pos hempty]
    rfl
  · rw [if_neg (hblank.mpr hempty), if_neg hempty]
    cases ofBody rest <;> rfl

/-- Either letter is read alike, whatever stands behind it. -/
theorem toOption_ofText_append {letter : Char} (h : letter = 'f' ∨ letter = 't')
    (rest : String) :
    (ofText (String.singleton letter ++ rest)).toOption =
      if (Blank.trimEnd rest.toList).isEmpty then none
      else (ofBody (Blank.trimEnd rest.toList)).toOption := by
  have hvisible : Blank.isBlank letter = false := by rcases h with rfl | rfl <;> decide
  refine toOption_ofText h ?_
  rw [String.toList_append, String.toList_singleton, List.singleton_append,
    Blank.trim_cons hvisible]

theorem letter_eq (network : Network) : network.letter = 'f' ∨ network.letter = 't' := by
  cases network
  · exact .inl rfl
  · exact .inr rfl

/-- The texts of addresses stand for them, with white space around them or none. -/
structure TextsReadBack : Prop where
  ofText_toText : ∀ network a, ofText (toText network a) = .ok a
  ofText_padded : ∀ network a before after, (∀ c ∈ before.toList, Blank.isBlank c) →
    (∀ c ∈ after.toList, Blank.isBlank c) → ofText (before ++ toText network a ++ after) = .ok a
  /-- The letters of both networks are read alike, whatever stands behind them. -/
  ofText_letters : ∀ rest, (ofText ("f" ++ rest)).toOption = (ofText ("t" ++ rest)).toOption
  injective : ∀ network, Function.Injective (toText network)

theorem ofText_padded (network : Network) (a : Address) {before after : String}
    (hbefore : ∀ c ∈ before.toList, Blank.isBlank c)
    (hafter : ∀ c ∈ after.toList, Blank.isBlank c) :
    ofText (before ++ toText network a ++ after) = .ok a := by
  have hletter : Blank.isBlank network.letter = false := by cases network <;> decide
  have hbody : Blank.trimEnd (a.body ++ after.toList) = a.body :=
    Blank.trimEnd_append (fun _ hc => (visible_of_mem_body hc).isBlank_eq_false) hafter
  have htrim : Blank.trim (before ++ toText network a ++ after).toList =
      network.letter :: a.body := by
    rw [String.toList_append, String.toList_append, List.append_assoc, Blank.trim_append hbefore,
      toText, String.toList_ofList, List.cons_append, Blank.trim_cons hletter, hbody]
  have hread := toOption_ofText (letter_eq network) htrim
  have hne : ¬a.body.isEmpty := by
    have := a.two_le_length_body
    cases hbody : a.body with
    | nil => simp [hbody] at this
    | cons c rest => exact Bool.false_ne_true
  rw [if_neg hne, ofBody_body] at hread
  cases hresult : ofText (before ++ toText network a ++ after) with
  | ok b =>
      rw [hresult] at hread
      exact congrArg Except.ok (Option.some.inj hread)
  | error _ =>
      rw [hresult] at hread
      cases hread

/-- Every address is read back from its text on each network. -/
theorem texts_read_back : TextsReadBack where
  ofText_toText network a := by
    have h := @ofText_padded network a "" "" (by simp) (by simp)
    simpa using h
  ofText_padded network a _ _ := ofText_padded network a
  ofText_letters rest :=
    (toOption_ofText_append (.inl rfl) rest).trans (toOption_ofText_append (.inr rfl) rest).symm
  injective := toText_injective

end Address
end TraceLedger
