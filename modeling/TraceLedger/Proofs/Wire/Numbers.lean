import Mathlib.Algebra.Group.Nat.Defs
import TraceLedger.Wire.Octets
import TraceLedger.Wire.SignedMagnitude
import TraceLedger.Wire.Varint

/-! # Numbers and strings read back from their bytes -/

namespace TraceLedger

theorem Octets.take?_append (bytes rest : List UInt8) :
    Octets.take? bytes.length (bytes ++ rest) = some (bytes, rest) := by
  simp [Octets.take?]

theorem Octets.ofList?_val {n : Nat} (bytes : Octets n) :
    Octets.ofList? n bytes.1 = some bytes := by
  simp [Octets.ofList?, bytes.2]

/-! ## Big-endian numbers -/

namespace BigEndian

theorem length_fixed (width n : Nat) : (fixed width n).length = width := by
  induction width generalizing n with
  | zero => rfl
  | succ width ih => simp [fixed, ih]

theorem decode_concat (bytes : List UInt8) (b : UInt8) :
    decode (bytes ++ [b]) = 256 * decode bytes + b.toNat := by
  simp [decode]

theorem decode_fixed (width n : Nat) : decode (fixed width n) = n % 256 ^ width := by
  induction width generalizing n with
  | zero => simp [fixed, decode, Nat.mod_one]
  | succ width ih =>
      have hbyte : (UInt8.ofNat (n % 256)).toNat = n % 256 := by simp
      rw [fixed, decode_concat, ih, hbyte, Nat.pow_succ', Nat.mod_mul]
      omega

theorem decode_fixed_of_lt {width n : Nat} (h : n < 256 ^ width) :
    decode (fixed width n) = n := by
  rw [decode_fixed, Nat.mod_eq_of_lt h]

theorem lt_pow_width (n : Nat) : n < 256 ^ width n := by
  unfold width
  split
  · simp_all
  · rw [show 256 = 2 ^ 8 from rfl, ← Nat.pow_mul]
    exact Nat.lt_of_lt_of_le Nat.lt_log2_self (Nat.pow_le_pow_right (by decide) (by omega))

theorem decode_encode (n : Nat) : decode (encode n) = n :=
  decode_fixed_of_lt (lt_pow_width n)

end BigEndian

/-! ## Decimals -/

namespace Decimal

theorem isDigit_of_mem_repr {n : Nat} {c : Char} (h : c ∈ n.repr.toList) : c.isDigit := by
  rw [Nat.toList_repr] at h
  exact Nat.isDigit_of_mem_toDigits (by decide) (by decide) h

/-- A fold that puts digits behind each other reads digits as a number. -/
theorem foldlM_of_isDigit {step : Nat → Char → Option Nat}
    (hstep : ∀ n c, c.isDigit → step n c = some (10 * n + (c.toNat - 48))) {digits : List Char}
    (h : ∀ c ∈ digits, c.isDigit) (n : Nat) :
    digits.foldlM step n = some (Nat.ofDigitChars 10 digits n) := by
  induction digits generalizing n with
  | nil => rfl
  | cons c rest ih =>
      have hrest := ih fun d hd => h d (List.mem_cons_of_mem _ hd)
      rw [List.foldlM_cons, hstep n c (h c List.mem_cons_self), Nat.ofDigitChars_cons, ← hrest]
      rfl

end Decimal

/-! ## Signed integers -/

namespace SignedMagnitude

theorem decode?_bytesOf {n : Int} (h : (bytesOf n).length ≤ maxSize) :
    decode? (bytesOf n) = some n := by
  unfold decode?
  rw [if_pos h]
  match n with
  | .ofNat 0 => rfl
  | .ofNat (n + 1) =>
      simp only [bytesOf, BigEndian.decode_encode]
      rfl
  | .negSucc n =>
      simp only [bytesOf, BigEndian.decode_encode]
      rfl

theorem encode?_eq_some {n : Int} {bytes : List UInt8} (h : encode? n = some bytes) :
    bytes = bytesOf n ∧ (bytesOf n).length ≤ maxSize := by
  simp only [encode?] at h
  split at h
  · next hle => exact ⟨(Option.some.inj h).symm, hle⟩
  · cases h

theorem digits?_of_isDigit {digits : List Char} (hne : digits ≠ []) (h : ∀ c ∈ digits, c.isDigit) :
    digits? digits = some (Nat.ofDigitChars 10 digits 0) := by
  unfold digits?
  split
  next => exact absurd rfl hne
  next => exact absurd (h '_' List.mem_cons_self) (by decide)
  next =>
    refine Decimal.foldlM_of_isDigit (fun n c hc => ?_) h 0
    have hmark : c ≠ '_' := fun heq => absurd (heq ▸ hc) (by decide)
    rw [if_neg hmark, if_pos hc]

theorem digits?_repr (n : Nat) : digits? n.repr.toList = some n := by
  have hne : n.repr.toList ≠ [] := by
    rw [Nat.toList_repr]
    exact Nat.toDigits_ne_nil
  rw [digits?_of_isDigit hne fun _ => Decimal.isDigit_of_mem_repr, Nat.toList_repr,
    Nat.ofDigitChars_ten_toDigits]

theorem dropPlus_repr (n : Nat) : dropPlus n.repr.toList = n.repr.toList := by
  have hplus {rest : List Char} : n.repr.toList ≠ '+' :: rest := fun h =>
    absurd (Decimal.isDigit_of_mem_repr (n := n) (h ▸ List.mem_cons_self)) (by decide)
  unfold dropPlus
  split
  next h => exact (hplus h).elim
  next h => exact (hplus h).elim
  next => rfl

/-- An integer is read back from its decimal. -/
theorem ofText?_toString (n : Int) : ofText? (toString n) = some n := by
  rw [Int.toString_eq_repr, ofText?]
  cases n with
  | ofNat n =>
      have hlist : (Int.repr (.ofNat n)).toList = n.repr.toList := rfl
      rw [hlist]
      split
      next h =>
        have hminus := Decimal.isDigit_of_mem_repr (n := n) (h ▸ List.mem_cons_self)
        exact absurd hminus (by decide)
      next =>
        rw [dropPlus_repr, digits?_repr]
        rfl
  | negSucc n =>
      have hlist : (Int.repr (.negSucc n)).toList = '-' :: (n + 1).repr.toList := by
        rw [Int.repr, String.toList_append]
        rfl
      rw [hlist]
      simp only [digits?_repr]
      rfl

end SignedMagnitude

/-! ## Varints -/

namespace Varint

theorem encodeNat_of_lt {n : Nat} (h : n < 128) : encodeNat n = [UInt8.ofNat n] := by
  rw [encodeNat, if_pos h]

theorem encodeNat_of_le {n : Nat} (h : 128 ≤ n) :
    encodeNat n = UInt8.ofNat (n % 128 + 128) :: encodeNat (n / 128) := by
  rw [encodeNat, if_neg (by omega)]

theorem encodeNat_ne_nil (n : Nat) : encodeNat n ≠ [] := by
  by_cases h : n < 128
  · simp [encodeNat_of_lt h]
  · simp [encodeNat_of_le (Nat.le_of_not_lt h)]

theorem length_encodeNat_le {more n : Nat} (h : n < 128 ^ (more + 1)) :
    (encodeNat n).length ≤ more + 1 := by
  induction more generalizing n with
  | zero => simp [encodeNat_of_lt (by simpa using h)]
  | succ more ih =>
      by_cases hsmall : n < 128
      · simp [encodeNat_of_lt hsmall]
      · have hdiv : n / 128 < 128 ^ (more + 1) := by
          rw [Nat.pow_succ] at h
          omega
        have := ih hdiv
        rw [encodeNat_of_le (by omega), List.length_cons]
        omega

/-- The quotient of a number of several bytes is not zero, so no byte of it only adds zeros. -/
theorem readNat_encodeNat {more n : Nat} (h : n < 128 ^ (more + 1)) (rest : List UInt8) :
    readNat more (encodeNat n ++ rest) = some (n, rest) := by
  induction more generalizing n with
  | zero =>
      have hn : n < 128 := by simpa using h
      have hbyte : (UInt8.ofNat n).toNat = n :=
        UInt8.toNat_ofNat_of_lt' (Nat.lt_trans hn (by decide))
      simp [encodeNat_of_lt hn, readNat, hbyte, hn]
  | succ more ih =>
      by_cases hsmall : n < 128
      · have hbyte : (UInt8.ofNat n).toNat = n :=
          UInt8.toNat_ofNat_of_lt' (Nat.lt_trans hsmall (by decide))
        simp [encodeNat_of_lt hsmall, readNat, hbyte, hsmall]
      · have hdiv : n / 128 < 128 ^ (more + 1) := by
          rw [Nat.pow_succ] at h
          omega
        have hbyte : (UInt8.ofNat (n % 128 + 128)).toNat = n % 128 + 128 :=
          UInt8.toNat_ofNat_of_lt' (by omega : n % 128 + 128 < 256)
        have hne : n / 128 ≠ 0 := by omega
        have hlow : ¬ n % 128 + 128 < 128 := by omega
        rw [encodeNat_of_le (by omega), List.cons_append, readNat, hbyte, if_neg hlow]
        simp [ih hdiv, hne]
        omega

theorem toNat_lt_pow (n : UInt64) : n.toNat < 128 ^ (9 + 1) :=
  Nat.lt_trans n.toNat_lt (by decide)

theorem read_encode (n : UInt64) (rest : List UInt8) :
    read (encode n ++ rest) = some (n, rest) := by
  simp [read, encode, readNat_encodeNat (toNat_lt_pow n)]

/-- A byte without its high bit ends a varint. -/
theorem read_cons_of_lt {b : UInt8} (h : b.toNat < 128) (rest : List UInt8) :
    read (b :: rest) = some (UInt64.ofNat b.toNat, rest) := by
  simp [read, readNat, h]

theorem encode_ne_nil (n : UInt64) : encode n ≠ [] := encodeNat_ne_nil _

theorem length_encode_le (n : UInt64) : (encode n).length ≤ 10 :=
  length_encodeNat_le (toNat_lt_pow n)

end Varint
end TraceLedger
