import Mathlib.Data.List.Induction
import Mathlib.Data.List.TakeWhile
import Mathlib.Data.Nat.Digits.Lemmas
import TraceLedger.Proofs.Wire.Numbers
import TraceLedger.Text.Positional

/-! # Positional text read back

Bytes that were written as one number are read back from its digits: the number gives the bytes
behind the zeros in front, and these have zero digits of their own. -/

namespace TraceLedger

namespace BigEndian

theorem decode_cons (b : UInt8) (bytes : List UInt8) :
    decode (b :: bytes) = b.toNat * 256 ^ bytes.length + decode bytes := by
  induction bytes using List.reverseRecOn with
  | nil => simp [decode]
  | append_singleton bytes last ih =>
      rw [← List.cons_append, decode_concat, decode_concat, ih, List.length_append,
        List.length_singleton, Nat.pow_succ]
      ring

theorem decode_lt (bytes : List UInt8) : decode bytes < 256 ^ bytes.length := by
  induction bytes with
  | nil => simp [decode]
  | cons b bytes ih =>
      have hb := b.toNat_lt
      rw [decode_cons, List.length_cons, Nat.pow_succ]
      calc b.toNat * 256 ^ bytes.length + decode bytes
          < (b.toNat + 1) * 256 ^ bytes.length := by rw [Nat.succ_mul]; omega
        _ ≤ 256 * 256 ^ bytes.length := Nat.mul_le_mul_right _ hb
        _ = 256 ^ bytes.length * 256 := Nat.mul_comm _ _

theorem fixed_decode (bytes : List UInt8) : fixed bytes.length (decode bytes) = bytes := by
  induction bytes using List.reverseRecOn with
  | nil => rfl
  | append_singleton bytes last ih =>
      have hlast := last.toNat_lt
      have hhigh : (256 * decode bytes + last.toNat) / 256 = decode bytes := by omega
      have hlow : (256 * decode bytes + last.toNat) % 256 = last.toNat := by omega
      rw [List.length_append, List.length_singleton, fixed, decode_concat, hhigh, hlow, ih,
        UInt8.ofNat_toNat]

theorem width_eq {n k : Nat} (hle : 256 ^ k ≤ n) (hlt : n < 256 ^ (k + 1)) :
    width n = k + 1 := by
  have hne : n ≠ 0 := by
    have := Nat.pow_pos (n := k) (show 0 < 256 by decide)
    omega
  rw [show 256 = 2 ^ 8 from rfl, ← Nat.pow_mul] at hle hlt
  have hlow := (Nat.le_log2 hne).mpr hle
  have hhigh := (Nat.log2_lt hne).mpr hlt
  rw [width, if_neg hne]
  omega

/-- A number has no zero bytes in front. -/
theorem encode_decode (bytes : List UInt8) : encode (decode bytes) = bytes.dropWhile (· = 0) := by
  induction bytes with
  | nil => rfl
  | cons b bytes ih =>
      by_cases hb : b = 0
      · rw [List.dropWhile_cons_of_pos (by simpa using hb), ← ih, decode_cons, hb]
        simp
      · have hpos : 1 ≤ b.toNat := by
          rw [Nat.one_le_iff_ne_zero]
          exact fun h => hb (UInt8.toNat_inj.mp h)
        have hle : 256 ^ bytes.length ≤ decode (b :: bytes) := by
          rw [decode_cons]
          exact Nat.le_add_right_of_le (Nat.le_mul_of_pos_left _ hpos)
        rw [List.dropWhile_cons_of_neg (by simpa using hb), encode,
          width_eq hle (decode_lt (b :: bytes))]
        exact fixed_decode (b :: bytes)

end BigEndian

namespace Positional

theorem digits_eq {base : Nat} (h : 1 < base) (n : Nat) (rest : List Nat) :
    digits base n rest = (Nat.digits base n).reverse ++ rest := by
  induction n using Nat.strongRecOn generalizing rest with
  | ind n ih =>
      rw [digits]
      by_cases hn : 0 < n
      · rw [dif_pos ⟨h, hn⟩, ih (n / base) (Nat.div_lt_self hn h), Nat.digits_def' h hn]
        simp
      · have hzero : n = 0 := by omega
        simp [hzero]

theorem number_eq (base : Nat) (ds : List Nat) : number base ds = Nat.ofDigits base ds.reverse := by
  induction ds using List.reverseRecOn with
  | nil => rfl
  | append_singleton ds d ih =>
      rw [List.reverse_append, List.reverse_singleton, List.singleton_append, Nat.ofDigits_cons,
        ← ih, number, List.foldl_append]
      exact Nat.add_comm _ _

/-- The digits of bytes: a zero for each zero in front, and then the digits of the number. -/
def digitsOf (base : Nat) (bytes : List UInt8) : List Nat :=
  List.replicate (bytes.takeWhile (· = 0)).length 0 ++ digits base (BigEndian.decode bytes) []

theorem lt_of_mem_digitsOf {base : Nat} (h : 1 < base) {bytes : List UInt8} {d : Nat}
    (hd : d ∈ digitsOf base bytes) : d < base := by
  rw [digitsOf, digits_eq h, List.append_nil] at hd
  rcases List.mem_append.mp hd with hd | hd
  · rw [(List.mem_replicate.mp hd).2]
    omega
  · exact Nat.digits_lt_base h (List.mem_reverse.mp hd)

theorem number_digitsOf {base : Nat} (h : 1 < base) (bytes : List UInt8) :
    number base (digitsOf base bytes) = BigEndian.decode bytes := by
  rw [number_eq, digitsOf, digits_eq h, List.append_nil, List.reverse_append, List.reverse_reverse,
    List.reverse_replicate, Nat.ofDigits_append_replicate_zero, Nat.ofDigits_digits]

/-- The first digit of a number is not zero, so the zeros in front are those of the bytes. -/
theorem takeWhile_digitsOf {base : Nat} (h : 1 < base) (bytes : List UInt8) :
    (digitsOf base bytes).takeWhile (· = 0) =
      List.replicate (bytes.takeWhile (· = 0)).length 0 := by
  have hnumber : (digits base (BigEndian.decode bytes) []).takeWhile (· = 0) = [] := by
    rw [digits_eq h, List.append_nil]
    by_cases hzero : BigEndian.decode bytes = 0
    · simp [hzero]
    · have hne : Nat.digits base (BigEndian.decode bytes) ≠ [] :=
        Nat.digits_ne_nil_iff_ne_zero.mpr hzero
      have hlast := Nat.getLast_digit_ne_zero base hzero
      rw [← List.dropLast_append_getLast hne, List.reverse_append, List.reverse_singleton,
        List.singleton_append, List.takeWhile_cons_of_neg (by simpa using hlast)]
  rw [digitsOf, List.takeWhile_append_of_pos (by simp), hnumber, List.append_nil]

theorem mapM_idxOf?_filterMap {alphabet : Alphabet} (hnodup : alphabet.Nodup) {ds : List Nat}
    (h : ∀ d ∈ ds, d < alphabet.length) :
    (ds.filterMap (alphabet[·]?)).mapM (alphabet.idxOf? ·) = some ds := by
  induction ds with
  | nil => rfl
  | cons d ds ih =>
      have hd := h d List.mem_cons_self
      have hindex : alphabet.idxOf? alphabet[d] = some d := by
        rw [List.idxOf?_eq_some_iff]
        refine ⟨hd, rfl, fun j hj heq => ?_⟩
        exact Nat.ne_of_lt hj (hnodup.getElem_inj_iff.mp heq)
      rw [List.filterMap_cons_some (List.getElem?_eq_getElem hd), List.mapM_cons, hindex,
        ih fun d hd => h d (List.mem_cons_of_mem _ hd)]
      rfl

theorem decode?_encode {alphabet : Alphabet} (hnodup : alphabet.Nodup)
    (hbase : 1 < alphabet.length) (bytes : List UInt8) :
    decode? alphabet (encode alphabet bytes) = some bytes := by
  have hread : (encode alphabet bytes).mapM (alphabet.idxOf? ·) =
      some (digitsOf alphabet.length bytes) :=
    mapM_idxOf?_filterMap hnodup fun d hd => lt_of_mem_digitsOf hbase hd
  have hzeros : List.replicate (bytes.takeWhile (· = 0)).length 0 = bytes.takeWhile (· = 0) := by
    refine (List.eq_replicate_of_mem fun b hb => ?_).symm
    simpa using List.mem_takeWhile_imp hb
  rw [decode?, hread]
  simp only [Option.bind_eq_bind, Option.bind_some, takeWhile_digitsOf hbase,
    number_digitsOf hbase, BigEndian.encode_decode, List.length_replicate, hzeros,
    List.takeWhile_append_dropWhile]
  rfl

/-- How many symbols bytes take, by the number of symbols that the largest number takes. -/
theorem length_encode_le {alphabet : Alphabet} (hbase : 1 < alphabet.length) {bytes : List UInt8}
    {k : Nat} (h : 256 ^ bytes.length ≤ alphabet.length ^ k) :
    (encode alphabet bytes).length ≤ bytes.length + k := by
  have hdigits : (Nat.digits alphabet.length (BigEndian.decode bytes)).length ≤ k :=
    (Nat.digits_length_le_iff hbase _).mpr (Nat.lt_of_lt_of_le (BigEndian.decode_lt bytes) h)
  have hzeros := (List.takeWhile_prefix (l := bytes) fun b => b = 0).length_le
  refine Nat.le_trans (List.length_filterMap_le _ _) ?_
  simp only [digits_eq hbase, List.append_nil, List.length_append, List.length_replicate,
    List.length_reverse]
  omega

/-- A number whose size is known up to its top digit has this digit above the others. -/
theorem drop_digits_eq {base n d k : Nat} (hbase : 1 < base) (hpos : 0 < d) (hd : d < base)
    (hle : d * base ^ k ≤ n) (hlt : n < (d + 1) * base ^ k) :
    (Nat.digits base n).drop k = [d] := by
  have hquotient : n / base ^ k = d := Nat.div_eq_of_lt_le hle hlt
  have hlong : k < (Nat.digits base n).length :=
    (Nat.lt_digits_length_iff hbase n).mpr (Nat.le_trans (Nat.le_mul_of_pos_left _ hpos) hle)
  have hshort : (Nat.digits base n).length ≤ k + 1 := by
    rw [Nat.digits_length_le_iff hbase, Nat.pow_succ']
    exact Nat.lt_of_lt_of_le hlt (Nat.mul_le_mul_right _ hd)
  have hlength : ((Nat.digits base n).drop k).length = 1 := by
    rw [List.length_drop]
    omega
  obtain ⟨top, htop⟩ := List.length_eq_one_iff.mp hlength
  have hvalue := Nat.self_div_pow_eq_ofDigits_drop k n hbase
  rw [hquotient, htop, Nat.ofDigits_singleton] at hvalue
  rw [htop, hvalue]

/-- The first symbol of bytes that do not start with zero shows how large their number is. -/
theorem head?_encode {alphabet : Alphabet} (hbase : 1 < alphabet.length) {b : UInt8}
    {bytes : List UInt8} (hb : b ≠ 0) {d k : Nat} (hpos : 0 < d) (hd : d < alphabet.length)
    (hle : d * alphabet.length ^ k ≤ BigEndian.decode (b :: bytes))
    (hlt : BigEndian.decode (b :: bytes) < (d + 1) * alphabet.length ^ k) :
    (encode alphabet (b :: bytes)).head? = some alphabet[d] := by
  let n := BigEndian.decode (b :: bytes)
  have hdigits : digits alphabet.length n [] =
      d :: ((Nat.digits alphabet.length n).take k).reverse := by
    rw [digits_eq hbase, List.append_nil]
    conv_lhs => rw [← List.take_append_drop k (Nat.digits alphabet.length n),
      drop_digits_eq hbase hpos hd hle hlt]
    simp
  simp only [encode]
  rw [List.takeWhile_cons_of_neg (by simpa using hb)]
  simp only [List.length_nil, List.replicate_zero, List.nil_append]
  rw [show BigEndian.decode (b :: bytes) = n from rfl, hdigits,
    List.filterMap_cons_some (List.getElem?_eq_getElem hd), List.head?_cons]

end Positional
end TraceLedger
