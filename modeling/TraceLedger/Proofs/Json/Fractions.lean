import TraceLedger.Proofs.Decimal.Rounding
import TraceLedger.Proofs.Decimal.Shortest
import TraceLedger.Proofs.Json.Numerals

/-! # Fractions are read back

A finite number is written as its shortest decimal. Reading rounds twice, and so the number that is
read need not be the one that was written; but it is finite again, and no written fraction is
refused. -/

namespace TraceLedger.Json.Numeral

open Shortest (bound)

/-! ## Powers of ten -/

/-- No word is too large for the first powers of ten. -/
theorem isInfinite_mul_maxWord :
    (Binary64.mul false (.round false maxWord 1) (pow10 288)).isInfinite = false := by
  decide +kernel

/-- The largest significand that a later power of ten leaves within the bound still gives a finite
product. -/
theorem isInfinite_mul_quotient : ∀ k : Fin 20,
    (Binary64.mul false (.round false (bound / 10 ^ (289 + k.val)) 1)
      (pow10 (289 + k.val))).isInfinite = false := by
  decide +kernel

theorem scaled_pow10_mono {j k : Nat} (h : j ≤ k) : (pow10 j).scaled ≤ (pow10 k).scaled :=
  Binary64.scaled_round_mono false (Nat.pow_le_pow_right (by decide) h) Nat.one_ne_zero

theorem isInfinite_mul_pow10 (negative : Bool) {s k : Nat} (hword : s ≤ maxWord) (hk : k ≤ maxPow10)
    (h : s * 10 ^ k ≤ bound) :
    (Binary64.mul negative (.round false s 1) (pow10 k)).isInfinite = false := by
  have hmax : maxPow10 = 308 := rfl
  by_cases hsmall : k ≤ 288
  · exact Binary64.isInfinite_mul_eq_false negative
      (Binary64.scaled_round_mono false hword Nat.one_ne_zero) (scaled_pow10_mono hsmall)
      isInfinite_mul_maxWord
  · obtain ⟨i, rfl⟩ := Nat.exists_eq_add_of_le (show 289 ≤ k by omega)
    have hquotient : s ≤ bound / 10 ^ (289 + i) :=
      (Nat.le_div_iff_mul_le (Nat.pow_pos (by decide))).mpr h
    exact Binary64.isInfinite_mul_eq_false negative
      (Binary64.scaled_round_mono false hquotient Nat.one_ne_zero) (Nat.le_refl _)
      (isInfinite_mul_quotient ⟨i, by omega⟩)

theorem bound_lt : bound < 10 ^ 309 := by
  decide +kernel

/-- A power of ten that keeps a word within the bound can be applied to it. -/
theorem isSome_applyExponent (negative : Bool) {s : Nat} (hword : s ≤ maxWord) {e : Int}
    (h : 0 ≤ e → s * 10 ^ e.toNat ≤ bound) :
    (applyExponent negative (.round false s 1) e).isSome := by
  unfold applyExponent
  split
  next hpos =>
    split
    next hle =>
      have hfinite := isInfinite_mul_pow10 negative hword (k := e.toNat) (by omega) (h hpos)
      simp only [hfinite]
      rfl
    next hgt =>
      -- So large a power leaves nothing but zero within the bound.
      have hzero : s = 0 := by
        by_contra hne
        have hmax : maxPow10 = 308 := rfl
        have hone : 10 ^ e.toNat ≤ s * 10 ^ e.toNat :=
          Nat.le_mul_of_pos_left _ (Nat.pos_of_ne_zero hne)
        have hlimit := Nat.lt_of_le_of_lt (Nat.le_trans hone (h hpos)) bound_lt
        have hlt := (Nat.pow_lt_pow_iff_right (by decide : 1 < 10)).mp hlimit
        omega
      rw [hzero]
      rfl
  next =>
    split
    · rfl
    · simp only
      split <;> rfl

/-! ## Numerals within the bound -/

/-- The exponent that a numeral is written with. -/
def writtenExponent : Option (Bool × List Nat) → Int
  | none => 0
  | some (true, ds) => -(extend 0 ds : Int)
  | some (false, ds) => extend 0 ds

/-- The decimal that a numeral stands for, without its sign. -/
def toDecimal (n : Numeral) : Shortest.Decimal :=
  ⟨extend 0 (n.whole ++ n.fraction), writtenExponent n.exponent - n.fraction.length⟩

/-- The digits in front of others make no larger a decimal. -/
theorem mul_pow_le {digits s k limit : Nat} {e : Int} (hdigits : s * 10 ^ k ≤ digits)
    (h : Shortest.Decimal.AtMost ⟨digits, e - k⟩ limit 1) (he : 0 ≤ e) :
    s * 10 ^ e.toNat ≤ limit := by
  unfold Shortest.Decimal.AtMost at h
  simp only [Nat.mul_one] at h
  rcases Int.lt_or_le (e - k) 0 with hneg | hpos
  · have hup : (e - k).toNat = 0 := by omega
    have hdown : e.toNat + (-(e - k)).toNat = k := by omega
    rw [hup, Nat.pow_zero, Nat.mul_one] at h
    refine Nat.le_of_mul_le_mul_right ?_ (Nat.pow_pos (by decide) : 0 < 10 ^ (-(e - k)).toNat)
    calc
      s * 10 ^ e.toNat * 10 ^ (-(e - k)).toNat = s * 10 ^ k := by
        rw [Nat.mul_assoc, ← Nat.pow_add, hdown]
      _ ≤ digits := hdigits
      _ ≤ limit * 10 ^ (-(e - k)).toNat := h
  · have hup : e.toNat = k + (e - k).toNat := by omega
    have hdown : (-(e - k)).toNat = 0 := by omega
    rw [hdown, Nat.pow_zero, Nat.mul_one] at h
    calc
      s * 10 ^ e.toNat = s * 10 ^ k * 10 ^ (e - k).toNat := by
        rw [Nat.mul_assoc, ← Nat.pow_add, hup]
      _ ≤ digits * 10 ^ (e - k).toNat := Nat.mul_le_mul_right _ hdigits
      _ ≤ limit := h

/-- A numeral has a value if the power of ten can be applied to the digits that were taken. -/
theorem isSome_toBinary64?_of_applyExponent {n : Numeral} (hwhole : extend 0 n.whole ≤ maxWord)
    (hup : ∀ ds, n.exponent = some (false, ds) → extend 0 ds ≤ maxExponent) {s : Nat}
    {unused : List Nat} (htaken : accumulate maxWord (extend 0 n.whole) n.fraction = (s, unused))
    (hle : unused.length ≤ n.fraction.length)
    (happly : ∀ e, e = writtenExponent n.exponent - (n.fraction.length - unused.length : Int) →
      (applyExponent n.negative (.round false s 1) e).isSome) : n.toBinary64?.isSome := by
  have hall : accumulate maxWord 0 n.whole = (extend 0 n.whole, []) := accumulate_of_le hwhole
  unfold toBinary64?
  simp only [hall, htaken]
  cases hexponent : n.exponent with
  | none =>
      rw [hexponent] at happly
      refine happly _ ?_
      simp only [writtenExponent, List.length_nil]
      omega
  | some e =>
      obtain ⟨down, ds⟩ := e
      rw [hexponent] at happly
      simp only
      cases down with
      | true =>
          obtain ⟨taken, htaken, hk⟩ := accumulate_spec maxExponent 0 ds
          split
          next k htakes =>
            rw [htakes] at htaken hk
            rw [List.append_nil] at htaken
            refine happly _ ?_
            simp only [writtenExponent, List.length_nil, if_true]
            rw [htaken, ← hk]
            omega
          next => simp
      | false =>
          rw [accumulate_of_le (hup ds hexponent)]
          refine happly _ ?_
          simp only [writtenExponent, List.length_nil, Bool.false_eq_true, if_false]
          omega

/-- A numeral within the bound has a value. -/
theorem isSome_toBinary64? {n : Numeral} (hwhole : extend 0 n.whole ≤ maxWord)
    (hup : ∀ ds, n.exponent = some (false, ds) → extend 0 ds ≤ maxExponent)
    (h : n.toDecimal.AtMost bound 1) : n.toBinary64?.isSome := by
  obtain ⟨used, hused, hvalue⟩ := accumulate_spec maxWord (extend 0 n.whole) n.fraction
  have hword := accumulate_le hwhole n.fraction
  cases htaken : accumulate maxWord (extend 0 n.whole) n.fraction with
  | mk s unused =>
      rw [htaken] at hused hvalue hword
      simp only at hused hvalue hword
      have hlength : n.fraction.length = used.length + unused.length := by
        rw [hused, List.length_append]
      -- The digits that were not taken stand behind the others.
      have hdigits : s * 10 ^ unused.length ≤ extend 0 (n.whole ++ n.fraction) := by
        rw [hused, extend_append, extend_append, ← hvalue]
        exact mul_pow_le_extend s unused
      refine isSome_toBinary64?_of_applyExponent hwhole hup htaken (by omega) fun e he => ?_
      refine isSome_applyExponent n.negative hword (mul_pow_le hdigits ?_)
      have hexponent : writtenExponent n.exponent - n.fraction.length = e - unused.length := by
        omega
      rw [toDecimal, hexponent] at h
      exact h

/-! ## Written decimals -/

/-- The numeral that a decimal is written as. -/
def ofDecimal (negative : Bool) (d : Shortest.Decimal) : Numeral :=
  let ds := digitsOf d.digits
  let point := (ds.length : Int) + d.exponent
  if 0 ≤ d.exponent ∧ point ≤ 16 then
    ⟨negative, ds ++ List.replicate d.exponent.toNat 0, [0], none⟩
  else if 0 < point ∧ point ≤ 16 then ⟨negative, ds.take point.toNat, ds.drop point.toNat, none⟩
  else if -5 < point ∧ point ≤ 0 then
    ⟨negative, [0], List.replicate (-point).toNat 0 ++ ds, none⟩
  else ⟨negative, ds.take 1, ds.drop 1, some (point - 1 < 0, digitsOf (point - 1).natAbs)⟩

theorem toList_toString (n : Nat) : (toString n).toList = (digitsOf n).map Nat.digitChar := by
  rw [Nat.toString_eq_ofList_toDigits, String.toList_ofList, toDigits_eq]

theorem length_toString (n : Nat) : (toString n).length = (digitsOf n).length := by
  rw [← String.length_toList, toList_toString, List.length_map]

theorem encode_digits {ds : List Nat} (h : ∀ d ∈ ds, d < 10) :
    Utf8.encode (String.ofList (ds.map Nat.digitChar)) = ds.map digitByte := by
  rw [Utf8.encode_ofList, flatMap_digitChar h]

theorem encode_take (n k : Nat) :
    Utf8.encode (String.ofList ((toString n).toList.take k)) =
      ((digitsOf n).take k).map digitByte := by
  rw [toList_toString, ← List.map_take,
    encode_digits fun _ hx => lt_ten_of_mem_digitsOf (List.mem_of_mem_take hx)]

theorem encode_drop (n k : Nat) :
    Utf8.encode (String.ofList ((toString n).toList.drop k)) =
      ((digitsOf n).drop k).map digitByte := by
  rw [toList_toString, ← List.map_drop,
    encode_digits fun _ hx => lt_ten_of_mem_digitsOf (List.mem_of_mem_drop hx)]

theorem lt_ten_of_mem_zeros {k d : Nat} (h : d ∈ List.replicate k 0) : d < 10 := by
  rw [List.eq_of_mem_replicate h]
  decide

theorem encode_zeros (n : Nat) :
    Utf8.encode (String.ofList (List.replicate n '0')) = (List.replicate n 0).map digitByte := by
  rw [← encode_digits fun _ => lt_ten_of_mem_zeros, List.map_replicate]
  rfl

theorem fractionBytes_of_ne_nil {ds : List Nat} (h : ds ≠ []) :
    fractionBytes ds = 0x2e :: ds.map digitByte := by
  obtain ⟨d, ds, rfl⟩ := List.exists_cons_of_ne_nil h
  rfl

/-- A point is written only if there are digits behind it. -/
theorem encode_fraction (n k : Nat) :
    Utf8.encode (if ((toString n).toList.drop k).isEmpty then "" else
      "." ++ String.ofList ((toString n).toList.drop k)) = fractionBytes ((digitsOf n).drop k) := by
  have hpoint : Utf8.encode "." = [0x2e] := rfl
  by_cases hnil : (digitsOf n).drop k = []
  · rw [toList_toString, ← List.map_drop, hnil]
    rfl
  · have hnonempty : ¬ ((toString n).toList.drop k).isEmpty = true := by
      rw [toList_toString, ← List.map_drop, List.isEmpty_iff, List.map_eq_nil_iff]
      exact hnil
    rw [if_neg hnonempty, Utf8.encode_append, hpoint, encode_drop, fractionBytes_of_ne_nil hnil]
    rfl

theorem magnitudeBytes_ofDecimal (negative : Bool) (d : Shortest.Decimal) :
    (ofDecimal negative d).magnitudeBytes = Utf8.encode d.toText := by
  have hwhole : Utf8.encode (toString d.digits) = (digitsOf d.digits).map digitByte := encode_repr _
  have hpoint : Utf8.encode "." = [0x2e] := rfl
  unfold ofDecimal Shortest.Decimal.toText
  simp only [length_toString]
  split
  next =>
    have hend : Utf8.encode ".0" = fractionBytes [0] := rfl
    simp only [magnitudeBytes, Utf8.encode_append, hwhole, encode_zeros, hend, exponentBytes,
      List.map_append, List.append_nil]
  next hlong =>
    split
    next hinside =>
      have hne : (digitsOf d.digits).drop
          ((digitsOf d.digits).length + d.exponent : Int).toNat ≠ [] := by
        rw [Ne, List.drop_eq_nil_iff]
        omega
      simp only [magnitudeBytes, Utf8.encode_append, encode_take, encode_drop, hpoint,
        exponentBytes, fractionBytes_of_ne_nil hne, List.append_nil, List.append_assoc,
        List.singleton_append]
    next =>
      split
      next =>
        have hzero : Utf8.encode "0." = [digitByte 0, 0x2e] := rfl
        have hne : List.replicate (-((digitsOf d.digits).length + d.exponent : Int)).toNat 0 ++
            digitsOf d.digits ≠ [] := List.append_ne_nil_of_right_ne_nil _ (digitsOf_ne_nil _)
        simp only [magnitudeBytes, Utf8.encode_append, hzero, encode_zeros, hwhole, exponentBytes,
          fractionBytes_of_ne_nil hne, List.append_nil, List.map_append]
        rfl
      next =>
        have hexponent : Utf8.encode "e" = [0x65] := rfl
        simp only [magnitudeBytes, Utf8.encode_append, encode_take, encode_fraction, hexponent,
          encode_toString, exponentBytes, List.append_assoc, decide_eq_true_eq]
        rfl

/-- Zero is written without an exponent. -/
theorem digits_ne_zero {d : Shortest.Decimal} (h : d.IsProper)
    (hlong : ¬ (0 ≤ d.exponent ∧ ((digitsOf d.digits).length : Int) + d.exponent ≤ 16)) :
    d.digits ≠ 0 := by
  intro hzero
  refine hlong ⟨?_, ?_⟩
  · rw [h hzero]
  · rw [h hzero, hzero]
    decide

theorem head?_take_digitsOf {n k : Nat} (hn : n ≠ 0) (hk : k ≠ 0) :
    ((digitsOf n).take k).head? ≠ some 0 := by
  rw [List.head?_take, if_neg hk]
  exact head?_digitsOf hn

theorem take_digitsOf_ne_nil (n : Nat) {k : Nat} (hk : k ≠ 0) : (digitsOf n).take k ≠ [] := by
  rw [Ne, List.take_eq_nil_iff]
  exact fun h => h.elim hk (digitsOf_ne_nil n)

theorem wellFormed_ofDecimal (negative : Bool) {d : Shortest.Decimal} (h : d.IsProper) :
    (ofDecimal negative d).WellFormed := by
  have hlt : ∀ x ∈ digitsOf d.digits, x < 10 := fun _ => lt_ten_of_mem_digitsOf
  have hne := digitsOf_ne_nil d.digits
  unfold ofDecimal
  simp only
  split
  next =>
    refine ⟨List.append_ne_nil_of_left_ne_nil hne _, fun x hx => ?_, ?_, by simp, by simp, by simp⟩
    · rcases List.mem_append.mp hx with hx | hx
      · exact hlt x hx
      · exact lt_ten_of_mem_zeros hx
    · by_cases hzero : d.digits = 0
      · left
        rw [hzero, h hzero]
        rfl
      · right
        rw [List.head?_append_of_ne_nil _ hne]
        exact head?_digitsOf hzero
  next hlong =>
    have hdigits := digits_ne_zero h hlong
    split
    next hinside =>
      have hpoint : ((digitsOf d.digits).length + d.exponent : Int).toNat ≠ 0 := by omega
      exact ⟨take_digitsOf_ne_nil _ hpoint, fun x hx => hlt x (List.mem_of_mem_take hx),
        .inr (head?_take_digitsOf hdigits hpoint), fun x hx => hlt x (List.mem_of_mem_drop hx),
        by simp, by simp⟩
    next =>
      split
      next =>
        refine ⟨by simp, by simp, .inl rfl, fun x hx => ?_, by simp, by simp⟩
        rcases List.mem_append.mp hx with hx | hx
        · exact lt_ten_of_mem_zeros hx
        · exact hlt x hx
      next =>
        refine ⟨take_digitsOf_ne_nil _ Nat.one_ne_zero, fun x hx => hlt x (List.mem_of_mem_take hx),
          .inr (head?_take_digitsOf hdigits Nat.one_ne_zero),
          fun x hx => hlt x (List.mem_of_mem_drop hx), ?_, ?_⟩
        · rintro _ _ ⟨⟩
          exact digitsOf_ne_nil _
        · rintro _ _ ⟨⟩ x hx
          exact lt_ten_of_mem_digitsOf hx

/-! ## The value of a written decimal -/

theorem extend_replicate_zero (n k : Nat) : extend n (List.replicate k 0) = n * 10 ^ k := by
  induction k generalizing n with
  | zero => simp
  | succ k ih =>
      rw [List.replicate_succ, extend_cons, ih, Nat.pow_succ]
      ring

theorem extend_lt {ds : List Nat} (h : ∀ d ∈ ds, d < 10) : extend 0 ds < 10 ^ ds.length := by
  have hreverse : ∀ d ∈ ds.reverse, d < 10 := fun d hd => h d (List.mem_reverse.mp hd)
  have hlt := Nat.ofDigits_lt_base_pow_length (by decide) hreverse
  rwa [← extend_reverse, List.reverse_reverse, List.length_reverse] at hlt

/-- What stands before the point fits in a word. -/
theorem extend_whole_ofDecimal_le (negative : Bool) {d : Shortest.Decimal} (h : d.IsProper) :
    extend 0 (ofDecimal negative d).whole ≤ maxWord := by
  have hlength : (ofDecimal negative d).whole.length ≤ 16 := by
    unfold ofDecimal
    simp only
    split
    · simp only [List.length_append, List.length_replicate]
      omega
    · split
      · simp only [List.length_take]
        omega
      · split
        · exact (by decide : 1 ≤ 16)
        · simp only [List.length_take]
          omega
  have hlt := extend_lt (wellFormed_ofDecimal negative h).lt_ten_of_mem_whole
  have hpow : 10 ^ (ofDecimal negative d).whole.length ≤ 10 ^ 16 :=
    Nat.pow_le_pow_right (by decide) hlength
  have hmax : 10 ^ 16 ≤ maxWord := by decide
  omega

theorem writtenExponent_digitsOf (e : Int) :
    writtenExponent (some (decide (e < 0), digitsOf e.natAbs)) = e := by
  by_cases hneg : e < 0
  · rw [decide_eq_true hneg, writtenExponent, extend_digitsOf]
    omega
  · rw [decide_eq_false hneg, writtenExponent, extend_digitsOf]
    omega

/-- A written decimal is as large as it was. -/
theorem atMost_toDecimal_ofDecimal (negative : Bool) {d : Shortest.Decimal} {limit : Nat}
    (h : d.AtMost limit 1) : (ofDecimal negative d).toDecimal.AtMost limit 1 := by
  have hpos : 0 < (digitsOf d.digits).length := List.length_pos_iff.mpr (digitsOf_ne_nil _)
  -- But for the zero behind the point the written digits and exponent are those of the decimal.
  have hsame {n : Numeral} (hdigits : extend 0 (n.whole ++ n.fraction) = d.digits)
      (hexponent : writtenExponent n.exponent - n.fraction.length = d.exponent) :
      n.toDecimal.AtMost limit 1 := by
    rw [toDecimal, hdigits, hexponent]
    exact h
  unfold ofDecimal
  simp only
  split
  next hshort =>
    have hdown : (-d.exponent).toNat = 0 := by omega
    have hle : d.digits * 10 ^ d.exponent.toNat ≤ limit := by
      rw [Shortest.Decimal.AtMost, hdown, Nat.mul_one, Nat.pow_zero, Nat.mul_one] at h
      exact h
    have hvalue : extend 0 (digitsOf d.digits ++ List.replicate d.exponent.toNat 0 ++ [0]) =
        d.digits * 10 ^ d.exponent.toNat * 10 := by
      rw [extend_append, extend_append, extend_digitsOf, extend_replicate_zero, extend_cons,
        extend_nil, Nat.add_zero, Nat.mul_comm]
    rw [toDecimal, hvalue]
    exact Nat.le_trans (by simp [writtenExponent]) (Nat.mul_le_mul_right 10 hle)
  next =>
    split
    next =>
      refine hsame ?_ ?_
      · rw [List.take_append_drop, extend_digitsOf]
      · simp only [writtenExponent, List.length_drop]
        omega
    next =>
      split
      next =>
        refine hsame ?_ ?_
        · rw [← List.append_assoc, List.singleton_append, ← List.replicate_succ, extend_append,
            extend_replicate_zero, Nat.zero_mul, extend_digitsOf]
        · simp only [writtenExponent, List.length_append, List.length_replicate]
          omega
      next =>
        refine hsame ?_ ?_
        · rw [List.take_append_drop, extend_digitsOf]
        · rw [writtenExponent_digitsOf, List.length_drop]
          omega

/-- The places before the point make a number of their own, which is within the bound. -/
theorem point_le_of_atMost {d : Shortest.Decimal} (h : d.AtMost bound 1) (hdigits : d.digits ≠ 0) :
    ((digitsOf d.digits).length : Int) + d.exponent ≤ 309 := by
  have hpos : 0 < (digitsOf d.digits).length := List.length_pos_iff.mpr (digitsOf_ne_nil _)
  have hone : 1 * 10 ^ ((digitsOf d.digits).length - 1) ≤ d.digits := by
    rw [Nat.one_mul]
    exact pow_length_digitsOf_le hdigits
  generalize hlast : (digitsOf d.digits).length - 1 = last at hone
  by_contra hlong
  have hmost : Shortest.Decimal.AtMost ⟨d.digits, (last + d.exponent) - last⟩ bound 1 := by
    rw [add_sub_cancel_left]
    exact h
  have hlimit := Nat.lt_of_le_of_lt (mul_pow_le hone hmost (by omega)) bound_lt
  rw [Nat.one_mul] at hlimit
  have hlt := (Nat.pow_lt_pow_iff_right (by decide : 1 < 10)).mp hlimit
  omega

/-- No exponent is too large to be read. -/
theorem extend_exponent_ofDecimal_le (negative : Bool) {d : Shortest.Decimal} (hproper : d.IsProper)
    (h : d.AtMost bound 1) {ds : List Nat}
    (hds : (ofDecimal negative d).exponent = some (false, ds)) : extend 0 ds ≤ maxExponent := by
  unfold ofDecimal at hds
  simp only at hds
  split at hds
  next => cases hds
  next hlong =>
    split at hds
    next => cases hds
    next =>
      split at hds
      next => cases hds
      next =>
        simp only [Option.some.injEq, Prod.mk.injEq, decide_eq_false_iff_not] at hds
        obtain ⟨hup, rfl⟩ := hds
        have hpoint := point_le_of_atMost h (digits_ne_zero hproper hlong)
        have hmax : 309 ≤ maxExponent := by decide
        rw [extend_digitsOf]
        omega

/-! ## Written numbers -/

/-- The numeral that a finite number is written as. -/
def ofBinary64 (x : Binary64) : Numeral :=
  if x.significand = 0 then ⟨x.negative, [0], [0], none⟩
  else ofDecimal x.negative (Shortest.ofBinary64 x)

theorem negative_ofDecimal (negative : Bool) (d : Shortest.Decimal) :
    (ofDecimal negative d).negative = negative := by
  unfold ofDecimal
  simp only
  split_ifs <;> rfl

theorem toBytes_ofBinary64 (x : Binary64) :
    (ofBinary64 x).toBytes = Utf8.encode (Shortest.toText x) := by
  have hminus : Utf8.encode (if x.negative then "-" else "") =
      if x.negative then [0x2d] else [] := by
    split <;> rfl
  rw [Shortest.toText, Utf8.encode_append, hminus, toBytes]
  unfold ofBinary64
  by_cases hzero : x.significand = 0
  · rw [if_pos hzero, if_pos hzero]
    rfl
  · rw [if_neg hzero, if_neg hzero, negative_ofDecimal, magnitudeBytes_ofDecimal]

/-- The shortest decimal of the largest number as it is read. -/
theorem isSome_toBinary64?_largest : ∀ negative : Bool,
    (ofDecimal negative ⟨17976931348623157, 292⟩).toBinary64?.isSome := by
  decide +kernel

section Finite

variable {x : Binary64} (h : x.isFinite = true)
include h

theorem isProper_ofBinary64 (hzero : x.significand ≠ 0) : (Shortest.ofBinary64 x).IsProper := by
  by_cases hlargest : Shortest.IsLargest x
  · rw [Shortest.ofBinary64_of_isLargest hlargest]
    exact fun hdigits => absurd hdigits (by decide)
  · exact (Shortest.ofBinary64_spec h hlargest hzero).2

theorem wellFormed_ofBinary64 : (ofBinary64 x).WellFormed := by
  unfold ofBinary64
  split
  next => exact ⟨by simp, by simp, .inl rfl, by simp, by simp, by simp⟩
  next hzero => exact wellFormed_ofDecimal x.negative (isProper_ofBinary64 h hzero)

/-- A finite number that is written can be read. -/
theorem isSome_toBinary64?_ofBinary64 : (ofBinary64 x).toBinary64?.isSome := by
  unfold ofBinary64
  split
  next => cases x.negative <;> rfl
  next hzero =>
    by_cases hlargest : Shortest.IsLargest x
    · rw [Shortest.ofBinary64_of_isLargest hlargest]
      exact isSome_toBinary64?_largest x.negative
    · obtain ⟨hmost, hproper⟩ := Shortest.ofBinary64_spec h hlargest hzero
      exact isSome_toBinary64? (extend_whole_ofDecimal_le x.negative hproper)
        (fun _ hds => extend_exponent_ofDecimal_le x.negative hproper hmost hds)
        (atMost_toDecimal_ofDecimal x.negative hmost)

end Finite

end TraceLedger.Json.Numeral
