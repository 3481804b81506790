import Mathlib.Data.Nat.Digits.Lemmas
import TraceLedger.Proofs.Json.Texts

/-! # Numerals are read back

A numeral is read back from its parts, as long as what follows it cannot belong to it. Whole numbers
are written as numerals without a point, and have their value back if they fit in a word. -/

namespace TraceLedger.Json

namespace Numeral

/-! ## Decimal digits -/

/-- The digits of a number, the first one in front. Zero has one. -/
def digitsOf (n : Nat) : List Nat := if n = 0 then [0] else (Nat.digits 10 n).reverse

/-- A number with more digits behind it. -/
def extend (n : Nat) (ds : List Nat) : Nat := ds.foldl (fun n d => 10 * n + d) n

@[simp] theorem extend_nil (n : Nat) : extend n [] = n := rfl

@[simp] theorem extend_cons (n d : Nat) (ds : List Nat) :
    extend n (d :: ds) = extend (10 * n + d) ds := rfl

theorem extend_append (n : Nat) (ds es : List Nat) :
    extend n (ds ++ es) = extend (extend n ds) es := List.foldl_append

theorem mul_pow_le_extend (n : Nat) (ds : List Nat) : n * 10 ^ ds.length ≤ extend n ds := by
  induction ds generalizing n with
  | nil => simp
  | cons d ds ih =>
      calc
        n * 10 ^ (d :: ds).length = 10 * n * 10 ^ ds.length := by
          rw [List.length_cons, Nat.pow_succ]
          ring
        _ ≤ (10 * n + d) * 10 ^ ds.length := Nat.mul_le_mul_right _ (Nat.le_add_right _ _)
        _ ≤ extend n (d :: ds) := ih (10 * n + d)

theorem le_extend (n : Nat) (ds : List Nat) : n ≤ extend n ds :=
  Nat.le_trans (Nat.le_mul_of_pos_right n (Nat.pow_pos (by decide))) (mul_pow_le_extend n ds)

theorem extend_reverse (ds : List Nat) : extend 0 ds.reverse = Nat.ofDigits 10 ds := by
  induction ds with
  | nil => rfl
  | cons d ds ih =>
      rw [List.reverse_cons, extend_append, ih, Nat.ofDigits_cons, extend_cons, extend_nil]
      exact Nat.add_comm _ _

@[simp] theorem extend_digitsOf (n : Nat) : extend 0 (digitsOf n) = n := by
  unfold digitsOf
  split
  next hzero => rw [hzero]; rfl
  next => rw [extend_reverse, Nat.ofDigits_digits]

theorem digitsOf_ne_nil (n : Nat) : digitsOf n ≠ [] := by
  unfold digitsOf
  split
  · exact List.cons_ne_nil _ _
  next hne => exact fun h => hne (Nat.digits_eq_nil_iff_eq_zero.mp (List.reverse_eq_nil_iff.mp h))

theorem lt_ten_of_mem_digitsOf {n d : Nat} (h : d ∈ digitsOf n) : d < 10 := by
  unfold digitsOf at h
  split at h
  · rw [List.mem_singleton.mp h]
    decide
  · exact Nat.digits_lt_base (by decide) (List.mem_reverse.mp h)

/-- No number but zero has a zero in front. -/
theorem head?_digitsOf {n : Nat} (h : n ≠ 0) : (digitsOf n).head? ≠ some 0 := by
  have hne := Nat.digits_ne_nil_iff_ne_zero (b := 10).mpr h
  rw [digitsOf, if_neg h, List.head?_reverse, List.getLast?_eq_getLast_of_ne_nil hne]
  intro hzero
  exact Nat.getLast_digit_ne_zero 10 h (Option.some.inj hzero)

theorem pow_length_digitsOf_le {n : Nat} (h : n ≠ 0) : 10 ^ ((digitsOf n).length - 1) ≤ n := by
  have hle := Nat.base_pow_length_digits_le 10 n (by decide) h
  have hpos : 0 < (Nat.digits 10 n).length :=
    List.length_pos_iff.mpr (Nat.digits_ne_nil_iff_ne_zero.mpr h)
  rw [digitsOf, if_neg h, List.length_reverse]
  obtain ⟨k, hk⟩ := Nat.exists_eq_add_of_lt hpos
  rw [Nat.zero_add] at hk
  rw [hk, Nat.pow_succ] at hle
  rw [hk, Nat.add_sub_cancel]
  omega

theorem toDigits_eq (n : Nat) : Nat.toDigits 10 n = (digitsOf n).map Nat.digitChar := by
  induction n using Nat.strongRecOn with
  | ind n ih =>
    rw [Nat.toDigits_eq_if (by decide)]
    split
    next hlt =>
      unfold digitsOf
      split
      next hzero => rw [hzero]; rfl
      next hne => rw [Nat.digits_of_lt 10 n hne hlt]; rfl
    next hle =>
      have hdiv : n / 10 ≠ 0 := by omega
      have hne : n ≠ 0 := by omega
      rw [ih (n / 10) (by omega), digitsOf, if_neg hdiv, digitsOf, if_neg hne,
        Nat.digits_def' (by decide) (Nat.pos_of_ne_zero hne), List.reverse_cons, List.map_append]
      rfl

/-! ## Digits that a word takes -/

/-- The digits that were taken stand in front of those that are left over. -/
theorem accumulate_spec (limit n : Nat) (ds : List Nat) :
    ∃ used, ds = used ++ (accumulate limit n ds).2 ∧
      (accumulate limit n ds).1 = extend n used := by
  induction ds generalizing n with
  | nil => exact ⟨[], rfl, rfl⟩
  | cons d ds ih =>
      rw [accumulate]
      split
      · exact ⟨[], rfl, rfl⟩
      · obtain ⟨used, hds, hvalue⟩ := ih (10 * n + d)
        exact ⟨d :: used, by rw [List.cons_append, ← hds], hvalue⟩

theorem accumulate_le {limit n : Nat} (h : n ≤ limit) (ds : List Nat) :
    (accumulate limit n ds).1 ≤ limit := by
  induction ds generalizing n with
  | nil => exact h
  | cons d ds ih =>
      rw [accumulate]
      split
      · exact h
      next hle => exact ih (Nat.le_of_not_lt hle)

/-- Digits whose number is within the limit are all taken. -/
theorem accumulate_of_le {limit n : Nat} {ds : List Nat} (h : extend n ds ≤ limit) :
    accumulate limit n ds = (extend n ds, []) := by
  induction ds generalizing n with
  | nil => rfl
  | cons d ds ih =>
      have hle : 10 * n + d ≤ limit := Nat.le_trans (le_extend _ ds) h
      rw [accumulate, if_neg (Nat.not_lt.mpr hle)]
      exact ih h

/-! ## The text of a numeral -/

def digitByte (d : Nat) : UInt8 := UInt8.ofNat (0x30 + d)

def fractionBytes : List Nat → List UInt8
  | [] => []
  | ds => 0x2e :: ds.map digitByte

def exponentBytes : Option (Bool × List Nat) → List UInt8
  | none => []
  | some (negative, ds) => 0x65 :: ((if negative then [0x2d] else []) ++ ds.map digitByte)

/-- The bytes of a numeral behind its sign. -/
def magnitudeBytes (n : Numeral) : List UInt8 :=
  n.whole.map digitByte ++ (fractionBytes n.fraction ++ exponentBytes n.exponent)

/-- The bytes of a numeral. A positive exponent has no sign. -/
def toBytes (n : Numeral) : List UInt8 :=
  (if n.negative then [0x2d] else []) ++ n.magnitudeBytes

/-- The parts of a numeral are as its grammar wants them. -/
structure WellFormed (n : Numeral) : Prop where
  whole_ne_nil : n.whole ≠ []
  lt_ten_of_mem_whole : ∀ d ∈ n.whole, d < 10
  no_zero_in_front : n.whole = [0] ∨ n.whole.head? ≠ some 0
  lt_ten_of_mem_fraction : ∀ d ∈ n.fraction, d < 10
  exponent_ne_nil : ∀ negative ds, n.exponent = some (negative, ds) → ds ≠ []
  lt_ten_of_mem_exponent : ∀ negative ds, n.exponent = some (negative, ds) → ∀ d ∈ ds, d < 10

end Numeral

namespace Doc

open Numeral

/-- What follows a value inside a list or an object, or at the end. -/
def IsEnd (rest : Input) : Prop := ∀ b ∈ rest.head?, b = 0x2c ∨ b = 0x5d ∨ b = 0x7d

theorem isDigit_digitByte {d : Nat} (h : d < 10) :
    isDigit (digitByte d) = true ∧ (digitByte d).toNat - 0x30 = d := by
  decide +revert

theorem digits_append {ds : List Nat} (h : ∀ d ∈ ds, d < 10) {rest : Input}
    (hrest : ∀ b ∈ rest.head?, isDigit b = false) :
    digits (ds.map digitByte ++ rest) = (ds, rest) := by
  have hstop : rest.takeWhile isDigit = [] ∧ rest.dropWhile isDigit = rest := by
    cases rest with
    | nil => exact ⟨rfl, rfl⟩
    | cons b rest => simp [hrest b rfl]
  have hdigits : ∀ b ∈ ds.map digitByte, isDigit b = true := by
    intro b hb
    obtain ⟨d, hd, rfl⟩ := List.mem_map.mp hb
    exact (isDigit_digitByte (h d hd)).1
  have hvalues : (ds.map digitByte).map (fun b => b.toNat - 0x30) = ds := by
    rw [List.map_map]
    refine (List.map_congr_left fun d hd => ?_).trans (List.map_id ds)
    exact (isDigit_digitByte (h d hd)).2
  rw [digits, List.takeWhile_append_of_pos hdigits, List.dropWhile_append_of_pos hdigits,
    hstop.1, hstop.2, List.append_nil, hvalues]

theorem someDigits_append {ds : List Nat} (hne : ds ≠ []) (h : ∀ d ∈ ds, d < 10) {rest : Input}
    (hrest : ∀ b ∈ rest.head?, isDigit b = false) :
    someDigits (ds.map digitByte ++ rest) = some (ds, rest) := by
  obtain ⟨d, ds, rfl⟩ := List.exists_cons_of_ne_nil hne
  rw [someDigits, digits_append h hrest]

theorem whole_append {ds : List Nat} (hne : ds ≠ []) (h : ∀ d ∈ ds, d < 10)
    (hfront : ds = [0] ∨ ds.head? ≠ some 0) {rest : Input}
    (hrest : ∀ b ∈ rest.head?, isDigit b = false) :
    whole (ds.map digitByte ++ rest) = some (ds, rest) := by
  rw [whole, someDigits_append hne h hrest]
  split
  next heq =>
    cases heq
    rcases hfront with hfront | hfront
    · cases hfront
    · exact (hfront rfl).elim
  next => rfl

theorem fraction_append {ds : List Nat} (h : ∀ d ∈ ds, d < 10) {rest : Input}
    (hrest : ∀ b ∈ rest.head?, isDigit b = false ∧ b ≠ 0x2e) :
    fraction (fractionBytes ds ++ rest) = some (ds, rest) := by
  cases ds with
  | nil =>
      rw [fractionBytes, List.nil_append]
      unfold fraction
      split
      · exact ((hrest _ rfl).2 rfl).elim
      · rfl
  | cons d ds =>
      exact someDigits_append (List.cons_ne_nil d ds) h fun b hb => (hrest b hb).1

/-- Digits are not mistaken for a sign. -/
theorem exponentSign_append {ds : List Nat} (hne : ds ≠ []) (h : ∀ d ∈ ds, d < 10)
    (rest : Input) :
    exponentSign (ds.map digitByte ++ rest) = (false, ds.map digitByte ++ rest) := by
  obtain ⟨d, ds, rfl⟩ := List.exists_cons_of_ne_nil hne
  have hdigit := (isDigit_digitByte (h d List.mem_cons_self)).1
  rw [List.map_cons, List.cons_append]
  generalize digitByte d = b at hdigit
  unfold exponentSign
  split
  next heq =>
    cases heq
    cases hdigit
  next heq =>
    cases heq
    cases hdigit
  next => rfl

theorem exponent_append {e : Option (Bool × List Nat)}
    (hne : ∀ negative ds, e = some (negative, ds) → ds ≠ [])
    (h : ∀ negative ds, e = some (negative, ds) → ∀ d ∈ ds, d < 10) {rest : Input}
    (hrest : IsEnd rest) : exponent (exponentBytes e ++ rest) = some (e, rest) := by
  have hdigit : ∀ b ∈ rest.head?, isDigit b = false := by
    intro b hb
    rcases hrest b hb with rfl | rfl | rfl <;> rfl
  cases e with
  | none =>
      rw [exponentBytes, List.nil_append]
      cases rest with
      | nil => rfl
      | cons b rest =>
          have hb : ¬ (b = 0x65 ∨ b = 0x45) := by
            rcases hrest b rfl with rfl | rfl | rfl <;> decide
          rw [exponent, if_neg hb]
  | some e =>
      obtain ⟨negative, ds⟩ := e
      have hds := someDigits_append (hne negative ds rfl) (h negative ds rfl) hdigit
      rw [exponentBytes, List.cons_append, exponent, if_pos (.inl rfl)]
      cases negative with
      | true =>
          rw [if_pos rfl, List.append_assoc, List.singleton_append]
          simp only [exponentSign, hds, Option.bind_eq_bind, Option.bind_some, Option.pure_def]
      | false =>
          rw [if_neg Bool.false_ne_true, List.nil_append]
          simp only [exponentSign_append (hne false ds rfl) (h false ds rfl), hds,
            Option.bind_eq_bind, Option.bind_some, Option.pure_def]

/-- A numeral is read back behind its sign. -/
theorem numeral_append {n : Numeral} (h : n.WellFormed) {rest : Input} (hrest : IsEnd rest) :
    numeral n.negative (n.magnitudeBytes ++ rest) = some (n, rest) := by
  have hexponent := exponent_append h.exponent_ne_nil h.lt_ten_of_mem_exponent hrest
  -- What stands behind the digits begins with a point, the letter of an exponent, or an end.
  have hbehind : ∀ b ∈ (exponentBytes n.exponent ++ rest).head?, isDigit b = false ∧ b ≠ 0x2e := by
    intro b hb
    cases he : n.exponent with
    | none =>
        rw [he] at hb
        rcases hrest b hb with rfl | rfl | rfl <;> decide
    | some e =>
        rw [he, exponentBytes, List.cons_append, List.head?_cons, Option.mem_some_iff] at hb
        rw [← hb]
        decide
  have hpoint : ∀ b ∈ (fractionBytes n.fraction ++ (exponentBytes n.exponent ++ rest)).head?,
      isDigit b = false := by
    intro b hb
    cases hf : n.fraction with
    | nil =>
        rw [hf] at hb
        exact (hbehind b hb).1
    | cons d ds =>
        rw [hf] at hb
        cases hb
        rfl
  have hfraction := fraction_append h.lt_ten_of_mem_fraction hbehind
  have hwhole := whole_append h.whole_ne_nil h.lt_ten_of_mem_whole h.no_zero_in_front hpoint
  rw [numeral, magnitudeBytes, List.append_assoc, List.append_assoc]
  simp only [hwhole, hfraction, hexponent, Option.bind_eq_bind, Option.bind_some, Option.pure_def]

/-- No other kind of value begins with a digit. -/
theorem value_digitByte {d : Nat} (h : d < 10) (rest : Input) (fuel : Nat) :
    value (fuel + 1) (digitByte d :: rest) =
      (numeral false (digitByte d :: rest)).map fun (n, rest) => (number n, rest) := by
  have hkind : isSpace (digitByte d) = false ∧ digitByte d ≠ 0x7b ∧ digitByte d ≠ 0x5b ∧
      digitByte d ≠ 0x22 ∧ digitByte d ≠ 0x2d := by
    decide +revert
  have hdigit := (isDigit_digitByte h).1
  rw [value, skipSpace, List.dropWhile_cons_of_neg (by simp [hkind.1])]
  simp only [if_neg hkind.2.1, if_neg hkind.2.2.1, if_neg hkind.2.2.2.1, if_neg hkind.2.2.2.2,
    if_pos hdigit]

/-- A numeral is read back as a value. -/
theorem value_toBytes {n : Numeral} (h : n.WellFormed) {rest : Input} (hrest : IsEnd rest)
    (fuel : Nat) : value (fuel + 1) (n.toBytes ++ rest) = some (number n, rest) := by
  have hnumeral := numeral_append h hrest
  cases hnegative : n.negative with
  | true =>
      rw [hnegative] at hnumeral
      rw [toBytes, hnegative, if_pos rfl, List.append_assoc, List.singleton_append, value]
      simp [skipSpace, isSpace, hnumeral]
  | false =>
      obtain ⟨d, ds, hds⟩ := List.exists_cons_of_ne_nil h.whole_ne_nil
      have hd : d < 10 := h.lt_ten_of_mem_whole d (hds ▸ List.mem_cons_self)
      have hbytes : n.magnitudeBytes ++ rest = digitByte d :: (ds.map digitByte ++
          (fractionBytes n.fraction ++ exponentBytes n.exponent) ++ rest) := by
        rw [magnitudeBytes, hds]
        rfl
      rw [hnegative, hbytes] at hnumeral
      rw [toBytes, hnegative, if_neg Bool.false_ne_true, List.nil_append, hbytes,
        value_digitByte hd, hnumeral, Option.map_some]

end Doc

/-! ## Whole numbers -/

namespace Numeral

theorem utf8EncodeChar_digitChar {d : Nat} (h : d < 10) :
    String.utf8EncodeChar (Nat.digitChar d) = [digitByte d] := by
  decide +revert

theorem flatMap_digitChar {ds : List Nat} (h : ∀ d ∈ ds, d < 10) :
    (ds.map Nat.digitChar).flatMap String.utf8EncodeChar = ds.map digitByte := by
  induction ds with
  | nil => rfl
  | cons d ds ih =>
      rw [List.map_cons, List.flatMap_cons, utf8EncodeChar_digitChar (h d List.mem_cons_self),
        ih fun x hx => h x (List.mem_cons_of_mem _ hx)]
      rfl

theorem encode_repr (n : Nat) : Utf8.encode n.repr = (digitsOf n).map digitByte := by
  rw [Nat.repr_eq_ofList_toDigits, Utf8.encode_ofList, toDigits_eq,
    flatMap_digitChar fun _ => lt_ten_of_mem_digitsOf]

/-- The numeral of a whole number. -/
def ofInt (k : Int) : Numeral := ⟨k < 0, digitsOf k.natAbs, [], none⟩

theorem encode_toString (k : Int) : Utf8.encode (toString k) =
    (if k < 0 then [0x2d] else []) ++ (digitsOf k.natAbs).map digitByte := by
  rw [Int.toString_eq_repr]
  cases k with
  | ofNat n =>
      rw [if_neg (by simp)]
      exact encode_repr n
  | negSucc n =>
      rw [if_pos (Int.negSucc_lt_zero n)]
      have hminus : Utf8.encode "-" = [0x2d] := rfl
      rw [Int.repr, Utf8.encode_append, hminus, encode_repr]
      rfl

theorem toBytes_ofInt (k : Int) : (ofInt k).toBytes = Utf8.encode (toString k) := by
  rw [encode_toString, toBytes, magnitudeBytes, ofInt]
  simp [fractionBytes, exponentBytes]

theorem digitsOf_front (n : Nat) : digitsOf n = [0] ∨ (digitsOf n).head? ≠ some 0 := by
  by_cases hzero : n = 0
  · exact .inl (if_pos hzero)
  · exact .inr (head?_digitsOf hzero)

theorem wellFormed_ofInt (k : Int) : (ofInt k).WellFormed where
  whole_ne_nil := digitsOf_ne_nil _
  lt_ten_of_mem_whole _ := lt_ten_of_mem_digitsOf
  no_zero_in_front := digitsOf_front _
  lt_ten_of_mem_fraction _ h := by cases h
  exponent_ne_nil _ _ h := by cases h
  lt_ten_of_mem_exponent _ _ h := by cases h

/-- The number fits in a 64-bit word, signed or unsigned. -/
def IsWord (k : Int) : Prop := Int64.minValue.toInt ≤ k ∧ k < UInt64.size

/-- A whole number that fits in a word is read back. -/
theorem toInt?_ofInt {k : Int} (h : IsWord k) : (ofInt k).toInt? = some k := by
  obtain ⟨hlow, hhigh⟩ := h
  have hmin : Int64.minValue.toInt = -(2 ^ 63) := rfl
  have hsize : (UInt64.size : Int) = 2 ^ 64 := rfl
  have hword : maxWord = 2 ^ 64 - 1 := rfl
  have haccumulate : accumulate maxWord 0 (digitsOf k.natAbs) = (k.natAbs, []) := by
    rw [accumulate_of_le, extend_digitsOf]
    rw [extend_digitsOf]
    omega
  have hshift : 1 <<< 63 = 2 ^ 63 := rfl
  simp only [toInt?, ofInt, List.isEmpty_nil, Option.isNone_none, and_self, if_true, haccumulate,
    decide_eq_true_eq, hshift]
  by_cases hneg : k < 0
  · have habs : -(k.natAbs : Int) = k := by omega
    have hfits : 0 < k.natAbs ∧ k.natAbs ≤ 2 ^ 63 := by omega
    rw [if_neg (not_not.mpr hneg), if_pos hfits, habs]
  · have habs : (k.natAbs : Int) = k := by omega
    rw [if_pos hneg, habs]

end Numeral

end TraceLedger.Json
