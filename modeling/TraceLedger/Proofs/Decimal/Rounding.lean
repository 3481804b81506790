import TraceLedger.Decimal.Binary64
import Mathlib.Data.Nat.Log
import Mathlib.Order.Monotone.Basic
import Mathlib.Tactic.Ring

/-! # Rounding keeps the order

The larger of two quotients over one denominator does not round to the smaller number. So a product
that stays finite bounds all products of smaller numbers. -/

namespace TraceLedger.Binary64

/-! ## Whole quotients -/

theorem div_le_roundDiv (num den : Nat) : num / den ≤ roundDiv num den := by
  unfold roundDiv
  simp only
  split_ifs <;> omega

theorem roundDiv_le_succ (num den : Nat) : roundDiv num den ≤ num / den + 1 := by
  unfold roundDiv
  simp only
  split_ifs <;> omega

theorem roundDiv_mul (k : Nat) {den : Nat} (h : 0 < den) : roundDiv (k * den) den = k := by
  simp [roundDiv, Nat.mul_div_cancel k h, h]

theorem roundDiv_mono {num num' : Nat} (h : num ≤ num') (den : Nat) :
    roundDiv num den ≤ roundDiv num' den := by
  rcases Nat.lt_or_eq_of_le (Nat.div_le_div_right (c := den) h) with hlt | heq
  · calc
      roundDiv num den ≤ num / den + 1 := roundDiv_le_succ num den
      _ ≤ num' / den := hlt
      _ ≤ roundDiv num' den := div_le_roundDiv num' den
  · -- Over the same whole part the larger remainder rounds up if the smaller one does.
    have hmod : num % den ≤ num' % den := by
      have hnum := Nat.div_add_mod num den
      have hnum' := Nat.div_add_mod num' den
      rw [heq] at hnum
      omega
    unfold roundDiv
    simp only [heq]
    split_ifs <;> omega

/-! ## The place of the leading bit -/

/-- At its scale a quotient has no more than 53 bits before the point. -/
theorem lt_of_scaleOf (num : Nat) {den : Nat} (hden : den ≠ 0) :
    num <<< 1074 < den <<< (scaleOf num den + 53) := by
  unfold scaleOf
  simp only
  split
  next =>
    have hnum : num < 2 ^ (num.log2 + 1) := Nat.lt_log2_self
    have hlow : 2 ^ den.log2 ≤ den := Nat.log2_self_le hden
    simp only [Nat.shiftLeft_eq]
    calc
      num * 2 ^ 1074 < 2 ^ (num.log2 + 1) * 2 ^ 1074 :=
        Nat.mul_lt_mul_of_pos_right hnum (Nat.two_pow_pos _)
      _ = 2 ^ (num.log2 + 1 + 1074) := (Nat.pow_add 2 _ _).symm
      _ ≤ 2 ^ (den.log2 + (1074 + num.log2 - (den.log2 + 53) + 1 + 53)) :=
        Nat.pow_le_pow_right (by decide) (by omega)
      _ = 2 ^ den.log2 * 2 ^ (1074 + num.log2 - (den.log2 + 53) + 1 + 53) := Nat.pow_add 2 _ _
      _ ≤ den * 2 ^ (1074 + num.log2 - (den.log2 + 53) + 1 + 53) :=
        Nat.mul_le_mul_right _ hlow
  next hguess => exact Nat.lt_of_not_le hguess

/-- At its scale a quotient has 53 bits before the point, unless there is no lower one. -/
theorem le_of_scaleOf {num : Nat} (hnum : num ≠ 0) (den : Nat) :
    scaleOf num den = 0 ∨ den <<< (scaleOf num den + 52) ≤ num <<< 1074 := by
  unfold scaleOf
  simp only
  split
  next hguess => exact .inr hguess
  next =>
    by_cases hzero : 1074 + num.log2 - (den.log2 + 53) = 0
    · exact .inl hzero
    · right
      have hhigh : den < 2 ^ (den.log2 + 1) := Nat.lt_log2_self
      have hlow : 2 ^ num.log2 ≤ num := Nat.log2_self_le hnum
      simp only [Nat.shiftLeft_eq]
      calc
        den * 2 ^ (1074 + num.log2 - (den.log2 + 53) + 52)
            ≤ 2 ^ (den.log2 + 1) * 2 ^ (1074 + num.log2 - (den.log2 + 53) + 52) :=
          Nat.mul_le_mul_right _ (Nat.le_of_lt hhigh)
        _ = 2 ^ (den.log2 + 1 + (1074 + num.log2 - (den.log2 + 53) + 52)) :=
          (Nat.pow_add 2 _ _).symm
        _ = 2 ^ (num.log2 + 1074) := by congr 1; omega
        _ = 2 ^ num.log2 * 2 ^ 1074 := Nat.pow_add 2 _ _
        _ ≤ num * 2 ^ 1074 := Nat.mul_le_mul_right _ hlow

theorem scaleOf_mono {num num' : Nat} (hnum : num ≠ 0) (h : num ≤ num') {den : Nat}
    (hden : den ≠ 0) : scaleOf num den ≤ scaleOf num' den := by
  rcases le_of_scaleOf hnum den with hzero | hle
  · omega
  · have hlt := lt_of_scaleOf num' hden
    simp only [Nat.shiftLeft_eq] at hle hlt
    have hpow : den * 2 ^ (scaleOf num den + 52) < den * 2 ^ (scaleOf num' den + 53) :=
      calc
        den * 2 ^ (scaleOf num den + 52) ≤ num * 2 ^ 1074 := hle
        _ ≤ num' * 2 ^ 1074 := Nat.mul_le_mul_right _ h
        _ < den * 2 ^ (scaleOf num' den + 53) := hlt
    have hexponent := (Nat.pow_lt_pow_iff_right (by decide : 1 < 2)).mp
      (Nat.lt_of_mul_lt_mul_left hpow)
    omega

/-! ## Magnitudes -/

/-- The 63 bits of a rounded quotient, as if they could not become too many. -/
def roundedMagnitude (num den : Nat) : Nat :=
  if num = 0 then 0
  else (scaleOf num den <<< 52) + roundDiv (num <<< 1074) (den <<< scaleOf num den)

theorem round_eq (negative : Bool) (num den : Nat) :
    round negative num den =
      ofMagnitude negative (min (roundedMagnitude num den) infinityMagnitude) := by
  unfold round roundedMagnitude
  split
  · rw [Nat.min_eq_left (Nat.zero_le _)]
  · simp only
    split
    next hlt => rw [Nat.min_eq_left (Nat.le_of_lt hlt)]
    next hle => rw [Nat.min_eq_right (Nat.le_of_not_lt hle)]

theorem roundDiv_scaled_le (num : Nat) {den : Nat} (hden : den ≠ 0) :
    roundDiv (num <<< 1074) (den <<< scaleOf num den) ≤ 2 ^ 53 := by
  have hlt := lt_of_scaleOf num hden
  have hpos : 0 < den <<< scaleOf num den := by
    rw [Nat.shiftLeft_eq]
    exact Nat.mul_pos (Nat.pos_of_ne_zero hden) (Nat.two_pow_pos _)
  rw [Nat.shiftLeft_add, Nat.shiftLeft_eq _ 53, Nat.mul_comm] at hlt
  calc
    roundDiv (num <<< 1074) (den <<< scaleOf num den)
        ≤ roundDiv (2 ^ 53 * den <<< scaleOf num den) (den <<< scaleOf num den) :=
      roundDiv_mono (Nat.le_of_lt hlt) _
    _ = 2 ^ 53 := roundDiv_mul _ hpos

theorem le_roundDiv_scaled {num den : Nat} (hnum : num ≠ 0) (hden : den ≠ 0)
    (hscale : scaleOf num den ≠ 0) :
    2 ^ 52 ≤ roundDiv (num <<< 1074) (den <<< scaleOf num den) := by
  have hle := (le_of_scaleOf hnum den).resolve_left hscale
  have hpos : 0 < den <<< scaleOf num den := by
    rw [Nat.shiftLeft_eq]
    exact Nat.mul_pos (Nat.pos_of_ne_zero hden) (Nat.two_pow_pos _)
  rw [Nat.shiftLeft_add, Nat.shiftLeft_eq _ 52, Nat.mul_comm] at hle
  calc
    2 ^ 52 = roundDiv (2 ^ 52 * den <<< scaleOf num den) (den <<< scaleOf num den) :=
      (roundDiv_mul _ hpos).symm
    _ ≤ roundDiv (num <<< 1074) (den <<< scaleOf num den) := roundDiv_mono hle _

theorem roundedMagnitude_mono {num num' : Nat} (h : num ≤ num') {den : Nat} (hden : den ≠ 0) :
    roundedMagnitude num den ≤ roundedMagnitude num' den := by
  unfold roundedMagnitude
  by_cases hnum : num = 0
  · rw [if_pos hnum]
    exact Nat.zero_le _
  · have hnum' : num' ≠ 0 := by omega
    rw [if_neg hnum, if_neg hnum']
    rcases Nat.lt_or_eq_of_le (scaleOf_mono hnum h hden) with hlt | heq
    · -- One scale further up there is room for all that the lower scale can hold.
      have hhigh := roundDiv_scaled_le num hden
      have hlow := le_roundDiv_scaled hnum' hden (by omega)
      simp only [Nat.shiftLeft_eq] at hhigh hlow ⊢
      omega
    · rw [heq]
      refine Nat.add_le_add_left (roundDiv_mono ?_ _) _
      simp only [Nat.shiftLeft_eq]
      exact Nat.mul_le_mul_right _ h

/-! ## Values -/

/-- The value of a finite number without its sign, `2 ^ 1074` times too large. -/
def scaled (x : Binary64) : Nat := x.significand <<< x.scale

theorem mul_eq (negative : Bool) (x y : Binary64) :
    mul negative x y = round negative (x.scaled * y.scaled) (1 <<< 2148) := by
  unfold mul scaled
  congr 1
  simp only [Nat.shiftLeft_eq, Nat.pow_add]
  ring

section Magnitude

variable (negative : Bool) {m : Nat}

theorem toNat_bits_ofMagnitude (hm : m < 2 ^ 63) :
    (ofMagnitude negative m).bits.toNat = m + if negative then 2 ^ 63 else 0 := by
  unfold ofMagnitude
  rw [UInt64.toNat_ofNat_of_lt']
  · cases negative <;> rfl
  · cases negative <;> simp [UInt64.size]
    all_goals omega

theorem exponentField_ofMagnitude (hm : m < 2 ^ 63) :
    (ofMagnitude negative m).exponentField = m / 2 ^ 52 := by
  unfold exponentField
  rw [UInt64.toNat_shiftRight, toNat_bits_ofMagnitude negative hm, Nat.shiftRight_eq_div_pow]
  have hshift : (52 : UInt64).toNat % 64 = 52 := rfl
  rw [hshift]
  cases negative <;> simp <;> omega

theorem fraction_ofMagnitude (hm : m < 2 ^ 63) :
    (ofMagnitude negative m).fraction = m % 2 ^ 52 := by
  unfold fraction
  rw [toNat_bits_ofMagnitude negative hm, Nat.shiftLeft_eq, Nat.one_mul]
  cases negative with
  | false => rfl
  | true =>
      simp only [if_true]
      omega

theorem isInfinite_ofMagnitude_iff (hm : m ≤ infinityMagnitude) :
    (ofMagnitude negative m).isInfinite ↔ m = infinityMagnitude := by
  have hinfinity : infinityMagnitude = 2047 * 2 ^ 52 := rfl
  have hlt : m < 2 ^ 63 := by omega
  simp only [isInfinite, exponentField_ofMagnitude negative hlt,
    fraction_ofMagnitude negative hlt, decide_eq_true_eq]
  omega

end Magnitude

/-- The value of a magnitude, `2 ^ 1074` times too large. -/
def scaledMagnitude (m : Nat) : Nat :=
  if m / 2 ^ 52 = 0 then m % 2 ^ 52 else (m % 2 ^ 52 + 2 ^ 52) * 2 ^ (m / 2 ^ 52 - 1)

theorem scaled_ofMagnitude (negative : Bool) {m : Nat} (hm : m < 2 ^ 63) :
    (ofMagnitude negative m).scaled = scaledMagnitude m := by
  unfold scaled scaledMagnitude significand scale
  rw [exponentField_ofMagnitude negative hm, fraction_ofMagnitude negative hm, Nat.shiftLeft_eq]
  split
  next hzero => rw [hzero, Nat.zero_sub, Nat.pow_zero, Nat.mul_one]
  next => rw [Nat.shiftLeft_eq, Nat.one_mul]

theorem scaledMagnitude_mono : Monotone scaledMagnitude := by
  refine monotone_nat_of_le_succ fun m => ?_
  unfold scaledMagnitude
  by_cases hcarry : m % 2 ^ 52 = 2 ^ 52 - 1
  · -- The fraction is full: the next number is the next power of two.
    have hdiv : (m + 1) / 2 ^ 52 = m / 2 ^ 52 + 1 := by omega
    have hmod : (m + 1) % 2 ^ 52 = 0 := by omega
    rw [hdiv, hmod, hcarry, if_neg (Nat.succ_ne_zero _)]
    split
    next hzero =>
      rw [hzero]
      decide
    next hpos =>
      obtain ⟨e, he⟩ := Nat.exists_eq_succ_of_ne_zero hpos
      rw [he, Nat.add_sub_cancel, Nat.succ_sub_one, Nat.succ_eq_add_one, Nat.pow_succ]
      have := Nat.two_pow_pos e
      omega
  · have hdiv : (m + 1) / 2 ^ 52 = m / 2 ^ 52 := by omega
    have hmod : (m + 1) % 2 ^ 52 = m % 2 ^ 52 + 1 := by omega
    rw [hdiv, hmod]
    split
    · exact Nat.le_succ _
    · exact Nat.mul_le_mul_right _ (by omega)

theorem scaled_round_mono (negative : Bool) {num num' : Nat} (h : num ≤ num') {den : Nat}
    (hden : den ≠ 0) :
    (round negative num den).scaled ≤ (round negative num' den).scaled := by
  have hlimit : infinityMagnitude < 2 ^ 63 := by decide
  have hmono := roundedMagnitude_mono h hden
  rw [round_eq, round_eq, scaled_ofMagnitude negative (by omega),
    scaled_ofMagnitude negative (by omega)]
  exact scaledMagnitude_mono (by omega)

/-! ## Products -/

theorem isInfinite_round_iff (negative : Bool) (num den : Nat) :
    (round negative num den).isInfinite ↔ infinityMagnitude ≤ roundedMagnitude num den := by
  rw [round_eq, isInfinite_ofMagnitude_iff negative (Nat.min_le_right _ _)]
  omega

/-- A finite product bounds the products of smaller numbers, whatever their signs. -/
theorem isInfinite_mul_eq_false (negative : Bool) {x x' y y' : Binary64}
    (hx : x.scaled ≤ x'.scaled) (hy : y.scaled ≤ y'.scaled)
    (hfinite : (mul false x' y').isInfinite = false) :
    (mul negative x y).isInfinite = false := by
  rw [mul_eq, ← Bool.not_eq_true, isInfinite_round_iff, Nat.not_le] at hfinite ⊢
  have hden : 1 <<< 2148 ≠ 0 := by decide
  exact Nat.lt_of_le_of_lt (roundedMagnitude_mono (Nat.mul_le_mul hx hy) hden) hfinite

end TraceLedger.Binary64
