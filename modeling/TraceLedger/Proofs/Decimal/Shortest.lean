import TraceLedger.Decimal.Shortest
import Mathlib.Tactic.Ring

/-! # How large a shortest decimal can be

The shortest decimal of a number lies in the interval that rounds to the number, and so stays below
what would round to infinity. It is a zero only where no decimal was found. -/

namespace TraceLedger.Shortest

namespace Decimal

/-- The decimal is no larger than a quotient. -/
def AtMost (d : Decimal) (num den : Nat) : Prop :=
  d.digits * 10 ^ d.exponent.toNat * den ≤ num * 10 ^ (-d.exponent).toNat

theorem AtMost.mono {d : Decimal} {num num' den : Nat} (h : d.AtMost num den)
    (hle : num ≤ num') : d.AtMost num' den :=
  Nat.le_trans h (Nat.mul_le_mul_right _ hle)

theorem AtMost.cancel {d : Decimal} {num den : Nat} (h : d.AtMost (num * den) den)
    (hden : 0 < den) : d.AtMost num 1 := by
  unfold AtMost at h ⊢
  rw [Nat.mul_right_comm num] at h
  rw [Nat.mul_one]
  exact Nat.le_of_mul_le_mul_right h hden

/-- Moving a zero into the exponent does not change a decimal. -/
theorem AtMost.shift {d : Decimal} {num den : Nat} (h : d.AtMost num den)
    (hzero : d.digits % 10 = 0) : AtMost ⟨d.digits / 10, d.exponent + 1⟩ num den := by
  unfold AtMost at h ⊢
  have hdigits : d.digits = d.digits / 10 * 10 := by omega
  rcases Int.lt_or_le d.exponent 0 with hneg | hpos
  · have hdown : (-d.exponent).toNat = (-(d.exponent + 1)).toNat + 1 := by omega
    have hup : d.exponent.toNat = 0 := by omega
    have hup' : (d.exponent + 1).toNat = 0 := by omega
    rw [hdigits, hdown, hup, Nat.pow_succ] at h
    rw [hup']
    refine Nat.le_of_mul_le_mul_right ?_ (by decide : 0 < 10)
    calc
      d.digits / 10 * 10 ^ 0 * den * 10 = d.digits / 10 * 10 * 10 ^ 0 * den := by ring
      _ ≤ num * (10 ^ (-(d.exponent + 1)).toNat * 10) := h
      _ = num * 10 ^ (-(d.exponent + 1)).toNat * 10 := by ring
  · have hdown : (-d.exponent).toNat = (-(d.exponent + 1)).toNat := by omega
    have hup : (d.exponent + 1).toNat = d.exponent.toNat + 1 := by omega
    rw [hdigits, hdown] at h
    rw [hup, Nat.pow_succ]
    calc
      d.digits / 10 * (10 ^ d.exponent.toNat * 10) * den =
          d.digits / 10 * 10 * 10 ^ d.exponent.toNat * den := by ring
      _ ≤ num * 10 ^ (-(d.exponent + 1)).toNat := h

/-- Only the plain zero has no digits. -/
def IsProper (d : Decimal) : Prop := d.digits = 0 → d.exponent = 0

end Decimal

open Shortest.Decimal

/-! ## The interval -/

namespace Interval

theorem contains_of_whole? {i : Interval} {n : Nat} (h : i.whole? = some n) :
    i.contains n = true := by
  unfold whole? at h
  simp only at h
  split at h
  next => cases h
  next hdown _ =>
    cases h
    exact hdown
  next _ hup =>
    cases h
    exact hup
  next hdown hup =>
    split_ifs at h <;> cases h <;> assumption

theorem le_of_contains {i : Interval} {n : Nat} (h : i.contains n = true) :
    i.low ≤ n * i.den ∧ n * i.den ≤ i.high := by
  unfold contains at h
  split at h
  · simpa using h
  · have hstrict : i.low < n * i.den ∧ n * i.den < i.high := by simpa using h
    exact ⟨Nat.le_of_lt hstrict.1, Nat.le_of_lt hstrict.2⟩

/-- A whole number in the scaled interval is a decimal in the interval itself. -/
theorem atMost_of_whole? {i : Interval} {n : Nat} {e : Int}
    (h : (i.scale (-e)).whole? = some n) : AtMost ⟨n, e⟩ i.high i.den := by
  have hle := (le_of_contains (contains_of_whole? h)).2
  simp only [scale, Int.neg_neg] at hle
  unfold AtMost
  calc
    n * 10 ^ e.toNat * i.den = n * (i.den * 10 ^ e.toNat) := by ring
    _ ≤ i.high * 10 ^ (-e).toNat := hle

theorem ne_zero_of_whole? {i : Interval} (hlow : i.low ≠ 0) {n : Nat} {e : Int}
    (h : (i.scale e).whole? = some n) : n ≠ 0 := by
  rintro rfl
  have hle := (le_of_contains (contains_of_whole? h)).1
  have hpow : 0 < Nat.pow 10 e.toNat := Nat.pow_pos (by decide)
  have hpos : 0 < i.low * Nat.pow 10 e.toNat := Nat.mul_pos (Nat.pos_of_ne_zero hlow) hpow
  simp only [scale, Nat.zero_mul] at hle
  omega

end Interval

/-! ## The search -/

theorem search_spec {i : Interval} (hlow : i.low ≠ 0) (first : Int) (fuel length : Nat) :
    (search i first fuel length).AtMost i.high i.den ∧ (search i first fuel length).IsProper := by
  induction fuel generalizing length with
  | zero => simp [search, AtMost, IsProper]
  | succ fuel ih =>
      rw [search]
      split
      next n hwhole =>
        refine ⟨Interval.atMost_of_whole? hwhole, fun hzero => ?_⟩
        exact (Interval.ne_zero_of_whole? hlow hwhole hzero).elim
      next => exact ih (length + 1)

theorem trim_spec (fuel : Nat) {d : Decimal} {num den : Nat} (h : d.AtMost num den)
    (hproper : d.IsProper) : (trim fuel d).AtMost num den ∧ (trim fuel d).IsProper := by
  induction fuel generalizing d with
  | zero => exact ⟨h, hproper⟩
  | succ fuel ih =>
      rw [trim]
      split
      next hzero =>
        refine ih (AtMost.shift h hzero.1) fun hdigits => ?_
        have : d.digits / 10 = 0 := hdigits
        omega
      next => exact ⟨h, hproper⟩

/-! ## Double-precision numbers -/

/-- What the shortest decimals of all but the largest numbers stay below: the border between the
two numbers in front of the largest one. -/
def bound : Nat := 2 ^ 1024 - 3 * 2 ^ 970

section Binary64

variable {x : Binary64}

theorem low_ofBinary64_ne_zero (h : x.significand ≠ 0) : (Interval.ofBinary64 x).low ≠ 0 := by
  unfold Interval.ofBinary64
  simp only [Nat.shiftLeft_eq]
  refine Nat.mul_ne_zero ?_ (Nat.pos_iff_ne_zero.mp (Nat.two_pow_pos _))
  split <;> omega

theorem fraction_lt (x : Binary64) : x.fraction < 2 ^ 52 := by
  unfold Binary64.fraction
  exact Nat.mod_lt _ (by decide)

theorem exponentField_lt (x : Binary64) : x.exponentField < 2048 := Nat.mod_lt _ (by decide)

/-- The number is the largest finite one, or its negative. -/
def IsLargest (x : Binary64) : Prop := x.exponentField = 2046 ∧ x.fraction = 2 ^ 52 - 1

theorem high_ofBinary64_le (hfinite : x.isFinite = true) (hlargest : ¬ IsLargest x) :
    (Interval.ofBinary64 x).high ≤ (2 ^ 55 - 6) * 2 ^ 2045 := by
  have hfield := exponentField_lt x
  have hfraction := fraction_lt x
  have hne : x.exponentField ≠ 2047 := of_decide_eq_true hfinite
  have hhigh : (Interval.ofBinary64 x).high = (4 * x.significand + 2) * 2 ^ x.scale :=
    Nat.shiftLeft_eq _ _
  rw [hhigh]
  by_cases htop : x.exponentField = 2046
  · have hlt : x.fraction ≠ 2 ^ 52 - 1 := fun hmax => hlargest ⟨htop, hmax⟩
    have hscale : x.scale = 2045 := by rw [Binary64.scale, htop]
    have hsignificand : x.significand = x.fraction + 2 ^ 52 := by
      rw [Binary64.significand, htop]
      rfl
    have hle : 4 * (x.fraction + 2 ^ 52) + 2 ≤ 2 ^ 55 - 6 := by omega
    rw [hscale, hsignificand]
    exact Nat.mul_le_mul_right (2 ^ 2045) hle
  · have hsignificand : x.significand < 2 ^ 53 := by
      unfold Binary64.significand
      split <;> omega
    have hleft : 4 * x.significand + 2 ≤ 2 ^ 55 - 2 := by omega
    have hscale : x.scale ≤ 2044 := by
      rw [Binary64.scale]
      omega
    have hpow := Nat.pow_le_pow_right Nat.zero_lt_two hscale
    calc
      (4 * x.significand + 2) * 2 ^ x.scale ≤ (2 ^ 55 - 2) * 2 ^ 2044 :=
        Nat.mul_le_mul hleft hpow
      _ ≤ (2 ^ 55 - 6) * 2 ^ 2045 := by decide +kernel

/-- The shortest decimal of the largest number. -/
theorem ofBinary64_of_isLargest (h : IsLargest x) : ofBinary64 x = ⟨17976931348623157, 292⟩ := by
  have hinterval : Interval.ofBinary64 x =
      ⟨(2 ^ 55 - 6) <<< 2045, (2 ^ 55 - 4) <<< 2045, (2 ^ 55 - 2) <<< 2045, 4 <<< 1074, false⟩ := by
    simp only [Interval.ofBinary64, Binary64.significand, Binary64.scale, h.1, h.2]
    rfl
  unfold ofBinary64
  rw [hinterval]
  decide +kernel

/-- The shortest decimal of a finite number is no larger than the bound, unless the number is the
largest one. -/
theorem ofBinary64_spec (hfinite : x.isFinite = true) (hlargest : ¬ IsLargest x)
    (hzero : x.significand ≠ 0) :
    (ofBinary64 x).AtMost bound 1 ∧ (ofBinary64 x).IsProper := by
  have hsearch := search_spec (low_ofBinary64_ne_zero hzero)
    (leading (Interval.ofBinary64 x).value (Interval.ofBinary64 x).den) maxDigits 0
  obtain ⟨hmost, hproper⟩ := trim_spec maxDigits hsearch.1 hsearch.2
  have hscale : (2 ^ 55 - 6) * 2 ^ 2045 ≤ bound * 4 <<< 1074 := by decide +kernel
  have hpos : 0 < 4 <<< 1074 := by decide +kernel
  exact ⟨(hmost.mono (Nat.le_trans (high_ofBinary64_le hfinite hlargest) hscale)).cancel hpos,
    hproper⟩

end Binary64

end TraceLedger.Shortest
