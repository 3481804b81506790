import TraceLedger.Decimal.Binary64

/-! # JSON numerals

A numeral without point and exponent is a whole number while it fits in a 64-bit word, signed or
unsigned. All others are fractions: of their digits as many are used as fit in a 64-bit word,
and the power of ten is applied in a second step, so that two roundings take place. -/

namespace TraceLedger.Json

/-- A numeral by its parts. -/
structure Numeral where
  negative : Bool
  /-- Digits before the point. -/
  whole : List Nat
  /-- Digits behind the point. -/
  fraction : List Nat
  /-- The exponent, if there is one: its sign and digits. -/
  exponent : Option (Bool × List Nat)
deriving DecidableEq

namespace Numeral

/-- Digits that a 64-bit word takes, and the ones left over. -/
def accumulate (limit : Nat) : (n : Nat) → List Nat → Nat × List Nat
  | n, [] => (n, [])
  | n, d :: rest =>
    if limit < 10 * n + d then (n, d :: rest) else accumulate limit (10 * n + d) rest

def maxWord : Nat := UInt64.size - 1

/-- The whole number that the numeral stands for, if it is written as one and fits. Minus zero
does not count as one. -/
def toInt? (n : Numeral) : Option Int :=
  if n.fraction.isEmpty ∧ n.exponent.isNone then
    match accumulate maxWord 0 n.whole with
    | (value, []) =>
      if ¬ n.negative then some value
      else if 0 < value ∧ value ≤ 1 <<< 63 then some (-(value : Int))
      else none
    | _ => none
  else none

/-- The power of ten nearest to `10 ^ k`. -/
def pow10 (k : Nat) : Binary64 := .round false (Nat.pow 10 k) 1

/-- The largest power of ten that is applied at once. -/
def maxPow10 : Nat := 308

/-- The largest exponent that is told apart from an endless one. -/
def maxExponent : Nat := 0x7fffffff

/-- Multiplies by a power of ten. Too large a product is refused; too small a one is zero. What
two steps of the largest power cannot reach is zero for every 64-bit significand. -/
def applyExponent (negative : Bool) (value : Binary64) (exponent : Int) : Option Binary64 :=
  if 0 ≤ exponent then
    if exponent ≤ maxPow10 then
      let product := Binary64.mul negative value (pow10 exponent.toNat)
      if product.isInfinite then none else some product
    else if value.isZero then some (.ofMagnitude negative 0) else none
  else if -exponent ≤ maxPow10 then some (.div negative value (pow10 (-exponent).toNat))
  else
    let value := Binary64.div false value (pow10 maxPow10)
    let exponent := exponent + maxPow10
    if -exponent ≤ maxPow10 then some (.div negative value (pow10 (-exponent).toNat))
    else some (.ofMagnitude negative 0)

/-- The double-precision number that the numeral stands for, if it is not too large. -/
def toBinary64? (n : Numeral) : Option Binary64 :=
  let (significand, dropped) := accumulate maxWord 0 n.whole
  let (significand, unused) := accumulate maxWord significand n.fraction
  let point := (dropped.length : Int) - (n.fraction.length - unused.length : Nat)
  let value := Binary64.round false significand 1
  match n.exponent with
  | none => applyExponent n.negative value point
  | some (down, digits) =>
    match accumulate maxExponent 0 digits with
    | (exponent, []) =>
      applyExponent n.negative value (if down then point - exponent else point + exponent)
    | _ =>
      if significand = 0 ∨ down then some (.ofMagnitude n.negative 0) else none

end Numeral
end TraceLedger.Json
