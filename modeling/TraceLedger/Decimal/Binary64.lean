/-! # Double-precision numbers

A number is kept as its 64 bits: a sign, eleven bits of exponent and 52 bits of fraction.
Arithmetic is exact on natural numbers, and `round` is the one place where precision is lost. -/

namespace TraceLedger

/-- A double-precision number. -/
structure Binary64 where
  bits : UInt64
deriving DecidableEq

namespace Binary64

def negative (x : Binary64) : Bool := x.bits >>> 63 = 1

def exponentField (x : Binary64) : Nat := (x.bits >>> 52).toNat % 2048

def fraction (x : Binary64) : Nat := x.bits.toNat % (1 <<< 52)

def isFinite (x : Binary64) : Bool := x.exponentField ≠ 2047

def isInfinite (x : Binary64) : Bool := x.exponentField = 2047 ∧ x.fraction = 0

/-- A finite number is its significand times a power of two. -/
def significand (x : Binary64) : Nat :=
  if x.exponentField = 0 then x.fraction else x.fraction + (1 <<< 52)

/-- The power of two, 1074 too high, so that it is never negative. -/
def scale (x : Binary64) : Nat := x.exponentField - 1

def isZero (x : Binary64) : Bool := x.isFinite ∧ x.significand = 0

/-- The number with a given sign and the other 63 bits. -/
def ofMagnitude (negative : Bool) (magnitude : Nat) : Binary64 :=
  ⟨UInt64.ofNat (magnitude + if negative then (1 <<< 63) else 0)⟩

/-- The 63 bits of infinity. -/
def infinityMagnitude : Nat := 2047 <<< 52

/-- A quotient rounded to the nearest whole number, and to the even one of two. -/
def roundDiv (num den : Nat) : Nat :=
  let whole := num / den
  let twice := 2 * (num % den)
  if twice < den then whole
  else if den < twice then whole + 1
  else if whole % 2 = 0 then whole else whole + 1

/-- The power of two, 1074 too high, at which `num / den` has 53 bits before the point, or the
lowest one. -/
def scaleOf (num den : Nat) : Nat :=
  let guess := (1074 + num.log2) - (den.log2 + 53)
  if den <<< (guess + 53) ≤ num <<< 1074 then guess + 1 else guess

/-- The number nearest to a quotient; too large ones become infinite. -/
def round (negative : Bool) (num den : Nat) : Binary64 :=
  if num = 0 then ofMagnitude negative 0
  else
    let scale := scaleOf num den
    let magnitude := (scale <<< 52) + roundDiv (num <<< 1074) (den <<< scale)
    ofMagnitude negative (if magnitude < infinityMagnitude then magnitude else infinityMagnitude)

/-- The same number in single precision, widened. -/
def ofBinary32 (bits : UInt32) : Binary64 :=
  let n := bits.toNat
  let negative := (1 <<< 31) ≤ n
  let exponent := (n >>> 23) % 256
  let fraction := n % (1 <<< 23)
  if exponent = 255 then ofMagnitude negative (infinityMagnitude + (fraction <<< 29))
  else if exponent = 0 then round negative fraction (1 <<< 149)
  else round negative ((fraction + (1 <<< 23)) <<< (exponent - 1)) (1 <<< 149)

/-- The exact product of two finite magnitudes, rounded. -/
def mul (negative : Bool) (x y : Binary64) : Binary64 :=
  round negative ((x.significand * y.significand) <<< (x.scale + y.scale)) (1 <<< 2148)

/-- The exact quotient of two finite magnitudes, rounded. -/
def div (negative : Bool) (x y : Binary64) : Binary64 :=
  round negative (x.significand <<< x.scale) (y.significand <<< y.scale)

end Binary64
end TraceLedger
