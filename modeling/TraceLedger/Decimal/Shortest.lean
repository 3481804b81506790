import TraceLedger.Decimal.Binary64

/-! # The shortest decimal of a double-precision number

Of the decimals that are nearer to a number than to any other, those with the fewest digits are
taken, and of these the nearest. All comparisons are of whole numbers: everything is multiplied
by four, so that the borders between neighbours are whole too. -/

namespace TraceLedger.Shortest

/-- The decimal `digits · 10 ^ exponent`. -/
structure Decimal where
  digits : Nat
  exponent : Int
deriving DecidableEq

/-- A quotient of whole numbers and the borders of the interval that rounds to it, over one
denominator. -/
structure Interval where
  low : Nat
  value : Nat
  high : Nat
  den : Nat
  /-- Whether the borders themselves round to the value. -/
  closed : Bool

/-- The interval of a finite number. Below a power of two the neighbour is half as far. -/
def Interval.ofBinary64 (x : Binary64) : Interval :=
  let m := 4 * x.significand
  let below := if x.fraction = 0 ∧ 1 < x.exponentField then 1 else 2
  ⟨(m - below) <<< x.scale, m <<< x.scale, (m + 2) <<< x.scale, 4 <<< 1074, x.significand % 2 = 0⟩

/-- The interval multiplied by a power of ten. -/
def Interval.scale (i : Interval) (exponent : Int) : Interval :=
  let up := Nat.pow 10 exponent.toNat
  let down := Nat.pow 10 (-exponent).toNat
  ⟨i.low * up, i.value * up, i.high * up, i.den * down, i.closed⟩

/-- Whether a whole number lies in the interval. -/
def Interval.contains (i : Interval) (n : Nat) : Bool :=
  if i.closed then i.low ≤ n * i.den && n * i.den ≤ i.high
  else i.low < n * i.den && n * i.den < i.high

/-- Of the two whole numbers beside the value, the one in the interval, or the nearer of both;
at an equal distance the even one. -/
def Interval.whole? (i : Interval) : Option Nat :=
  let down := i.value / i.den
  let up := down + 1
  match i.contains down, i.contains up with
  | false, false => none
  | true, false => some down
  | false, true => some up
  | true, true =>
    let twice := 2 * (i.value - down * i.den)
    if twice < i.den then some down
    else if i.den < twice then some up
    else if down % 2 = 0 then some down else some up

/-- Number of decimal digits; zero has none. -/
def digitCount (n : Nat) : Nat := if n = 0 then 0 else (Nat.toDigits 10 n).length

/-- The exponent of the first digit of a positive quotient. -/
def leading (num den : Nat) : Int :=
  if den ≤ num then (digitCount (num / den) : Int) - 1
  else -(digitCount ((den + num - 1) / num - 1) : Int)

/-- Tries longer and longer decimals, from exponent `first` on. -/
def search (i : Interval) (first : Int) : (fuel : Nat) → (length : Nat) → Decimal
  | 0, _ => ⟨0, 0⟩
  | fuel + 1, length =>
    let exponent := first - length
    match (i.scale (-exponent)).whole? with
    | some n => ⟨n, exponent⟩
    | none => search i first fuel (length + 1)

/-- Moves zeros at the end of the digits into the exponent. -/
def trim : (fuel : Nat) → Decimal → Decimal
  | 0, d => d
  | fuel + 1, d =>
    if d.digits % 10 = 0 ∧ d.digits ≠ 0 then trim fuel ⟨d.digits / 10, d.exponent + 1⟩ else d

/-- Digits that always suffice. -/
def maxDigits : Nat := 17

/-- The shortest decimal of the magnitude of a finite number other than zero. -/
def ofBinary64 (x : Binary64) : Decimal :=
  let i := Interval.ofBinary64 x
  trim maxDigits (search i (leading i.value i.den) maxDigits 0)

/-- Writes a decimal. Up to sixteen places before the point and up to five after it there is no
exponent, and a whole number keeps one zero after the point. -/
def Decimal.toText (d : Decimal) : String :=
  let digits := toString d.digits
  let point := (digits.length : Int) + d.exponent
  let zeros (n : Int) := String.ofList (List.replicate n.toNat '0')
  if 0 ≤ d.exponent ∧ point ≤ 16 then digits ++ zeros d.exponent ++ ".0"
  else if 0 < point ∧ point ≤ 16 then
    String.ofList (digits.toList.take point.toNat) ++ "." ++
      String.ofList (digits.toList.drop point.toNat)
  else if -5 < point ∧ point ≤ 0 then "0." ++ zeros (-point) ++ digits
  else
    let fraction := digits.toList.drop 1
    String.ofList (digits.toList.take 1) ++
      (if fraction.isEmpty then "" else "." ++ String.ofList fraction) ++
      "e" ++ toString (point - 1)

/-- The text of a finite number. -/
def toText (x : Binary64) : String :=
  (if x.negative then "-" else "") ++
    if x.significand = 0 then "0.0" else (ofBinary64 x).toText

end TraceLedger.Shortest
