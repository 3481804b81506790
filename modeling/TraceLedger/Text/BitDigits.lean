/-! # Digits of a few bits each

Texts in base 16, 32 and 64 cut the bits of a byte string into digits of equal width. The last
digit is filled up with zero bits; a reader drops them again and insists that they are fewer
than a digit and zero. -/

namespace TraceLedger.BitDigits

/-- The lowest `width` bits of a number, highest first. -/
def bitsOf : (width : Nat) → Nat → List Bool
  | 0, _ => []
  | width + 1, n => n.testBit width :: bitsOf width n

/-- The number with the given bits, highest first. -/
def ofBits (bits : List Bool) : Nat := bits.foldl (fun n b => 2 * n + b.toNat) 0

/-- Cuts bits into groups of `width`, the last one filled up with zeros. -/
def groups (width : Nat) : (count : Nat) → List Bool → List (List Bool)
  | 0, _ => []
  | count + 1, bits =>
    let group := bits.take width
    (group ++ List.replicate (width - group.length) false) :: groups width count (bits.drop width)

/-- The digits of a byte string. -/
def encode (width : Nat) (bytes : List UInt8) : List Nat :=
  let bits := bytes.flatMap fun b => bitsOf 8 b.toNat
  (groups width ((bits.length + width - 1) / width) bits).map ofBits

/-- The bytes of a digit string, if what is left after the last byte is less than a digit and
zero. -/
def decode? (width : Nat) (digits : List Nat) : Option (List UInt8) :=
  let bits := digits.flatMap (bitsOf width)
  let count := bits.length / 8
  let rest := bits.drop (8 * count)
  if rest.length < width ∧ rest.all (!·) then
    some ((groups 8 count bits).map fun group => UInt8.ofNat (ofBits group))
  else none

end TraceLedger.BitDigits
