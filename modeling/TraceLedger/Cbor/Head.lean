import TraceLedger.Wire.BigEndian
import TraceLedger.Wire.Octets

/-! # Heads of CBOR items

Every item starts with a head: three bits for its kind and an argument, which is its value or
its length. The writer takes the fewest bytes that hold the argument. -/

namespace TraceLedger.Cbor

/-- The kinds of items whose head carries an argument. -/
inductive Kind where
  | unsigned
  | negative
  | bytes
  | text
  | list
  | map
  | tag
deriving DecidableEq

namespace Kind

/-- The number in the three highest bits of a head. -/
def code : Kind → UInt8
  | unsigned => 0
  | negative => 1
  | bytes => 2
  | text => 3
  | list => 4
  | map => 5
  | tag => 6

/-- The bits of the kind, in their place. -/
def mask (kind : Kind) : UInt8 := kind.code <<< 5

/-- The head of an item whose length is not told beforehand. -/
def openHead (kind : Kind) : UInt8 := kind.mask ||| 0x1f

end Kind

/-- Ends an item whose length was not told. -/
def breakByte : UInt8 := 0xff

/-- The head with the shortest argument. -/
def head (kind : Kind) (n : UInt64) : List UInt8 :=
  if n < 24 then [kind.mask ||| n.toUInt8]
  else if n < 0x100 then (kind.mask ||| 24) :: BigEndian.fixed 1 n.toNat
  else if n < 0x10000 then (kind.mask ||| 25) :: BigEndian.fixed 2 n.toNat
  else if n < 0x100000000 then (kind.mask ||| 26) :: BigEndian.fixed 4 n.toNat
  else (kind.mask ||| 27) :: BigEndian.fixed 8 n.toNat

/-- The head of an item of the given length, unless no head can hold it. -/
def sizedHead? (kind : Kind) (size : Nat) : Option (List UInt8) :=
  if size < UInt64.size then some (head kind (UInt64.ofNat size)) else none

/-- Takes a big-endian number of `width` bytes off the input. -/
def number? (width : Nat) (input : List UInt8) : Option (UInt64 × List UInt8) :=
  (Octets.take? width input).map fun (bytes, rest) =>
    (UInt64.ofNat (BigEndian.decode bytes), rest)

/-- The argument that the five low bits of a head announce. -/
def argument? (low : UInt8) (input : List UInt8) : Option (UInt64 × List UInt8) :=
  if low < 24 then some (low.toUInt64, input)
  else if low = 24 then number? 1 input
  else if low = 25 then number? 2 input
  else if low = 26 then number? 4 input
  else if low = 27 then number? 8 input
  else none

end TraceLedger.Cbor
