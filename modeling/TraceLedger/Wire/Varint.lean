/-! # Unsigned varints

Seven bits to a byte, lowest first; every byte but the last has its high bit set. A varint
holds a 64-bit number in at most ten bytes, and no shorter form of it may exist. -/

namespace TraceLedger.Varint

/-- The shortest form of a number. -/
def encodeNat (n : Nat) : List UInt8 :=
  if n < 128 then [UInt8.ofNat n] else UInt8.ofNat (n % 128 + 128) :: encodeNat (n / 128)
termination_by n

def encode (n : UInt64) : List UInt8 := encodeNat n.toNat

/-- Reads one byte and at most `more` after it. Bytes that only add zeros are refused. -/
def readNat (more : Nat) : List UInt8 → Option (Nat × List UInt8)
  | [] => none
  | b :: rest =>
    if b.toNat < 128 then some (b.toNat, rest)
    else match more with
      | 0 => none
      | more + 1 => match readNat more rest with
        | some (n, rest) => if n = 0 then none else some (b.toNat % 128 + 128 * n, rest)
        | none => none

/-- Reads a varint of up to ten bytes. What the tenth byte holds beyond 64 bits is dropped. -/
def read (bytes : List UInt8) : Option (UInt64 × List UInt8) :=
  match readNat 9 bytes with
  | some (n, rest) => some (UInt64.ofNat n, rest)
  | none => none

end TraceLedger.Varint
